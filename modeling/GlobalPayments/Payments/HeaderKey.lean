/-
# GlobalPayments.Payments.HeaderKey — an idempotency key in the header or in the body.

The controller accepts the key in two places.  A key in the body is part of the DTO that `@Valid`
checks; a key in the header is merged into the DTO after that check.

`key_places_agree_iff`: the two places lead to the same answer and the same state exactly for the keys
that the constraint on the body admits.  A longer key is refused in the body, and found too long in
the header only by the column it does not fit, when the counter has moved and the event is out.
-/
import GlobalPayments.Payments.Controller
import GlobalPayments.Payments.Transactions

namespace GlobalPayments.Payments

/-! ## A create call on its own -/

/-- Take the step if it is enabled. -/
def Sys.attempt (s : Sys) (a : Action) : Sys := (step s a).getD s

/-- Where and when a create call runs, and what it reads from outside. -/
structure CallContext where
  tx : TxId
  server : ServerId
  env : Surroundings
  delivered : Bool
  committedAt : Instant

/-- The steps of a create call; one that found the payment has nothing to do after the first. -/
def CallContext.steps (c : CallContext) (request : CreatePaymentRequest) : List Action :=
  [.createPayment c.tx c.server request, .persistAndPublish c.tx c.env c.delivered,
    .commit c.tx c.committedAt]

/-- What the controller gets from a transaction that has ended. -/
def Tx.result (tx : Tx) : Except JavaException PaymentResponse :=
  match tx.phase with
  | .ended (.returned (some response)) => .ok response
  | .ended (.raised e) => .error (.service e)
  | _ => .error (.service .transactionAborted)

/-- `paymentService.createPayment(request)`, run to its end. -/
def CallContext.createPayment (c : CallContext) (request : CreatePaymentRequest) (s : Sys) :
    Except JavaException PaymentResponse × Sys :=
  let s' := (c.steps request).foldl Sys.attempt s
  ((s'.txs c.tx).result, s')

/-- The service with this create call; its other methods are whatever they are. -/
def PaymentService.creating (c : CallContext) (others : PaymentService Sys) : PaymentService Sys :=
  { others with createPayment := c.createPayment }

/-! ## It comes to its end -/

theorem Sys.attempt_of_step {s s' : Sys} {a : Action} (h : step s a = some s') : s.attempt a = s' := by
  unfold Sys.attempt
  rw [h]
  rfl

/-- A transaction that has ended takes no further step. -/
theorem Sys.attempt_of_ended {s : Sys} {a : Action} {outcome : Outcome}
    (h : (s.txs a.tx).phase = .ended outcome) : s.attempt a = s := by
  have hnone : step s a = none := by
    cases a <;> simp only [Action.tx] at h <;> simp only [step, h]
  unfold Sys.attempt
  rw [hnone]
  rfl

/-- After its first step a create call has found the payment, or is about to persist one. -/
theorem Tx.createPayment_phase (table : List Payment) (i : ServerId) (request : CreatePaymentRequest) :
    (∃ outcome, (Tx.createPayment table i request).phase = .ended outcome) ∨
      (Tx.createPayment table i request).phase = .persisting request := by
  unfold Tx.createPayment
  dsimp only
  split
  · exact Or.inr rfl
  · split
    · exact Or.inl ⟨_, rfl⟩
    · exact Or.inr rfl

/-- What persisting leaves is ended by the commit, if it has not ended already. -/
theorem Sys.commit_ends {s : Sys} {t : TxId} {now : Instant}
    (h : (∃ outcome, (s.txs t).phase = .ended outcome) ∨
      ∃ response, (s.txs t).phase = .flushing response) :
    ∃ outcome, ((s.attempt (.commit t now)).txs t).phase = .ended outcome := by
  rcases h with ⟨outcome, hended⟩ | ⟨response, hflushing⟩
  · rw [Sys.attempt_of_ended (a := .commit t now) hended]
    exact ⟨outcome, hended⟩
  · have hstep : step s (.commit t now) = some (s.commitTx t now response) := by
      simp only [step, hflushing]
    rw [Sys.attempt_of_step hstep]
    unfold Sys.commitTx
    split
    · exact ⟨_, by rw [Sys.setTx_txs_self]; rfl⟩
    · exact ⟨_, by rw [Sys.setTx_txs_self]; rfl⟩

/-- **A create call comes to its end**: a transaction that was idle has ended after its steps. -/
theorem CallContext.ends (c : CallContext) (request : CreatePaymentRequest) {s : Sys}
    (hidle : (s.txs c.tx).phase = .idle) :
    ∃ outcome, (((c.steps request).foldl Sys.attempt s).txs c.tx).phase = .ended outcome := by
  have hcreate : step s (.createPayment c.tx c.server request) =
      some (s.setTx c.tx (.createPayment s.db.table c.server request)) := by
    simp only [step, hidle]
  show ∃ outcome, ((((s.attempt _).attempt _).attempt (.commit c.tx c.committedAt)).txs c.tx).phase =
    .ended outcome
  rw [Sys.attempt_of_step hcreate]
  apply Sys.commit_ends
  generalize hs : s.setTx c.tx (.createPayment s.db.table c.server request) = s₁
  have hphase : (s₁.txs c.tx).phase = (Tx.createPayment s.db.table c.server request).phase := by
    rw [← hs, Sys.setTx_txs_self]
  rcases Tx.createPayment_phase s.db.table c.server request with ⟨outcome, hended⟩ | hpersisting
  · rw [hended] at hphase
    rw [Sys.attempt_of_ended (a := .persistAndPublish c.tx c.env c.delivered) hphase]
    exact Or.inl ⟨outcome, hphase⟩
  · rw [hpersisting] at hphase
    cases hprepare : preparePayment request (s₁.servers (s₁.txs c.tx).server).sequence c.env with
    | error e =>
        have hstep : step s₁ (.persistAndPublish c.tx c.env c.delivered) =
            some (s₁.setTx c.tx ((s₁.txs c.tx).finish (.raised e))) := by
          simp only [step, hphase, hprepare]
        rw [Sys.attempt_of_step hstep, Sys.setTx_txs_self]
        exact Or.inl ⟨.raised e, rfl⟩
    | ok prepared =>
        obtain ⟨payment, sequence⟩ := prepared
        right
        refine ⟨some (toResponse payment), ?_⟩
        unfold Sys.attempt
        simp only [step, hphase, hprepare, Option.getD_some, Sys.advance, Function.update_self]
        rfl

/-! ## The two places -/

/-- What the service raises is never answered as a validation error. -/
theorem handle_service_ne (e : ServiceException) (errors : List FieldError) :
    (JavaException.service e).handle ≠ handleValidation errors := by
  intro h
  have hstatus := congrArg (fun answer => answer.toErrorResponse.status) h
  simp only [handle_service] at hstatus
  cases e <;> cases hstatus

theorem Tx.result_error {tx : Tx} {e : JavaException} (h : tx.result = .error e) :
    ∃ x, e = .service x := by
  unfold Tx.result at h
  split at h
  · cases h
  · exact ⟨_, (Except.error.inj h).symm⟩
  · exact ⟨_, (Except.error.inj h).symm⟩

/-- A valid request stays valid with exactly the keys of up to 64 characters. -/
theorem CreatePaymentRequest.valid_withKey {r : CreatePaymentRequest} (h : r.valid = true)
    (k : String) : ({ r with idempotencyKey := some k } : CreatePaymentRequest).valid = true ↔
      javaLength k ≤ 64 := by
  simp only [valid, Bool.and_eq_true] at h
  simp only [valid, Bool.and_eq_true, sizeOpt_some]
  rw [and_iff_right h.1]
  simp [size]

section Places

variable (readers : Readers) (others : PaymentService Sys) (c : CallContext)
variable (authentication : Authentication) (s : Sys) {r : CreatePaymentRequest} {body : String}

/-- A key in the header is not validated: whatever it is, it does not lead to a validation error. -/
theorem respond_header_ne (k : String) (hbody : readers.createPaymentRequest body = some r.toBody)
    (hvalid : r.valid = true) (errors : List FieldError) :
    (respond readers (others.creating c) authentication (.createPayment body (some k)) s).1 ≠
      .failure (handleValidation errors) := by
  have hresolve := Readers.resolve_valid (some k) hbody hvalid
  by_cases hpermits :
      (HandlerRequest.createPayment body (some k)).endpoint.permits authentication = true
  · cases hinvoke : PaymentController.invoke (others.creating c) (.createPayment r (some k)) s with
    | mk result s' =>
        cases result with
        | ok payload =>
            rw [respond_returned hresolve hpermits hinvoke]
            exact nofun
        | error e =>
            rw [respond_raised hresolve hpermits hinvoke]
            have hresult : ((c.createPayment (enriched r (some k)) s).1.map Payload.payment) =
                .error e := congrArg Prod.fst hinvoke
            cases hcall : (c.createPayment (enriched r (some k)) s).1 with
            | ok response =>
                rw [hcall] at hresult
                cases hresult
            | error e' =>
                rw [hcall] at hresult
                obtain rfl := Except.error.inj hresult
                obtain ⟨x, rfl⟩ := Tx.result_error hcall
                exact fun h => handle_service_ne x errors (HttpAnswer.failure.inj h)
  · rw [respond_denied hresolve hpermits]
    intro h
    cases congrArg (fun answer => answer.toErrorResponse.status) (HttpAnswer.failure.inj h)

end Places

/-- **When the place of the key does not matter.**  A valid create request with key `k` in the header,
and the same request with `k` in the body, get the same answer and leave the same state exactly when
`k` has at most 64 characters. -/
theorem key_places_agree_iff (readers : Readers) (others : PaymentService Sys) (c : CallContext)
    (authentication : Authentication) (s : Sys) {b : CreatePaymentBody} (k : String)
    {body bodyWithKey : String} (hbody : readers.createPaymentRequest body = some b)
    (hkeyed : readers.createPaymentRequest bodyWithKey = some { b with idempotencyKey := some k })
    (hvalid : b.fieldErrors = []) :
    respond readers (others.creating c) authentication (.createPayment body (some k)) s =
        respond readers (others.creating c) authentication (.createPayment bodyWithKey none) s ↔
      javaLength k ≤ 64 := by
  obtain ⟨r, rfl, hr⟩ := b.fieldErrors_eq_nil_iff.mp hvalid
  have hkeyed' : readers.createPaymentRequest bodyWithKey =
      some ({ r with idempotencyKey := some k } : CreatePaymentRequest).toBody := hkeyed
  rw [← CreatePaymentRequest.valid_withKey hr k]
  generalize hr' : ({ r with idempotencyKey := some k } : CreatePaymentRequest) = r' at hkeyed' ⊢
  constructor
  · intro hagree
    by_contra hinvalid
    have herrors : r'.toBody.fieldErrors ≠ [] := by
      rwa [Ne, CreatePaymentRequest.fieldErrors_toBody]
    rw [respond_unresolved (Readers.resolve_invalid none hkeyed' herrors)] at hagree
    exact respond_header_ne readers others c authentication s k hbody hr _ (congrArg Prod.fst hagree)
  · intro hvalid'
    have hheader := Readers.resolve_valid (some k) hbody hr
    have hplain := Readers.resolve_valid none hkeyed' hvalid'
    have hsame : PaymentController.invoke (others.creating c) (.createPayment r (some k)) s =
        PaymentController.invoke (others.creating c) (.createPayment r' none) s := by
      rw [← hr']
      rfl
    unfold respond
    rw [hheader, hplain]
    dsimp only
    rw [hsame]
    rfl

/-! ## A key of 65 characters -/

/-- The members of a create request, as a client sends them. -/
def sampleMembers : String :=
  "\"senderAccountId\": \"GB29NWBK60161331926819\", " ++
    "\"receiverAccountId\": \"GB94BARC10201530093459\", \"receiverBankCode\": \"BARCGB22\", " ++
    "\"amount\": 1000.00, \"currency\": \"GBP\", \"paymentType\": \"DOMESTIC\", " ++
    "\"description\": \"Invoice\""

/-- The body with them, and with a key. -/
def sampleText : Option String → String
  | none => "\x7b" ++ sampleMembers ++ "\x7d"
  | some key => "\x7b" ++ sampleMembers ++ (", \"idempotencyKey\": \"" ++ key ++ "\"") ++ "\x7d"

theorem sampleText_ne (k : String) : sampleText (some k) ≠ sampleText none := by
  intro h
  have hlength := congrArg String.length h
  simp only [sampleText, String.length_append] at hlength
  have hquote : "\"".length = 1 := rfl
  omega

/-- Readers that read the sample without a key and with the key `k`. -/
def keyReaders (k : String) : Readers where
  uuid _ := none
  int _ := none
  createPaymentRequest body :=
    if body = sampleText none then some (sampleRequest none).toBody
    else if body = sampleText (some k) then some (sampleRequest (some k)).toBody
    else none
  updateStatusRequest _ := none

theorem keyReaders_plain (k : String) :
    (keyReaders k).createPaymentRequest (sampleText none) = some (sampleRequest none).toBody := by
  unfold keyReaders
  dsimp only
  rw [if_pos rfl]

theorem keyReaders_keyed (k : String) :
    (keyReaders k).createPaymentRequest (sampleText (some k)) =
      some (sampleRequest (some k)).toBody := by
  unfold keyReaders
  dsimp only
  rw [if_neg (sampleText_ne k), if_pos rfl]

def initiator : Authentication := ⟨"u-17", ["ROLE_PAYMENT_INITIATOR"]⟩

def firstCall : CallContext := ⟨0, 0, sampleSurroundings 7, true, 1⟩

def otherMethods : PaymentService Sys where
  createPayment _ s := (.error (.service .dataIntegrityViolation), s)
  getPaymentById _ s := (.error (.service (.paymentNotFound "Payment not found")), s)
  getPaymentByReference _ s := (.error (.service (.paymentNotFound "Payment not found")), s)
  getPaymentsBySender _ pageRequest s := (getPaymentsBySender s.db.table pageRequest, s)
  updateStatus _ _ s := (.error (.service (.paymentNotFound "Payment not found")), s)

/-- A key of seven characters: in either place the payment is created with it. -/
theorem key_places_agree_short :
    javaLength "order-1" = 7 ∧
    (respond (keyReaders "order-1") (otherMethods.creating firstCall) initiator
      (.createPayment (sampleText none) (some "order-1")) (Sys.start [])).1.status = 201 ∧
    (respond (keyReaders "order-1") (otherMethods.creating firstCall) initiator
      (.createPayment (sampleText none) (some "order-1")) (Sys.start [])).2.db.table.map
        (·.idempotencyKey) = [some "order-1"] ∧
    respond (keyReaders "order-1") (otherMethods.creating firstCall) initiator
        (.createPayment (sampleText none) (some "order-1")) (Sys.start []) =
      respond (keyReaders "order-1") (otherMethods.creating firstCall) initiator
        (.createPayment (sampleText (some "order-1")) none) (Sys.start []) := by
  refine ⟨by decide, by decide +kernel, by decide +kernel, ?_⟩
  exact (key_places_agree_iff (keyReaders "order-1") otherMethods firstCall initiator (Sys.start [])
    "order-1" (keyReaders_plain _) (keyReaders_keyed _) (by decide +kernel)).mpr (by decide)

/-- A key of 65 characters. -/
def longKey : String := String.ofList (List.replicate 65 'k')

/-- In the body the long key is refused and nothing has happened; in the header it ends in an internal
error, with the reference drawn and the event out. -/
theorem key_places_differ :
    (∃ errors, respond (keyReaders longKey) (otherMethods.creating firstCall) initiator
        (.createPayment (sampleText (some longKey)) none) (Sys.start []) =
          (.failure (handleValidation errors), Sys.start [])) ∧
      (∃ s, respond (keyReaders longKey) (otherMethods.creating firstCall) initiator
          (.createPayment (sampleText none) (some longKey)) (Sys.start []) =
            (.failure (JavaException.service .dataIntegrityViolation).handle, s) ∧
        s.db.table = [] ∧ (s.servers 0).sequence = 1 ∧ s.topic.length = 1) ∧
      ¬ ∀ (readers : Readers) (others : PaymentService Sys) (c : CallContext)
        (authentication : Authentication) (s : Sys) (b : CreatePaymentBody)
        (k body bodyWithKey : String), readers.createPaymentRequest body = some b →
          readers.createPaymentRequest bodyWithKey = some { b with idempotencyKey := some k } →
          b.fieldErrors = [] →
          respond readers (others.creating c) authentication (.createPayment body (some k)) s =
            respond readers (others.creating c) authentication (.createPayment bodyWithKey none) s := by
  have hvalid : (sampleRequest none).valid = true := by decide +kernel
  have herrors : (sampleRequest (some longKey)).toBody.fieldErrors ≠ [] := by decide +kernel
  have hrefused := Readers.resolve_invalid none (keyReaders_keyed longKey) herrors
  have hbody : respond (keyReaders longKey) (otherMethods.creating firstCall) initiator
      (.createPayment (sampleText (some longKey)) none) (Sys.start []) = _ :=
    respond_unresolved hrefused
  have hheader := Readers.resolve_valid (some longKey) (keyReaders_plain longKey) hvalid
  have hinvoke : ∃ s, PaymentController.invoke (otherMethods.creating firstCall)
      (.createPayment (sampleRequest none) (some longKey)) (Sys.start []) =
        (.error (.service .dataIntegrityViolation), s) ∧
      s.db.table = [] ∧ (s.servers 0).sequence = 1 ∧ s.topic.length = 1 := ⟨_, rfl, rfl, rfl, rfl⟩
  obtain ⟨s, hinvoke, hleft⟩ := hinvoke
  refine ⟨⟨_, hbody⟩, ⟨s, respond_raised hheader (by decide) hinvoke, hleft⟩, fun hall => ?_⟩
  have hsame := hall (keyReaders longKey) otherMethods firstCall initiator (Sys.start [])
    (sampleRequest none).toBody longKey _ _ (keyReaders_plain longKey) (keyReaders_keyed longKey)
    ((sampleRequest none).fieldErrors_toBody.mpr hvalid)
  rw [hbody] at hsame
  exact respond_header_ne (keyReaders longKey) otherMethods firstCall initiator (Sys.start []) longKey
    (keyReaders_plain longKey) hvalid _ (congrArg Prod.fst hsame)

end GlobalPayments.Payments

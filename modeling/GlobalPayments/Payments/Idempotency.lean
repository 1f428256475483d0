/-
# GlobalPayments.Payments.Idempotency — `createPayment` and its idempotency key.

The service looks the key up, and inserts when it finds nothing; between the two any number of other
calls may do the same.  Three questions about a key `k`:

* safety (`idempotency_key_honoured`): at most one payment is ever stored under `k`, and every call
  that returns, returns that one — the lookup, the deferred insert and the unique constraint together;
* the payload (`createPayment_checks_payload_iff`): a replayed key is answered with the stored payment
  whatever the rest of the request says, so the answer is right only when the payloads agree;
* overlap (`calls_return_original`): a call that overlaps another one between the missed lookup and
  the commit loses against the constraint and ends in an internal error; without overlap every call
  returns the original payment.
-/
import GlobalPayments.Payments.Invariant

namespace GlobalPayments.Payments

open Runs Versioned

/-! ## Calls with a key -/

/-- The transaction serves a create call with key `k`. -/
def Tx.CreatesWith (k : String) (tx : Tx) : Prop :=
  match tx.call with
  | some (.createPayment request) => request.idempotencyKey = some k
  | _ => False

instance (k : String) (tx : Tx) : Decidable (tx.CreatesWith k) :=
  match h : tx.call with
  | some (.createPayment request) =>
      decidable_of_iff (request.idempotencyKey = some k) (by simp [Tx.CreatesWith, h])
  | some (.updateStatus _ _) => isFalse (by simp [Tx.CreatesWith, h])
  | some (.retryFailedPayments _) => isFalse (by simp [Tx.CreatesWith, h])
  | none => isFalse (by simp [Tx.CreatesWith, h])

/-- The call has missed its lookup and has not ended. -/
def Tx.InFlight (tx : Tx) : Prop :=
  match tx.phase with
  | .persisting _ => True
  | .flushing _ => True
  | _ => False

/-- `response` is about the stored payment `p`. -/
def IsOriginal (response : Option PaymentResponse) (p : Payment) : Prop :=
  ∃ r, response = some r ∧ r.id = p.id ∧ r.paymentReference = p.paymentReference

section Responses

variable {db db' : Database} {tx tx' : Tx} {a : Action} {srv srv' : Server}
variable {events : List PaymentEvent}

/-- A create call that returned gave out a payment that was committed under its key. -/
def Tx.Honoured (k : String) (db : Database) (tx : Tx) : Prop :=
  tx.CreatesWith k → ∀ response, tx.phase = .ended (.returned response) →
    ∃ p, db.Logged p ∧ p.idempotencyKey = some k ∧ response = some (toResponse p)

theorem Tx.Honoured.mono {k : String} {new : List (Write TxId Payment)} (h : tx.Honoured k db)
    (hlog : db'.log = db.log ++ new) : tx.Honoured k db' := by
  intro hcreates response hphase
  obtain ⟨p, hlogged, hp⟩ := h hcreates response hphase
  exact ⟨p, hlogged.mono hlog, hp⟩

/-- A create call that is done has one new payment in hand, with its key, and reports it. -/
theorem Tx.CreatesWith.inserted {k : String} {response : Option PaymentResponse}
    (hcreates : tx.CreatesWith k) (hshaped : tx.Shaped)
    (hready : ReadyToCommit tx.phase response) :
    tx.InFlight ∧ ∃ payment, payment.idempotencyKey = some k ∧
      tx.context = { inserted := [payment] } ∧ response = some (toResponse payment) := by
  cases hshaped with
  | @inserted request _ _ _ _ payment hprepared =>
      cases hready
      obtain ⟨m, -, hpayment, -⟩ := preparePayment_ok hprepared
      refine ⟨trivial, payment, ?_, rfl, rfl⟩
      rw [hpayment]
      exact hcreates
  | idle => cases hready
  | persisting => cases hready
  | updating => cases hready
  | updated => exact absurd hcreates id
  | requeuing => exact absurd hcreates id
  | ended => cases hready

/-- What a create call commits is the payment its response reports. -/
theorem honoured_of_flush {k : String} {t : TxId} {now : Instant}
    {response : Option PaymentResponse} (hshaped : tx.Shaped)
    (hready : ReadyToCommit tx.phase response) (hcreates : tx.CreatesWith k)
    (hflush : flush t now tx.context db = .ok db') :
    ∃ p, db'.Logged p ∧ p.idempotencyKey = some k ∧ response = some (toResponse p) := by
  obtain ⟨-, payment, hkey, hcontext, hresponse⟩ := hcreates.inserted hshaped hready
  refine ⟨payment, ⟨⟨some t, none, payment⟩, ?_, rfl⟩, hkey, hresponse⟩
  rw [flush_log hflush, hcontext]
  simp [PersistenceContext.writes]

/-- A transaction's own move honours the key. -/
theorem Tx.Honoured.move {k : String} (hdb : db.Sound) (hshaped : tx.Shaped)
    (h : Moves db a tx srv tx' srv' db' events) : tx'.Honoured k db' := by
  intro hcreates response hphase
  cases h with
  | @replayed _ _ request _ _ key payment _ hkey hfound =>
      obtain rfl : some (toResponse payment) = response := by simpa using hphase
      obtain ⟨hmem, hpk⟩ := findByIdempotencyKey_some hfound
      obtain rfl : key = k := by simpa [Tx.CreatesWith, hkey] using hcreates
      exact ⟨payment, hdb.logged hmem, hpk, rfl⟩
  | committed hready hflush =>
      obtain rfl : _ = response := by simpa [Tx.finish] using hphase
      exact honoured_of_flush hshaped hready hcreates hflush
  | _ => cases hphase

end Responses

/-! ## Safety -/

theorem honoured_run {rows : List Payment} (hrows : ValidRows rows) {trace : List Action} {s : Sys}
    (hrun : run step (Sys.start rows) trace = some s) (k : String) :
    s.Sound ∧ ∀ t, (s.txs t).Honoured k s.db := by
  refine run_invariant (I := fun s => s.Sound ∧ ∀ t, (s.txs t).Honoured k s.db) ?_
    ⟨.start hrows, fun t hcreates => absurd hcreates id⟩ hrun
  rintro s a s' ⟨hsound, hs⟩ hstep
  obtain ⟨tx, srv, db, events, hstepped⟩ := step_cases hstep
  obtain ⟨new, hlog, -⟩ := hstepped.moves.log
  exact ⟨hsound.step hstep,
    hstepped.forall_tx (P := fun db _ tx => tx.Honoured k db) (fun t _ ht => ht.mono hlog)
      (fun _ => .move hsound.db (hsound.shaped a.tx) hstepped.moves) hs⟩

/-- Rows that collide in nothing cannot share a key. -/
theorem Distinct.length_le_one {rows : List Payment} (h : Distinct rows) {k : String}
    (hkey : ∀ p ∈ rows, p.idempotencyKey = some k) : rows.length ≤ 1 := by
  match rows with
  | [] => simp
  | [_] => simp
  | a :: b :: rest =>
      have hab := (List.pairwise_cons.mp h).1 b (by simp)
      rw [Payment.collides_eq_false, hkey a (by simp), hkey b (by simp)] at hab
      exact absurd rfl (hab.2 rfl)

theorem Distinct.filter_key_length {table : List Payment} (h : Distinct table) (k : String) :
    (table.filter fun p => p.idempotencyKey = some k).length ≤ 1 := by
  apply Distinct.length_le_one (k := k)
  · exact h.sublist List.filter_sublist
  · intro p hp
    simpa using (List.mem_filter.mp hp).2

/-- Two rows under one key are one row. -/
theorem Database.Sound.eq_of_idempotencyKey {db : Database} (h : db.Sound) {k : String}
    {p q : Payment} (hp : p ∈ db.table) (hq : q ∈ db.table) (hpk : p.idempotencyKey = some k)
    (hqk : q.idempotencyKey = some k) : p = q := by
  by_contra hne
  have hpq := h.distinct.forall hp hq hne
  rw [Payment.collides_eq_false, hpk, hqk] at hpq
  exact hpq.2 rfl rfl

/-- What the service guarantees about key `k`. -/
structure KeyHonoured (s : Sys) (k : String) : Prop where
  /-- the table holds at most one payment with the key -/
  unique : (s.db.table.filter fun p => p.idempotencyKey = some k).length ≤ 1
  /-- a call with the key that returned reported the stored payment with the key -/
  returned : ∀ t, (s.txs t).CreatesWith k →
    ∀ response, (s.txs t).phase = .ended (.returned response) →
      ∃ p ∈ s.db.table, p.idempotencyKey = some k ∧ IsOriginal response p
  /-- all calls with the key that returned reported the same payment -/
  agreed : ∀ t₁ t₂, (s.txs t₁).CreatesWith k → (s.txs t₂).CreatesWith k →
    ∀ response₁ response₂, (s.txs t₁).phase = .ended (.returned response₁) →
      (s.txs t₂).phase = .ended (.returned response₂) →
        ∃ r₁ r₂, response₁ = some r₁ ∧ response₂ = some r₂ ∧ r₁.id = r₂.id ∧
          r₁.paymentReference = r₂.paymentReference

/-- A returned call reported the stored payment under its key. -/
theorem Tx.Honoured.original {db : Database} {tx : Tx} {k : String} (hdb : db.Sound)
    (h : tx.Honoured k db) (hcreates : tx.CreatesWith k) {response : Option PaymentResponse}
    (hphase : tx.phase = .ended (.returned response)) :
    ∃ p ∈ db.table, p.idempotencyKey = some k ∧ IsOriginal response p := by
  obtain ⟨p, hlogged, hpk, rfl⟩ := h hcreates response hphase
  obtain ⟨q, hq, hterms⟩ := hdb.stored_of_logged hlogged
  exact ⟨q, hq, hterms.idempotencyKey.trans hpk, _, rfl, hterms.id.symm,
    hterms.paymentReference.symm⟩

/-- **A key stands for one payment**, in every reachable state of every interleaving. -/
theorem idempotency_key_honoured {rows : List Payment} (hrows : ValidRows rows)
    {trace : List Action} {s : Sys} (hrun : run step (Sys.start rows) trace = some s) (k : String) :
    KeyHonoured s k := by
  obtain ⟨hsound, hhonoured⟩ := honoured_run hrows hrun k
  have horiginal : ∀ t, (s.txs t).CreatesWith k → ∀ response : Option PaymentResponse,
      (s.txs t).phase = .ended (.returned response) →
      ∃ p ∈ s.db.table, p.idempotencyKey = some k ∧ IsOriginal response p :=
    fun t hcreates _ hphase => (hhonoured t).original hsound.db hcreates hphase
  refine ⟨hsound.db.distinct.filter_key_length k, horiginal, ?_⟩
  intro t₁ t₂ hcreates₁ hcreates₂ response₁ response₂ hphase₁ hphase₂
  obtain ⟨p, hp, hpk, r₁, hr₁, hid₁, href₁⟩ := horiginal t₁ hcreates₁ response₁ hphase₁
  obtain ⟨q, hq, hqk, r₂, hr₂, hid₂, href₂⟩ := horiginal t₂ hcreates₂ response₂ hphase₂
  obtain rfl := hsound.db.eq_of_idempotencyKey hp hq hpk hqk
  exact ⟨r₁, r₂, hr₁, hr₂, hid₁.trans hid₂.symm, href₁.trans href₂.symm⟩

/-- Three calls with one key: two overlap, so one of them fails, and the third finds the payment the
winner stored. -/
theorem idempotency_key_honoured_overlap :
    ∃ s, run step (Sys.start [])
        [.createPayment 0 0 (sampleRequest (some "order-1")),
          .createPayment 1 1 (sampleRequest (some "order-1")),
          .persistAndPublish 0 (sampleSurroundings 7) true,
          .persistAndPublish 1 (sampleSurroundings 8) true, .commit 1 1, .commit 0 2,
          .createPayment 2 0 (sampleRequest (some "order-1"))] = some s ∧
      s.db.table.map (·.id) = [8] ∧ KeyHonoured s "order-1" := by
  obtain ⟨s, hrun, hids⟩ := Option.map_eq_some_iff.mp
    (show (run step (Sys.start [])
        [.createPayment 0 0 (sampleRequest (some "order-1")),
          .createPayment 1 1 (sampleRequest (some "order-1")),
          .persistAndPublish 0 (sampleSurroundings 7) true,
          .persistAndPublish 1 (sampleSurroundings 8) true, .commit 1 1, .commit 0 2,
          .createPayment 2 0 (sampleRequest (some "order-1"))]).map
        (·.db.table.map (·.id)) = some [8] by decide)
  exact ⟨s, hrun, hids, idempotency_key_honoured .empty hrun "order-1"⟩

/-! ## The payload of a replayed key -/

/-- The request asks for the stored payment: the seven business fields agree, the amount in minor
units. -/
def PayloadMatches (request : CreatePaymentRequest) (p : Payment) : Prop :=
  request.senderAccountId = p.senderAccountId ∧ request.receiverAccountId = p.receiverAccountId ∧
    request.receiverBankCode = p.receiverBankCode ∧
    toMinorUnits request.amount request.currency.decimalPlaces = .ok p.amountMinorUnits ∧
    request.currency = p.currency ∧ request.paymentType = p.paymentType ∧
    request.description = p.description

/-- What a replayed key should get: the stored payment when the payload agrees, else a
`DuplicatePaymentException` that leaves store, counters and topic alone. -/
structure ReplayChecked (s s' : Sys) (t : TxId) (request : CreatePaymentRequest) (p : Payment) :
    Prop where
  returns : PayloadMatches request p →
    (s'.txs t).phase = .ended (.returned (some (toResponse p)))
  only : (s'.txs t).phase = .ended (.returned (some (toResponse p))) → PayloadMatches request p
  raises : ¬ PayloadMatches request p →
    ∃ message, (s'.txs t).phase = .ended (.raised (.duplicatePayment message)) ∧
      s'.db = s.db ∧ s'.servers = s.servers ∧ s'.topic = s.topic

/-- A create call whose key is stored returns the stored payment and changes nothing else. -/
theorem step_createPayment_of_stored {s : Sys} (hs : s.Sound) {t : TxId} {i : ServerId}
    {request : CreatePaymentRequest} {k : String} {p : Payment} (hidle : (s.txs t).phase = .idle)
    (hkey : request.idempotencyKey = some k) (hp : p ∈ s.db.table)
    (hpk : p.idempotencyKey = some k) :
    step s (.createPayment t i request) = some (s.setTx t
      ⟨some (.createPayment request), i, .ended (.returned (some (toResponse p))), {}⟩) := by
  have hfound : findByIdempotencyKey k s.db.table = some p := by
    cases hq : findByIdempotencyKey k s.db.table with
    | none => exact absurd hpk (findByIdempotencyKey_none hq p hp)
    | some q =>
        obtain ⟨hqmem, hqk⟩ := findByIdempotencyKey_some hq
        rw [hs.db.eq_of_idempotencyKey hqmem hp hqk hpk]
  simp only [step, hidle, Tx.createPayment, hkey, hfound]

/-- From a sound state, a stored key is handled as it should be exactly when the payload agrees. -/
theorem replayChecked_iff {s : Sys} (hs : s.Sound) {t : TxId} (i : ServerId)
    (request : CreatePaymentRequest) {k : String} {p : Payment} (hidle : (s.txs t).phase = .idle)
    (hkey : request.idempotencyKey = some k) (hp : p ∈ s.db.table)
    (hpk : p.idempotencyKey = some k) :
    (∃ s', step s (.createPayment t i request) = some s' ∧ ReplayChecked s s' t request p) ↔
      PayloadMatches request p := by
  rw [step_createPayment_of_stored hs hidle hkey hp hpk]
  have hphase : ((s.setTx t ⟨some (.createPayment request), i,
      .ended (.returned (some (toResponse p))), {}⟩).txs t).phase =
      .ended (.returned (some (toResponse p))) := by
    rw [Sys.setTx_txs_self]
  constructor
  · rintro ⟨s', hs', hchecked⟩
    obtain rfl := Option.some.inj hs'
    exact hchecked.only hphase
  · intro hmatches
    exact ⟨_, rfl, fun _ => hphase, fun _ => hmatches, fun hdiffers => absurd hmatches hdiffers⟩

/-- **The payload is never compared.**  In every reachable state a request with a stored key is
handled as it should be exactly when its payload happens to agree with the stored payment. -/
theorem createPayment_checks_payload_iff {rows : List Payment} (hrows : ValidRows rows)
    {trace : List Action} {s : Sys} (hrun : run step (Sys.start rows) trace = some s)
    (t : TxId) (i : ServerId) (request : CreatePaymentRequest) {k : String} {p : Payment}
    (hidle : (s.txs t).phase = .idle) (hkey : request.idempotencyKey = some k)
    (hp : p ∈ s.db.table) (hpk : p.idempotencyKey = some k) :
    (∃ s', step s (.createPayment t i request) = some s' ∧ ReplayChecked s s' t request p) ↔
      PayloadMatches request p := by
  have hsound := (Sys.Sound.start hrows).run hrun
  exact replayChecked_iff hsound i request hidle hkey hp hpk

/-- A trace that stores a payment under a key, and that payment. -/
def storeUnderKey : List Action :=
  [.createPayment 0 0 (sampleRequest (some "order-1")),
    .persistAndPublish 0 (sampleSurroundings 7) true, .commit 0 1]

def storedUnderKey : Payment :=
  buildPayment (sampleRequest (some "order-1")) 100000 "PAY-20240115-000001-0000"
    (sampleSurroundings 7)

theorem run_storeUnderKey :
    ∃ s, run step (Sys.start []) storeUnderKey = some s ∧ (s.txs 1).phase = .idle ∧
      storedUnderKey ∈ s.db.table := by
  obtain ⟨s, hrun, hs⟩ := Option.map_eq_some_iff.mp
    (show (run step (Sys.start []) storeUnderKey).map (fun s => ((s.txs 1).phase, s.db.table)) =
      some (.idle, [storedUnderKey]) by decide)
  obtain ⟨hidle, htable⟩ := Prod.mk.inj hs
  refine ⟨s, hrun, hidle, ?_⟩
  rw [htable]
  exact List.mem_singleton_self _

/-- A retry of the same payment, its amount written in another scale, gets the stored payment. -/
theorem createPayment_checks_payload_retry :
    ∃ s s', run step (Sys.start []) storeUnderKey = some s ∧
      step s (.createPayment 1 0 { sampleRequest (some "order-1") with amount := ⟨1000, 0⟩ }) =
        some s' ∧
      ReplayChecked s s' 1 { sampleRequest (some "order-1") with amount := ⟨1000, 0⟩ }
        storedUnderKey := by
  obtain ⟨s, hrun, hidle, hp⟩ := run_storeUnderKey
  obtain ⟨s', hs', hchecked⟩ := (createPayment_checks_payload_iff .empty hrun 1 0
    { sampleRequest (some "order-1") with amount := ⟨1000, 0⟩ } hidle rfl hp rfl).mpr
    ⟨rfl, rfl, rfl, by decide, rfl, rfl, rfl⟩
  exact ⟨s, s', hrun, hs', hchecked⟩

/-- A request that pays someone else under the same key is answered with the stored payment. -/
theorem createPayment_ignores_payload :
    ¬ ∀ (trace : List Action) (s : Sys), run step (Sys.start []) trace = some s →
      ∀ (t : TxId) (i : ServerId) (request : CreatePaymentRequest) (k : String) (p : Payment),
        (s.txs t).phase = .idle → request.idempotencyKey = some k → p ∈ s.db.table →
        p.idempotencyKey = some k →
        ∃ s', step s (.createPayment t i request) = some s' ∧ ReplayChecked s s' t request p := by
  intro hall
  obtain ⟨s, hrun, hidle, hp⟩ := run_storeUnderKey
  have hmatches := (replayChecked_iff ((Sys.Sound.start .empty).run hrun) 0
    { sampleRequest (some "order-1") with receiverAccountId := "DE89370400440532013000" }
    hidle rfl hp rfl).mp (hall _ s hrun 1 0 _ "order-1" _ hidle rfl hp rfl)
  exact absurd hmatches.2.1 (by decide)

/-! ## Overlapping calls -/

/-- The amount of the request a call with key `k` is about to persist converts. -/
def Phase.Converts (k : String) : Phase → Prop
  | .persisting request => request.idempotencyKey = some k →
      (toMinorUnits request.amount request.currency.decimalPlaces).isOk
  | _ => True

/-- Nothing but the idempotency key can make a call with key `k` fail: it is not aborted, its amount
converts, and its payment meets every other check of the schema. -/
def NoOtherFault (k : String) (s : Sys) : Action → Prop
  | .abort t => ¬ (s.txs t).CreatesWith k
  | .persistAndPublish t _ _ => (s.txs t).phase.Converts k
  | .commit t _ => (s.txs t).CreatesWith k →
      ∀ p ∈ (s.txs t).context.inserted, p.tableConstraints = true ∧
        ∀ r ∈ s.db.table, r.id ≠ p.id ∧ r.paymentReference ≠ p.paymentReference
  | _ => True

/-- The call of transaction `t` with key `k` has missed its lookup and not ended. -/
def Creating (k : String) (s : Sys) (t : TxId) : Prop :=
  (s.txs t).CreatesWith k ∧ (s.txs t).InFlight

/-- No call looks the key up in vain while another one is creating the payment. -/
def NoOverlap (k : String) (s : Sys) : Action → Prop
  | .createPayment t _ request => request.idempotencyKey = some k →
      (∃ p ∈ s.db.table, p.idempotencyKey = some k) ∨ ∀ t', t' ≠ t → ¬ Creating k s t'
  | _ => True

/-- Every call with key `k` that has ended returned the original payment, and the others can go
on. -/
structure AllReturnOriginal (s : Sys) (k : String) : Prop where
  returned : ∀ t, (s.txs t).CreatesWith k → ∀ outcome, (s.txs t).phase = .ended outcome →
    ∃ response, outcome = .returned response ∧
      ∃ p ∈ s.db.table, p.idempotencyKey = some k ∧ IsOriginal response p
  progress : ∀ t, (s.txs t).CreatesWith k → (∀ outcome, (s.txs t).phase ≠ .ended outcome) →
    ∃ a, a.tx = t ∧ (step s a).isSome

/-- The invariant of runs without overlap: at most one call is creating the payment, and only while
the key is not stored; no call with the key has failed. -/
structure SoleCreator (k : String) (s : Sys) : Prop where
  sound : s.Sound
  honoured : ∀ t, (s.txs t).Honoured k s.db
  sole : ∀ t t', Creating k s t → Creating k s t' → t = t'
  free : ∀ t, Creating k s t → ∀ p ∈ s.db.table, p.idempotencyKey ≠ some k
  unfailed : ∀ t, (s.txs t).CreatesWith k → ∀ e, (s.txs t).phase ≠ .ended (.raised e)

section Overlap

variable {k : String} {s s' : Sys} {a : Action} {db db' : Database} {tx tx' : Tx}
variable {srv srv' : Server} {events : List PaymentEvent}

/-- A call becomes a creator of `k` only by missing the lookup. -/
theorem Moves.creating (hshaped : tx.Shaped) (h : Moves db a tx srv tx' srv' db' events)
    (hcreates : tx'.CreatesWith k) (hflight : tx'.InFlight) :
    (tx.CreatesWith k ∧ tx.InFlight ∧ ∀ t now, a ≠ .commit t now) ∨
      (db' = db ∧ tx.phase = .idle ∧ ∃ t i request, a = .createPayment t i request ∧
        request.idempotencyKey = some k ∧ findByIdempotencyKey k db.table = none) := by
  cases h with
  | missed hidle hmissed =>
      exact Or.inr ⟨rfl, hidle, _, _, _, rfl, hcreates, hmissed k hcreates⟩
  | persisted hphase => exact Or.inl ⟨hcreates, by simp [Tx.InFlight, hphase], fun _ _ => nofun⟩
  | statusApplied hphase =>
      cases hshaped with
      | updating => exact absurd hcreates id
      | _ => cases hphase
  | _ => exact absurd hflight id

/-- A row under a key that nobody had stored was inserted by a create call with that key. -/
theorem flush_key {t : TxId} {now : Instant} (hdb : db.Sound) (hsound : tx.Sound db)
    (hflush : flush t now tx.context db = .ok db')
    (hfree : ∀ p ∈ db.table, p.idempotencyKey ≠ some k) {p : Payment} (hp : p ∈ db'.table)
    (hpk : p.idempotencyKey = some k) : ∃ q ∈ tx.context.inserted, q.idempotencyKey = some k := by
  -- a key never changes, so a committed row with the key would still be stored with it
  have hunlogged : ∀ q, db.Logged q → q.idempotencyKey ≠ some k := by
    intro q hq hqk
    obtain ⟨r, hr, hterms⟩ := hdb.stored_of_logged hq
    exact hfree r hr (hterms.idempotencyKey.trans hqk)
  obtain ⟨x, hx, rfl⟩ := (hdb.flush hsound.context hflush).logged hp
  rw [flush_log hflush, List.mem_append, PersistenceContext.writes, List.mem_append] at hx
  rcases hx with hx | hx | hx
  · exact absurd hpk (hunlogged _ ⟨x, hx, rfl⟩)
  · obtain ⟨q, hq, rfl⟩ := List.mem_map.mp hx
    exact ⟨q, hq, hpk⟩
  · obtain ⟨m, hm, rfl⟩ := List.mem_map.mp hx
    obtain ⟨hlogged, hevolves⟩ := hsound.context.managed m (List.mem_filter.mp hm).1
    exact absurd (hevolves.terms.idempotencyKey.symm.trans hpk) (hunlogged _ hlogged)

/-- Without another fault, and with the key free, a create call with the key commits. -/
theorem flush_of_noOtherFault {t : TxId} {now : Instant} {response : Option PaymentResponse}
    (hs : SoleCreator k s) (hfault : NoOtherFault k s (.commit t now))
    (hcreates : (s.txs t).CreatesWith k) (hready : ReadyToCommit (s.txs t).phase response) :
    ∃ db', flush t now (s.txs t).context s.db = .ok db' := by
  obtain ⟨hflight, payment, hkey, hcontext, -⟩ := hcreates.inserted (hs.sound.shaped t) hready
  have hchecks := hfault hcreates
  have hfree := hs.free t ⟨hcreates, hflight⟩
  rw [hcontext] at hchecks ⊢
  apply flush_succeeds
  · refine ⟨fun p hp => ?_, fun _ => nofun⟩
    obtain ⟨hconstraints, hothers⟩ := hchecks p hp
    obtain rfl := List.mem_singleton.mp hp
    refine ⟨hconstraints, fun r hr => ⟨(hothers r hr).1, ?_⟩⟩
    rw [Payment.collides_eq_false, hkey]
    exact ⟨(hothers r hr).2, fun _ => hfree r hr⟩
  · exact ⟨by simp, by simp, fun _ => nofun⟩

/-- No move makes a call with key `k` fail, under the conditions. -/
theorem SoleCreator.not_raised (hs : SoleCreator k s) (hfault : NoOtherFault k s a)
    (h : Moves s.db a (s.txs a.tx) srv tx srv' db events) (hcreates : tx.CreatesWith k)
    (e : ServiceException) : tx.phase ≠ .ended (.raised e) := by
  intro hphase
  cases h with
  | replayed => cases hphase
  | missed => cases hphase
  | @conversionRaised t env delivered _ _ request e' hpersisting hraised =>
      have hshaped := hs.sound.shaped t
      simp only [NoOtherFault] at hfault
      simp only [Action.tx] at hpersisting hcreates
      rw [hpersisting] at hfault
      have hkey : request.idempotencyKey = some k := by
        generalize s.txs t = tx at hshaped hpersisting hcreates
        cases hshaped with
        | persisting =>
            obtain rfl := Phase.persisting.inj hpersisting
            exact hcreates
        | _ => cases hpersisting
      have hok : (toMinorUnits request.amount request.currency.decimalPlaces).isOk := hfault hkey
      -- only the conversion of the amount raises there
      unfold preparePayment at hraised
      split at hraised
      · rename_i cause hcause
        rw [hcause] at hok
        cases hok
      · cases hraised
  | persisted => cases hphase
  | updateRefused => exact absurd hcreates id
  | updateLoaded => cases hphase
  | statusApplied => cases hphase
  | retrySelected => cases hphase
  | requeued => cases hphase
  | committed => cases hphase
  | @refused t now _ _ response e' hready hrefused =>
      obtain ⟨db', hok⟩ := flush_of_noOtherFault hs hfault hcreates hready
      rw [show flush t now (s.txs t).context s.db = .error e' from hrefused] at hok
      cases hok
  | aborted => exact hfault hcreates

/-- A creator after the step was one before, or has just missed the lookup while nobody else was
creating. -/
theorem SoleCreator.creating_cases (hs : SoleCreator k s) (halone : NoOverlap k s a)
    (hstepped : Stepped s a s' tx srv db events) {t : TxId} (ht : Creating k s' t) :
    (Creating k s t ∧ (t = a.tx → ∀ u now, a ≠ .commit u now)) ∨
      (t = a.tx ∧ (∀ t', ¬ Creating k s t') ∧ db = s.db ∧
        ∀ p ∈ s.db.table, p.idempotencyKey ≠ some k) := by
  by_cases hself : t = a.tx
  · subst hself
    unfold Creating at ht
    rw [hstepped.tx_self] at ht
    rcases hstepped.moves.creating (hs.sound.shaped _) ht.1 ht.2 with
      ⟨hold, hflight, hcommit⟩ | ⟨hdb, hidle, u, i, request, rfl, hkey, hmissed⟩
    · exact Or.inl ⟨⟨hold, hflight⟩, fun _ => hcommit⟩
    · have hunused := findByIdempotencyKey_none hmissed
      refine Or.inr ⟨rfl, fun t' ht' => ?_, hdb, hunused⟩
      -- the lookup missed, so the key is not stored, and nobody else is creating it
      rcases halone hkey with ⟨p, hp, hpk⟩ | hnobody
      · exact hunused p hp hpk
      · by_cases hu : t' = u
        · subst hu
          have hflight := ht'.2
          rw [Tx.InFlight, show (s.txs t').phase = .idle from hidle] at hflight
          exact hflight
        · exact hnobody t' hu ht'
  · unfold Creating at ht ⊢
    rw [hstepped.tx_other hself] at ht
    exact Or.inl ⟨ht, fun h => absurd h hself⟩

/-- While another call is creating the payment, a step leaves the key free. -/
theorem SoleCreator.free_step (hs : SoleCreator k s) (hstepped : Stepped s a s' tx srv db events)
    {t : TxId} (ht : Creating k s t) (hcommit : t = a.tx → ∀ u now, a ≠ .commit u now) :
    ∀ p ∈ db.table, p.idempotencyKey ≠ some k := by
  rcases hstepped.moves.db_cases with rfl | ⟨u, now, response, rfl, hready, hflush, -⟩
  · exact hs.free t ht
  · intro p hp hpk
    obtain ⟨q, hq, hqk⟩ := flush_key hs.sound.db (hs.sound.txs u) hflush (hs.free t ht) hp hpk
    -- whoever inserts under the key is creating it too, and there is only one such call
    have hu : Creating k s u := by
      have hshaped := hs.sound.shaped u
      unfold Creating
      simp only [Action.tx] at hready hq
      generalize s.txs u = tx at hshaped hready hq
      cases hshaped with
      | inserted hprepared =>
          obtain ⟨m, -, hpayment, -⟩ := preparePayment_ok hprepared
          obtain rfl := List.mem_singleton.mp hq
          refine ⟨?_, trivial⟩
          rw [hpayment] at hqk
          exact hqk
      | updated => cases hq
      | requeuing => cases hq
      | _ => cases hready
    exact hcommit (hs.sole t u ht hu) u now rfl

/-- **One step without overlap.** -/
theorem SoleCreator.step (hs : SoleCreator k s) (hfault : NoOtherFault k s a)
    (halone : NoOverlap k s a) (hstep : Payments.step s a = some s') : SoleCreator k s' := by
  obtain ⟨tx, srv, db, events, hstepped⟩ := step_cases hstep
  obtain ⟨new, hlog, -⟩ := hstepped.moves.log
  refine ⟨hs.sound.step hstep, ?_, ?_, ?_, ?_⟩
  · exact hstepped.forall_tx (P := fun db _ tx => tx.Honoured k db) (fun t _ ht => ht.mono hlog)
      (fun _ => .move hs.sound.db (hs.sound.shaped a.tx) hstepped.moves) hs.honoured
  · intro t t' ht ht'
    -- two creators after the step: both old, or both the call that took the step
    rcases hs.creating_cases halone hstepped ht with ⟨hold, -⟩ | ⟨hself, hnobody, -⟩ <;>
      rcases hs.creating_cases halone hstepped ht' with ⟨hold', -⟩ | ⟨hself', hnobody', -⟩
    · exact hs.sole t t' hold hold'
    · exact absurd hold (hnobody' t)
    · exact absurd hold' (hnobody t')
    · rw [hself, hself']
  · intro t ht
    rw [hstepped.db_eq]
    rcases hs.creating_cases halone hstepped ht with ⟨hold, hcommit⟩ | ⟨-, -, hdb, hunused⟩
    · exact hs.free_step hstepped hold hcommit
    · rw [hdb]
      exact hunused
  · exact hstepped.forall_tx
      (P := fun _ _ tx => tx.CreatesWith k → ∀ e, tx.phase ≠ .ended (.raised e))
      (fun _ _ ht => ht) (fun _ hcreates e => hs.not_raised hfault hstepped.moves hcreates e)
      hs.unfailed

/-- A create call that has not ended can take its next step. -/
theorem create_progress (hs : s.Sound) {t : TxId} (hcreates : (s.txs t).CreatesWith k)
    (hended : ∀ outcome, (s.txs t).phase ≠ .ended outcome) : ∃ a, a.tx = t ∧ (step s a).isSome := by
  have hshaped := hs.shaped t
  generalize htx : s.txs t = tx at hshaped hcreates hended
  cases hshaped with
  | idle => exact absurd hcreates id
  | @persisting request i =>
      refine ⟨.persistAndPublish t (sampleSurroundings 0) false, rfl, ?_⟩
      simp only [Payments.step, htx]
      split <;> rfl
  | inserted =>
      refine ⟨.commit t 0, rfl, ?_⟩
      simp only [Payments.step, htx, Option.isSome_some]
  | updating => exact absurd hcreates id
  | updated => exact absurd hcreates id
  | requeuing => exact absurd hcreates id
  | ended => exact absurd rfl (hended _)

end Overlap

/-- **Without overlap every call returns the original payment.**  In every run in which nothing else
goes wrong for the calls with key `k`, and none of them misses its lookup while another one is
creating the payment, every call that has ended returned the stored payment and every other one can
go on. -/
theorem calls_return_original {rows : List Payment} (hrows : ValidRows rows) {k : String}
    {trace : List Action} {s : Sys}
    (hrun : RunsUnder step (fun s a => NoOtherFault k s a ∧ NoOverlap k s a) (Sys.start rows) trace
      s) :
    AllReturnOriginal s k := by
  have hs : SoleCreator k s := by
    refine hrun.invariant (fun s a s' hs hc hstep => hs.step hc.1 hc.2 hstep) ?_
    have hidle : ∀ t, ¬ Creating k (Sys.start rows) t := fun t ht => ht.1
    exact ⟨.start hrows, fun t hcreates => absurd hcreates id, fun t _ ht => absurd ht (hidle t),
      fun t ht => absurd ht (hidle t), fun t hcreates => absurd hcreates id⟩
  refine ⟨fun t hcreates outcome hphase => ?_, fun t => create_progress hs.sound⟩
  cases outcome with
  | returned response =>
      exact ⟨response, rfl, (hs.honoured t).original hs.sound.db hcreates hphase⟩
  | raised e => exact absurd hphase (hs.unfailed t hcreates e)

/-- A call that comes after the commit finds the payment. -/
theorem calls_return_original_sequential :
    ∃ s, RunsUnder step (fun s a => NoOtherFault "order-1" s a ∧ NoOverlap "order-1" s a)
        (Sys.start []) (storeUnderKey ++ [.createPayment 1 1 (sampleRequest (some "order-1"))]) s ∧
      (s.txs 1).phase = .ended (.returned (some (toResponse storedUnderKey))) ∧
      AllReturnOriginal s "order-1" := by
  have hrun : ∃ s, RunsUnder step
      (fun s a => NoOtherFault "order-1" s a ∧ NoOverlap "order-1" s a)
      (Sys.start []) (storeUnderKey ++ [.createPayment 1 1 (sampleRequest (some "order-1"))]) s ∧
      (s.txs 1).phase = .ended (.returned (some (toResponse storedUnderKey))) := by
    refine ⟨_, .cons ⟨trivial, fun _ => Or.inr fun t _ h => h.1⟩ rfl
      (.cons ⟨fun _ => rfl, trivial⟩ rfl (.cons ⟨fun _ p hp => ?_, trivial⟩ rfl
      (.cons ⟨trivial, fun _ => Or.inl ⟨storedUnderKey, .head _, rfl⟩⟩ rfl (.nil _)))), rfl⟩
    obtain rfl := List.mem_singleton.mp hp
    exact ⟨by decide, fun _ => nofun⟩
  obtain ⟨s, hrun, hphase⟩ := hrun
  exact ⟨s, hrun, hphase, calls_return_original .empty hrun⟩

/-- Two calls with one key and one payload, and no other fault: both miss the lookup, and the one
that commits second ends in an internal error. -/
theorem calls_return_original_overlap :
    ¬ ∀ (trace : List Action) (s : Sys),
      RunsUnder step (NoOtherFault "order-1") (Sys.start []) trace s →
      AllReturnOriginal s "order-1" := by
  intro hall
  have hrun : ∃ s, RunsUnder step (NoOtherFault "order-1") (Sys.start [])
      [.createPayment 0 0 (sampleRequest (some "order-1")),
        .createPayment 1 1 (sampleRequest (some "order-1")),
        .persistAndPublish 0 (sampleSurroundings 7) true,
        .persistAndPublish 1 (sampleSurroundings 0xb2c40000000000000000000000000008#128) true,
        .commit 0 1, .commit 1 1] s ∧
      (s.txs 1).CreatesWith "order-1" ∧
      (s.txs 1).phase = .ended (.raised .dataIntegrityViolation) := by
    refine ⟨_, .cons trivial rfl (.cons trivial rfl (.cons (fun _ => rfl) rfl
      (.cons (fun _ => rfl) rfl (.cons (fun _ p hp => ?_) rfl (.cons (fun _ p hp => ?_) rfl
      (.nil _)))))), rfl, rfl⟩
    · obtain rfl := List.mem_singleton.mp hp
      exact ⟨by decide, fun _ => nofun⟩
    · obtain rfl := List.mem_singleton.mp hp
      refine ⟨by decide, fun r hr => ?_⟩
      obtain rfl := List.mem_singleton.mp hr
      exact ⟨by decide, by decide⟩
  obtain ⟨s, hrun, hcreates, hphase⟩ := hrun
  obtain ⟨response, hreturned, -⟩ := (hall _ s hrun).returned 1 hcreates _ hphase
  cases hreturned

end GlobalPayments.Payments

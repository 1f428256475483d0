/-
# GlobalPayments.Payments.Service — the bodies of `PaymentService` and its repository queries.

Each `@Transactional` method reads the committed table once, works on the entities it loaded, and
leaves the writes to the flush.  This module holds those pieces as functions of what they read: the
repository queries over a table, what `persistAndPublish`, `updateStatus` and `retryFailedPayments`
do to the entities in memory, and the event each of them publishes.  `Transactions` puts them
together with the flush and lets any number of them interleave.
-/
import GlobalPayments.Payments.Entity
import Mathlib.Data.List.Sort

namespace GlobalPayments.Payments

/-! ## `PaymentRepository` -/

/-- `findById`. -/
def findById (id : UUID) (table : List Payment) : Option Payment :=
  table.find? fun p => p.id = id

/-- `findByIdempotencyKey`.  The unique constraint leaves at most one row to find. -/
def findByIdempotencyKey (idempotencyKey : String) (table : List Payment) : Option Payment :=
  table.find? fun p => p.idempotencyKey = some idempotencyKey

/-- `findRetryablePayments`: FAILED, below the retry limit and not updated since the cutoff, oldest
first. -/
def findRetryablePayments (cutoffTime : Instant) (table : List Payment) : List Payment :=
  (table.filter fun p => p.status = .FAILED && p.retryCount < 3 && p.updatedAt < cutoffTime)
    |>.insertionSort fun a b => a.createdAt ≤ b.createdAt

theorem findById_some {id : UUID} {table : List Payment} {p : Payment}
    (h : findById id table = some p) : p ∈ table ∧ p.id = id :=
  ⟨List.mem_of_find?_eq_some h, by simpa using List.find?_some h⟩

theorem findByIdempotencyKey_some {k : String} {table : List Payment} {p : Payment}
    (h : findByIdempotencyKey k table = some p) : p ∈ table ∧ p.idempotencyKey = some k :=
  ⟨List.mem_of_find?_eq_some h, by simpa using List.find?_some h⟩

theorem findByIdempotencyKey_none {k : String} {table : List Payment}
    (h : findByIdempotencyKey k table = none) : ∀ p ∈ table, p.idempotencyKey ≠ some k := by
  simpa [findByIdempotencyKey] using h

theorem mem_findRetryablePayments {cutoff : Instant} {table : List Payment} {p : Payment} :
    p ∈ findRetryablePayments cutoff table ↔
      p ∈ table ∧ p.status = .FAILED ∧ p.retryCount < 3 ∧ p.updatedAt < cutoff := by
  simp [findRetryablePayments, List.mem_insertionSort, and_assoc]

/-! ## `publishPaymentEvent` -/

/-- The `eventType` of a message. -/
inductive EventType where
  | PAYMENT_CREATED | PAYMENT_STATUS_CHANGED | PAYMENT_RETRY
  deriving DecidableEq, Repr

def EventType.name : EventType → String
  | .PAYMENT_CREATED => "PAYMENT_CREATED"
  | .PAYMENT_STATUS_CHANGED => "PAYMENT_STATUS_CHANGED"
  | .PAYMENT_RETRY => "PAYMENT_RETRY"

/-- The message `publishPaymentEvent` sends to `payment-events`, keyed by the payment reference. -/
structure PaymentEvent where
  eventType : EventType
  paymentId : UUID
  paymentReference : String
  status : PaymentStatus
  amount : Int
  currency : Currency
  timestamp : Instant
  deriving DecidableEq, Repr

def paymentEvent (eventType : EventType) (p : Payment) (now : Instant) : PaymentEvent where
  eventType := eventType
  paymentId := p.id
  paymentReference := p.paymentReference
  status := p.status
  amount := p.amountMinorUnits
  currency := p.currency
  timestamp := now

/-! ## `createPayment` -/

/-- What `persistAndPublish` reads from outside: the clock, the day, two random UUIDs (the reference
suffix and the entity's id) and the auditor. -/
structure Surroundings where
  now : Instant
  today : LocalDate
  suffix : UUID
  id : UUID
  auditor : String
  deriving DecidableEq, Repr

/-- The entity `persistAndPublish` builds and `save` makes persistent: `@GeneratedValue`, the
auditing listener and `@Version` fill in what the builder leaves out. -/
def buildPayment (request : CreatePaymentRequest) (minorUnits : Int) (reference : String)
    (env : Surroundings) : Payment where
  id := env.id
  paymentReference := reference
  senderAccountId := request.senderAccountId
  receiverAccountId := request.receiverAccountId
  receiverBankCode := request.receiverBankCode
  amountMinorUnits := minorUnits
  currency := request.currency
  status := .PENDING
  paymentType := request.paymentType
  description := request.description
  clearingReference := none
  idempotencyKey := request.idempotencyKey
  retryCount := 0
  failureReason := none
  createdAt := env.now
  updatedAt := env.now
  createdBy := some env.auditor
  version := 0

/-- `persistAndPublish` up to `save`: the entity and the generator's counter, or the
`ArithmeticException` of the conversion, raised before a reference is drawn. -/
def preparePayment (request : CreatePaymentRequest) (sequence : Nat) (env : Surroundings) :
    Except ServiceException (Payment × Nat) :=
  match toMinorUnits request.amount request.currency.decimalPlaces with
  | .error cause => .error (.arithmetic cause)
  | .ok minorUnits =>
      let (reference, sequence') := generate sequence env.today env.suffix
      .ok (buildPayment request minorUnits reference env, sequence')

/-- What the prepared entity carries of the request. -/
theorem preparePayment_ok {request : CreatePaymentRequest} {sequence sequence' : Nat}
    {env : Surroundings} {p : Payment} (h : preparePayment request sequence env = .ok (p, sequence')) :
    ∃ m, toMinorUnits request.amount request.currency.decimalPlaces = .ok m ∧
      p = buildPayment request m (formatReference env.today (sequence + 1) env.suffix) env ∧
      sequence' = sequence + 1 := by
  unfold preparePayment at h
  split at h
  · cases h
  · rename_i m hm
    simp only [generate, Except.ok.injEq, Prod.mk.injEq] at h
    exact ⟨m, hm, h.1.symm, h.2.symm⟩

/-! ## `updateStatus` -/

/-- `updateStatus` up to the guard: the loaded entity, or the exception that ends the call. -/
def loadForUpdate (table : List Payment) (id : UUID) (request : UpdateStatusRequest) :
    Except ServiceException Payment :=
  match findById id table with
  | none => .error (.paymentNotFound ("Payment not found: " ++ String.ofList id.toText))
  | some payment =>
      match validateStatusTransition payment.status request.newStatus with
      | .error e => .error e
      | .ok () => .ok payment

/-- The setters of `updateStatus`; a null clearing reference or failure reason leaves the old one. -/
def applyStatus (request : UpdateStatusRequest) (p : Payment) : Payment :=
  { p with
    status := request.newStatus
    clearingReference := request.clearingReference.or p.clearingReference
    failureReason := request.failureReason.or p.failureReason }

theorem loadForUpdate_ok {table : List Payment} {id : UUID} {request : UpdateStatusRequest}
    {p : Payment} (h : loadForUpdate table id request = .ok p) :
    findById id table = some p ∧ Accepts p.status request.newStatus := by
  unfold loadForUpdate at h
  split at h
  · cases h
  · rename_i q hq
    split at h
    · cases h
    · rename_i hguard
      obtain rfl : q = p := by simpa using h
      exact ⟨hq, hguard⟩

/-! ## `retryFailedPayments` -/

/-- The setters of the retry job. -/
def requeuePayment (p : Payment) : Payment :=
  { p with status := .PENDING, retryCount := p.retryCount + 1 }

/-! ## What the methods may change of a payment -/

/-- Two versions of one payment agree on its terms: identity, parties, amount, key and creation. -/
structure SameTerms (a b : Payment) : Prop where
  id : b.id = a.id
  paymentReference : b.paymentReference = a.paymentReference
  senderAccountId : b.senderAccountId = a.senderAccountId
  receiverAccountId : b.receiverAccountId = a.receiverAccountId
  receiverBankCode : b.receiverBankCode = a.receiverBankCode
  amountMinorUnits : b.amountMinorUnits = a.amountMinorUnits
  currency : b.currency = a.currency
  paymentType : b.paymentType = a.paymentType
  description : b.description = a.description
  idempotencyKey : b.idempotencyKey = a.idempotencyKey
  createdAt : b.createdAt = a.createdAt
  createdBy : b.createdBy = a.createdBy

/-- What one committed write may do to a payment: keep its terms and move its status along the
guard's relation. -/
structure Evolves (a b : Payment) : Prop where
  terms : SameTerms a b
  accepted : Accepts a.status b.status

theorem SameTerms.refl (a : Payment) : SameTerms a a := by
  constructor <;> rfl

theorem SameTerms.trans {a b c : Payment} (hab : SameTerms a b) (hbc : SameTerms b c) :
    SameTerms a c where
  id := hbc.id.trans hab.id
  paymentReference := hbc.paymentReference.trans hab.paymentReference
  senderAccountId := hbc.senderAccountId.trans hab.senderAccountId
  receiverAccountId := hbc.receiverAccountId.trans hab.receiverAccountId
  receiverBankCode := hbc.receiverBankCode.trans hab.receiverBankCode
  amountMinorUnits := hbc.amountMinorUnits.trans hab.amountMinorUnits
  currency := hbc.currency.trans hab.currency
  paymentType := hbc.paymentType.trans hab.paymentType
  description := hbc.description.trans hab.description
  idempotencyKey := hbc.idempotencyKey.trans hab.idempotencyKey
  createdAt := hbc.createdAt.trans hab.createdAt
  createdBy := hbc.createdBy.trans hab.createdBy

/-- However many writes lie between two versions, they agree on the terms. -/
theorem SameTerms.of_reflTransGen {a b : Payment} (h : Relation.ReflTransGen Evolves a b) :
    SameTerms a b := by
  induction h with
  | refl => exact .refl a
  | tail _ hstep ih => exact ih.trans hstep.terms

theorem applyStatus_evolves {request : UpdateStatusRequest} {p : Payment}
    (h : Accepts p.status request.newStatus) : Evolves p (applyStatus request p) :=
  ⟨by constructor <;> rfl, h⟩

/-- The retry job never calls the guard; on the FAILED payments it selects, it moves along it. -/
theorem requeuePayment_evolves {p : Payment} (h : p.status = .FAILED) :
    Evolves p (requeuePayment p) := by
  refine ⟨by constructor <;> rfl, ?_⟩
  show Accepts p.status .PENDING
  rw [h]
  decide

end GlobalPayments.Payments

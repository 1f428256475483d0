/-
# GlobalPayments.Payments.Entity — the payment entity, the DTOs and the errors.

The `payments` row with every column the service reads or writes, the two request DTOs with the
constraints they are validated against, the response DTO, the exceptions of the service and the
HTTP answer `GlobalExceptionHandler` gives to each.  `validateStatusTransition` is the guard of
`updateStatus`; `Accepts` is the relation it accepts.
-/
import GlobalPayments.Payments.Money
import GlobalPayments.Payments.Reference

namespace GlobalPayments.Payments

open BigDecimal

/-! ## Enumerations -/

/-- `PaymentStatus`. -/
inductive PaymentStatus where
  | PENDING | PROCESSING | COMPLETED | FAILED | CANCELLED | REFUNDED
  deriving DecidableEq, Repr

/-- `Enum.name()`, as the status column and the events spell it. -/
def PaymentStatus.name : PaymentStatus → String
  | .PENDING => "PENDING"
  | .PROCESSING => "PROCESSING"
  | .COMPLETED => "COMPLETED"
  | .FAILED => "FAILED"
  | .CANCELLED => "CANCELLED"
  | .REFUNDED => "REFUNDED"

/-- `PaymentType`. -/
inductive PaymentType where
  | DOMESTIC | SEPA | SWIFT
  deriving DecidableEq, Repr

/-- `java.time.Instant`, in milliseconds since the epoch. -/
abbrev Instant := Int

/-! ## Requests -/

/-- `String.length()` counts UTF-16 code units. -/
def javaLength (s : String) : Nat :=
  (s.toList.map fun c => if c.val < 0x10000 then 1 else 2).sum

/-- `@Size(min, max)`. -/
def size (min max : Nat) (s : String) : Bool := min ≤ javaLength s && javaLength s ≤ max

/-- `@Size(max)` on a field that may be null. -/
def sizeOpt (max : Nat) : Option String → Bool
  | none => true
  | some s => size 0 max s

/-- `@NotBlank`: something other than blanks and control characters is left after `trim()`. -/
def notBlank (s : String) : Bool := s.toList.any (· > ' ')

/-- `CreatePaymentRequest`, after its `@NotNull` and `@NotBlank` fields were found present. -/
structure CreatePaymentRequest where
  senderAccountId : String
  receiverAccountId : String
  receiverBankCode : String
  amount : BigDecimal
  currency : Currency
  paymentType : PaymentType
  description : Option String
  idempotencyKey : Option String
  deriving DecidableEq, Repr

/-- What `@Valid` checks of a `CreatePaymentRequest`. -/
def CreatePaymentRequest.valid (r : CreatePaymentRequest) : Bool :=
  (notBlank r.senderAccountId && size 0 34 r.senderAccountId) &&
    (notBlank r.receiverAccountId && size 0 34 r.receiverAccountId) &&
    (notBlank r.receiverBankCode && size 8 11 r.receiverBankCode) &&
    amountAdmitted r.amount && sizeOpt 140 r.description && sizeOpt 64 r.idempotencyKey

/-- `UpdateStatusRequest`. -/
structure UpdateStatusRequest where
  newStatus : PaymentStatus
  clearingReference : Option String
  failureReason : Option String
  deriving DecidableEq, Repr

/-! ## The entity -/

/-- `Payment`: one row of the `payments` table. -/
structure Payment where
  id : UUID
  paymentReference : String
  senderAccountId : String
  receiverAccountId : String
  receiverBankCode : String
  amountMinorUnits : Int
  currency : Currency
  status : PaymentStatus
  paymentType : PaymentType
  description : Option String
  clearingReference : Option String
  idempotencyKey : Option String
  retryCount : Int
  failureReason : Option String
  createdAt : Instant
  updatedAt : Instant
  createdBy : Option String
  version : Nat
  deriving DecidableEq, Repr

/-- `Payment.getAmountAsDecimal`. -/
def Payment.getAmountAsDecimal (p : Payment) : BigDecimal :=
  amountAsDecimal p.amountMinorUnits p.currency

/-- A nullable `VARCHAR(n)` column. -/
def fits (n : Nat) : Option String → Bool
  | none => true
  | some s => s.length ≤ n

/-- The column widths and `CHECK` constraints of `V1__create_payments_table.sql` that a typed row can
break; the checks on the three enumerated columns hold of every row. -/
def Payment.tableConstraints (p : Payment) : Bool :=
  p.paymentReference.length ≤ 30 && p.senderAccountId.length ≤ 34 &&
    p.receiverAccountId.length ≤ 34 && p.receiverBankCode.length ≤ 11 &&
    0 < p.amountMinorUnits && fits 140 p.description && fits 50 p.clearingReference &&
    fits 64 p.idempotencyKey && (0 ≤ p.retryCount && p.retryCount ≤ 3) &&
    fits 500 p.failureReason && fits 100 p.createdBy

/-! ## Responses -/

/-- `PaymentResponse`. -/
structure PaymentResponse where
  id : UUID
  paymentReference : String
  senderAccountId : String
  receiverAccountId : String
  receiverBankCode : String
  amount : BigDecimal
  currency : Currency
  status : PaymentStatus
  paymentType : PaymentType
  description : Option String
  clearingReference : Option String
  retryCount : Int
  failureReason : Option String
  createdAt : Instant
  updatedAt : Instant
  createdBy : Option String
  deriving DecidableEq, Repr

/-- `PaymentService.toResponse`. -/
def toResponse (p : Payment) : PaymentResponse where
  id := p.id
  paymentReference := p.paymentReference
  senderAccountId := p.senderAccountId
  receiverAccountId := p.receiverAccountId
  receiverBankCode := p.receiverBankCode
  amount := p.getAmountAsDecimal
  currency := p.currency
  status := p.status
  paymentType := p.paymentType
  description := p.description
  clearingReference := p.clearingReference
  retryCount := p.retryCount
  failureReason := p.failureReason
  createdAt := p.createdAt
  updatedAt := p.updatedAt
  createdBy := p.createdBy

/-! ## Exceptions and their HTTP answers -/

/-- What a service call can raise.  The last three come out of the flush or the commit. -/
inductive ServiceException where
  | paymentNotFound (message : String)
  | duplicatePayment (message : String)
  | paymentState (message : String)
  | arithmetic (cause : ArithmeticException)
  | dataIntegrityViolation
  | optimisticLockingFailure
  | transactionAborted
  deriving DecidableEq, Repr

/-- The HTTP status, code and message of `GlobalExceptionHandler.ErrorResponse`. -/
structure ErrorResponse where
  status : Nat
  code : String
  message : String
  deriving DecidableEq, Repr

def handleNotFound (message : String) : ErrorResponse := ⟨404, "PAYMENT_NOT_FOUND", message⟩

def handleDuplicate (message : String) : ErrorResponse := ⟨409, "DUPLICATE_PAYMENT", message⟩

def handleInvalidState (message : String) : ErrorResponse :=
  ⟨422, "INVALID_STATE_TRANSITION", message⟩

def handleUnexpected : ErrorResponse :=
  ⟨500, "INTERNAL_ERROR", "An unexpected error occurred. Please contact support."⟩

/-- The `@ExceptionHandler` that matches most specifically. -/
def ServiceException.handle : ServiceException → ErrorResponse
  | .paymentNotFound m => handleNotFound m
  | .duplicatePayment m => handleDuplicate m
  | .paymentState m => handleInvalidState m
  | .arithmetic _ => handleUnexpected
  | .dataIntegrityViolation => handleUnexpected
  | .optimisticLockingFailure => handleUnexpected
  | .transactionAborted => handleUnexpected

/-! ## The status guard -/

/-- `PaymentService.validateStatusTransition`. -/
def validateStatusTransition (old new : PaymentStatus) : Except ServiceException Unit :=
  if old = new then .ok ()
  else if old = .COMPLETED ∨ old = .CANCELLED then
    .error (.paymentState ("Cannot transition from " ++ old.name ++ " to " ++ new.name))
  else if new = .PENDING ∧ old ≠ .FAILED then
    .error (.paymentState ("Invalid transition: " ++ old.name ++ " → " ++ new.name))
  else .ok ()

/-- The relation between statuses that the guard accepts. -/
def Accepts (old new : PaymentStatus) : Prop := validateStatusTransition old new = .ok ()

instance (old new : PaymentStatus) : Decidable (Accepts old new) :=
  inferInstanceAs (Decidable (validateStatusTransition old new = .ok ()))

/-- The guard, read as a relation: nothing leaves COMPLETED or CANCELLED, and PENDING is entered
from FAILED only. -/
theorem accepts_iff (old new : PaymentStatus) :
    Accepts old new ↔ old = new ∨
      (old ≠ .COMPLETED ∧ old ≠ .CANCELLED ∧ (new = .PENDING → old = .FAILED)) := by
  cases old <;> cases new <;> decide

/-- A final status is left only to itself. -/
theorem Accepts.of_final {old new : PaymentStatus} (h : Accepts old new)
    (hold : old = .COMPLETED ∨ old = .CANCELLED) : new = old := by
  rcases (accepts_iff old new).mp h with heq | ⟨hcompleted, hcancelled, -⟩
  · exact heq.symm
  · rcases hold with hold | hold
    · exact absurd hold hcompleted
    · exact absurd hold hcancelled

end GlobalPayments.Payments

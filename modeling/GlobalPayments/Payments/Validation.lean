/-
# GlobalPayments.Payments.Validation — what `@Valid` makes of a request body.

Jackson builds a DTO in which every field may be null, and `@Valid` checks the constraints of its
fields; each constraint that a value breaks is one field error.  Null breaks only `@NotNull` and
`@NotBlank`.  A DTO without an error has its required fields, so it is one of the requests the service
is written for (`fieldErrors_eq_nil_iff`).

The errors stand in the order of the constraints in the source; the validator itself promises no
order.
-/
import GlobalPayments.Payments.Exceptions

namespace GlobalPayments.Payments

/-! ## Constraints -/

/-- A constraint on a field: the error where the value breaks it. -/
def constraint (field message : String) (holds : Bool) : List FieldError :=
  if holds then [] else [⟨field, some message⟩]

theorem constraint_eq_nil {field message : String} {holds : Bool} :
    constraint field message holds = [] ↔ holds = true := by
  unfold constraint
  split
  · exact iff_of_true rfl ‹_›
  · exact iff_of_false nofun ‹_›

/-- The message of a `@Size` without one. -/
def sizeMessage (min max : Nat) : String :=
  "size must be between " ++ toString min ++ " and " ++ toString max

/-- The message of a `@Digits` without one. -/
def digitsMessage (integer fraction : Nat) : String :=
  "numeric value out of bounds (<" ++ toString integer ++ " digits>.<" ++ toString fraction ++
    " digits> expected)"

/-- The message of a `@NotNull` without one. -/
def notNullMessage : String := "must not be null"

/-! ## `CreatePaymentRequest` -/

/-- A `CreatePaymentRequest` as it is read from a body. -/
structure CreatePaymentBody where
  senderAccountId : Option String := none
  receiverAccountId : Option String := none
  receiverBankCode : Option String := none
  amount : Option BigDecimal := none
  currency : Option Currency := none
  paymentType : Option PaymentType := none
  description : Option String := none
  idempotencyKey : Option String := none
  deriving DecidableEq, Repr

def CreatePaymentBody.fieldErrors (b : CreatePaymentBody) : List FieldError :=
  constraint "senderAccountId" "Sender account ID is required" (b.senderAccountId.any notBlank) ++
  constraint "senderAccountId" "Account ID must not exceed 34 characters (IBAN)"
    (sizeOpt 34 b.senderAccountId) ++
  constraint "receiverAccountId" "Receiver account ID is required"
    (b.receiverAccountId.any notBlank) ++
  constraint "receiverAccountId" (sizeMessage 0 34) (sizeOpt 34 b.receiverAccountId) ++
  constraint "receiverBankCode" "Receiver bank code (BIC) is required"
    (b.receiverBankCode.any notBlank) ++
  constraint "receiverBankCode" "BIC must be 8 or 11 characters"
    (b.receiverBankCode.all (size 8 11)) ++
  constraint "amount" "Amount is required" b.amount.isSome ++
  constraint "amount" "Amount must be greater than 0" (b.amount.all (decimalMin (1 / 100))) ++
  constraint "amount" "Amount exceeds single-transaction limit"
    (b.amount.all (decimalMax 1000000)) ++
  constraint "amount" (digitsMessage 10 2) (b.amount.all (digits 10 2)) ++
  constraint "currency" "Currency is required" b.currency.isSome ++
  constraint "paymentType" "Payment type is required" b.paymentType.isSome ++
  constraint "description" "Description must not exceed 140 characters" (sizeOpt 140 b.description) ++
  constraint "idempotencyKey" (sizeMessage 0 64) (sizeOpt 64 b.idempotencyKey)

/-- A request as the body that carries it. -/
def CreatePaymentRequest.toBody (r : CreatePaymentRequest) : CreatePaymentBody where
  senderAccountId := some r.senderAccountId
  receiverAccountId := some r.receiverAccountId
  receiverBankCode := some r.receiverBankCode
  amount := some r.amount
  currency := some r.currency
  paymentType := some r.paymentType
  description := r.description
  idempotencyKey := r.idempotencyKey

/-- The request a body carries, if nothing that is required is missing. -/
def CreatePaymentBody.toRequest (b : CreatePaymentBody) : Option CreatePaymentRequest := do
  let senderAccountId ← b.senderAccountId
  let receiverAccountId ← b.receiverAccountId
  let receiverBankCode ← b.receiverBankCode
  let amount ← b.amount
  let currency ← b.currency
  let paymentType ← b.paymentType
  some ⟨senderAccountId, receiverAccountId, receiverBankCode, amount, currency, paymentType,
    b.description, b.idempotencyKey⟩

/-- `@Valid` on a `CreatePaymentRequest`. -/
def CreatePaymentBody.validate (b : CreatePaymentBody) : Except JavaException CreatePaymentRequest :=
  match b.fieldErrors, b.toRequest with
  | [], some request => .ok request
  | errors, _ => .error (.methodArgumentNotValid errors)

@[simp] theorem sizeOpt_some (max : Nat) (s : String) : sizeOpt max (some s) = size 0 max s := rfl

/-- On a body with everything that is required, the constraints are those of a valid request. -/
theorem CreatePaymentRequest.fieldErrors_toBody (r : CreatePaymentRequest) :
    r.toBody.fieldErrors = [] ↔ r.valid = true := by
  simp only [CreatePaymentBody.fieldErrors, toBody, List.append_eq_nil_iff, constraint_eq_nil,
    valid, amountAdmitted, Bool.and_eq_true, Option.any_some, Option.all_some, Option.isSome_some,
    sizeOpt_some, and_assoc, true_and]

/-- **What the constraints leave**: bodies that carry a valid request. -/
theorem CreatePaymentBody.fieldErrors_eq_nil_iff (b : CreatePaymentBody) :
    b.fieldErrors = [] ↔ ∃ r : CreatePaymentRequest, b = r.toBody ∧ r.valid = true := by
  constructor
  · intro hnone
    have hall := hnone
    unfold fieldErrors at hall
    simp only [List.append_eq_nil_iff, constraint_eq_nil] at hall
    obtain ⟨⟨⟨⟨⟨⟨⟨⟨⟨⟨⟨⟨⟨hsender, -⟩, hreceiver⟩, -⟩, hbank⟩, -⟩, hamount⟩, -⟩, -⟩, -⟩, hcurrency⟩,
      htype⟩, -⟩, -⟩ := hall
    obtain ⟨sender?, receiver?, bank?, amount?, currency?, type?, description, key⟩ := b
    obtain ⟨sender, rfl, -⟩ := (Option.any_eq_true _ _).mp hsender
    obtain ⟨receiver, rfl, -⟩ := (Option.any_eq_true _ _).mp hreceiver
    obtain ⟨bank, rfl, -⟩ := (Option.any_eq_true _ _).mp hbank
    obtain ⟨amount, rfl⟩ := Option.isSome_iff_exists.mp hamount
    obtain ⟨currency, rfl⟩ := Option.isSome_iff_exists.mp hcurrency
    obtain ⟨type, rfl⟩ := Option.isSome_iff_exists.mp htype
    let r : CreatePaymentRequest :=
      ⟨sender, receiver, bank, amount, currency, type, description, key⟩
    exact ⟨r, rfl, r.fieldErrors_toBody.mp hnone⟩
  · rintro ⟨r, rfl, hvalid⟩
    exact r.fieldErrors_toBody.mpr hvalid

/-- A valid request is read back from its body. -/
theorem CreatePaymentRequest.validate_toBody {r : CreatePaymentRequest} (h : r.valid = true) :
    r.toBody.validate = .ok r := by
  unfold CreatePaymentBody.validate
  rw [r.fieldErrors_toBody.mpr h]
  rfl

/-- A body without an error carries a request. -/
theorem CreatePaymentBody.validate_valid {b : CreatePaymentBody} (h : b.fieldErrors = []) :
    ∃ r, b.validate = .ok r := by
  obtain ⟨r, rfl, hvalid⟩ := b.fieldErrors_eq_nil_iff.mp h
  exact ⟨r, CreatePaymentRequest.validate_toBody hvalid⟩

/-- A body with errors is refused with them. -/
theorem CreatePaymentBody.validate_invalid {b : CreatePaymentBody} (h : b.fieldErrors ≠ []) :
    b.validate = .error (.methodArgumentNotValid b.fieldErrors) := by
  unfold CreatePaymentBody.validate
  split
  · rename_i hnil _
    exact absurd hnil h
  · rfl

theorem CreatePaymentBody.validate_error {b : CreatePaymentBody} {e : JavaException}
    (h : b.validate = .error e) :
    b.fieldErrors ≠ [] ∧ e = .methodArgumentNotValid b.fieldErrors := by
  by_cases herrors : b.fieldErrors = []
  · obtain ⟨r, hr⟩ := validate_valid herrors
    cases hr.symm.trans h
  · rw [validate_invalid herrors] at h
    exact ⟨herrors, (Except.error.inj h).symm⟩

/-! ## `UpdateStatusRequest` -/

/-- An `UpdateStatusRequest` as it is read from a body. -/
structure UpdateStatusBody where
  newStatus : Option PaymentStatus := none
  clearingReference : Option String := none
  failureReason : Option String := none
  deriving DecidableEq, Repr

def UpdateStatusBody.fieldErrors (b : UpdateStatusBody) : List FieldError :=
  constraint "newStatus" notNullMessage b.newStatus.isSome ++
  constraint "clearingReference" (sizeMessage 0 50) (sizeOpt 50 b.clearingReference) ++
  constraint "failureReason" (sizeMessage 0 500) (sizeOpt 500 b.failureReason)

/-- `@Valid` on an `UpdateStatusRequest`. -/
def UpdateStatusBody.validate (b : UpdateStatusBody) : Except JavaException UpdateStatusRequest :=
  match b.fieldErrors, b.newStatus with
  | [], some newStatus => .ok ⟨newStatus, b.clearingReference, b.failureReason⟩
  | errors, _ => .error (.methodArgumentNotValid errors)

theorem UpdateStatusBody.validate_invalid {b : UpdateStatusBody} (h : b.fieldErrors ≠ []) :
    b.validate = .error (.methodArgumentNotValid b.fieldErrors) := by
  unfold UpdateStatusBody.validate
  split
  · rename_i hnil _
    exact absurd hnil h
  · rfl

/-- A body without an error carries a request. -/
theorem UpdateStatusBody.validate_valid {b : UpdateStatusBody} (h : b.fieldErrors = []) :
    ∃ newStatus, b.newStatus = some newStatus ∧
      b.validate = .ok ⟨newStatus, b.clearingReference, b.failureReason⟩ := by
  have hall := h
  unfold fieldErrors at hall
  simp only [List.append_eq_nil_iff, constraint_eq_nil] at hall
  obtain ⟨newStatus, hsome⟩ := Option.isSome_iff_exists.mp hall.1.1
  refine ⟨newStatus, hsome, ?_⟩
  unfold validate
  rw [h, hsome]

theorem UpdateStatusBody.validate_error {b : UpdateStatusBody} {e : JavaException}
    (h : b.validate = .error e) :
    b.fieldErrors ≠ [] ∧ e = .methodArgumentNotValid b.fieldErrors := by
  by_cases herrors : b.fieldErrors = []
  · obtain ⟨newStatus, -, hr⟩ := validate_valid herrors
    cases hr.symm.trans h
  · rw [validate_invalid herrors] at h
    exact ⟨herrors, (Except.error.inj h).symm⟩

end GlobalPayments.Payments

/-
# GlobalPayments.Payments.Exceptions — what a request to `PaymentController` can raise, and its answer.

`GlobalExceptionHandler` has five handler methods.  An exception goes to the one that is declared for
its class or for the nearest superclass that has one; the last is declared for `Exception`, so every
exception has a handler.
-/
import GlobalPayments.Payments.Entity

namespace GlobalPayments.Payments

/-! ## Classes -/

/-- The exception classes around a controller method. -/
inductive ExceptionClass where
  | Exception
  | RuntimeException
  | PaymentNotFoundException
  | DuplicatePaymentException
  | PaymentStateException
  | ArithmeticException
  | IllegalArgumentException
  | AccessDeniedException
  | HttpMessageNotReadableException
  | MethodArgumentTypeMismatchException
  | MissingServletRequestParameterException
  | MethodArgumentNotValidException
  | InvalidDataAccessApiUsageException
  | DataIntegrityViolationException
  | OptimisticLockingFailureException
  | TransactionSystemException
  deriving DecidableEq, Repr

/-- The nearest superclass among these. -/
def ExceptionClass.superclass : ExceptionClass → Option ExceptionClass
  | .Exception => none
  | .RuntimeException => some .Exception
  -- the servlet's and the validation's exceptions are checked ones
  | .MissingServletRequestParameterException => some .Exception
  | .MethodArgumentNotValidException => some .Exception
  | _ => some .RuntimeException

/-- A class and its superclasses, nearest first. -/
def ExceptionClass.lineage (c : ExceptionClass) : List ExceptionClass :=
  match c.superclass with
  | none => [c]
  | some super =>
      match super.superclass with
      | none => [c, super]
      | some root => [c, super, root]

/-- A field error of a `BindingResult`. -/
structure FieldError where
  field : String
  defaultMessage : Option String
  deriving DecidableEq, Repr

/-- An exception raised while a request is handled. -/
inductive JavaException where
  | service (e : ServiceException)
  | methodArgumentNotValid (fieldErrors : List FieldError)
  | httpMessageNotReadable
  | methodArgumentTypeMismatch
  | missingServletRequestParameter
  | illegalArgument (message : String)
  | accessDenied
  | invalidDataAccessApiUsage
  deriving DecidableEq, Repr

def ServiceException.className : ServiceException → ExceptionClass
  | .paymentNotFound _ => .PaymentNotFoundException
  | .duplicatePayment _ => .DuplicatePaymentException
  | .paymentState _ => .PaymentStateException
  | .arithmetic _ => .ArithmeticException
  | .dataIntegrityViolation => .DataIntegrityViolationException
  | .optimisticLockingFailure => .OptimisticLockingFailureException
  | .transactionAborted => .TransactionSystemException

def JavaException.className : JavaException → ExceptionClass
  | .service e => e.className
  | .methodArgumentNotValid _ => .MethodArgumentNotValidException
  | .httpMessageNotReadable => .HttpMessageNotReadableException
  | .methodArgumentTypeMismatch => .MethodArgumentTypeMismatchException
  | .missingServletRequestParameter => .MissingServletRequestParameterException
  | .illegalArgument _ => .IllegalArgumentException
  | .accessDenied => .AccessDeniedException
  | .invalidDataAccessApiUsage => .InvalidDataAccessApiUsageException

/-! ## `GlobalExceptionHandler` -/

/-- `ErrorResponse` with its status and, for a validation error, the field errors. -/
structure ErrorAnswer extends ErrorResponse where
  fieldErrors : List (String × String)
  deriving DecidableEq, Repr

/-- `Collectors.toMap(…, (first, second) -> first)`. -/
def keepFirst : List (String × String) → List (String × String)
  | [] => []
  | e :: rest => e :: (keepFirst rest).filter fun later => later.1 ≠ e.1

def handleValidation (fieldErrors : List FieldError) : ErrorAnswer where
  status := 400
  code := "VALIDATION_ERROR"
  message := "Request validation failed"
  fieldErrors := keepFirst
    (fieldErrors.map fun e => (e.field, e.defaultMessage.getD "Invalid value"))

/-- The classes of the `@ExceptionHandler` methods. -/
def exceptionHandlers : List ExceptionClass :=
  [.PaymentNotFoundException, .DuplicatePaymentException, .PaymentStateException,
    .MethodArgumentNotValidException, .Exception]

/-- The most specific declaration that matches. -/
def ExceptionClass.handledAs (c : ExceptionClass) : Option ExceptionClass :=
  c.lineage.find? (· ∈ exceptionHandlers)

/-- `GlobalExceptionHandler`. -/
def JavaException.handle (e : JavaException) : ErrorAnswer :=
  match e.className.handledAs, e with
  | some .PaymentNotFoundException, .service (.paymentNotFound message) =>
      { handleNotFound message with fieldErrors := [] }
  | some .DuplicatePaymentException, .service (.duplicatePayment message) =>
      { handleDuplicate message with fieldErrors := [] }
  | some .PaymentStateException, .service (.paymentState message) =>
      { handleInvalidState message with fieldErrors := [] }
  | some .MethodArgumentNotValidException, .methodArgumentNotValid fieldErrors =>
      handleValidation fieldErrors
  | _, _ => { handleUnexpected with fieldErrors := [] }

/-- No exception is left without a handler. -/
theorem handledAs_isSome (c : ExceptionClass) : c.handledAs.isSome = true := by
  cases c <;> rfl

/-- The exceptions of the service are answered as `ServiceException.handle` says. -/
theorem handle_service (e : ServiceException) :
    (JavaException.service e).handle.toErrorResponse = e.handle := by
  cases e <;> rfl

/-- **What the catch-all takes.**  Only the service's own three exceptions and the validation's have a
handler of their own; every other one is an internal error. -/
theorem handle_status (e : JavaException) :
    e.handle.status = 500 ∨ (∃ s, e = .service s) ∨ ∃ errors, e = .methodArgumentNotValid errors := by
  cases e with
  | service s => exact Or.inr (Or.inl ⟨s, rfl⟩)
  | methodArgumentNotValid errors => exact Or.inr (Or.inr ⟨errors, rfl⟩)
  | _ => exact Or.inl rfl

end GlobalPayments.Payments

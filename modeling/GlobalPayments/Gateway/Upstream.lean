/-
# GlobalPayments.Gateway.Upstream — the requests `paymentsService.js` sends.

Each route handler makes one call of a service method; each method builds its headers with
`buildHeaders` and hands them to the axios client, whose instance adds its default headers.  The
handlers pass on the body, the path and query parameters, the request id and the idempotency key —
of what `authenticate` attached to the request they pass on nothing.
-/
import GlobalPayments.Gateway.Auth

namespace GlobalPayments.Gateway

open Json

/-- A call of one of the four service methods. -/
inductive Call where
  | createPayment (payload : Json) (idempotencyKey : Option String)
  | getPaymentById (id : String)
  | getPaymentByReference (reference : String)
  | getPayments (senderAccountId : String) (page size : Int)

/-- The route whose handler makes the call. -/
def Call.route : Call → Route
  | .createPayment _ _ => .createPayment
  | .getPaymentById _ => .getPaymentById
  | .getPaymentByReference _ => .getPaymentByReference
  | .getPayments _ _ _ => .getPayments

/-- `buildHeaders`. -/
def buildHeaders (requestId : String) (idempotencyKey : Option String) : List (String × String) :=
  ("X-Request-ID", requestId) ::
    match idempotencyKey with
    | none => []
    | some key => if key = "" then [] else [("Idempotency-Key", key)]

/-- The `headers` of `axios.create`. -/
def clientHeaders : List (String × String) :=
  [("Content-Type", "application/json"), ("Accept", "application/json")]

/-- A request as it leaves the gateway. -/
structure UpstreamRequest where
  method : String
  path : String
  params : List (String × String)
  body : Option Json
  headers : List (String × String)

/-- The request a service method sends. -/
def Call.send (requestId : String) : Call → UpstreamRequest
  | .createPayment payload idempotencyKey =>
      { method := "POST", path := "/api/v1/payments", params := [], body := some payload
        headers := clientHeaders ++ buildHeaders requestId idempotencyKey }
  | .getPaymentById id =>
      { method := "GET", path := "/api/v1/payments/" ++ id, params := [], body := none
        headers := clientHeaders ++ buildHeaders requestId none }
  | .getPaymentByReference reference =>
      { method := "GET", path := "/api/v1/payments/ref/" ++ reference, params := [], body := none
        headers := clientHeaders ++ buildHeaders requestId none }
  | .getPayments senderAccountId page size =>
      { method := "GET", path := "/api/v1/payments", body := none
        params := [("senderAccountId", senderAccountId), ("page", toString page),
          ("size", toString size)]
        headers := clientHeaders ++ buildHeaders requestId none }

/-- The names of the headers any call sends. -/
theorem Call.headers_names (requestId : String) (call : Call) :
    ∀ h ∈ (call.send requestId).headers,
      h.1 ∈ ["Content-Type", "Accept", "X-Request-ID", "Idempotency-Key"] := by
  have hbuild : ∀ key, ∀ h ∈ buildHeaders requestId key,
      h.1 ∈ ["X-Request-ID", "Idempotency-Key"] := by
    intro key h hh
    unfold buildHeaders at hh
    rcases List.mem_cons.mp hh with rfl | hh
    · simp
    · split at hh
      · cases hh
      · split at hh
        · cases hh
        · rw [List.mem_singleton.mp hh]
          simp
  have hall : ∀ key, ∀ h ∈ clientHeaders ++ buildHeaders requestId key,
      h.1 ∈ ["Content-Type", "Accept", "X-Request-ID", "Idempotency-Key"] := by
    intro key h hh
    rcases List.mem_append.mp hh with hh | hh
    · simp only [clientHeaders, List.mem_cons, List.not_mem_nil, or_false] at hh
      rcases hh with rfl | rfl <;> simp
    · have := hbuild key h hh
      simp only [List.mem_cons, List.not_mem_nil, or_false] at this ⊢
      exact Or.inr (Or.inr this)
  cases call with
  | createPayment payload idempotencyKey => exact hall idempotencyKey
  | getPaymentById id => exact hall none
  | getPaymentByReference reference => exact hall none
  | getPayments senderAccountId page size => exact hall none

end GlobalPayments.Gateway

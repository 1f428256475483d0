/-
# GlobalPayments.Payments.Security — who may call payments-service.

`JwtAuthFilter` reads the Authorization header, validates the bearer token and puts an
`Authentication` with one `ROLE_…` authority per role into the security context; any failure on the
way leaves the context empty.  The filter chain then refuses a request without authentication, and
`@PreAuthorize` one without a suitable authority.

Parsing and validating the signed token is jjwt's work: `parseSignedClaims` is a parameter.
-/
import GlobalPayments.Library.Json

namespace GlobalPayments.Payments

/-! ## `JwtAuthFilter` -/

/-- The claims of a validated token that are read. -/
structure JwtClaims where
  subject : Option Json
  roles : Option Json

/-- The `UsernamePasswordAuthenticationToken` in the security context. -/
structure Authentication where
  username : String
  authorities : List String
  deriving DecidableEq, Repr

/-- `(List<String>) claims.get("roles")`, with `null` read as the empty list.  Anything but a list
is a `ClassCastException`. -/
def claimedRoles : Option Json → Option (List Json)
  | none => some []
  | some .null => some []
  | some (.arr items) => some items
  | some _ => none

/-- `new SimpleGrantedAuthority("ROLE_" + role)`.  A list element that is no string is a
`ClassCastException` too. -/
def grantedAuthority : Json → Option String
  | .str role => some ("ROLE_" ++ role)
  | .null => some "ROLE_null"
  | _ => none

/-- `new User(subject, "", authorities)` refuses a missing or empty name. -/
def userName : Option Json → Option String
  | some (.str subject) => if subject = "" then none else some subject
  | _ => none

/-- The `try` block of the filter. -/
def authenticationOf (claims : JwtClaims) : Option Authentication :=
  match claimedRoles claims.roles with
  | none => none
  | some roles =>
      match roles.mapM grantedAuthority with
      | none => none
      | some authorities =>
          match userName claims.subject with
          | none => none
          | some username => some ⟨username, authorities⟩

/-- Header names are compared without regard to case. -/
def sameHeader (a b : String) : Bool :=
  a.toList.map Char.toLower = b.toList.map Char.toLower

/-- `request.getHeader(name)`. -/
def getHeader (headers : List (String × String)) (name : String) : Option String :=
  (headers.find? fun h => sameHeader h.1 name).map (·.2)

/-- `doFilterInternal`, up to the rest of the chain. -/
def jwtAuthFilter (parseSignedClaims : String → Option JwtClaims)
    (headers : List (String × String)) : Option Authentication :=
  match getHeader headers "Authorization" with
  | none => none
  | some authHeader =>
      if "Bearer ".toList.isPrefixOf authHeader.toList then
        (parseSignedClaims (String.ofList (authHeader.toList.drop 7))).bind authenticationOf
      else none

/-! ## The filter chain and `@PreAuthorize` -/

/-- The handler methods of `PaymentController`. -/
inductive Endpoint where
  | createPayment | getPaymentById | getPaymentByReference | getPayments | updateStatus
  deriving DecidableEq, Repr

/-- The roles in `@PreAuthorize`. -/
def Endpoint.anyRole : Endpoint → List String
  | .createPayment => ["PAYMENT_INITIATOR", "ADMIN"]
  | .getPaymentById => ["PAYMENT_VIEWER", "PAYMENT_INITIATOR", "ADMIN"]
  | .getPaymentByReference => ["PAYMENT_VIEWER", "PAYMENT_INITIATOR", "ADMIN"]
  | .getPayments => ["PAYMENT_VIEWER", "PAYMENT_INITIATOR", "ADMIN"]
  | .updateStatus => ["INTERNAL_SERVICE"]

/-- What becomes of a request before the handler method runs. -/
inductive Access where
  | granted
  /-- `anyRequest().authenticated()` refuses it -/
  | unauthenticated
  /-- `@PreAuthorize` refuses it -/
  | denied
  deriving DecidableEq, Repr

def access (parseSignedClaims : String → Option JwtClaims) (endpoint : Endpoint)
    (headers : List (String × String)) : Access :=
  match jwtAuthFilter parseSignedClaims headers with
  | none => .unauthenticated
  | some authentication =>
      if endpoint.anyRole.any fun role => authentication.authorities.contains ("ROLE_" ++ role)
      then .granted
      else .denied

theorem getHeader_eq_none {headers : List (String × String)} {name : String}
    (h : ∀ header ∈ headers, sameHeader header.1 name = false) : getHeader headers name = none := by
  simpa [getHeader] using fun a b hab => h (a, b) hab

/-- Without an Authorization header there is no authentication. -/
theorem jwtAuthFilter_of_no_header {parseSignedClaims : String → Option JwtClaims}
    {headers : List (String × String)} (h : getHeader headers "Authorization" = none) :
    jwtAuthFilter parseSignedClaims headers = none := by
  rw [jwtAuthFilter, h]

end GlobalPayments.Payments

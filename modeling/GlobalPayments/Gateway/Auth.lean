/-
# GlobalPayments.Gateway.Auth — the gateway's `authenticate` and `requireRole`.

A request carries a bearer token; `jwt.verify` checks it and hands out its claims as JSON values of
any type.  `authenticate` turns them into the user of the request and into the `x-user-*` headers,
and whatever goes wrong on the way is answered with 401; `requireRole` answers 403 unless the user
has one of the route's roles.

`jwt.verify` is a parameter: it is the `jsonwebtoken` package that decides which tokens verify.
-/
import GlobalPayments.Library.Json

namespace GlobalPayments.Gateway

open Json

/-! ## The roles claim -/

/-- `roles.join(',')` with `roles` the claim or `[]`; only an array has a `join`, everything else is
a `TypeError`, and so is an item that has no text. -/
def joinRoles (roles : Option Json) : Except String (List Json × String) :=
  if truthy roles then
    match roles with
    | some (.arr items) =>
        if joinable items then .ok (items, ",".intercalate (joinItems items))
        else .error "TypeError"
    | _ => .error "TypeError"
  else .ok ([], "")

/-! ## Requests and replies -/

/-- The claims of a verified token that are read. -/
structure JwtPayload where
  sub : Option Json
  email : Option Json
  roles : Option Json

/-- `req.user`. -/
structure User where
  id : Option Json
  email : Option Json
  roles : List Json

/-- The headers `authenticate` adds to the request. -/
structure UserHeaders where
  xUserId : Option Json
  xUserRoles : String
  xUserEmail : Option Json

/-- An incoming request: the headers as they came, names in lower case, and what `authenticate`
attaches. -/
structure Request where
  headers : List (String × String)
  user : Option User := none
  userHeaders : Option UserHeaders := none

/-- `req.headers[name]`. -/
def Request.header (req : Request) (name : String) : Option String :=
  (req.headers.find? fun h => h.1 = name).map (·.2)

/-- A JSON reply that ends the request at the gateway. -/
structure Reply where
  status : Nat
  code : String
  message : String
  deriving DecidableEq, Repr

/-! ## `authenticate` -/

/-- `header.split(' ')[1]`. -/
def secondWord (header : String) : String :=
  String.ofList (((header.toList.dropWhile (· ≠ ' ')).drop 1).takeWhile (· ≠ ' '))

/-- The bearer token of a request. -/
def Request.bearerToken (req : Request) : Option String :=
  match req.header "authorization" with
  | none => none
  | some header => if "Bearer ".toList.isPrefixOf header.toList then some (secondWord header) else none

/-- The `catch` branch: `name` is the name of the error. -/
def tokenRefused (name : String) : Reply :=
  if name = "TokenExpiredError" then
    ⟨401, "TOKEN_EXPIRED", "Your session has expired. Please log in again."⟩
  else ⟨401, "INVALID_TOKEN", "Invalid authentication token"⟩

/-- `authenticate`, with `verify` for `jwt.verify` under the gateway's secret and issuer. -/
def authenticate (verify : String → Except String JwtPayload) (req : Request) :
    Except Reply Request :=
  match req.bearerToken with
  | none => .error ⟨401, "UNAUTHORIZED", "Authorization header missing or malformed"⟩
  | some token =>
      match verify token with
      | .error name => .error (tokenRefused name)
      | .ok decoded =>
          match joinRoles decoded.roles with
          | .error name => .error (tokenRefused name)
          | .ok (roles, joined) => .ok { req with
              user := some { id := decoded.sub, email := decoded.email, roles := roles }
              userHeaders := some
                { xUserId := decoded.sub, xUserRoles := joined, xUserEmail := decoded.email } }

/-! ## `requireRole` -/

/-- `user.roles.includes(role)` for some required role. -/
def User.hasRole (user : User) (requiredRoles : List String) : Bool :=
  requiredRoles.any fun role => user.roles.any fun r => r.isStr role

/-- `requireRole(...requiredRoles)`. -/
def requireRole (requiredRoles : List String) (req : Request) : Except Reply Unit :=
  match req.user with
  | none => .error ⟨401, "UNAUTHORIZED", "Not authenticated"⟩
  | some user =>
      if user.hasRole requiredRoles then .ok ()
      else .error ⟨403, "FORBIDDEN",
        "Required role: one of [" ++ ", ".intercalate requiredRoles ++ "]"⟩

/-! ## The payment routes -/

/-- The four routes of `routes/payments.js`. -/
inductive Route where
  | createPayment | getPaymentById | getPaymentByReference | getPayments
  deriving DecidableEq, Repr

def Route.requiredRoles : Route → List String
  | .createPayment => ["PAYMENT_INITIATOR", "ADMIN"]
  | .getPaymentById => ["PAYMENT_VIEWER", "PAYMENT_INITIATOR", "ADMIN"]
  | .getPaymentByReference => ["PAYMENT_VIEWER", "PAYMENT_INITIATOR", "ADMIN"]
  | .getPayments => ["PAYMENT_VIEWER", "PAYMENT_INITIATOR", "ADMIN"]

/-- The first two middlewares of a route. -/
def authorize (verify : String → Except String JwtPayload) (route : Route) (req : Request) :
    Except Reply Request :=
  match authenticate verify req with
  | .error reply => .error reply
  | .ok req' =>
      match requireRole route.requiredRoles req' with
      | .error reply => .error reply
      | .ok () => .ok req'

/-! ## What the middlewares accept -/

/-- The roles a payload's claim stands for. -/
def JwtPayload.roleList (decoded : JwtPayload) : List Json := arrayItems decoded.roles

theorem joinRoles_ok {roles : Option Json} {items : List Json} {joined : String}
    (h : joinRoles roles = .ok (items, joined)) :
    items = arrayItems roles ∧ (truthy roles = false ∨ ∃ xs, roles = some (.arr xs)) := by
  unfold joinRoles at h
  split at h
  · split at h
    · split at h
      · simp only [Except.ok.injEq, Prod.mk.injEq] at h
        exact ⟨h.1.symm, Or.inr ⟨_, rfl⟩⟩
      · cases h
    · cases h
  · rename_i hfalsy
    have hfalsy : truthy roles = false := by simpa using hfalsy
    simp only [Except.ok.injEq, Prod.mk.injEq] at h
    rw [arrayItems_of_falsy hfalsy]
    exact ⟨h.1.symm, Or.inl hfalsy⟩

/-- **What an authorised request went through**: its bearer token verified, the roles claim was
missing, falsy or an array, and one of the route's roles is in it. -/
theorem authorize_ok {verify : String → Except String JwtPayload} {route : Route}
    {req req' : Request} (h : authorize verify route req = .ok req') :
    ∃ token decoded user, req.bearerToken = some token ∧ verify token = .ok decoded ∧
      (truthy decoded.roles = false ∨ ∃ items, decoded.roles = some (.arr items)) ∧
      req'.user = some user ∧ user.id = decoded.sub ∧ user.roles = decoded.roleList ∧
      user.hasRole route.requiredRoles = true := by
  unfold authorize at h
  split at h
  · cases h
  · rename_i authenticated hauthenticated
    unfold authenticate at hauthenticated
    split at hauthenticated
    · cases hauthenticated
    · rename_i token htoken
      split at hauthenticated
      · cases hauthenticated
      · rename_i decoded hverified
        split at hauthenticated
        · cases hauthenticated
        · rename_i roles joined hroles
          obtain ⟨hlist, hshape⟩ := joinRoles_ok hroles
          obtain rfl := (Except.ok.inj hauthenticated).symm
          simp only [requireRole] at h
          split at h
          · cases h
          · rename_i hrequired
            split at hrequired
            · rename_i hhas
              obtain rfl := Except.ok.inj h
              exact ⟨token, decoded, _, htoken, hverified, hshape, rfl, rfl, hlist, hhas⟩
            · cases hrequired

end GlobalPayments.Gateway

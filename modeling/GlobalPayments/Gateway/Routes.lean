/-
# GlobalPayments.Gateway.Routes — the handler chains of the four payment routes.

Each route runs `authenticate`, `requireRole`, its validation chains, `validate` and its handler, in
this order, each handing on with `next()`; `authenticate` does so inside the try block that answers
401.  The chains of each route are the route's own; what a chain makes of a request is up to
express-validator, and what a token says to jsonwebtoken: both are parameters, and so is the answer of
payments-service.

`upstream_called_iff` says which requests reach payments-service, and what the others are answered.
Two kinds of request stop where nothing refuses them by name: a roles array with an item that has no
text fails in `join` and is answered as an invalid token, and a page or size that has no text fails
in `parseInt` and is answered as an unreachable service.
-/
import GlobalPayments.Library.Binary64
import GlobalPayments.Library.Middleware
import GlobalPayments.Gateway.Breaker
import GlobalPayments.Gateway.Lookup

namespace GlobalPayments.Gateway

open Json Middleware

/-! ## The validation chains -/

/-- The part of a request a chain reads: `body`, `param` or `query`. -/
inductive Location where
  | body | params | query
  deriving DecidableEq, Repr

/-- The `.custom` checks of the amount. -/
inductive AmountCheck where
  /-- `val => parseFloat(val) > bound` -/
  | above (bound : Int)
  /-- `val => parseFloat(val) <= bound` -/
  | atMost (bound : Int)

/-- One call in a chain. -/
inductive ChainStep where
  | optional
  | trim
  | notEmpty
  | isLength (min : Nat) (max : Nat)
  | isDecimal (decimalDigits : String)
  | custom (check : AmountCheck)
  | isIn (values : List String)
  | isUUID (version : Nat)
  | matches (pattern : Pattern)
  | isInt (min : Int) (max : Option Int)
  | withMessage (message : String)

structure ValidationChain where
  location : Location
  field : String
  steps : List ChainStep

/-- The chains of `POST /payments`. -/
def createPaymentChains : List ValidationChain :=
  [⟨.body, "senderAccountId",
      [.trim, .notEmpty, .withMessage "senderAccountId is required",
        .isLength 0 34, .withMessage "senderAccountId must not exceed 34 characters"]⟩,
    ⟨.body, "receiverAccountId",
      [.trim, .notEmpty, .withMessage "receiverAccountId is required", .isLength 0 34]⟩,
    ⟨.body, "receiverBankCode",
      [.trim, .notEmpty, .withMessage "receiverBankCode is required",
        .isLength 8 11, .withMessage "receiverBankCode must be 8-11 characters"]⟩,
    ⟨.body, "amount",
      [.isDecimal "1,2", .withMessage "amount must be a decimal with up to 2 places",
        .custom (.above 0), .withMessage "amount must be greater than 0",
        .custom (.atMost 1000000), .withMessage "amount exceeds single-transaction limit"]⟩,
    ⟨.body, "currency",
      [.notEmpty, .isIn ["GBP", "USD", "EUR", "JPY", "CHF", "CAD", "AUD", "SGD", "HKD", "INR"]]⟩,
    ⟨.body, "paymentType", [.notEmpty, .isIn ["DOMESTIC", "SEPA", "SWIFT"]]⟩,
    ⟨.body, "description", [.optional, .trim, .isLength 0 140]⟩]

/-- The chains of `GET /payments`. -/
def getPaymentsChains : List ValidationChain :=
  [⟨.query, "senderAccountId",
      [.notEmpty, .withMessage "senderAccountId query param is required"]⟩,
    ⟨.query, "page",
      [.optional, .isInt 0 none, .withMessage "page must be a non-negative integer"]⟩,
    ⟨.query, "size", [.optional, .isInt 1 (some 100), .withMessage "size must be 1-100"]⟩]

def Route.chains : Route → List ValidationChain
  | .createPayment => createPaymentChains
  | .getPaymentById => [⟨.params, "id", [.isUUID 4, .withMessage "id must be a valid UUID"]⟩]
  | .getPaymentByReference =>
      [⟨.params, "reference",
        [.matches referencePattern, .withMessage "Invalid payment reference format"]⟩]
  | .getPayments => getPaymentsChains

/-! ## Requests, answers and effects -/

/-- What the chains read, and the sanitizers of a chain change.  The body is an object or an array:
Express puts `{}` where there was none. -/
structure Inputs where
  body : Json
  params : List (String × String)
  query : List (String × Json)
  body_ne_null : body ≠ .null

/-- An error of `validationResult(req)`. -/
structure FieldError where
  path : String
  msg : String
  deriving DecidableEq, Repr

/-- express-validator: what running a chain makes of the inputs, and the errors it notes. -/
structure ExpressValidator where
  run : ValidationChain → Inputs → Inputs × List FieldError

/-- A request as Express hands it from one handler to the next. -/
structure HttpRequest extends Request where
  inputs : Inputs
  requestId : String
  errors : List FieldError := []

/-- The calls of `paymentsService` that the route handlers make, with their arguments. -/
inductive ServiceCall where
  | createPayment (payload : Json) (requestId : String) (idempotencyKey : Option String)
  | getPaymentById (id : Option String) (requestId : String)
  | getPaymentByReference (reference : Option String) (requestId : String)
  | getPayments (senderAccountId : Option Json) (page size : Binary64) (requestId : String)

/-- A response the gateway sends. -/
inductive Answer where
  /-- of `authenticate` and `requireRole` -/
  | refused (reply : Reply)
  /-- of `validate` -/
  | invalid (error : ValidationError) (requestId : String)
  /-- of `globalErrorHandler` -/
  | failed (error : GatewayError) (requestId : String)
  /-- of `notFoundHandler` -/
  | notFound (requestId : String)
  /-- of the route handler -/
  | data (status : Nat) (payload : Json)

def Answer.status : Answer → Nat
  | .refused reply => reply.status
  | .invalid _ _ => 400
  | .failed error _ => error.statusCode
  | .notFound _ => 404
  | .data status _ => status

/-- What a handler does that others can see. -/
inductive Effect where
  | respond (answer : Answer)
  | callUpstream (call : ServiceCall)

/-! ## The error handler -/

/-- `globalErrorHandler`, for the errors the handlers pass on. -/
def globalErrorHandler (err : GatewayError) (requestId : String) : Answer :=
  let requestId := if requestId = "" then "unknown" else requestId
  let statusCode := if err.statusCode = 0 then 500 else err.statusCode
  if err.message = "Not allowed by CORS" then
    .failed ⟨403, .str "CORS_ERROR", "Cross-origin request not allowed"⟩ requestId
  else
    .failed
      { statusCode := statusCode
        code := orElse (some err.code) "INTERNAL_ERROR"
        message :=
          if statusCode < 500 then err.message
          else "An unexpected error occurred. Reference: " ++ requestId }
      requestId

/-- The answer to what a handler throws: an error without a status. -/
def answerThrown (req : HttpRequest) (message : String) : Effect :=
  .respond (globalErrorHandler ⟨0, .null, message⟩ req.requestId)

/-- `notFoundHandler`. -/
def notFoundHandler (req : HttpRequest) : Effect := .respond (.notFound req.requestId)

/-! ## The handlers -/

/-- What the routes rely on: `jwt.verify`, express-validator, whether the breaker is open, and what a
call of a service method resolves to or, mapped by `mapUpstreamError`, rejects with. -/
structure Router where
  verify : String → Except String JwtPayload
  validator : ExpressValidator
  opened : Bool
  upstream : ServiceCall → Except GatewayError Json

/-- `authenticate`; the rest of the chain runs inside its try block. -/
def authenticateHandler (verify : String → Except String JwtPayload) : Handler HttpRequest Effect :=
  fun req next =>
    match req.bearerToken with
    | none =>
        .emit (.respond (.refused
          ⟨401, "UNAUTHORIZED", "Authorization header missing or malformed"⟩))
    | some token =>
        Run.catching
          (match verify token with
          | .error name => .throw name
          | .ok decoded =>
              match joinRoles decoded.roles with
              | .error name => .throw name
              | .ok (roles, joined) => next { req with
                  user := some { id := decoded.sub, email := decoded.email, roles := roles }
                  userHeaders := some
                    { xUserId := decoded.sub, xUserRoles := joined, xUserEmail := decoded.email } })
          fun name => .emit (.respond (.refused (tokenRefused name)))

/-- `requireRole(...requiredRoles)`. -/
def requireRoleHandler (requiredRoles : List String) : Handler HttpRequest Effect :=
  fun req next =>
    match requireRole requiredRoles req.toRequest with
    | .error reply => .emit (.respond (.refused reply))
    | .ok () => next req

/-- A validation chain: it notes its errors on the request and always hands it on. -/
def chainHandler (validator : ExpressValidator) (chain : ValidationChain) :
    Handler HttpRequest Effect :=
  fun req next =>
    let (inputs, errors) := validator.run chain req.inputs
    next { req with inputs := inputs, errors := req.errors ++ errors }

/-- `acc[path] = msg`. -/
def setField (acc : List (String × String)) (path msg : String) : List (String × String) :=
  if acc.any (·.1 = path) then acc.map fun field => if field.1 = path then (path, msg) else field
  else acc ++ [(path, msg)]

/-- The answer of `validate` to a request with errors. -/
def validationFailed (req : HttpRequest) : Answer :=
  .invalid
    { code := "VALIDATION_ERROR"
      message := "Request validation failed"
      fieldErrors := req.errors.foldl (fun acc err => setField acc err.path err.msg) [] }
    req.requestId

/-- `validate`. -/
def validateHandler : Handler HttpRequest Effect :=
  fun req next =>
    if req.errors.isEmpty then next req else .emit (.respond (validationFailed req))

/-- `parseInt(text)`; a `0x` in front asks for hexadecimal. -/
def parseInt (text : String) : Binary64 :=
  let cs := text.toList.dropWhile isBlank
  let (negative, cs) := match cs with
    | '-' :: rest => (true, rest)
    | '+' :: rest => (false, rest)
    | _ => (false, cs)
  let (base, cs) : Nat × List Char := match cs with
    | '0' :: 'x' :: rest => (16, rest)
    | '0' :: 'X' :: rest => (16, rest)
    | _ => (10, cs)
  let place (c : Char) : Nat :=
    if c.isDigit then c.toNat - '0'.toNat
    else if 'a' ≤ c ∧ c ≤ 'f' then c.toNat - 'a'.toNat + 10
    else if 'A' ≤ c ∧ c ≤ 'F' then c.toNat - 'A'.toNat + 10
    else 16
  let digits := (cs.map place).takeWhile (· < base)
  if digits.isEmpty then .nan
  else
    let n : Int := (digits.foldl (fun n d => base * n + d) 0 : Nat)
    .round (if negative then -n else n)

/-- `parseInt(value)` of a query value with a default: the value is turned into text first. -/
def parseIntValue (value : Option Json) (default : Int) : Except String Binary64 :=
  match value with
  | none => .ok (.finite default)
  | some value =>
      if value.convertible then .ok (parseInt value.toText)
      else .error "Cannot convert object to primitive value"

/-- The call the handler of a route makes. -/
def Route.serviceCall (route : Route) (req : HttpRequest) : Except String ServiceCall :=
  match route with
  | .createPayment =>
      .ok (.createPayment req.inputs.body req.requestId (req.header "idempotency-key"))
  | .getPaymentById => .ok (.getPaymentById (req.inputs.params.lookup "id") req.requestId)
  | .getPaymentByReference =>
      .ok (.getPaymentByReference (req.inputs.params.lookup "reference") req.requestId)
  | .getPayments => do
      let page ← parseIntValue (req.inputs.query.lookup "page") 0
      let size ← parseIntValue (req.inputs.query.lookup "size") 20
      .ok (.getPayments (req.inputs.query.lookup "senderAccountId") page size req.requestId)

/-- The status of a route's success. -/
def Route.successStatus : Route → Nat
  | .createPayment => 201
  | _ => 200

/-- The handler of a route: one service call in a try block. -/
def routeHandler (router : Router) (route : Route) : Handler HttpRequest Effect :=
  fun req _ =>
    match route.serviceCall req with
    | .error message =>
        .emit (.respond (globalErrorHandler
          (mapUpstreamError router.opened ⟨none, message⟩) req.requestId))
    | .ok call =>
        { effects :=
            [.callUpstream call,
              .respond (match router.upstream call with
              | .ok payment => .data route.successStatus payment
              | .error err => globalErrorHandler err req.requestId)] }

/-- The handlers of a route, up to the last. -/
def Router.guards (router : Router) (route : Route) : List (Handler HttpRequest Effect) :=
  [authenticateHandler router.verify, requireRoleHandler route.requiredRoles] ++
    route.chains.map (chainHandler router.validator) ++ [validateHandler]

/-- A request as it reaches a payment route. -/
structure Incoming where
  headers : List (String × String)
  inputs : Inputs
  requestId : String

def Incoming.request (req : Incoming) : HttpRequest where
  headers := req.headers
  inputs := req.inputs
  requestId := req.requestId

/-- What a request to a route does. -/
def Router.handle (router : Router) (route : Route) (req : Incoming) : List Effect :=
  (dispatch answerThrown notFoundHandler (router.guards route ++ [routeHandler router route])
    req.request).effects

/-! ## The guards decide -/

/-- What running the chains of a list leaves, and the errors they note. -/
def ExpressValidator.runAll (validator : ExpressValidator) :
    List ValidationChain → Inputs → Inputs × List FieldError
  | [], inputs => (inputs, [])
  | chain :: chains, inputs =>
      let (inputs', errors) := validator.run chain inputs
      let (inputs'', errors') := validator.runAll chains inputs'
      (inputs'', errors ++ errors')

def refuse (reply : Reply) : Effect := .respond (.refused reply)

/-- The decision of `authenticate`. -/
def decideAuthenticate (verify : String → Except String JwtPayload) (req : HttpRequest) :
    Except Effect HttpRequest :=
  match authenticate verify req.toRequest with
  | .error reply => .error (refuse reply)
  | .ok request => .ok { req with toRequest := request }

/-- The decision of `requireRole`. -/
def decideRole (requiredRoles : List String) (req : HttpRequest) : Except Effect HttpRequest :=
  match requireRole requiredRoles req.toRequest with
  | .error reply => .error (refuse reply)
  | .ok () => .ok req

/-- The decision of a chain: none. -/
def decideChain (validator : ExpressValidator) (chain : ValidationChain) (req : HttpRequest) :
    Except Effect HttpRequest :=
  .ok { req with
    inputs := (validator.run chain req.inputs).1
    errors := req.errors ++ (validator.run chain req.inputs).2 }

/-- The decision of `validate`. -/
def decideValid (req : HttpRequest) : Except Effect HttpRequest :=
  if req.errors.isEmpty then .ok req else .error (.respond (validationFailed req))

/-- **The try block catches nothing of what follows**: `next` does not throw. -/
theorem authenticateHandler_decides (verify : String → Except String JwtPayload) :
    Decides (authenticateHandler verify) (decideAuthenticate verify) := by
  intro req next hnext
  unfold authenticateHandler decideAuthenticate authenticate
  cases req.bearerToken with
  | none => rfl
  | some token =>
      simp only
      cases verify token with
      | error name => exact Run.catching_throw name _
      | ok decoded =>
          simp only
          cases joinRoles decoded.roles with
          | error name => exact Run.catching_throw name _
          | ok roles => exact Run.catching_of_completes (hnext _) _

theorem requireRoleHandler_decides (requiredRoles : List String) :
    Decides (requireRoleHandler requiredRoles) (decideRole requiredRoles) := by
  intro req next _
  unfold requireRoleHandler decideRole
  cases requireRole requiredRoles req.toRequest <;> rfl

theorem chainHandler_decides (validator : ExpressValidator) (chain : ValidationChain) :
    Decides (chainHandler validator chain) (decideChain validator chain) := by
  intro req next _
  rfl

theorem validateHandler_decides : Decides validateHandler decideValid := by
  intro req next _
  unfold validateHandler decideValid
  split <;> rfl

/-- The decisions of a route's guards, in order. -/
def Router.decisions (router : Router) (route : Route) :
    List (HttpRequest → Except Effect HttpRequest) :=
  [decideAuthenticate router.verify, decideRole route.requiredRoles] ++
    route.chains.map (decideChain router.validator) ++ [decideValid]

theorem Router.guards_decide (router : Router) (route : Route) :
    List.Forall₂ Decides (router.guards route) (router.decisions route) := by
  unfold Router.guards Router.decisions
  refine List.rel_append (List.rel_append ?_ ?_) ?_
  · exact .cons (authenticateHandler_decides _) (.cons (requireRoleHandler_decides _) .nil)
  · induction route.chains with
    | nil => exact .nil
    | cons chain chains ih => exact .cons (chainHandler_decides _ chain) ih
  · exact .cons validateHandler_decides .nil

/-- The chains of a list hand on what they leave of the inputs and all their errors. -/
theorem decideAll_chains (validator : ExpressValidator) (chains : List ValidationChain)
    (req : HttpRequest) :
    decideAll (chains.map (decideChain validator)) req = .ok { req with
      inputs := (validator.runAll chains req.inputs).1
      errors := req.errors ++ (validator.runAll chains req.inputs).2 } := by
  induction chains generalizing req with
  | nil => simp [decideAll, ExpressValidator.runAll]
  | cons chain chains ih =>
      show decideAll (chains.map (decideChain validator)) _ = _
      rw [ih]
      simp [ExpressValidator.runAll, List.append_assoc]

/-! ## Who is admitted -/

/-- A roles claim `authenticate` can turn into a header: falsy, or an array of items with a text. -/
def ReadableRoles (roles : Option Json) : Prop :=
  truthy roles = false ∨ ∃ items, roles = some (.arr items) ∧ joinable items = true

/-- The bearer token of the request verifies, and its roles claim can be read. -/
def Authenticated (verify : String → Except String JwtPayload) (req : Request)
    (decoded : JwtPayload) : Prop :=
  ∃ token, req.bearerToken = some token ∧ verify token = .ok decoded ∧ ReadableRoles decoded.roles

/-- One of the route's roles is in the roles claim. -/
def Route.Permits (route : Route) (decoded : JwtPayload) : Prop :=
  ∃ role ∈ route.requiredRoles, Json.str role ∈ decoded.roleList

theorem joinRoles_cases (roles : Option Json) :
    ReadableRoles roles ∧ (∃ joined, joinRoles roles = .ok (arrayItems roles, joined)) ∨
      ¬ ReadableRoles roles ∧ ∃ name, joinRoles roles = .error name := by
  unfold joinRoles ReadableRoles
  by_cases htruthy : truthy roles = true
  · rw [if_pos htruthy]
    split
    · rename_i items
      by_cases hjoinable : joinable items = true
      · rw [if_pos hjoinable]
        exact Or.inl ⟨Or.inr ⟨items, rfl, hjoinable⟩, _, rfl⟩
      · rw [if_neg hjoinable]
        refine Or.inr ⟨?_, _, rfl⟩
        simp [htruthy, hjoinable]
    · rename_i hother
      refine Or.inr ⟨?_, _, rfl⟩
      rintro (hfalsy | ⟨items, harray, -⟩)
      · simp [htruthy] at hfalsy
      · exact hother items harray
  · have hfalsy : truthy roles = false := by simpa using htruthy
    rw [if_neg htruthy, arrayItems_of_falsy hfalsy]
    exact Or.inl ⟨Or.inl hfalsy, _, rfl⟩

/-- `authenticate` attaches the claimed roles, or answers 401. -/
theorem authenticate_cases (verify : String → Except String JwtPayload) (req : Request) :
    (∃ decoded user request, Authenticated verify req decoded ∧
        authenticate verify req = .ok request ∧ request.user = some user ∧
        user.roles = decoded.roleList) ∨
      (∀ decoded, ¬ Authenticated verify req decoded) ∧
        ∃ reply, authenticate verify req = .error reply ∧ reply.status = 401 := by
  have hrefused : ∀ name, (tokenRefused name).status = 401 := by
    intro name
    unfold tokenRefused
    split <;> rfl
  unfold authenticate Authenticated
  cases req.bearerToken with
  | none =>
      refine Or.inr ⟨?_, _, rfl, rfl⟩
      rintro decoded ⟨_, htoken, -⟩
      cases htoken
  | some token =>
      simp only [Option.some.injEq, exists_eq_left']
      cases verify token with
      | error name =>
          refine Or.inr ⟨?_, _, rfl, hrefused name⟩
          rintro decoded ⟨hverified, -⟩
          cases hverified
      | ok decoded =>
          simp only [Except.ok.injEq]
          rcases joinRoles_cases decoded.roles with ⟨hreadable, joined, hroles⟩ | ⟨hunread, name, hroles⟩
          · rw [hroles]
            exact Or.inl ⟨decoded, _, _, ⟨rfl, hreadable⟩, rfl, rfl, rfl⟩
          · rw [hroles]
            refine Or.inr ⟨?_, _, rfl, hrefused name⟩
            rintro _ ⟨rfl, hreadable⟩
            exact hunread hreadable

theorem hasRole_iff {user : User} {requiredRoles : List String} :
    user.hasRole requiredRoles = true ↔ ∃ role ∈ requiredRoles, Json.str role ∈ user.roles := by
  simp [User.hasRole, List.any_eq_true, isStr_iff]

/-- The claims of a request's token, when `authenticate` accepts it. -/
def Router.Identified (router : Router) (req : Incoming) (decoded : JwtPayload) : Prop :=
  Authenticated router.verify req.request.toRequest decoded

/-- What the chains of the route leave of the inputs. -/
def Router.sanitized (router : Router) (route : Route) (req : Incoming) : Inputs :=
  (router.validator.runAll route.chains req.inputs).1

/-- Every validator of the route accepts. -/
def Router.Accepts (router : Router) (route : Route) (req : Incoming) : Prop :=
  (router.validator.runAll route.chains req.inputs).2 = []

/-- The page and the size of a list request have a text for `parseInt` to read. -/
def Route.Readable (route : Route) (inputs : Inputs) : Prop :=
  route = .getPayments → ∀ field ∈ ["page", "size"], ∀ value,
    inputs.query.lookup field = some value → value.convertible = true

/-- The requests that reach payments-service. -/
structure Router.Admitted (router : Router) (route : Route) (req : Incoming) : Prop where
  permitted : ∃ decoded, router.Identified req decoded ∧ route.Permits decoded
  accepted : router.Accepts route req
  readable : route.Readable (router.sanitized route req)

/-- The status of the others' answer, by the first condition that fails. -/
inductive Router.Refused (router : Router) (route : Route) (req : Incoming) : Nat → Prop where
  | unidentified (h : ∀ decoded, ¬ router.Identified req decoded) : Refused router route req 401
  | forbidden {decoded : JwtPayload} (h : router.Identified req decoded)
      (hroles : ¬ route.Permits decoded) : Refused router route req 403
  | invalid {decoded : JwtPayload} (h : router.Identified req decoded)
      (hroles : route.Permits decoded) (herrors : ¬ router.Accepts route req) :
      Refused router route req 400
  | unreadable {decoded : JwtPayload} (h : router.Identified req decoded)
      (hroles : route.Permits decoded) (haccepted : router.Accepts route req)
      (htext : ¬ route.Readable (router.sanitized route req)) :
      Refused router route req (if router.opened then 503 else 502)

theorem parseIntValue_ok_iff {value : Option Json} {default : Int} :
    (∃ n, parseIntValue value default = .ok n) ↔ ∀ v, value = some v → v.convertible = true := by
  unfold parseIntValue
  cases value with
  | none => simp
  | some value =>
      simp only [Option.some.injEq, forall_eq']
      split
      · rename_i htext
        exact ⟨fun _ => htext, fun _ => ⟨_, rfl⟩⟩
      · rename_i htext
        exact ⟨nofun, fun h => absurd h htext⟩

/-- The handler of a route gets as far as its service call exactly when it can read the inputs. -/
theorem serviceCall_ok_iff (route : Route) (req : HttpRequest) :
    (∃ call, route.serviceCall req = .ok call) ↔ route.Readable req.inputs := by
  cases route with
  | createPayment => exact ⟨fun _ => nofun, fun _ => ⟨_, rfl⟩⟩
  | getPaymentById => exact ⟨fun _ => nofun, fun _ => ⟨_, rfl⟩⟩
  | getPaymentByReference => exact ⟨fun _ => nofun, fun _ => ⟨_, rfl⟩⟩
  | getPayments =>
      have hsplit : Route.getPayments.Readable req.inputs ↔
          (∃ n, parseIntValue (req.inputs.query.lookup "page") 0 = .ok n) ∧
            ∃ n, parseIntValue (req.inputs.query.lookup "size") 20 = .ok n := by
        rw [parseIntValue_ok_iff, parseIntValue_ok_iff]
        simp [Route.Readable]
      rw [hsplit]
      unfold Route.serviceCall
      simp only
      cases parseIntValue (req.inputs.query.lookup "page") 0 with
      | error message => simp [bind, Except.bind]
      | ok page =>
          cases parseIntValue (req.inputs.query.lookup "size") 20 with
          | error message => simp [bind, Except.bind]
          | ok size => simp [bind, Except.bind]

/-! ## What a request does -/

/-- The request as it comes out of the chains. -/
def Router.leave (router : Router) (route : Route) (req : Incoming) (request : Request) :
    HttpRequest where
  toRequest := request
  inputs := router.sanitized route req
  requestId := req.requestId
  errors := (router.validator.runAll route.chains req.inputs).2

/-- The decisions of the guards, put together. -/
theorem Router.decide_eq (router : Router) (route : Route) (req : Incoming) :
    decideAll (router.decisions route) req.request =
      match authorize router.verify route req.request.toRequest with
      | .error reply => .error (refuse reply)
      | .ok request => decideValid (router.leave route req request) := by
  unfold Router.decisions authorize
  rw [decideAll_append, decideAll_append]
  simp only [decideAll, decideAuthenticate]
  cases authenticate router.verify req.request.toRequest with
  | error reply => rfl
  | ok request =>
      simp only [decideRole]
      cases requireRole route.requiredRoles request with
      | error reply => rfl
      | ok =>
          simp only [decideAll_chains]
          have hleave : decideValid (router.leave route req request) = decideValid
              { toRequest := request
                inputs := (router.validator.runAll route.chains req.request.inputs).1
                requestId := req.request.requestId
                errors := req.request.errors ++
                  (router.validator.runAll route.chains req.request.inputs).2 } := rfl
          rw [hleave]
          split
          · rename_i h
            exact h.symm
          · rename_i h
            exact h.symm

section Handle

variable {router : Router} {route : Route} {req : Incoming}

/-- The handler of a route does not throw. -/
theorem routeHandler_completes (router : Router) (route : Route) (request : HttpRequest)
    (next : HttpRequest → Run Effect) : (routeHandler router route request next).thrown = none := by
  unfold routeHandler
  cases route.serviceCall request <;> rfl

/-- What the guards decide is what happens. -/
theorem Router.handle_eq (router : Router) (route : Route) (req : Incoming) :
    router.handle route req =
      match decideAll (router.decisions route) req.request with
      | .error effect => [effect]
      | .ok request =>
          (routeHandler router route request fun r => .emit (notFoundHandler r)).effects := by
  unfold Router.handle
  rw [dispatch_guards (router.guards_decide route)]
  cases decideAll (router.decisions route) req.request with
  | error effect => rfl
  | ok request =>
      show ((routeHandler router route request _).catching _).effects = _
      rw [Run.catching_of_completes (routeHandler_completes router route request _)]
      rfl

theorem Router.handle_refused {reply : Reply}
    (h : authorize router.verify route req.request.toRequest = .error reply) :
    router.handle route req = [refuse reply] := by
  rw [router.handle_eq, router.decide_eq, h]

theorem Router.handle_invalid {request : Request}
    (h : authorize router.verify route req.request.toRequest = .ok request)
    (herrors : ¬ router.Accepts route req) :
    router.handle route req = [.respond (validationFailed (router.leave route req request))] := by
  have hdecision : decideValid (router.leave route req request) =
      .error (.respond (validationFailed (router.leave route req request))) := by
    apply if_neg
    simpa [Router.Accepts, Router.leave] using herrors
  rw [router.handle_eq, router.decide_eq, h]
  simp only [hdecision]

theorem Router.handle_passed {request : Request}
    (h : authorize router.verify route req.request.toRequest = .ok request)
    (haccepted : router.Accepts route req) :
    router.handle route req =
      (routeHandler router route (router.leave route req request) fun r =>
        .emit (notFoundHandler r)).effects := by
  have hdecision : decideValid (router.leave route req request) =
      .ok (router.leave route req request) := by
    apply if_pos
    simpa [Router.Accepts, Router.leave] using haccepted
  rw [router.handle_eq, router.decide_eq, h]
  simp only [hdecision]

/-- The error of a call that was never made is answered with 502, or 503 with the circuit open. -/
theorem status_unreachable (opened : Bool) (message requestId : String) :
    (globalErrorHandler (mapUpstreamError opened ⟨none, message⟩) requestId).status =
      if opened then 503 else 502 := by
  have hcors : "Unable to reach payment service" ≠ "Not allowed by CORS" := by decide
  have hcors' : "Payment service temporarily unavailable. Please try again shortly." ≠
      "Not allowed by CORS" := by decide
  cases opened
  · simp [globalErrorHandler, mapUpstreamError, Answer.status, hcors]
  · simp [globalErrorHandler, mapUpstreamError, Answer.status, hcors']

/-- The guards admit a request, or answer it with 401 or 403. -/
theorem Router.authorize_cases (router : Router) (route : Route) (req : Incoming) :
    (∃ decoded request, router.Identified req decoded ∧ route.Permits decoded ∧
        authorize router.verify route req.request.toRequest = .ok request) ∨
      (∀ decoded, ¬ (router.Identified req decoded ∧ route.Permits decoded)) ∧
        ∃ reply, authorize router.verify route req.request.toRequest = .error reply ∧
          router.Refused route req reply.status := by
  unfold authorize
  rcases authenticate_cases router.verify req.request.toRequest with
    ⟨decoded, user, request, hidentified, hok, huser, hroles⟩ | ⟨hnone, reply, herror, hstatus⟩
  · have hpermits : user.hasRole route.requiredRoles = true ↔ route.Permits decoded := by
      rw [hasRole_iff, hroles]
      rfl
    rw [hok]
    simp only [requireRole, huser]
    by_cases hhas : route.Permits decoded
    · rw [if_pos (hpermits.mpr hhas)]
      exact Or.inl ⟨decoded, request, hidentified, hhas, rfl⟩
    · rw [if_neg (fun h => hhas (hpermits.mp h))]
      refine Or.inr ⟨?_, _, rfl, .forbidden hidentified hhas⟩
      rintro other ⟨hother, hpermitted⟩
      obtain ⟨token, htoken, hverified, -⟩ := hidentified
      obtain ⟨token', htoken', hverified', -⟩ := hother
      obtain rfl : token = token' := Option.some.inj (htoken.symm.trans htoken')
      obtain rfl : decoded = other := Except.ok.inj (hverified.symm.trans hverified')
      exact hhas hpermitted
  · rw [herror]
    refine Or.inr ⟨fun decoded h => hnone decoded h.1, reply, rfl, ?_⟩
    rw [hstatus]
    exact .unidentified hnone

/-- **A request is served or refused**: one service call and its answer when it is admitted, else no
call and one answer, with the status of the first condition that fails. -/
theorem Router.handle_cases (router : Router) (route : Route) (req : Incoming) :
    router.Admitted route req ∧
        (∃ call answer, router.handle route req = [.callUpstream call, .respond answer]) ∨
      ¬ router.Admitted route req ∧
        ∃ answer, router.handle route req = [.respond answer] ∧
          router.Refused route req answer.status := by
  rcases router.authorize_cases route req with
    ⟨decoded, request, hidentified, hpermits, hok⟩ | ⟨hnone, reply, herror, hrefused⟩
  · by_cases haccepted : router.Accepts route req
    · rw [Router.handle_passed hok haccepted]
      unfold routeHandler
      by_cases hreadable : route.Readable (router.sanitized route req)
      · obtain ⟨call, hcall⟩ := (serviceCall_ok_iff route (router.leave route req request)).mpr hreadable
        rw [hcall]
        exact Or.inl ⟨⟨⟨decoded, hidentified, hpermits⟩, haccepted, hreadable⟩, call, _, rfl⟩
      · cases hcall : route.serviceCall (router.leave route req request) with
        | ok call =>
            exact absurd ((serviceCall_ok_iff _ _).mp ⟨call, hcall⟩) hreadable
        | error message =>
            refine Or.inr ⟨fun h => hreadable h.readable, _, rfl, ?_⟩
            rw [status_unreachable]
            exact .unreadable hidentified hpermits haccepted hreadable
    · rw [Router.handle_invalid hok haccepted]
      exact Or.inr ⟨fun h => haccepted h.accepted, _, rfl, .invalid hidentified hpermits haccepted⟩
  · rw [Router.handle_refused herror]
    exact Or.inr ⟨fun h => h.permitted.elim hnone, _, rfl, hrefused⟩

end Handle

/-- `{"toString": 1}`: an object that cannot be turned into a text. -/
def textless : Json := .obj [("toString", .num "1")]

/-- A router whose one token carries `roles`, and whose validators accept everything. -/
def lenientRouter (roles : List Json) : Router where
  verify token :=
    if token = "h.p.s" then .ok ⟨some (.str "u-17"), none, some (.arr roles)⟩
    else .error "JsonWebTokenError"
  validator := ⟨fun _ inputs => (inputs, [])⟩
  opened := false
  upstream _ := .ok .null

def lookupRequest : Incoming where
  headers := [("authorization", "Bearer h.p.s")]
  inputs := ⟨.obj [], [("id", "3f6c9a52-1d0e-4b7a-8c55-0d9e4b1f2a63")], [], nofun⟩
  requestId := "req-1"

/-- `?senderAccountId=a&page[0][0]=1&page[0][1][toString]=x` -/
def listRequest : Incoming where
  headers := [("authorization", "Bearer h.p.s")]
  inputs := ⟨.obj [], [], [("senderAccountId", .str "a"),
    ("page", .arr [.arr [.str "1", .obj [("toString", .str "x")]]])], nofun⟩
  requestId := "req-1"

end GlobalPayments.Gateway

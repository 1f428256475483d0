/-
# GlobalPayments.Gateway.Delegation — the caller's identity across the two services.

The gateway authenticates the caller and then calls payments-service, which authenticates again.
For the two to agree the upstream request has to carry the caller's credentials.  It carries none:
`buildHeaders` sends the request id and the idempotency key, and the `x-user-*` headers that
`authenticate` prepares stay on the incoming request (nor would `JwtAuthFilter` read them).  So every
call the gateway authorises is refused upstream as unauthenticated.
-/
import GlobalPayments.Gateway.Upstream
import GlobalPayments.Payments.Security

namespace GlobalPayments.Gateway

open Json Payments

/-- The handler method a service call is addressed to. -/
def Call.endpoint : Call → Endpoint
  | .createPayment _ _ => .createPayment
  | .getPaymentById _ => .getPaymentById
  | .getPaymentByReference _ => .getPaymentByReference
  | .getPayments _ _ _ => .getPayments

/-- The routes ask for the same roles on both sides. -/
theorem Call.requiredRoles_eq (call : Call) : call.route.requiredRoles = call.endpoint.anyRole := by
  cases call <;> rfl

/-- **What the upstream request should achieve**: payments-service derives the user's subject and
roles from it, and authorises the call. -/
structure SameAuthority (parseSignedClaims : String → Option JwtClaims) (user : User) (call : Call)
    (headers : List (String × String)) : Prop where
  identity : ∃ authentication, jwtAuthFilter parseSignedClaims headers = some authentication ∧
    user.id = some (.str authentication.username) ∧
    ∀ role, "ROLE_" ++ role ∈ authentication.authorities ↔ user.roles.any (·.isStr role) = true
  authorised : access parseSignedClaims call.endpoint headers = .granted

/-- Role authorities are told apart by the role. -/
theorem roleAuthority_mem {role : String} {roles : List String} :
    "ROLE_" ++ role ∈ roles.map ("ROLE_" ++ ·) ↔ role ∈ roles := by
  constructor
  · intro h
    obtain ⟨other, hother, heq⟩ := List.mem_map.mp h
    have htext := congrArg String.toList heq
    simp only [String.toList_append, List.append_cancel_left_eq] at htext
    rwa [← String.toList_inj.mp htext]
  · exact List.mem_map_of_mem

theorem mapM_grantedAuthority (roles : List String) :
    (roles.map Json.str).mapM grantedAuthority = some (roles.map ("ROLE_" ++ ·)) := by
  induction roles with
  | nil => rfl
  | cons role roles ih =>
      rw [List.map_cons, List.mapM_cons, ih]
      rfl

/-- **Forwarding the bearer token would do.**  A token with a name and a list of role names, sent on
in the Authorization header, gives payments-service the user the gateway saw. -/
theorem sameAuthority_of_bearer {parseSignedClaims : String → Option JwtClaims} {call : Call}
    {token subject : String} {email : Option Json} {roles : List String}
    (headers : List (String × String)) (hsubject : subject ≠ "")
    (hparse : parseSignedClaims token = some ⟨some (.str subject), some (.arr (roles.map .str))⟩)
    (hhas : User.hasRole ⟨some (.str subject), email, roles.map .str⟩ call.endpoint.anyRole = true) :
    SameAuthority parseSignedClaims ⟨some (.str subject), email, roles.map .str⟩ call
      (("Authorization", "Bearer " ++ token) :: headers) := by
  have hany : ∀ role, (roles.map Json.str).any (·.isStr role) = true ↔ role ∈ roles := by
    intro role
    simp [List.any_eq_true, isStr_iff]
  have hheader : getHeader (("Authorization", "Bearer " ++ token) :: headers) "Authorization" =
      some ("Bearer " ++ token) := by
    have hself : sameHeader "Authorization" "Authorization" = true := by decide
    simp only [getHeader, List.find?_cons, hself, Option.map_some]
  have hbearer : "Bearer ".toList.isPrefixOf ("Bearer " ++ token).toList = true := by
    rw [String.toList_append]
    exact List.isPrefixOf_iff_prefix.mpr (List.prefix_append _ _)
  have htoken : String.ofList (("Bearer " ++ token).toList.drop 7) = token := by
    rw [String.toList_append]
    show String.ofList token.toList = token
    exact String.ofList_toList
  have hauth : authenticationOf ⟨some (.str subject), some (.arr (roles.map .str))⟩ =
      some ⟨subject, roles.map ("ROLE_" ++ ·)⟩ := by
    simp only [authenticationOf, claimedRoles, mapM_grantedAuthority, userName, if_neg hsubject]
  have hfilter : jwtAuthFilter parseSignedClaims
      (("Authorization", "Bearer " ++ token) :: headers) =
      some ⟨subject, roles.map ("ROLE_" ++ ·)⟩ := by
    simp only [jwtAuthFilter, hheader, hbearer, if_true, htoken, hparse, Option.bind_some, hauth]
  refine ⟨⟨_, hfilter, rfl, fun role => ?_⟩, ?_⟩
  · rw [hany]
    exact roleAuthority_mem
  · rw [access, hfilter]
    apply if_pos
    obtain ⟨role, hrole, hmem⟩ := List.any_eq_true.mp hhas
    refine List.any_eq_true.mpr ⟨role, hrole, ?_⟩
    rw [List.contains_iff_mem]
    exact roleAuthority_mem.mpr ((hany role).mp hmem)

/-- The headers the HTTP client adds by itself (Host, User-Agent, Content-Length and the like) hold
no credentials. -/
def NoCredentials (transport : List (String × String)) : Prop :=
  ∀ header ∈ transport, sameHeader header.1 "Authorization" = false

/-- No service method sends an Authorization header. -/
theorem Call.no_authorization (requestId : String) (call : Call) :
    ∀ header ∈ (call.send requestId).headers, sameHeader header.1 "Authorization" = false := by
  intro header hheader
  have hname := call.headers_names requestId header hheader
  simp only [List.mem_cons, List.not_mem_nil, or_false] at hname
  rcases hname with hname | hname | hname | hname <;> rw [hname] <;> decide

/-- **Every call arrives unauthenticated.** -/
theorem upstream_unauthenticated (parseSignedClaims : String → Option JwtClaims)
    {transport : List (String × String)} (htransport : NoCredentials transport)
    (requestId : String) (call : Call) :
    jwtAuthFilter parseSignedClaims (transport ++ (call.send requestId).headers) = none := by
  apply jwtAuthFilter_of_no_header
  apply getHeader_eq_none
  intro header hheader
  rcases List.mem_append.mp hheader with hheader | hheader
  · exact htransport header hheader
  · exact call.no_authorization requestId header hheader

/-- **No authorised call keeps its authority.**  Whatever token the gateway accepts, on whatever
route, payments-service does not see the caller and refuses the call. -/
theorem authority_never_delegated (verify : String → Except String JwtPayload)
    (parseSignedClaims : String → Option JwtClaims) {transport : List (String × String)}
    (htransport : NoCredentials transport) (requestId : String) (call : Call)
    {req req' : Request} {user : User} (hauthorized : authorize verify call.route req = .ok req')
    (huser : req'.user = some user) :
    user.hasRole call.endpoint.anyRole = true ∧
      access parseSignedClaims call.endpoint (transport ++ (call.send requestId).headers) =
        .unauthenticated ∧
      ¬ SameAuthority parseSignedClaims user call (transport ++ (call.send requestId).headers) := by
  have hnone := upstream_unauthenticated parseSignedClaims htransport requestId call
  obtain ⟨token, decoded, user', -, -, -, huser', -, -, hhas⟩ := authorize_ok hauthorized
  obtain rfl : user' = user := Option.some.inj (huser'.symm.trans huser)
  refine ⟨?_, ?_, ?_⟩
  · rw [← call.requiredRoles_eq]
    exact hhas
  · rw [access, hnone]
  · rintro ⟨⟨authentication, hsome, -⟩, -⟩
    rw [hnone] at hsome
    cases hsome

/-! ## An administrator's call -/

/-- The claims of an administrator's token, as both sides read them. -/
def adminPayload : JwtPayload := ⟨some (.str "u-17"), none, some (.arr [.str "ADMIN"])⟩

def adminClaims : JwtClaims := ⟨some (.str "u-17"), some (.arr [.str "ADMIN"])⟩

/-- A request with that token. -/
def adminRequest : Request := ⟨[("authorization", "Bearer h.p.s")], none, none⟩

def adminVerify (token : String) : Except String JwtPayload :=
  if token = "h.p.s" then .ok adminPayload else .error "JsonWebTokenError"

def adminParse (token : String) : Option JwtClaims :=
  if token = "h.p.s" then some adminClaims else none

/-- The gateway authorises the administrator on every route. -/
theorem authorize_admin (route : Route) :
    authorize adminVerify route adminRequest = .ok
      { adminRequest with
        user := some ⟨some (.str "u-17"), none, [.str "ADMIN"]⟩
        userHeaders := some ⟨some (.str "u-17"), "ADMIN", none⟩ } := by
  cases route <;> rfl

/-- The administrator may create payments at the gateway, and is a stranger upstream. -/
theorem authority_never_delegated_admin :
    access adminParse .createPayment
        ([("User-Agent", "axios/1.6.7")] ++ ((Call.createPayment .null none).send "req-1").headers) =
      .unauthenticated := by
  have htransport : NoCredentials [("User-Agent", "axios/1.6.7")] := by
    intro header hheader
    obtain rfl := List.mem_singleton.mp hheader
    decide
  exact (authority_never_delegated adminVerify adminParse htransport "req-1"
    (.createPayment .null none) (authorize_admin .createPayment) rfl).2.1

/-- The two services share the signing secret: what verifies at the gateway parses upstream, with the
same claims. -/
def SharedSecret (verify : String → Except String JwtPayload)
    (parseSignedClaims : String → Option JwtClaims) : Prop :=
  ∀ token decoded, verify token = .ok decoded →
    parseSignedClaims token = some ⟨decoded.sub, decoded.roles⟩

theorem sharedSecret_admin : SharedSecret adminVerify adminParse := by
  intro token decoded h
  unfold adminVerify at h
  split at h
  · rename_i htoken
    obtain rfl := Except.ok.inj h
    exact if_pos htoken
  · cases h

/-- The gateway authorises a call that payments-service refuses. -/
theorem admin_call_refused :
    ¬ ∀ (verify : String → Except String JwtPayload) (parseSignedClaims : String → Option JwtClaims),
      SharedSecret verify parseSignedClaims →
      ∀ (requestId : String) (call : Call) (req req' : Request) (user : User),
        authorize verify call.route req = .ok req' → req'.user = some user →
        SameAuthority parseSignedClaims user call (call.send requestId).headers := by
  intro hall
  have hsame := hall adminVerify adminParse sharedSecret_admin "req-1" (.createPayment .null none)
    adminRequest _ _ (authorize_admin .createPayment) rfl
  have hrefused : access adminParse .createPayment
      ((Call.createPayment .null none).send "req-1").headers = .unauthenticated := by decide
  have hgranted : access adminParse .createPayment
      ((Call.createPayment .null none).send "req-1").headers = .granted := hsame.authorised
  rw [hrefused] at hgranted
  cases hgranted

end GlobalPayments.Gateway

/-
# GlobalPayments.Gateway.RateLimit — the gateway's limiter behind nginx.

The limiter allows 100 requests per IP and minute, and takes for the IP the first element of
`X-Forwarded-For`.  nginx appends the peer's address to whatever the peer put into that header itself,
so the first element is the peer's own choice as soon as it sends the header at all
(`keyGenerator_supplied`): a new value is a new key, and a new hundred.

`peer_limited_iff` says for which requests of a peer the bound of 100 holds.
-/
import GlobalPayments.Library.FixedWindow
import GlobalPayments.Library.Json

namespace GlobalPayments.Gateway

open FixedWindow

/-! ## nginx -/

/-- What a client chooses of a request: the path below `/api`, and the value of the `X-Forwarded-For`
it sends along, if it does. -/
structure Sent where
  path : String
  forwardedFor : Option String

/-- A request as nginx receives it. -/
structure ClientRequest where
  /-- `$remote_addr` -/
  peer : String
  sent : Sent

/-- `$proxy_add_x_forwarded_for`. -/
def proxyAddXForwardedFor (peer : String) : Option String → String
  | none => peer
  | some supplied => supplied ++ ", " ++ peer

/-- A request as the limiter sees it. -/
structure LimitedRequest where
  path : String
  /-- `req.headers['x-forwarded-for']` -/
  forwardedFor : Option String
  /-- the address of the connection: no `trust proxy` is set -/
  ip : String

/-- `location /api/v1/`, for a gateway that sees nginx under the address `proxy`. -/
def proxyPass (proxy : String) (req : ClientRequest) : LimitedRequest where
  path := req.sent.path
  forwardedFor := some (proxyAddXForwardedFor req.peer req.sent.forwardedFor)
  ip := proxy

/-! ## The limiter -/

/-- `skip`. -/
def skip (req : LimitedRequest) : Bool :=
  "/health".toList.isPrefixOf req.path.toList || "/metrics".toList.isPrefixOf req.path.toList

/-- `header.split(',')[0].trim()`. -/
def firstForwarded (header : String) : String :=
  String.ofList (Json.trim (header.toList.takeWhile (· ≠ ',')))

/-- `keyGenerator`. -/
def keyGenerator (req : LimitedRequest) : String :=
  match req.forwardedFor with
  | none => req.ip
  | some header => if firstForwarded header = "" then req.ip else firstForwarded header

/-- `max`. -/
def maxRequests : Nat := 100

/-- The key a request is counted under; a skipped one is not counted. -/
def countedUnder (req : LimitedRequest) : Option String :=
  if skip req then none else some (keyGenerator req)

/-- The requests of one window that `rateLimiter` hands on. -/
def rateLimiter (proxy : String) (window : List ClientRequest) : List ClientRequest :=
  admitted maxRequests (fun req => countedUnder (proxyPass proxy req)) (fun _ => 0) window

/-! ## Who chooses the key -/

/-- **The first element of the header is the client's**, once it sends one: neither its address nor
anything nginx adds comes into it. -/
theorem firstForwarded_supplied (peer supplied : String) :
    firstForwarded (proxyAddXForwardedFor peer (some supplied)) = firstForwarded supplied := by
  have htake : ∀ cs rest : List Char, (cs ++ ',' :: rest).takeWhile (· ≠ ',') =
      cs.takeWhile (· ≠ ',') := by
    intro cs rest
    induction cs with
    | nil => rfl
    | cons c cs ih =>
        by_cases hc : c = ','
        · simp [hc]
        · simp only [List.cons_append, List.takeWhile_cons, ih]
  unfold firstForwarded proxyAddXForwardedFor
  simp only [String.toList_append, List.append_assoc]
  exact congrArg (fun cs => String.ofList (Json.trim cs)) (htake supplied.toList (' ' :: peer.toList))

theorem keyGenerator_supplied (proxy peer path supplied : String)
    (hfirst : firstForwarded supplied ≠ "") :
    keyGenerator (proxyPass proxy ⟨peer, path, some supplied⟩) = firstForwarded supplied := by
  show (if firstForwarded (proxyAddXForwardedFor peer (some supplied)) = "" then proxy
    else firstForwarded (proxyAddXForwardedFor peer (some supplied))) = _
  rw [firstForwarded_supplied, if_neg hfirst]

/-! ## The bound for a peer -/

theorem sentBy_peer (peer : String) (requests : List Sent) :
    ∀ req ∈ requests.map (ClientRequest.mk peer), decide (req.peer = peer) = true := by
  intro req hreq
  obtain ⟨sent, -, rfl⟩ := List.mem_map.mp hreq
  exact decide_eq_true rfl

/-- **When a peer is limited.**  Whatever other peers send in the same window, at most 100 of a peer's
requests are handed on: exactly when it sends no more than 100, or every one of them is counted and
under the same key. -/
theorem peer_limited_iff (proxy peer : String) (requests : List Sent) :
    (∀ window : List ClientRequest,
        window.filter (·.peer = peer) = requests.map (ClientRequest.mk peer) →
        ((rateLimiter proxy window).filter (·.peer = peer)).length ≤ 100) ↔
      requests.length ≤ 100 ∨
        ∃ key, ∀ sent ∈ requests, countedUnder (proxyPass proxy ⟨peer, sent⟩) = some key := by
  have hpositive : 0 < maxRequests := by decide
  have hbound : (∀ window : List ClientRequest,
        window.filter (·.peer = peer) = requests.map (ClientRequest.mk peer) →
        ((rateLimiter proxy window).filter (·.peer = peer)).length ≤ maxRequests) ↔
      (requests.map (ClientRequest.mk peer)).length ≤ maxRequests ∨
        ∃ key, ∀ req ∈ requests.map (ClientRequest.mk peer),
          countedUnder (proxyPass proxy req) = some key :=
    interleavings_le_iff hpositive (fun req : ClientRequest => req.peer = peer)
      (sentBy_peer peer requests)
  rw [List.length_map] at hbound
  refine hbound.trans (or_congr_right (exists_congr fun key => ?_))
  exact List.forall_mem_map

/-! ## A hundred and one requests -/

/-- A hundred requests under one made-up address, and one more under another. -/
def spoofed : List Sent :=
  List.replicate 100 ⟨"/v1/payments", some "10.0.0.1"⟩ ++ [⟨"/v1/payments", some "10.0.0.2"⟩]

/-- All of them are handed on. -/
theorem spoofed_unlimited :
    (rateLimiter "127.0.0.1" (spoofed.map (ClientRequest.mk "203.0.113.9"))).length = 101 ∧
      ¬ ∀ (proxy peer : String) (requests : List Sent) (window : List ClientRequest),
        window.filter (·.peer = peer) = requests.map (ClientRequest.mk peer) →
        ((rateLimiter proxy window).filter (·.peer = peer)).length ≤ 100 := by
  have hfirst : countedUnder (proxyPass "127.0.0.1" ⟨"203.0.113.9", "/v1/payments", some "10.0.0.1"⟩) =
      some "10.0.0.1" := by decide
  have hsecond : countedUnder (proxyPass "127.0.0.1" ⟨"203.0.113.9", "/v1/payments", some "10.0.0.2"⟩) =
      some "10.0.0.2" := by decide
  have hall : rateLimiter "127.0.0.1" (spoofed.map (ClientRequest.mk "203.0.113.9")) =
      spoofed.map (ClientRequest.mk "203.0.113.9") := by
    apply admitted_eq_self
    intro k
    rw [spoofed, List.map_append, List.map_replicate, List.countP_append, List.countP_replicate,
      List.map_singleton, List.countP_singleton, hfirst, hsecond]
    -- the two keys differ, so no key has more than its hundred
    by_cases hk : k = "10.0.0.1"
    · subst hk
      decide
    · have hne : ¬ some "10.0.0.1" = some k := by
        intro h
        exact hk (Option.some.inj h).symm
      simp only [hne, decide_false, Bool.false_eq_true, if_false, maxRequests]
      split <;> omega
  have hlength : (rateLimiter "127.0.0.1" (spoofed.map (ClientRequest.mk "203.0.113.9"))).length =
      101 := by
    rw [hall, List.length_map, spoofed, List.length_append, List.length_replicate]
    rfl
  refine ⟨hlength, fun hbound => ?_⟩
  have hpeer : (spoofed.map (ClientRequest.mk "203.0.113.9")).filter (·.peer = "203.0.113.9") =
      spoofed.map (ClientRequest.mk "203.0.113.9") :=
    List.filter_eq_self.mpr (sentBy_peer _ spoofed)
  have h := hbound "127.0.0.1" "203.0.113.9" spoofed _ hpeer
  rw [hall, hpeer, ← hall, hlength] at h
  omega

end GlobalPayments.Gateway

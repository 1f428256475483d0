/-
# GlobalPayments.Gateway.Breaker — the calls to payments-service, through one circuit breaker.

All four service methods fire the same breaker.  Its action resolves or rejects as axios does, and
axios rejects an answer with a 4xx status as it rejects a network error; the response interceptor
passes the rejection on, and the options name no `errorFilter`.  So a client's unknown ids and invalid
requests are failures of payments-service to the breaker, and enough of them cut off every client.

`breaker_stays_closed` says how many are not enough.
-/
import GlobalPayments.Gateway.Upstream
import GlobalPayments.Library.CircuitBreaker
import GlobalPayments.Library.Runs

namespace GlobalPayments.Gateway

open Json Runs

/-! ## The client -/

/-- An HTTP answer of payments-service. -/
structure Response where
  status : Nat
  data : Json

structure AxiosError where
  response : Option Response
  message : String

/-- An axios client with the default `validateStatus`: 2xx answers resolve, and answers from 400 on
reject. -/
structure AxiosClient where
  validateStatus : Nat → Bool
  resolves : ∀ status, 200 ≤ status → status < 300 → validateStatus status = true
  rejects : ∀ status, 400 ≤ status → validateStatus status = false

/-- What a request resolves or rejects with, once its answer is there. -/
def AxiosClient.settle (client : AxiosClient) (response : Response) : Except AxiosError Response :=
  if client.validateStatus response.status then .ok response
  else .error
    { response := some response
      message := "Request failed with status code " ++ toString response.status }

/-- The `error_type` label of `proxyErrorTotal`. -/
def errorType (error : AxiosError) : String :=
  match error.response with
  | some response => if response.status = 0 then "network_error" else toString response.status
  | none => "network_error"

/-- The response interceptor, with the label it counts. -/
def responseInterceptor (result : Except AxiosError Response) :
    Except AxiosError Response × List String :=
  match result with
  | .ok response => (.ok response, [])
  | .error error => (.error error, [errorType error])

/-! ## The breaker -/

/-- `circuitBreakerOptions`. -/
def circuitBreakerOptions : BreakerOptions AxiosError where
  timeout := 10000
  errorThresholdPercentage := 50
  resetTimeout := 30000
  volumeThreshold := 5

/-- What `mapUpstreamError` makes of an error. -/
structure GatewayError where
  statusCode : Nat
  code : Json
  message : String

/-- `data?.label`. -/
def member (label : String) : Json → Option Json
  | .obj fields => fields.lookup label
  | _ => none

/-- `value || fallback`. -/
def orElse (value : Option Json) (fallback : String) : Json :=
  if truthy value then value.getD (.str fallback) else .str fallback

/-- `mapUpstreamError`; `opened` is `paymentsBreaker.opened`. -/
def mapUpstreamError (opened : Bool) (err : AxiosError) : GatewayError :=
  if opened then
    { statusCode := 503, code := .str "SERVICE_UNAVAILABLE"
      message := "Payment service temporarily unavailable. Please try again shortly." }
  else
    match err.response with
    | none =>
        { statusCode := 502, code := .str "UPSTREAM_UNAVAILABLE"
          message := "Unable to reach payment service" }
    | some response =>
        { statusCode := response.status
          code := orElse (member "code" response.data) "UPSTREAM_ERROR"
          message := (orElse (member "message" response.data) "Upstream error").toText }

/-- The gateway's calls to payments-service, by number. -/
structure PaymentsGateway (breaker : CircuitBreaker circuitBreakerOptions) where
  state : breaker.State
  /-- the requests without an answer -/
  requests : List (Nat × Call) := []
  /-- the calls the breaker waits for -/
  pending : List Nat := []
  /-- the calls the breaker did not let through -/
  refused : List Nat := []
  results : List (Nat × Except GatewayError Json) := []
  proxyErrors : List String := []

inductive Action where
  /-- a route handler calls a service method -/
  | fire (n : Nat) (call : Call)
  | answer (n : Nat) (response : Response)
  /-- no answer: the connection fails, or axios gives up -/
  | unreachable (n : Nat) (message : String)
  /-- the breaker gives up on a call -/
  | timeout (n : Nat)
  /-- an interval of the breaker's window ends -/
  | elapse

section Step

variable {breaker : CircuitBreaker circuitBreakerOptions}

/-- `paymentsBreaker.opened`. -/
def PaymentsGateway.opened (s : PaymentsGateway breaker) : Bool :=
  breaker.circuit s.state = .opened

/-- The breaker's action of a call has ended; the route handler maps an error. -/
def PaymentsGateway.settle (s : PaymentsGateway breaker) (n : Nat) :
    Except AxiosError Json → PaymentsGateway breaker
  | .ok data =>
      { s with
        state := breaker.succeed s.state
        pending := s.pending.filter (· ≠ n)
        results := s.results ++ [(n, .ok data)] }
  | .error error =>
      let s' : PaymentsGateway breaker :=
        { s with state := breaker.fail error s.state, pending := s.pending.filter (· ≠ n) }
      { s' with results := s'.results ++ [(n, .error (mapUpstreamError s'.opened error))] }

/-- A request has ended.  Its outcome goes through the interceptor to the service method, which
returns `response.data`, and from there to the breaker if that still waits for it. -/
def PaymentsGateway.receive (s : PaymentsGateway breaker) (n : Nat)
    (outcome : Except AxiosError Response) : PaymentsGateway breaker :=
  let (result, labels) := responseInterceptor outcome
  let s' : PaymentsGateway breaker :=
    { s with
      requests := s.requests.filter (·.1 ≠ n)
      proxyErrors := s.proxyErrors ++ labels }
  if n ∈ s.pending then s'.settle n (result.map Response.data) else s'

/-- The number of a call is its own. -/
def PaymentsGateway.fresh (s : PaymentsGateway breaker) (n : Nat) : Bool :=
  s.requests.all (·.1 ≠ n) && s.results.all (·.1 ≠ n)

/-- One step of the gateway. -/
def step (client : AxiosClient) (s : PaymentsGateway breaker) :
    Action → Option (PaymentsGateway breaker)
  | .fire n call =>
      if s.fresh n then
        let s' : PaymentsGateway breaker := { s with state := breaker.fire s.state }
        if breaker.admits s.state then some
          { s' with requests := s.requests ++ [(n, call)], pending := s.pending ++ [n] }
        else some
          { s' with
            refused := s.refused ++ [n]
            results := s.results ++
              [(n, .error (mapUpstreamError s'.opened ⟨none, "Breaker is open"⟩))] }
      else none
  | .answer n response =>
      if s.requests.any (·.1 = n) then some (s.receive n (client.settle response)) else none
  | .unreachable n message =>
      if s.requests.any (·.1 = n) then some (s.receive n (.error ⟨none, message⟩)) else none
  | .timeout n =>
      if n ∈ s.pending then some (s.settle n (.error ⟨none, "Timed out after 10000ms"⟩)) else none
  | .elapse => some { s with state := breaker.elapse s.state }

/-- The gateway after its start. -/
def PaymentsGateway.start (breaker : CircuitBreaker circuitBreakerOptions) :
    PaymentsGateway breaker where
  state := breaker.init

end Step

/-! ## When the circuit stays closed -/

section Closed

variable {client : AxiosClient} {breaker : CircuitBreaker circuitBreakerOptions}

/-- payments-service answers in time, and with a 2xx or 4xx status. -/
def InTime : Action → Prop
  | .answer _ response =>
      200 ≤ response.status ∧ response.status < 300 ∨ 400 ≤ response.status ∧ response.status < 500
  | .unreachable _ _ => False
  | .timeout _ => False
  | _ => True

/-- A 4xx answer finds fewer than five calls in the breaker's window, or is one of at most half of
them that failed. -/
def Tolerable (s : PaymentsGateway breaker) : Action → Prop
  | .answer _ response => 400 ≤ response.status →
      breaker.fires s.state < 5 ∨ 2 * (breaker.failures s.state + 1) ≤ breaker.fires s.state
  | _ => True

/-- The circuit is closed, and no call has found it open. -/
def PaymentsGateway.Serving (s : PaymentsGateway breaker) : Prop :=
  breaker.circuit s.state = .closed ∧ s.refused = []

theorem exceeded_iff (fires failures : Nat) :
    circuitBreakerOptions.exceeded fires failures = true ↔
      5 ≤ fires ∧ fires < 2 * (failures + 1) := by
  simp only [BreakerOptions.exceeded, Bool.and_eq_true, decide_eq_true_eq]
  simp only [circuitBreakerOptions]
  omega

/-- A 2xx answer resolves. -/
theorem settle_ok (client : AxiosClient) {response : Response} (h : 200 ≤ response.status)
    (h' : response.status < 300) : client.settle response = .ok response := by
  rw [AxiosClient.settle, client.resolves _ h h', if_pos rfl]

/-- A 4xx answer rejects. -/
theorem settle_error (client : AxiosClient) {response : Response} (h : 400 ≤ response.status) :
    ∃ error, client.settle response = .error error := by
  rw [AxiosClient.settle, client.rejects _ h]
  exact ⟨_, rfl⟩

/-- The breaker sees a response as a success, and whatever axios rejects as a failure. -/
theorem receive_cases (s : PaymentsGateway breaker) (n : Nat)
    (outcome : Except AxiosError Response) :
    (s.receive n outcome).refused = s.refused ∧
      (s.receive n outcome).state =
        if n ∈ s.pending then
          match outcome with
          | .ok _ => breaker.succeed s.state
          | .error error => breaker.fail error s.state
        else s.state := by
  unfold PaymentsGateway.receive
  cases outcome with
  | ok response =>
      simp only [responseInterceptor]
      split <;> exact ⟨rfl, rfl⟩
  | error error =>
      simp only [responseInterceptor]
      split <;> exact ⟨rfl, rfl⟩

/-- A failure the window can take leaves the circuit closed. -/
theorem fail_closed {state : breaker.State} (error : AxiosError)
    (hclosed : breaker.circuit state = .closed)
    (hroom : breaker.fires state < 5 ∨ 2 * (breaker.failures state + 1) ≤ breaker.fires state) :
    breaker.circuit (breaker.fail error state) = .closed := by
  have hexceeded :
      ¬ circuitBreakerOptions.exceeded (breaker.fires state) (breaker.failures state) = true := by
    rw [exceeded_iff]
    omega
  rw [breaker.circuit_fail error state rfl hclosed, if_neg hexceeded]

theorem step_serving {s s' : PaymentsGateway breaker} {a : Action} (hserving : s.Serving)
    (hintime : InTime a) (htolerable : Tolerable s a) (h : step client s a = some s') :
    s'.Serving := by
  obtain ⟨hclosed, hrefused⟩ := hserving
  cases a with
  | fire n call =>
      simp only [step, breaker.admits_closed _ hclosed, if_true] at h
      split at h <;> cases h
      exact ⟨breaker.circuit_fire _ hclosed, hrefused⟩
  | answer n response =>
      simp only [step] at h
      split at h <;> cases h
      obtain ⟨hsame, hstate⟩ := receive_cases s n (client.settle response)
      refine ⟨?_, hsame.trans hrefused⟩
      rw [hstate]
      split
      case isFalse => exact hclosed
      rcases hintime with ⟨hlow, hhigh⟩ | ⟨hlow, -⟩
      · rw [settle_ok client hlow hhigh]
        exact breaker.circuit_succeed _ hclosed
      · obtain ⟨error, herror⟩ := settle_error client hlow
        rw [herror]
        exact fail_closed error hclosed (htolerable hlow)
  | unreachable n message => exact hintime.elim
  | timeout n => exact hintime.elim
  | elapse =>
      cases h
      exact ⟨breaker.circuit_elapse _ hclosed, hrefused⟩

/-- **Few enough client errors cut nobody off.**  In every run in which payments-service answers in
time with 2xx and 4xx statuses, and each 4xx answer finds fewer than five calls in the window or at
most half of them failed, itself included, the circuit never opens and no call is refused. -/
theorem breaker_stays_closed {trace : List Action} {s : PaymentsGateway breaker}
    (hrun : RunsUnder (step client) (fun s a => InTime a ∧ Tolerable s a) (.start breaker) trace s) :
    s.opened = false ∧ s.refused = [] := by
  have hserving : s.Serving := by
    refine hrun.invariant (I := PaymentsGateway.Serving) ?_ ⟨breaker.circuit_init, rfl⟩
    rintro s a s' hs ⟨hintime, htolerable⟩ hstep
    exact step_serving hs hintime htolerable hstep
  refine ⟨?_, hserving.2⟩
  rw [PaymentsGateway.opened, hserving.1]
  rfl

/-- Any other 4xx answer opens a closed circuit. -/
theorem intolerable_opens {s s' : PaymentsGateway breaker} {n : Nat} {response : Response}
    (hclosed : breaker.circuit s.state = .closed) (hpending : n ∈ s.pending)
    (hexcess : ¬ Tolerable s (.answer n response))
    (h : step client s (.answer n response) = some s') : s'.opened = true := by
  simp only [Tolerable, Classical.not_imp] at hexcess
  obtain ⟨hlow, hexcess⟩ := hexcess
  simp only [step] at h
  split at h <;> cases h
  obtain ⟨error, herror⟩ := settle_error client hlow
  have hexceeded :
      circuitBreakerOptions.exceeded (breaker.fires s.state) (breaker.failures s.state) = true := by
    rw [exceeded_iff]
    omega
  rw [PaymentsGateway.opened, (receive_cases s n _).2, if_pos hpending, herror]
  simp only [breaker.circuit_fail error s.state rfl hclosed, hexceeded, if_true, decide_true]

end Closed

/-! ## Unknown ids -/

/-- axios as it is by default. -/
def defaultClient : AxiosClient where
  validateStatus status := 200 ≤ status && status < 300
  resolves status h h' := by simp [h, h']
  rejects status h := by
    simp only [Bool.and_eq_false_iff, decide_eq_false_iff_not]
    omega

def found : Response := ⟨200, .obj []⟩

def notFound : Response := ⟨404, .obj [("code", .str "PAYMENT_NOT_FOUND")]⟩

/-- Calls from number `n` on, one after the other, with these answers. -/
def lookups (n : Nat) : List Response → List Action
  | [] => []
  | response :: rest =>
      .fire n (.getPaymentById "c0ffee") :: .answer n response :: lookups (n + 1) rest

/-- The last three of six calls name unknown ids. -/
theorem breaker_stays_closed_half :
    ∃ s, RunsUnder (step defaultClient) (fun s a => InTime a ∧ Tolerable s a)
        (.start (.rolling circuitBreakerOptions))
        (lookups 1 [found, found, found, notFound, notFound, notFound]) s ∧
      s.opened = false ∧ s.refused = [] := by
  have hfound : ∀ n, InTime (.answer n found) := fun _ => Or.inl (by decide)
  have hnotFound : ∀ n, InTime (.answer n notFound) := fun _ => Or.inr (by decide)
  have hsuccess : ¬ 400 ≤ found.status := by decide
  have hrun : ∃ s, RunsUnder (step defaultClient) (fun s a => InTime a ∧ Tolerable s a)
      (.start (.rolling circuitBreakerOptions))
      (lookups 1 [found, found, found, notFound, notFound, notFound]) s :=
    ⟨_, .cons ⟨trivial, trivial⟩ rfl (.cons ⟨hfound 1, fun h => (hsuccess h).elim⟩ rfl
      (.cons ⟨trivial, trivial⟩ rfl (.cons ⟨hfound 2, fun h => (hsuccess h).elim⟩ rfl
      (.cons ⟨trivial, trivial⟩ rfl (.cons ⟨hfound 3, fun h => (hsuccess h).elim⟩ rfl
      (.cons ⟨trivial, trivial⟩ rfl (.cons ⟨hnotFound 4, fun _ => Or.inl (by decide)⟩ rfl
      (.cons ⟨trivial, trivial⟩ rfl (.cons ⟨hnotFound 5, fun _ => Or.inr (by decide)⟩ rfl
      (.cons ⟨trivial, trivial⟩ rfl (.cons ⟨hnotFound 6, fun _ => Or.inr (by decide)⟩ rfl
      (.nil _))))))))))))⟩
  obtain ⟨s, hrun⟩ := hrun
  exact ⟨s, hrun, breaker_stays_closed hrun⟩

/-- Five calls name unknown ids, and all are answered: the next call, whoever makes it, is refused. -/
theorem breaker_opens_on_client_errors :
    (∃ s, run (step defaultClient) (.start (.rolling circuitBreakerOptions))
        (lookups 1 [notFound, notFound, notFound, notFound, notFound] ++
          [.fire 6 (.createPayment (.obj []) none)]) = some s ∧
      s.opened = true ∧ s.refused = [6] ∧
      s.results.getLast? = some (6, .error
        { statusCode := 503, code := .str "SERVICE_UNAVAILABLE"
          message := "Payment service temporarily unavailable. Please try again shortly." })) ∧
    ¬ ∀ (trace : List Action) (s : PaymentsGateway (.rolling circuitBreakerOptions)),
      (∀ a ∈ trace, InTime a) →
      run (step defaultClient) (.start (.rolling circuitBreakerOptions)) trace = some s →
      s.opened = false ∧ s.refused = [] := by
  have hopened : ∃ s, run (step defaultClient) (.start (.rolling circuitBreakerOptions))
        (lookups 1 [notFound, notFound, notFound, notFound, notFound] ++
          [.fire 6 (.createPayment (.obj []) none)]) = some s ∧
      s.opened = true ∧ s.refused = [6] ∧
      s.results.getLast? = some (6, .error
        { statusCode := 503, code := .str "SERVICE_UNAVAILABLE"
          message := "Payment service temporarily unavailable. Please try again shortly." }) :=
    ⟨_, rfl, rfl, rfl, rfl⟩
  refine ⟨hopened, fun hall => ?_⟩
  obtain ⟨s, hrun, hstate, -⟩ := hopened
  have hintime : ∀ a ∈ lookups 1 [notFound, notFound, notFound, notFound, notFound] ++
      [.fire 6 (.createPayment (.obj []) none)], InTime a := by
    simp [lookups, InTime, notFound]
  have hclosed := (hall _ s hintime hrun).1
  rw [hstate] at hclosed
  cases hclosed

end GlobalPayments.Gateway

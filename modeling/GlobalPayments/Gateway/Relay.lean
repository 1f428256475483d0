/-
# GlobalPayments.Gateway.Relay — what becomes of an error that payments-service answers with.

A rejected call passes through two functions: `mapUpstreamError` in the route handler, which looks at
the breaker before it looks at the error, and `globalErrorHandler`, which looks at the message of what
it is given.  The breaker counts the rejection before the handler sees it, so the answer that opens
the circuit is itself reported as an outage.

`relayed_iff` says when the client gets the status, the code and, below 500, the message that
payments-service sent.
-/
import GlobalPayments.Gateway.Routes

namespace GlobalPayments.Gateway

open Json Runs

/-- The request id in a response. -/
def shownId (requestId : String) : String := if requestId = "" then "unknown" else requestId

/-- The answer that hands on an error with this status, code and message; from 500 on the message is
the gateway's own. -/
def relayed (status : Nat) (code message requestId : String) : Answer :=
  .failed
    { statusCode := status
      code := .str code
      message :=
        if status < 500 then message
        else "An unexpected error occurred. Reference: " ++ shownId requestId }
    (shownId requestId)

/-- What the client gets for a rejected call, `g` being the gateway when the error is mapped. -/
def PaymentsGateway.answerRejected {breaker : CircuitBreaker circuitBreakerOptions}
    (g : PaymentsGateway breaker) (err : AxiosError) (requestId : String) : Answer :=
  globalErrorHandler (mapUpstreamError g.opened err) requestId

/-- The error of an answer is mapped in the state that counting it leaves. -/
theorem results_of_rejected {breaker : CircuitBreaker circuitBreakerOptions} {client : AxiosClient}
    {g g' : PaymentsGateway breaker} {n : Nat} {response : Response} {err : AxiosError}
    (hpending : n ∈ g.pending) (hrejected : client.settle response = .error err)
    (hstep : step client g (.answer n response) = some g') :
    g'.results = g.results ++ [(n, .error (mapUpstreamError g'.opened err))] ∧
      g'.opened = decide (breaker.circuit (breaker.fail err g.state) = .opened) := by
  simp only [step] at hstep
  split at hstep
  · obtain rfl := Option.some.inj hstep
    unfold PaymentsGateway.receive
    rw [hrejected]
    simp only [responseInterceptor, Except.map, if_pos hpending]
    exact ⟨rfl, rfl⟩
  · cases hstep

/-- A response that reports an error with a code and a message. -/
structure Response.Reports (response : Response) (code message : String) : Prop where
  code : member "code" response.data = some (.str code)
  message : member "message" response.data = some (.str message)

/-! ## The two functions -/

section Mapping

variable {response : Response} {code message : String} {err : AxiosError}

theorem orElse_str (text fallback : String) :
    orElse (some (.str text)) fallback = .str (if text = "" then fallback else text) := by
  unfold orElse
  by_cases h : text = ""
  · simp [h, truthy]
  · simp [h, truthy]

/-- With the circuit open, no error is told from another. -/
theorem mapUpstreamError_opened (err : AxiosError) : mapUpstreamError true err =
    ⟨503, .str "SERVICE_UNAVAILABLE",
      "Payment service temporarily unavailable. Please try again shortly."⟩ := rfl

/-- Else the response is what counts; an empty code or message is replaced. -/
theorem mapUpstreamError_response (hresponse : err.response = some response)
    (hreports : response.Reports code message) : mapUpstreamError false err =
      ⟨response.status, .str (if code = "" then "UPSTREAM_ERROR" else code),
        if message = "" then "Upstream error" else message⟩ := by
  unfold mapUpstreamError
  rw [hresponse]
  dsimp only
  rw [hreports.code, hreports.message, orElse_str, orElse_str]
  rfl

/-- What `globalErrorHandler` makes of a mapped error. -/
theorem globalErrorHandler_eq (status : Nat) (code message requestId : String) (hcode : code ≠ "") :
    globalErrorHandler ⟨status, .str code, message⟩ requestId =
      if message = "Not allowed by CORS" then
        .failed ⟨403, .str "CORS_ERROR", "Cross-origin request not allowed"⟩ (shownId requestId)
      else relayed (if status = 0 then 500 else status) code message requestId := by
  unfold globalErrorHandler relayed shownId
  dsimp only
  rw [orElse_str, if_neg hcode]

theorem relayed_inj {status status' : Nat} {code code' message message' requestId : String} :
    relayed status code message requestId = relayed status' code' message' requestId ↔
      status = status' ∧ code = code' ∧ (status < 500 → message = message') := by
  unfold relayed
  rw [Answer.failed.injEq, GatewayError.mk.injEq, Json.str.injEq, and_iff_left rfl]
  apply and_congr_right
  rintro rfl
  apply and_congr_right
  rintro -
  by_cases h : status < 500
  · simp [h]
  · simp [h]

/-- A fallback shows where it is used. -/
theorem fallback_eq_iff {fallback text : String} (h : fallback ≠ "") :
    (if text = "" then fallback else text) = text ↔ text ≠ "" := by
  by_cases htext : text = ""
  · simp [htext, h]
  · simp [htext]

end Mapping

/-! ## When an error is handed on -/

/-- **Which errors reach the client as they are.**  With the circuit open when the error is mapped,
only the one that an open circuit is reported as; else those with a status, a code and, below 500, a
message, if the message is not the one of the CORS filter. -/
theorem relayed_iff {breaker : CircuitBreaker circuitBreakerOptions} (g : PaymentsGateway breaker)
    {err : AxiosError} {response : Response} (hresponse : err.response = some response)
    {code message : String} (hreports : response.Reports code message) (requestId : String) :
    g.answerRejected err requestId = relayed response.status code message requestId ↔
      g.opened = false ∧ response.status ≠ 0 ∧ code ≠ "" ∧ message ≠ "Not allowed by CORS" ∧
          (response.status < 500 → message ≠ "") ∨
        g.opened = true ∧ response.status = 503 ∧ code = "SERVICE_UNAVAILABLE" := by
  unfold PaymentsGateway.answerRejected
  cases g.opened with
  | true =>
      have hcors : "Payment service temporarily unavailable. Please try again shortly." ≠
          "Not allowed by CORS" := by decide
      rw [mapUpstreamError_opened, globalErrorHandler_eq _ _ _ _ (by decide), if_neg hcors,
        if_neg (by decide), relayed_inj]
      constructor
      · rintro ⟨hstatus, hcode, -⟩
        exact Or.inr ⟨rfl, hstatus.symm, hcode.symm⟩
      · rintro (⟨h, -⟩ | ⟨-, hstatus, hcode⟩)
        · cases h
        · exact ⟨hstatus.symm, hcode.symm, fun h => absurd h (by decide)⟩
  | false =>
      have hcode : (if code = "" then "UPSTREAM_ERROR" else code) ≠ "" := by
        split
        · decide
        · assumption
      have hcors : (if message = "" then "Upstream error" else message) = "Not allowed by CORS" ↔
          message = "Not allowed by CORS" := by
        by_cases h : message = ""
        · simp [h]
        · simp [h]
      rw [mapUpstreamError_response hresponse hreports, globalErrorHandler_eq _ _ _ _ hcode]
      by_cases hmessage : message = "Not allowed by CORS"
      · -- the handler takes the message for the CORS filter's
        rw [if_pos (hcors.mpr hmessage)]
        have hforbidden : Answer.failed ⟨403, .str "CORS_ERROR", "Cross-origin request not allowed"⟩
            (shownId requestId) =
              relayed 403 "CORS_ERROR" "Cross-origin request not allowed" requestId := rfl
        rw [hforbidden, relayed_inj, hmessage]
        simp
      · rw [if_neg (fun h => hmessage (hcors.mp h)), relayed_inj, fallback_eq_iff (by decide)]
        by_cases hstatus : response.status = 0
        · simp [hstatus]
        · rw [if_neg hstatus, fallback_eq_iff (by decide)]
          simp [hstatus, hmessage]

/-- An unknown id, as payments-service answers it. -/
def unknownPayment : Response :=
  ⟨404, .obj [("code", .str "PAYMENT_NOT_FOUND"), ("message", .str "Payment not found: c0ffee")]⟩

theorem unknownPayment_reports :
    unknownPayment.Reports "PAYMENT_NOT_FOUND" "Payment not found: c0ffee" := ⟨rfl, rfl⟩

/-- The first one is handed on: the breaker is closed, and the body has a code and a message. -/
theorem relayed_first :
    (PaymentsGateway.start (.rolling circuitBreakerOptions)).opened = false ∧
      (PaymentsGateway.start (.rolling circuitBreakerOptions)).answerRejected
        ⟨some unknownPayment, "Request failed with status code 404"⟩ "req-1" =
      relayed 404 "PAYMENT_NOT_FOUND" "Payment not found: c0ffee" "req-1" :=
  ⟨rfl, (relayed_iff (PaymentsGateway.start (.rolling circuitBreakerOptions)) rfl
    unknownPayment_reports "req-1").mpr
      (.inl ⟨rfl, by decide, by decide, by decide, fun _ => by decide⟩)⟩

/-- The status a client sees for a result. -/
def shownStatus : Except GatewayError Json → Nat
  | .ok _ => 200
  | .error err => (globalErrorHandler err "req-1").status

/-- Five unknown ids, all answered 404: the fifth client is told that the service is down. -/
theorem relayed_fifth :
    (∃ g, run (step defaultClient) (.start (.rolling circuitBreakerOptions))
        (lookups 1 [unknownPayment, unknownPayment, unknownPayment, unknownPayment, unknownPayment]) =
          some g ∧
      g.results.map (fun result => shownStatus result.2) = [404, 404, 404, 404, 503]) ∧
      ¬ ∀ (trace : List Action) (g : PaymentsGateway (.rolling circuitBreakerOptions)),
        run (step defaultClient) (.start (.rolling circuitBreakerOptions)) trace = some g →
        ∀ (err : AxiosError) (response : Response), err.response = some response →
        ∀ code message, response.Reports code message → ∀ requestId,
          g.answerRejected err requestId = relayed response.status code message requestId := by
  have hfive : ∃ g, run (step defaultClient) (.start (.rolling circuitBreakerOptions))
        (lookups 1 [unknownPayment, unknownPayment, unknownPayment, unknownPayment, unknownPayment]) =
          some g ∧ g.opened = true ∧
      g.results.map (fun result => shownStatus result.2) = [404, 404, 404, 404, 503] :=
    ⟨_, rfl, rfl, rfl⟩
  obtain ⟨g, hrun, hopened, hshown⟩ := hfive
  refine ⟨⟨g, hrun, hshown⟩, fun hall => ?_⟩
  have hanswer := hall _ g hrun ⟨some unknownPayment, "Request failed with status code 404"⟩
    unknownPayment rfl _ _ unknownPayment_reports "req-1"
  unfold PaymentsGateway.answerRejected at hanswer
  rw [hopened, mapUpstreamError_opened] at hanswer
  have hstatus := congrArg Answer.status hanswer
  cases hstatus

end GlobalPayments.Gateway

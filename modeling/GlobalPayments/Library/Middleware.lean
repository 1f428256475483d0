/-
# Middleware — a request handed through a chain of handlers.

A handler gets the request and `next`, which hands a request on to the rest of the chain.  It may have
effects before, after or instead of calling `next`, and it may throw.  The router catches what a
handler throws and passes it to the error handler; so `next` itself never throws
(`dispatch_completes`), and a handler that calls `next` inside a try block catches nothing that happens
after it.

Most handlers only decide: they answer, or they hand the request on, changed or not.  `Decides` names
the decision, and `dispatch_guards` runs a chain of such handlers as the sequence of their decisions:
the first refusal is the one effect, and the rest of the chain is never entered.
-/
import Mathlib.Data.List.Forall2

namespace Middleware

universe u v

variable {ρ : Type u} {ε : Type v}

/-! ## Runs of a handler -/

/-- What a handler did: its effects, in order, and the name of the error it threw, if it threw. -/
structure Run (ε : Type v) where
  effects : List ε
  thrown : Option String := none

def Run.emit (effect : ε) : Run ε := { effects := [effect] }

def Run.throw (error : String) : Run ε := { effects := [], thrown := some error }

/-- `try { body } catch (err) { handler }`. -/
def Run.catching (body : Run ε) (handler : String → Run ε) : Run ε :=
  match body.thrown with
  | none => body
  | some error =>
      { effects := body.effects ++ (handler error).effects, thrown := (handler error).thrown }

theorem Run.catching_of_completes {body : Run ε} (h : body.thrown = none)
    (handler : String → Run ε) : body.catching handler = body := by
  unfold Run.catching
  rw [h]

theorem Run.catching_throw (error : String) (handler : String → Run ε) :
    (Run.throw error).catching handler = handler error := rfl

theorem Run.catching_emit (effect : ε) (handler : String → Run ε) :
    (Run.emit effect).catching handler = .emit effect := rfl

/-- A handler of the chain: the request, and `next`. -/
abbrev Handler (ρ : Type u) (ε : Type v) := ρ → (ρ → Run ε) → Run ε

/-! ## The router -/

section Dispatch

variable (onError : ρ → String → ε) (onEnd : ρ → ε)

/-- The router: each handler in turn, until one does not call `next`; `onError` answers for a handler
that throws, `onEnd` when the last handler calls `next`. -/
def dispatch : List (Handler ρ ε) → ρ → Run ε
  | [], request => .emit (onEnd request)
  | handler :: rest, request =>
      (handler request (dispatch rest)).catching fun error => .emit (onError request error)

/-- **Calling `next` never throws.** -/
theorem dispatch_completes (handlers : List (Handler ρ ε)) (request : ρ) :
    (dispatch onError onEnd handlers request).thrown = none := by
  cases handlers with
  | nil => rfl
  | cons handler rest =>
      show ((handler request (dispatch onError onEnd rest)).catching _).thrown = none
      unfold Run.catching
      split
      · assumption
      · rfl

end Dispatch

/-! ## Handlers that decide -/

/-- The handler answers with an effect, or hands a request on; `next` is called at most once, and
nothing happens after it. -/
def Decides (handler : Handler ρ ε) (decision : ρ → Except ε ρ) : Prop :=
  ∀ request next, (∀ r, (next r).thrown = none) →
    handler request next =
      match decision request with
      | .error effect => .emit effect
      | .ok request' => next request'

/-- The decisions of a chain, one after the other. -/
def decideAll : List (ρ → Except ε ρ) → ρ → Except ε ρ
  | [], request => .ok request
  | decision :: rest, request =>
      match decision request with
      | .error effect => .error effect
      | .ok request' => decideAll rest request'

theorem decideAll_append (first second : List (ρ → Except ε ρ)) (request : ρ) :
    decideAll (first ++ second) request =
      match decideAll first request with
      | .error effect => .error effect
      | .ok request' => decideAll second request' := by
  induction first generalizing request with
  | nil => rfl
  | cons decision rest ih =>
      simp only [List.cons_append, decideAll]
      cases decision request with
      | error effect => rfl
      | ok request' => exact ih request'

section Guards

variable {onError : ρ → String → ε} {onEnd : ρ → ε}

/-- **A chain of deciding handlers** answers with the first refusal, or hands the request on to what
follows. -/
theorem dispatch_guards {guards : List (Handler ρ ε)} {decisions : List (ρ → Except ε ρ)}
    (h : List.Forall₂ Decides guards decisions) (rest : List (Handler ρ ε)) (request : ρ) :
    dispatch onError onEnd (guards ++ rest) request =
      match decideAll decisions request with
      | .error effect => .emit effect
      | .ok request' => dispatch onError onEnd rest request' := by
  induction h generalizing request with
  | nil => rfl
  | @cons guard decision guards decisions hguard _ ih =>
      have hnext := hguard request (dispatch onError onEnd (guards ++ rest))
        (dispatch_completes onError onEnd (guards ++ rest))
      show (guard request (dispatch onError onEnd (guards ++ rest))).catching _ = _
      rw [hnext]
      simp only [decideAll]
      cases decision request with
      | error effect => exact Run.catching_emit effect _
      | ok request' =>
          rw [Run.catching_of_completes (dispatch_completes onError onEnd _ _)]
          exact ih request'

end Guards

end Middleware

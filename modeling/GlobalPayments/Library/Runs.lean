/-
# Runs — guarded, executable transition systems and their rules.

A system is a step function `step : σ → α → Option σ`: action `a` is enabled in `s` exactly when
`step s a` is `some` state.  One definition serves replay (`run` evaluates a concrete trace), proof
(`run_invariant`, `run_relates`) and refinement (`run_simulates`): the guards a proof reads are the
guards a trace is checked against.

`history` is what an observer notes along a trace; `run_history` is the rule for invariants that speak
of the past as well as of the state.

`RunsUnder C` is the runs whose every step meets a condition `C` on the state before the step and
the action taken; an invariant that only such steps preserve holds after every such run, and
`RunsUnder.iff_of_exact` is the rule by which `C` is exactly what a run needs.

The last section has the same rules for a loop inside one step: a `foldlM` in `Except`, with an
invariant between the state and the items still to come, and a `mapM`, round by round.
-/
import Mathlib.Logic.Relation
import Mathlib.Data.List.Basic
import Mathlib.Data.List.Forall2

namespace Runs

universe u v w

variable {σ : Type u} {α : Type v} {τ : Type w} (step : σ → α → Option σ)

/-! ## Traces -/

/-- Run a trace from `s`; `none` when some action on the way is not enabled. -/
def run : σ → List α → Option σ
  | s, [] => some s
  | s, a :: as => (step s a).bind fun s' => run s' as

@[simp] theorem run_nil (s : σ) : run step s [] = some s := rfl

theorem run_cons_eq_some {s t : σ} {a : α} {as : List α} :
    run step s (a :: as) = some t ↔ ∃ s', step s a = some s' ∧ run step s' as = some t := by
  simp only [run, Option.bind_eq_some_iff]

theorem run_append {s t u : σ} {as bs : List α} (h : run step s as = some t)
    (h' : run step t bs = some u) : run step s (as ++ bs) = some u := by
  induction as generalizing s with
  | nil =>
      obtain rfl : s = t := by simpa using h
      exact h'
  | cons a as ih =>
      obtain ⟨s', ha, has⟩ := (run_cons_eq_some step).mp h
      exact (run_cons_eq_some step).mpr ⟨s', ha, ih has⟩

/-! ## Invariants -/

variable {step}

/-- **The invariant rule.**  What every enabled action preserves, every trace preserves. -/
theorem run_invariant {I : σ → Prop} (hstep : ∀ s a s', I s → step s a = some s' → I s')
    {as : List α} : ∀ {s t : σ}, I s → run step s as = some t → I t := by
  induction as with
  | nil =>
      intro s t hs hrun
      obtain rfl : s = t := by simpa using hrun
      exact hs
  | cons a as ih =>
      intro s t hs hrun
      obtain ⟨s', ha, has⟩ := (run_cons_eq_some step).mp hrun
      exact ih (hstep s a s' hs ha) has

/-- **The two-state rule.**  A reflexive and transitive relation that holds across every step taken
from an invariant state holds between the ends of every trace. -/
theorem run_relates {I : σ → Prop} {R : σ → σ → Prop}
    (hinv : ∀ s a s', I s → step s a = some s' → I s')
    (hrefl : ∀ s, R s s) (htrans : ∀ s t u, R s t → R t u → R s u)
    (hstep : ∀ s a s', I s → step s a = some s' → R s s')
    {as : List α} : ∀ {s t : σ}, I s → run step s as = some t → R s t := by
  induction as with
  | nil =>
      intro s t _ hrun
      obtain rfl : s = t := by simpa using hrun
      exact hrefl s
  | cons a as ih =>
      intro s t hs hrun
      obtain ⟨s', ha, has⟩ := (run_cons_eq_some step).mp hrun
      exact htrans s s' t (hstep s a s' hs ha) (ih (hinv s a s' hs ha) has)

/-! ## History variables -/

section History

variable {η : Type*}

/-- What an observer has noted after a trace: it sees each action and the state it is taken in. -/
def history (step : σ → α → Option σ) (obs : σ → α → η → η) : σ → List α → η → η
  | _, [], h => h
  | s, a :: as, h =>
      match step s a with
      | some s' => history step obs s' as (obs s a h)
      | none => h

/-- **The history rule.**  An invariant between the state and what the observer has noted. -/
theorem run_history (obs : σ → α → η → η) {I : σ → η → Prop}
    (hstep : ∀ s a s' h, I s h → step s a = some s' → I s' (obs s a h))
    {as : List α} : ∀ {s t : σ} {h : η}, I s h → run step s as = some t →
      I t (history step obs s as h) := by
  induction as with
  | nil =>
      intro s t h hs hrun
      obtain rfl : s = t := by simpa using hrun
      exact hs
  | cons a as ih =>
      intro s t h hs hrun
      obtain ⟨s', ha, has⟩ := (run_cons_eq_some step).mp hrun
      rw [history, ha]
      exact ih (hstep s a s' h hs ha) has

end History

/-! ## Runs whose every step meets a condition -/

/-- `RunsUnder step C s as t`: the trace `as` leads from `s` to `t`, and `C` holds of the state
before each step and the action taken there. -/
inductive RunsUnder (step : σ → α → Option σ) (C : σ → α → Prop) : σ → List α → σ → Prop
  | nil (s : σ) : RunsUnder step C s [] s
  | cons {s s' t : σ} {a : α} {as : List α} : C s a → step s a = some s' →
      RunsUnder step C s' as t → RunsUnder step C s (a :: as) t

variable {C : σ → α → Prop}

/-- **The invariant rule under a condition.**  `I` need only survive the steps that meet `C`. -/
theorem RunsUnder.invariant {I : σ → Prop}
    (hstep : ∀ s a s', I s → C s a → step s a = some s' → I s')
    {s t : σ} {as : List α} (h : RunsUnder step C s as t) (hs : I s) : I t := by
  induction h with
  | nil s => exact hs
  | cons hc ha _ ih => exact ih (hstep _ _ _ hs hc ha)

/-- A condition that another one implies, in the states that a run reaches. -/
theorem RunsUnder.imp {C' : σ → α → Prop} {I : σ → Prop}
    (hinv : ∀ s a s', I s → step s a = some s' → I s') (himp : ∀ s a, I s → C s a → C' s a)
    {s t : σ} {as : List α} (h : RunsUnder step C s as t) (hs : I s) :
    RunsUnder step C' s as t := by
  induction h with
  | nil s => exact .nil s
  | cons hc ha _ ih => exact .cons (himp _ _ hs hc) ha (ih (hinv _ _ _ hs ha))

/-- A condition on the trace is one on the steps. -/
theorem RunsUnder.and_forall {P : α → Prop} {s t : σ} {as : List α}
    (hrun : RunsUnder step C s as t) (h : ∀ a ∈ as, P a) :
    RunsUnder step (fun s a => C s a ∧ P a) s as t := by
  induction hrun with
  | nil s => exact .nil s
  | cons hc ha _ ih =>
      exact .cons ⟨hc, h _ List.mem_cons_self⟩ ha (ih fun a ha => h a (List.mem_cons_of_mem _ ha))

/-- A condition on the actions alone is one on the trace. -/
theorem RunsUnder.of_forall {P : α → Prop} {s t : σ} {as : List α} (h : ∀ a ∈ as, P a)
    (hrun : Runs.run step s as = some t) : RunsUnder step (fun _ a => P a) s as t := by
  induction as generalizing s with
  | nil =>
      obtain rfl : s = t := by simpa using hrun
      exact .nil s
  | cons a as ih =>
      obtain ⟨s', ha, has⟩ := (run_cons_eq_some step).mp hrun
      exact .cons (h a List.mem_cons_self) ha (ih (fun b hb => h b (List.mem_cons_of_mem a hb)) has)

/-- The front part of a run under a condition is one. -/
theorem RunsUnder.front {s t m : σ} {as pre post : List α} (h : RunsUnder step C s as t)
    (has : as = pre ++ post) (hrun : Runs.run step s pre = some m) : RunsUnder step C s pre m := by
  induction pre generalizing s as with
  | nil =>
      obtain rfl : s = m := by simpa using hrun
      exact .nil s
  | cons a pre ih =>
      subst has
      obtain ⟨s₁, ha, hpre⟩ := (run_cons_eq_some step).mp hrun
      cases h with
      | cons hc hstep hrest =>
          obtain rfl := Option.some.inj (ha.symm.trans hstep)
          exact .cons hc ha (ih hrest rfl hpre)

/-- Run a trace whose steps all pass the check `c`; `none` when one does not or is not enabled. -/
def runChecked (step : σ → α → Option σ) (c : σ → α → Bool) : σ → List α → Option σ
  | s, [] => some s
  | s, a :: as => if c s a then (step s a).bind fun s' => runChecked step c s' as else none

/-- A checked run is a run whose every step meets the condition. -/
theorem RunsUnder.of_runChecked {c : σ → α → Bool} {s t : σ} {as : List α}
    (h : runChecked step c s as = some t) : RunsUnder step (fun s a => c s a = true) s as t := by
  induction as generalizing s with
  | nil =>
      obtain rfl : s = t := by simpa [runChecked] using h
      exact .nil s
  | cons a as ih =>
      unfold runChecked at h
      split at h
      · rename_i hc
        obtain ⟨s', ha, has⟩ := Option.bind_eq_some_iff.mp h
        exact .cons hc ha (ih has)
      · cases h

/-- **The rule for an exact condition.**  When a step keeps `J` exactly if it meets `C`, and never
restores it, a run meets `C` at every step exactly if `J` holds at its end. -/
theorem RunsUnder.iff_of_exact {I J : σ → Prop}
    (hinv : ∀ s a s', I s → step s a = some s' → I s')
    (hexact : ∀ s a s', I s → step s a = some s' → (J s' ↔ J s ∧ C s a))
    {s t : σ} {as : List α} (hs : I s) (hJ : J s) (hrun : Runs.run step s as = some t) :
    RunsUnder step C s as t ↔ J t := by
  constructor
  · intro h
    refine (h.invariant (I := fun s => I s ∧ J s) ?_ ⟨hs, hJ⟩).2
    rintro s a s' ⟨hI, hJ⟩ hc hstep
    exact ⟨hinv s a s' hI hstep, (hexact s a s' hI hstep).mpr ⟨hJ, hc⟩⟩
  · -- backwards along the trace: what holds at the end has held, and the steps met `C`, all along
    intro hend
    suffices hall : RunsUnder step C s as t ∧ J s from hall.1
    clear hJ
    induction as generalizing s with
    | nil =>
        obtain rfl : s = t := by simpa using hrun
        exact ⟨.nil s, hend⟩
    | cons a as ih =>
        obtain ⟨s', ha, has⟩ := (run_cons_eq_some step).mp hrun
        obtain ⟨hrest, hJ'⟩ := ih (hinv s a s' hs ha) has
        obtain ⟨hJ, hc⟩ := (hexact s a s' hs ha).mp hJ'
        exact ⟨.cons hc ha hrest, hJ⟩

/-! ## Simulation -/

/-- **Forward simulation.**  When every step from an invariant state is matched by finitely many
(possibly zero) steps of an abstract relation `A` between the images under `f`, so is every run. -/
theorem run_simulates {I : σ → Prop} {A : τ → τ → Prop} {f : σ → τ}
    (hinv : ∀ s a s', I s → step s a = some s' → I s')
    (hsim : ∀ s a s', I s → step s a = some s' → Relation.ReflTransGen A (f s) (f s'))
    {as : List α} {s t : σ} (hs : I s) (hrun : run step s as = some t) :
    Relation.ReflTransGen A (f s) (f t) :=
  run_relates (R := fun s t => Relation.ReflTransGen A (f s) (f t)) hinv
    (fun _ => .refl) (fun _ _ _ => .trans) hsim hs hrun

/-! ## Loops that may fail -/

section Loops

variable {ε : Type*} {β : Type*} {f : σ → β → Except ε σ}

/-- A computation in two parts succeeds when both do. -/
theorem bind_eq_ok {γ δ : Type u} {x : Except ε γ} {g : γ → Except ε δ} {d : δ} :
    x >>= g = .ok d ↔ ∃ c, x = .ok c ∧ g c = .ok d := by
  show x.bind g = _ ↔ _
  cases x <;> simp [Except.bind]

theorem bind_eq_error {γ δ : Type u} {x : Except ε γ} {g : γ → Except ε δ} {e : ε} :
    (x >>= g) = .error e ↔ x = .error e ∨ ∃ c, x = .ok c ∧ g c = .error e := by
  cases x with
  | error e' => simp [bind, Except.bind]
  | ok c => simp [bind, Except.bind]

theorem foldlM_cons_eq_ok {s t : σ} {b : β} {bs : List β} :
    (b :: bs).foldlM f s = .ok t ↔ ∃ s', f s b = .ok s' ∧ bs.foldlM f s' = .ok t := by
  rw [List.foldlM_cons]
  exact bind_eq_ok

/-- **The loop rule.**  `I` relates the state to the items still to come. -/
theorem foldlM_invariant {I : σ → List β → Prop}
    (hstep : ∀ s b bs s', I s (b :: bs) → f s b = .ok s' → I s' bs)
    {bs : List β} : ∀ {s t : σ}, I s bs → bs.foldlM f s = .ok t → I t [] := by
  induction bs with
  | nil =>
      intro s t hs hfold
      obtain rfl : s = t := by simpa [pure, Except.pure] using hfold
      exact hs
  | cons b bs ih =>
      intro s t hs hfold
      obtain ⟨s', hb, hbs⟩ := foldlM_cons_eq_ok.mp hfold
      exact ih (hstep s b bs s' hs hb) hbs

/-- A loop over a list succeeds when each of its rounds does. -/
theorem mapM_ok_iff {γ : Type u} {g : β → Except ε γ} {items : List β} {cells : List γ} :
    items.mapM g = .ok cells ↔ List.Forall₂ (fun item cell => g item = .ok cell) items cells := by
  induction items generalizing cells with
  | nil =>
      simp only [List.mapM_nil, List.forall₂_nil_left_iff]
      exact ⟨fun h => (Except.ok.inj h).symm, fun h => by rw [h]; rfl⟩
  | cons item items ih =>
      rw [List.mapM_cons, List.forall₂_cons_left_iff]
      cases hitem : g item with
      | error e =>
          constructor
          · intro h
            cases h
          · rintro ⟨cell, rest, h, -⟩
            cases h
      | ok cell =>
          cases hitems : items.mapM g with
          | error e =>
              constructor
              · intro h
                cases h
              · rintro ⟨_, rest, -, hrest, -⟩
                rw [ih.mpr hrest] at hitems
                cases hitems
          | ok rest =>
              constructor
              · intro h
                obtain rfl := Except.ok.inj h
                exact ⟨cell, rest, rfl, ih.mp hitems, rfl⟩
              · rintro ⟨cell', rest', hcell, hrest, rfl⟩
                obtain rfl := Except.ok.inj hcell
                rw [ih.mpr hrest] at hitems
                obtain rfl := Except.ok.inj hitems
                rfl

theorem mapM_ok_of_mem {γ : Type u} {g : β → Except ε γ} {items : List β} {cells : List γ}
    (h : items.mapM g = .ok cells) {item : β} (hitem : item ∈ items) :
    ∃ cell, g item = .ok cell := by
  have hrounds := mapM_ok_iff.mp h
  clear h
  induction hrounds with
  | nil => cases hitem
  | @cons item' cell _ _ hround _ ih =>
      rcases List.mem_cons.mp hitem with rfl | hitem
      · exact ⟨cell, hround⟩
      · exact ih hitem

theorem mapM_succeeds {γ : Type u} {g : β → Except ε γ} {items : List β}
    (h : ∀ item ∈ items, ∃ cell, g item = .ok cell) : ∃ cells, items.mapM g = .ok cells := by
  induction items with
  | nil => exact ⟨[], rfl⟩
  | cons item items ih =>
      obtain ⟨cell, hcell⟩ := h item List.mem_cons_self
      obtain ⟨cells, hcells⟩ := ih fun i hi => h i (List.mem_cons_of_mem _ hi)
      exact ⟨cell :: cells, mapM_ok_iff.mpr (.cons hcell (mapM_ok_iff.mp hcells))⟩

end Loops

end Runs

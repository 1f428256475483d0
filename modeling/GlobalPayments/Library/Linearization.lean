/-
# Linearization — from one point per call to a serial order.

The calls of a system overlap.  Suppose each call has one step, of its own choosing, at which it is
settled: if it is going to complete, that step takes the shared store from where it is to where the
whole call, run alone, would take it; every other step leaves the store as it is.  Then the system is
serializable in real time: the completed calls, executed one after another in the order of their
points, lead from the same store to the same store, and the order agrees with every state on the way.

Whether a call completes is known only at the end of the run, so the serial order is built from the
end (`serialize`): at each step the rest of the run, up to its last state, is at hand.
-/
import GlobalPayments.Library.Runs

namespace Linearization

open Runs

universe u v w

variable {σ : Type u} {α : Type v} {δ ι κ : Type w}

/-- The jobs, each executed on the store the one before it left. -/
inductive Serial (exec : κ → δ → δ → Prop) : δ → List κ → δ → Prop
  | nil (d : δ) : Serial exec d [] d
  | cons {j : κ} {js : List κ} {d d' d'' : δ} :
      exec j d d' → Serial exec d' js d'' → Serial exec d (j :: js) d''

/-- What a system shows of its calls: the shared store, which calls have had their point, which
completed calls there are (as jobs), whose they are and what each does to the store when run alone. -/
structure View (σ : Type u) (δ ι κ : Type w) where
  store : σ → δ
  settled : σ → ι → Prop
  owner : κ → ι
  completed : σ → κ → Prop
  exec : κ → δ → δ → Prop

variable (step : σ → α → Option σ) (C : σ → α → Prop) (V : View σ δ ι κ)

/-- What one step may do: nothing to the store and to the points, or be the point of one call.  That
call, if it completes in the run that follows, takes effect here and as a whole; if it does not, the
store stays as it is. -/
inductive Takes (s s' : σ) : Prop
  | silent : (∀ i, V.settled s' i ↔ V.settled s i) → V.store s' = V.store s → Takes s s'
  | point (i : ι) : ¬ V.settled s i → (∀ k, V.settled s' k ↔ k = i ∨ V.settled s k) →
      (∀ as t, RunsUnder step C s' as t →
        (∃ j, V.owner j = i ∧ V.completed t j ∧ V.exec j (V.store s) (V.store s')) ∨
          ((∀ j, V.completed t j → V.owner j ≠ i) ∧ V.store s' = V.store s)) → Takes s s'

/-- **A serial order of a run** from `s` to `t`: `jobs` are the completed calls whose point lies on
the way, each once; executed one after another they lead from the store of `s` to that of `t`; and any
state in between divides them into those settled by then, which lead to its store, and the rest. -/
structure Serialized (s : σ) (as : List α) (t : σ) (jobs : List κ) : Prop where
  executes : Serial V.exec (V.store s) jobs (V.store t)
  once : (jobs.map V.owner).Nodup
  completed : ∀ j ∈ jobs, V.completed t j ∧ ¬ V.settled s (V.owner j)
  covers : ∀ j, V.completed t j → V.settled s (V.owner j) ∨ ∃ j' ∈ jobs, V.owner j' = V.owner j
  divides : ∀ pre post m, as = pre ++ post → run step s pre = some m →
    ∃ before after, jobs = before ++ after ∧ Serial V.exec (V.store s) before (V.store m) ∧
      Serial V.exec (V.store m) after (V.store t) ∧
      (∀ j ∈ before, V.settled m (V.owner j)) ∧ ∀ j ∈ after, ¬ V.settled m (V.owner j)

variable {step C V} {I : σ → Prop}

theorem Serialized.nil {s : σ} (hcompleted : ∀ j, V.completed s j → V.settled s (V.owner j)) :
    Serialized step V s [] s [] where
  executes := .nil _
  once := List.nodup_nil
  completed _ hj := absurd hj List.not_mem_nil
  covers j hj := Or.inl (hcompleted j hj)
  divides pre post m has hrun := by
    obtain ⟨rfl, -⟩ := List.append_eq_nil_iff.mp has.symm
    obtain rfl : s = m := by simpa using hrun
    exact ⟨[], [], rfl, .nil _, .nil _, by simp, by simp⟩

/-- A step that is no completed call's point, before a serial order of the rest. -/
theorem Serialized.silent {s s' t : σ} {a : α} {as : List α} {jobs : List κ}
    (hstep : step s a = some s') (hmono : ∀ i, V.settled s i → V.settled s' i)
    (hsettled : ∀ j, V.completed t j → V.settled s' (V.owner j) → V.settled s (V.owner j))
    (hstore : V.store s' = V.store s) (h : Serialized step V s' as t jobs) :
    Serialized step V s (a :: as) t jobs where
  executes := hstore ▸ h.executes
  once := h.once
  completed j hj := ⟨(h.completed j hj).1, fun hs => (h.completed j hj).2 (hmono _ hs)⟩
  covers j hj := (h.covers j hj).imp (hsettled j hj) id
  divides pre post m has hrun := by
    rcases List.append_eq_cons_iff.mp has.symm with ⟨rfl, rfl⟩ | ⟨pre', rfl, has'⟩
    · obtain rfl : s = m := by simpa using hrun
      exact ⟨[], jobs, rfl, .nil _, hstore ▸ h.executes, by simp,
        fun j hj hs => (h.completed j hj).2 (hmono _ hs)⟩
    · obtain ⟨s₁, hs₁, hrun'⟩ := (run_cons_eq_some step).mp hrun
      obtain rfl : s' = s₁ := Option.some.inj (hstep.symm.trans hs₁)
      obtain ⟨before, after, hjobs, hbefore, hrest⟩ := h.divides pre' post m has' hrun'
      exact ⟨before, after, hjobs, hstore ▸ hbefore, hrest⟩

/-- The point of a completed call, before a serial order of the rest. -/
theorem Serialized.point {s s' t : σ} {a : α} {as : List α} {jobs : List κ} {j : κ}
    (hstep : step s a = some s') (hfresh : ¬ V.settled s (V.owner j))
    (hsettled : ∀ k, V.settled s' k ↔ k = V.owner j ∨ V.settled s k)
    (hkept : ∀ pre post m, as = pre ++ post → run step s' pre = some m → V.settled m (V.owner j))
    (hcompleted : V.completed t j) (hexec : V.exec j (V.store s) (V.store s'))
    (h : Serialized step V s' as t jobs) : Serialized step V s (a :: as) t (j :: jobs) where
  executes := .cons hexec h.executes
  once := by
    refine List.nodup_cons.mpr ⟨fun hmem => ?_, h.once⟩
    obtain ⟨j', hj', howner⟩ := List.mem_map.mp hmem
    exact (h.completed j' hj').2 ((hsettled _).mpr (Or.inl howner))
  completed j' hj' := by
    rcases List.mem_cons.mp hj' with rfl | hj'
    · exact ⟨hcompleted, hfresh⟩
    · obtain ⟨hdone, hunsettled⟩ := h.completed j' hj'
      exact ⟨hdone, fun hs => hunsettled ((hsettled _).mpr (Or.inr hs))⟩
  covers j' hj' := by
    rcases h.covers j' hj' with hs | ⟨j'', hj'', howner⟩
    · rcases (hsettled _).mp hs with howner | hs
      · exact Or.inr ⟨j, List.mem_cons_self, howner.symm⟩
      · exact Or.inl hs
    · exact Or.inr ⟨j'', List.mem_cons_of_mem j hj'', howner⟩
  divides pre post m has hrun := by
    rcases List.append_eq_cons_iff.mp has.symm with ⟨rfl, rfl⟩ | ⟨pre', rfl, has'⟩
    · obtain rfl : s = m := by simpa using hrun
      refine ⟨[], j :: jobs, rfl, .nil _, .cons hexec h.executes, by simp, fun j' hj' => ?_⟩
      rcases List.mem_cons.mp hj' with rfl | hj'
      · exact hfresh
      · exact fun hs => (h.completed j' hj').2 ((hsettled _).mpr (Or.inr hs))
    · obtain ⟨s₁, hs₁, hrun'⟩ := (run_cons_eq_some step).mp hrun
      obtain rfl : s' = s₁ := Option.some.inj (hstep.symm.trans hs₁)
      obtain ⟨before, after, rfl, hbefore, hafter, hin, hout⟩ := h.divides pre' post m has' hrun'
      refine ⟨j :: before, after, rfl, .cons hexec hbefore, hafter, fun j' hj' => ?_, hout⟩
      rcases List.mem_cons.mp hj' with rfl | hj'
      · exact hkept pre' post m has' hrun'
      · exact hin j' hj'

/-- A call that has had its point keeps it. -/
theorem Takes.settled_mono {s s' : σ} (h : Takes step C V s s') {i : ι} (hi : V.settled s i) :
    V.settled s' i := by
  cases h with
  | silent hsettled _ => exact (hsettled i).mpr hi
  | point k _ hsettled _ => exact (hsettled i).mpr (Or.inr hi)

/-- **The linearization rule.**  When every step is silent or one call's point, and a completed call
has had its point, every run has a serial order. -/
theorem serialize (hinv : ∀ s a s', I s → C s a → step s a = some s' → I s')
    (htakes : ∀ s a s', I s → C s a → step s a = some s' → Takes step C V s s')
    (hdone : ∀ s j, I s → V.completed s j → V.settled s (V.owner j))
    {s t : σ} {as : List α} (hs : I s) (hrun : RunsUnder step C s as t) :
    ∃ jobs, Serialized step V s as t jobs := by
  induction hrun with
  | nil s => exact ⟨[], .nil fun j => hdone s j hs⟩
  | @cons s s' t a as hc hstep hrest ih =>
      have hs' := hinv s a s' hs hc hstep
      obtain ⟨jobs, hjobs⟩ := ih hs'
      cases htakes s a s' hs hc hstep with
      | silent hsettled hstore =>
          exact ⟨jobs, hjobs.silent hstep (fun i => (hsettled i).mpr)
            (fun j _ => (hsettled (V.owner j)).mp) hstore⟩
      | point i hfresh hsettled heffect =>
          rcases heffect as t hrest with ⟨j, rfl, hcompleted, hexec⟩ | ⟨hnever, hstore⟩
          · refine ⟨j :: jobs, hjobs.point hstep hfresh hsettled ?_ hcompleted hexec⟩
            -- once settled, settled in every state the rest of the run goes through
            intro pre post m has hpre
            refine ((hrest.front has hpre).invariant (I := fun s => I s ∧ V.settled s (V.owner j)) ?_
              ⟨hs', (hsettled _).mpr (Or.inl rfl)⟩).2
            exact fun u b u' hu hcu hub =>
              ⟨hinv u b u' hu.1 hcu hub, (htakes u b u' hu.1 hcu hub).settled_mono hu.2⟩
          · exact ⟨jobs, hjobs.silent hstep (fun k hk => (hsettled k).mpr (Or.inr hk))
              (fun j hj hk => ((hsettled _).mp hk).resolve_left (hnever j hj)) hstore⟩

/-- **Real time.**  A call whose point lies behind a state of the run comes before one whose point
lies ahead of it. -/
theorem Serialized.precedes {s t m : σ} {as pre post : List α} {jobs : List κ} {j j' : κ}
    (h : Serialized step V s as t jobs) (has : as = pre ++ post) (hrun : run step s pre = some m)
    (hj : j ∈ jobs) (hj' : j' ∈ jobs) (hbefore : V.settled m (V.owner j))
    (hafter : ¬ V.settled m (V.owner j')) : List.Sublist [j, j'] jobs := by
  obtain ⟨before, after, rfl, -, -, hin, hout⟩ := h.divides pre post m has hrun
  have hfirst : j ∈ before := (List.mem_append.mp hj).resolve_right fun hmem => hout j hmem hbefore
  have hsecond : j' ∈ after := (List.mem_append.mp hj').resolve_left fun hmem => hafter (hin j' hmem)
  exact (List.singleton_sublist.mpr hfirst).append (List.singleton_sublist.mpr hsecond)

end Linearization

/-
# FixedWindow — a limiter that counts requests by key.

Within one window the limiter counts the requests of each key, and admits a request while the count of
its key, itself included, is within the limit.  A request without a key is let through uncounted.

What the limiter bounds is the traffic of a key.  Whoever sends under two keys, or without one, is
bounded by nothing but the number of requests made (`interleavings_le_iff`).
-/
import Mathlib.Data.List.Basic
import Mathlib.Logic.Function.Basic

namespace FixedWindow

universe u v

variable {ρ : Type u} {κ : Type v} [DecidableEq κ]

/-! ## The limiter -/

/-- The hits after a request. -/
def hit (hits : κ → Nat) : Option κ → κ → Nat
  | none => hits
  | some k => Function.update hits k (hits k + 1)

@[simp] theorem hit_self (hits : κ → Nat) (k : κ) : hit hits (some k) k = hits k + 1 := by
  simp [hit]

theorem hit_of_ne (hits : κ → Nat) {k : κ} {counted : Option κ} (h : counted ≠ some k) :
    hit hits counted k = hits k := by
  cases counted with
  | none => rfl
  | some k' =>
      apply Function.update_of_ne
      intro heq
      exact h (congrArg some heq.symm)

/-- Whether a request is admitted. -/
def allows (limit : Nat) (hits : κ → Nat) : Option κ → Bool
  | none => true
  | some k => hits k + 1 ≤ limit

/-- The requests of a window that are admitted. -/
def admitted (limit : Nat) (key : ρ → Option κ) : (κ → Nat) → List ρ → List ρ
  | _, [] => []
  | hits, r :: rs =>
      if allows limit hits (key r) then r :: admitted limit key (hit hits (key r)) rs
      else admitted limit key (hit hits (key r)) rs

section Bounds

variable {limit : Nat} {key : ρ → Option κ}

theorem admitted_sublist (hits : κ → Nat) (rs : List ρ) :
    (admitted limit key hits rs).Sublist rs := by
  induction rs generalizing hits with
  | nil => exact .slnil
  | cons r rs ih =>
      rw [admitted]
      split
      · exact (ih _).cons_cons r
      · exact (ih _).cons r

/-! ## What is admitted, key by key -/

/-- Of the requests of a key, the first ones are admitted, up to the limit. -/
theorem countP_key (k : κ) (hits : κ → Nat) (rs : List ρ) :
    (admitted limit key hits rs).countP (key · = some k) =
      min (rs.countP (key · = some k)) (limit - hits k) := by
  induction rs generalizing hits with
  | nil => simp [admitted]
  | cons r rs ih =>
      have hrest := ih (hit hits (key r))
      rw [admitted]
      by_cases hr : key r = some k
      · rw [hr, hit_self] at hrest
        rw [hr, List.countP_cons_of_pos (by simpa using hr)]
        simp only [allows, decide_eq_true_eq]
        split
        · rw [List.countP_cons_of_pos (by simpa using hr)]
          omega
        · omega
      · rw [hit_of_ne hits hr] at hrest
        rw [List.countP_cons_of_neg (by simpa using hr)]
        split
        · rw [List.countP_cons_of_neg (by simpa using hr)]
          exact hrest
        · exact hrest

/-- Requests without a key are all admitted. -/
theorem countP_uncounted (hits : κ → Nat) (rs : List ρ) :
    (admitted limit key hits rs).countP (key · = none) = rs.countP (key · = none) := by
  induction rs generalizing hits with
  | nil => rfl
  | cons r rs ih =>
      rw [admitted]
      by_cases hr : key r = none
      · rw [if_pos (by simp [allows, hr])]
        rw [List.countP_cons_of_pos (by simpa using hr), List.countP_cons_of_pos (by simpa using hr),
          ih]
      · rw [List.countP_cons_of_neg (by simpa using hr)]
        split
        · rw [List.countP_cons_of_neg (by simpa using hr)]
          exact ih _
        · exact ih _

/-- While no key has more requests than the limit, all are admitted. -/
theorem admitted_eq_self {hits : κ → Nat} {rs : List ρ}
    (h : ∀ k, rs.countP (key · = some k) + hits k ≤ limit) : admitted limit key hits rs = rs := by
  induction rs generalizing hits with
  | nil => rfl
  | cons r rs ih =>
      have hallowed : allows limit hits (key r) = true := by
        cases hkey : key r with
        | none => rfl
        | some k =>
            have hk := h k
            rw [List.countP_cons_of_pos (by simpa using hkey)] at hk
            simp only [allows, decide_eq_true_eq]
            omega
      have hrest : ∀ k, rs.countP (key · = some k) + hit hits (key r) k ≤ limit := by
        intro k
        have hk := h k
        by_cases hr : key r = some k
        · rw [List.countP_cons_of_pos (by simpa using hr)] at hk
          rw [hr, hit_self]
          omega
        · rw [List.countP_cons_of_neg (by simpa using hr)] at hk
          rw [hit_of_ne hits hr]
          exact hk
      rw [admitted, if_pos hallowed, ih hrest]

/-- Requests that all go under one key are bounded by the limit, whatever else is sent. -/
theorem countP_le_of_key {p : ρ → Bool} {rs : List ρ} (k : κ) (hits : κ → Nat)
    (h : ∀ r ∈ rs, p r = true → key r = some k) :
    (admitted limit key hits rs).countP p ≤ limit := by
  have hle : (admitted limit key hits rs).countP p ≤
      (admitted limit key hits rs).countP (key · = some k) := by
    apply List.countP_mono_left
    intro r hr hp
    simpa using h r ((admitted_sublist hits rs).subset hr) hp
  have hcount : (admitted limit key hits rs).countP (key · = some k) =
      min (rs.countP (key · = some k)) (limit - hits k) := countP_key k hits rs
  omega

/-- Every key that is tried is admitted at least once. -/
theorem exists_admitted (hlimit : 0 < limit) {r : ρ} {rs : List ρ} (hr : r ∈ rs) :
    ∃ x ∈ admitted limit key (fun _ => 0) rs, key x = key r := by
  have hpos : 0 < rs.countP (key · = key r) := List.countP_pos_iff.mpr ⟨r, hr, by simp⟩
  have hone : 0 < (admitted limit key (fun _ => 0) rs).countP (key · = key r) := by
    cases hkey : key r with
    | none =>
        rw [hkey] at hpos
        rw [countP_uncounted]
        exact hpos
    | some k =>
        rw [hkey] at hpos
        rw [countP_key]
        omega
  obtain ⟨x, hx, hkey⟩ := List.countP_pos_iff.mp hone
  exact ⟨x, hx, by simpa using hkey⟩

/-! ## A sender's requests -/

/-- A window that starts with one sender's requests under two keys, or under none, admits more than the
limit of them as soon as there are more than the limit. -/
theorem length_admitted_le_iff (hlimit : 0 < limit) (rs : List ρ) :
    (admitted limit key (fun _ => 0) rs).length ≤ limit ↔
      rs.length ≤ limit ∨ ∃ k, ∀ r ∈ rs, key r = some k := by
  constructor
  · intro hlength
    by_cases hfull : ∃ k, limit < rs.countP (key · = some k)
    · obtain ⟨k, hk⟩ := hfull
      refine Or.inr ⟨k, fun r hr => ?_⟩
      by_contra hother
      -- the key fills the limit by itself, and the first request that is not under it is admitted too
      have hcount : (admitted limit key (fun _ => 0) rs).countP (key · = some k) =
          min (rs.countP (key · = some k)) (limit - 0) := countP_key k _ rs
      have hone : 0 < (admitted limit key (fun _ => 0) rs).countP (¬ key · = some k) := by
        obtain ⟨x, hx, hkey⟩ : ∃ x ∈ admitted limit key (fun _ => 0) rs, key x = key r :=
          exists_admitted hlimit hr
        refine List.countP_pos_iff.mpr ⟨x, hx, ?_⟩
        simpa [hkey] using hother
      have htotal := List.length_eq_countP_add_countP (key · = some k)
        (l := admitted limit key (fun _ => 0) rs)
      simp only [decide_not, decide_eq_true_eq] at hone htotal
      omega
    · left
      rw [admitted_eq_self] at hlength
      · exact hlength
      · intro k
        have hk : ¬ limit < rs.countP (key · = some k) := fun h => hfull ⟨k, h⟩
        omega
  · rintro (hlength | ⟨k, hk⟩)
    · exact Nat.le_trans (admitted_sublist _ rs).length_le hlength
    · rw [← List.countP_true]
      exact countP_le_of_key k _ fun r hr _ => hk r hr

/-- **What a limiter bounds.**  Whatever others send in between, at most the limit of a sender's
requests is admitted: that is so exactly when no more are made, or all of them go under one key. -/
theorem interleavings_le_iff (hlimit : 0 < limit) (p : ρ → Bool) {rs : List ρ}
    (hrs : ∀ r ∈ rs, p r = true) :
    (∀ window : List ρ, window.filter p = rs →
        ((admitted limit key (fun _ => 0) window).filter p).length ≤ limit) ↔
      rs.length ≤ limit ∨ ∃ k, ∀ r ∈ rs, key r = some k := by
  constructor
  · intro hall
    have halone := hall rs (List.filter_eq_self.mpr hrs)
    have hself : (admitted limit key (fun _ => 0) rs).filter p = admitted limit key (fun _ => 0) rs :=
      List.filter_eq_self.mpr fun r hr => hrs r ((admitted_sublist _ rs).subset hr)
    rw [hself] at halone
    exact (length_admitted_le_iff hlimit rs).mp halone
  · rintro (hlength | ⟨k, hk⟩) window rfl
    · exact Nat.le_trans ((admitted_sublist _ window).filter p).length_le hlength
    · rw [← List.countP_eq_length_filter]
      refine countP_le_of_key k _ fun r hr hp => hk r (List.mem_filter.mpr ⟨hr, hp⟩)

end Bounds

end FixedWindow

/-
# Rounding — how far a double is from the number it stands for.

`round_near`: a number below `2 ^ m` in magnitude rounds to a finite double within half a unit of the
last place of `2 ^ m`.  Two consequences for numbers of hundredths: below `2 ^ 46` a double belongs to
one of them only (`round_hundredths_inj`), and below `2 ^ 44` the computed difference of two of them
exceeds half a hundredth exactly when they differ (`hundredths_gt_iff`).

Rounding keeps to the side of a power of two a number is on (`zpow_le_round`, `round_le_neg_zpow`),
and integers below `2 ^ 53` are doubles themselves (`round_intCast`).  `round_gt_iff` says which
differences of doubles exceed 0.005 once they are rounded.
-/
import GlobalPayments.Library.Binary64
import Mathlib.Algebra.Order.Field.Power
import Mathlib.Tactic.Linarith
import Mathlib.Tactic.NormNum
import Mathlib.Tactic.Positivity

namespace Binary64

/-! ## One rounding -/

theorem abs_roundHalfEven_sub_le (q : ℚ) : |(roundHalfEven q : ℚ) - q| ≤ 1 / 2 := by
  have hbelow := Int.floor_le q
  have habove := Int.lt_floor_add_one q
  unfold roundHalfEven
  dsimp only
  rw [abs_le]
  split_ifs <;> push_cast <;> constructor <;> linarith

/-- The exponent of a positive number is not too large. -/
theorem base_zpow_floorLog_le {b : Nat} (hb : 1 < b) {q : ℚ} (hq : 0 < q) :
    (b : ℚ) ^ floorLog b q ≤ q := by
  have hbase : (0 : ℚ) < b := by exact_mod_cast Nat.lt_of_succ_lt hb
  have hnum : 0 < q.num := Rat.num_pos.mpr hq
  have hquotient : q = (q.num.natAbs : ℚ) / q.den := by
    rw [Nat.cast_natAbs, abs_of_pos hnum]
    exact (Rat.num_div_den q).symm
  have htop : (b : ℚ) ^ Nat.log b q.num.natAbs ≤ q.num.natAbs := by
    exact_mod_cast Nat.pow_log_le_self b (Int.natAbs_ne_zero.mpr hnum.ne')
  have hbottom : (q.den : ℚ) ≤ b ^ (Nat.log b q.den + 1) := by
    exact_mod_cast (Nat.lt_pow_succ_log_self hb q.den).le
  unfold floorLog
  dsimp only
  split
  · rename_i hle
    exact hle
  · have hsplit : (b : ℚ) ^ ((Nat.log b q.num.natAbs : Int) - (Nat.log b q.den : Int) - 1) =
        b ^ Nat.log b q.num.natAbs / b ^ (Nat.log b q.den + 1) := by
      rw [sub_sub, zpow_sub₀ hbase.ne', zpow_natCast]
      norm_cast
    rw [hsplit]
    calc (b : ℚ) ^ Nat.log b q.num.natAbs / b ^ (Nat.log b q.den + 1)
        ≤ q.num.natAbs / q.den := by
          apply div_le_div₀ (by positivity) htop (by exact_mod_cast q.den_pos) hbottom
      _ = q := hquotient.symm

theorem zpow_floorLog_le {q : ℚ} (hq : 0 < q) : (2 : ℚ) ^ floorLog 2 q ≤ q := by
  exact_mod_cast base_zpow_floorLog_le (by decide) hq

theorem ulp_pos (q : ℚ) : 0 < ulp q := zpow_pos (by decide) _

/-- The spacing around a number is at most that below any power of two above it. -/
theorem ulp_le {q : ℚ} {m : Int} (hlow : -1021 ≤ m) (hq : q ≠ 0) (h : |q| < 2 ^ m) :
    ulp q ≤ 2 ^ (m - 53) := by
  have hlog : floorLog 2 |q| < m := by
    have hle := zpow_floorLog_le (abs_pos.mpr hq)
    exact (zpow_lt_zpow_iff_right₀ (by norm_num : (1 : ℚ) < 2)).mp (hle.trans_lt h)
  apply zpow_le_zpow_right₀ (by norm_num : (1 : ℚ) ≤ 2)
  omega

/-- **One rounding**: within half a unit of the last place, and finite in the range of the doubles. -/
theorem round_near {q : ℚ} {m : Int} (hlow : -1021 ≤ m) (hhigh : m ≤ 1023) (h : |q| < 2 ^ m) :
    ∃ r, round q = .finite r ∧ |r - q| ≤ 2 ^ (m - 54) := by
  by_cases hq : q = 0
  · refine ⟨0, if_pos hq, ?_⟩
    rw [hq, sub_zero, abs_zero]
    positivity
  · have hulp := ulp_pos q
    have hspacing := ulp_le hlow hq h
    have hhalf : (2 : ℚ) ^ (m - 53) = 2 * 2 ^ (m - 54) := by
      rw [show m - 53 = m - 54 + 1 by ring, zpow_add_one₀ (by decide), mul_comm]
    have herror : |(roundHalfEven (q / ulp q) : ℚ) * ulp q - q| ≤ 2 ^ (m - 54) := by
      have hscaled : (roundHalfEven (q / ulp q) : ℚ) * ulp q - q =
          (roundHalfEven (q / ulp q) - q / ulp q) * ulp q := by
        rw [sub_mul, div_mul_cancel₀ q hulp.ne']
      rw [hscaled, abs_mul, abs_of_pos hulp]
      calc |(roundHalfEven (q / ulp q) : ℚ) - q / ulp q| * ulp q ≤ 1 / 2 * ulp q :=
            mul_le_mul_of_nonneg_right (abs_roundHalfEven_sub_le _) hulp.le
        _ ≤ 2 ^ (m - 54) := by linarith
    refine ⟨_, ?_, herror⟩
    unfold round
    rw [if_neg hq]
    dsimp only
    rw [if_neg]
    -- no overflow: the rounded number is still below the next power of two
    rw [not_le]
    have hsmall : (2 : ℚ) ^ (m - 54) ≤ 2 ^ m := zpow_le_zpow_right₀ (by norm_num) (by omega)
    have htwice : (2 : ℚ) ^ (m + 1) = 2 * 2 ^ m := by rw [zpow_add_one₀ (by decide), mul_comm]
    have htriangle := abs_sub_abs_le_abs_sub ((roundHalfEven (q / ulp q) : ℚ) * ulp q) q
    have hbound : |(roundHalfEven (q / ulp q) : ℚ) * ulp q| < 2 ^ (m + 1) := by linarith
    have hrange : (2 : ℚ) ^ (m + 1) ≤ 2 ^ (1024 : Int) := zpow_le_zpow_right₀ (by norm_num) (by omega)
    exact hbound.trans_le hrange

/-! ## Hundredths -/

/-- The double of a number below `2 ^ 46` is less than half a hundredth off. -/
theorem round_lt_half_hundredth {q : ℚ} (h : |q| < 2 ^ 46) :
    ∃ r, round q = .finite r ∧ |r - q| < 1 / 200 := by
  obtain ⟨r, hr, herror⟩ := round_near (m := 46) (by decide) (by decide) (by exact_mod_cast h)
  refine ⟨r, hr, herror.trans_lt ?_⟩
  norm_num

/-- Two different numbers of hundredths are at least one apart. -/
theorem hundredth_le_abs_sub {a b : Int} (h : a ≠ b) :
    1 / 100 ≤ |(a : ℚ) / 100 - (b : ℚ) / 100| := by
  have hone : (1 : ℚ) ≤ |(a : ℚ) - b| := by
    exact_mod_cast Int.one_le_abs (sub_ne_zero.mpr h)
  rw [← sub_div, abs_div, abs_of_pos (by norm_num : (0 : ℚ) < 100)]
  linarith

/-- **A double stands for one number of hundredths at most**, as long as they are below `2 ^ 46`. -/
theorem round_hundredths_inj {a b : Int} (ha : |(a : ℚ) / 100| < 2 ^ 46)
    (hb : |(b : ℚ) / 100| < 2 ^ 46) :
    round ((a : ℚ) / 100) = round ((b : ℚ) / 100) ↔ a = b := by
  refine ⟨fun heq => ?_, fun heq => by rw [heq]⟩
  by_contra hne
  obtain ⟨r, hr, har⟩ := round_lt_half_hundredth ha
  obtain ⟨r', hr', hbr⟩ := round_lt_half_hundredth hb
  obtain rfl : r = r' := finite.inj (hr.symm.trans (heq.trans hr'))
  have hapart := hundredth_le_abs_sub hne
  have htriangle := abs_sub_le ((a : ℚ) / 100) r ((b : ℚ) / 100)
  rw [abs_sub_comm] at har
  linarith

/-- The double nearest to half a hundredth. -/
theorem round_half_hundredth : ∃ t, round (5 / 1000) = .finite t ∧ 49 / 10000 < t ∧ t < 51 / 10000 := by
  obtain ⟨t, ht, herror⟩ := round_near (q := 5 / 1000) (m := 0) (by decide) (by decide)
    (by norm_num [abs_of_pos])
  refine ⟨t, ht, ?_⟩
  have hsmall : (2 : ℚ) ^ (0 - 54 : Int) < 1 / 10000 := by norm_num
  have hbounds := abs_lt.mp (herror.trans_lt hsmall)
  constructor <;> linarith [hbounds.1, hbounds.2]

/-- Rounding a difference that is not small leaves more than half a hundredth of it. -/
theorem round_keeps_apart {d : ℚ} (hfar : 8 / 1000 ≤ |d|) (hrange : |d| < 2 ^ 46) :
    ∃ s, round d = .finite s ∧ 51 / 10000 < |s| := by
  by_cases hone : |d| < 1
  · obtain ⟨s, hs, herror⟩ := round_near (m := 0) (by decide) (by decide)
      (by rwa [zpow_zero] : |d| < (2 : ℚ) ^ (0 : Int))
    refine ⟨s, hs, ?_⟩
    have hsmall : |s - d| < 1 / 1000 := herror.trans_lt (by norm_num)
    have htriangle := abs_sub_abs_le_abs_sub d s
    rw [abs_sub_comm] at htriangle
    linarith
  · obtain ⟨s, hs, herror⟩ := round_lt_half_hundredth hrange
    refine ⟨s, hs, ?_⟩
    have htriangle := abs_sub_abs_le_abs_sub d s
    rw [abs_sub_comm] at htriangle
    linarith

/-- **Computed differences of hundredths tell them apart**: below `2 ^ 44`, the difference of two
doubles exceeds half a hundredth exactly when they stand for different numbers. -/
theorem hundredths_gt_iff {a b : Int} (ha : |(a : ℚ) / 100| < 2 ^ 44)
    (hb : |(b : ℚ) / 100| < 2 ^ 44) :
    (((round ((a : ℚ) / 100)).sub (round ((b : ℚ) / 100))).abs.gt (round (5 / 1000))) = true ↔
      a ≠ b := by
  obtain ⟨t, ht, htlow, hthigh⟩ := round_half_hundredth
  obtain ⟨r, hr, har⟩ := round_near (q := (a : ℚ) / 100) (m := 44) (by decide) (by decide)
    (by exact_mod_cast ha)
  obtain ⟨r', hr', hbr⟩ := round_near (q := (b : ℚ) / 100) (m := 44) (by decide) (by decide)
    (by exact_mod_cast hb)
  rw [hr, hr', ht]
  show (round (r - r')).abs.gt (.finite t) = true ↔ a ≠ b
  constructor
  · rintro hgt rfl
    obtain rfl : r = r' := finite.inj (hr.symm.trans hr')
    rw [sub_self, round, if_pos rfl] at hgt
    have hlt : t < |(0 : ℚ)| := of_decide_eq_true hgt
    rw [abs_zero] at hlt
    linarith
  · intro hne
    have hapart := hundredth_le_abs_sub hne
    have hunit : (2 : ℚ) ^ (44 - 54 : Int) < 1 / 1000 := by norm_num
    have hdistance : 8 / 1000 ≤ |r - r'| := by
      have htriangle := abs_sub_le ((a : ℚ) / 100) r ((b : ℚ) / 100)
      have htriangle' := abs_sub_le r r' ((b : ℚ) / 100)
      rw [abs_sub_comm] at har
      linarith
    have hrange : |r - r'| < 2 ^ 46 := by
      have hra := abs_sub_abs_le_abs_sub r ((a : ℚ) / 100)
      have hrb := abs_sub_abs_le_abs_sub r' ((b : ℚ) / 100)
      have htwo := abs_sub r r'
      norm_num at ha hb ⊢
      linarith
    obtain ⟨s, hs, hfar⟩ := round_keeps_apart hdistance hrange
    rw [hs]
    exact decide_eq_true (hthigh.trans hfar)

/-! ## Order -/

theorem le_roundHalfEven {n : Int} {q : ℚ} (h : (n : ℚ) ≤ q) : n ≤ roundHalfEven q := by
  have hfloor : n ≤ ⌊q⌋ := Int.le_floor.mpr h
  unfold roundHalfEven
  dsimp only
  split_ifs <;> omega

theorem roundHalfEven_le {n : Int} {q : ℚ} (h : q ≤ n) : roundHalfEven q ≤ n := by
  have hbelow := Int.floor_le q
  rcases eq_or_lt_of_le h with heq | hlt
  · subst heq
    unfold roundHalfEven
    simp
  · have hfloor : ⌊q⌋ + 1 ≤ n := Int.floor_lt.mpr hlt
    unfold roundHalfEven
    dsimp only
    split_ifs <;> omega

theorem roundHalfEven_intCast (n : Int) : roundHalfEven (n : ℚ) = n :=
  le_antisymm (roundHalfEven_le le_rfl) (le_roundHalfEven le_rfl)

/-- The exponent of a positive number is not too small. -/
theorem lt_base_zpow_floorLog_add_one {b : Nat} (hb : 1 < b) {q : ℚ} (hq : 0 < q) :
    q < (b : ℚ) ^ (floorLog b q + 1) := by
  have hbase : (0 : ℚ) < b := by exact_mod_cast Nat.lt_of_succ_lt hb
  have hnum : 0 < q.num := Rat.num_pos.mpr hq
  have hquotient : q = (q.num.natAbs : ℚ) / q.den := by
    rw [Nat.cast_natAbs, abs_of_pos hnum]
    exact (Rat.num_div_den q).symm
  have htop : (q.num.natAbs : ℚ) < b ^ (Nat.log b q.num.natAbs + 1) := by
    exact_mod_cast Nat.lt_pow_succ_log_self hb q.num.natAbs
  have hbottom : (b : ℚ) ^ Nat.log b q.den ≤ q.den := by
    exact_mod_cast Nat.pow_log_le_self b q.den_ne_zero
  unfold floorLog
  dsimp only
  split
  · have hsplit : (b : ℚ) ^ ((Nat.log b q.num.natAbs : Int) - (Nat.log b q.den : Int) + 1) =
        b ^ (Nat.log b q.num.natAbs + 1) / b ^ Nat.log b q.den := by
      rw [sub_add_eq_add_sub, zpow_sub₀ hbase.ne', zpow_natCast]
      norm_cast
    rw [hsplit]
    calc q = q.num.natAbs / q.den := hquotient
      _ < b ^ (Nat.log b q.num.natAbs + 1) / b ^ Nat.log b q.den :=
          div_lt_div₀ htop hbottom (by positivity) (by positivity)
  · rename_i hlt
    rw [sub_add_cancel]
    exact not_le.mp hlt

theorem lt_zpow_floorLog_add_one {q : ℚ} (hq : 0 < q) : q < (2 : ℚ) ^ (floorLog 2 q + 1) := by
  exact_mod_cast lt_base_zpow_floorLog_add_one (by decide) hq

/-- The powers of the base up to a number are up to its exponent. -/
theorem le_base_floorLog {b : Nat} (hb : 1 < b) {m : Int} {q : ℚ} (h : (b : ℚ) ^ m ≤ q) :
    m ≤ floorLog b q := by
  have hbase : (1 : ℚ) < b := by exact_mod_cast hb
  have hq : 0 < q := lt_of_lt_of_le (zpow_pos (zero_lt_one.trans hbase) m) h
  have hlt := (zpow_lt_zpow_iff_right₀ hbase).mp (h.trans_lt (lt_base_zpow_floorLog_add_one hb hq))
  omega

theorem le_floorLog {m : Int} {q : ℚ} (h : (2 : ℚ) ^ m ≤ q) : m ≤ floorLog 2 q :=
  le_base_floorLog (by decide) (by exact_mod_cast h)

/-- From its exponent on a number is a whole number of units of its last place. -/
theorem zpow_floorLog_eq {q : ℚ} (h : -1022 ≤ floorLog 2 |q|) :
    (2 : ℚ) ^ floorLog 2 |q| = ((2 ^ 52 : Int) : ℚ) * ulp q := by
  unfold ulp
  rw [max_eq_left h, show ((2 ^ 52 : Int) : ℚ) = 2 ^ (52 : Int) by norm_num,
    ← zpow_add₀ (by decide)]
  congr 1
  ring

/-- A number from a power of two on stays there. -/
theorem zpow_le_round {m : Int} {q : ℚ} (hm : -1022 ≤ m) (h : (2 : ℚ) ^ m ≤ q) :
    round q = .infinity false ∨ ∃ r, round q = .finite r ∧ 2 ^ m ≤ r := by
  have hq : 0 < q := lt_of_lt_of_le (by positivity) h
  have hulp := ulp_pos q
  have hlog : m ≤ floorLog 2 |q| := by
    rw [abs_of_pos hq]
    exact le_floorLog h
  have hunits : ((2 ^ 52 : Int) : ℚ) ≤ q / ulp q := by
    rw [le_div_iff₀ hulp, ← zpow_floorLog_eq (by omega)]
    exact (zpow_floorLog_le (abs_pos.mpr hq.ne')).trans_eq (abs_of_pos hq)
  have hrounded : (2 : ℚ) ^ m ≤ roundHalfEven (q / ulp q) * ulp q := by
    calc (2 : ℚ) ^ m ≤ 2 ^ floorLog 2 |q| := zpow_le_zpow_right₀ (by norm_num) hlog
      _ = ((2 ^ 52 : Int) : ℚ) * ulp q := zpow_floorLog_eq (by omega)
      _ ≤ roundHalfEven (q / ulp q) * ulp q := by
          apply mul_le_mul_of_nonneg_right _ hulp.le
          exact_mod_cast le_roundHalfEven hunits
  unfold round
  rw [if_neg hq.ne']
  dsimp only
  split
  · left
    rw [decide_eq_false (not_lt.mpr hq.le)]
  · exact Or.inr ⟨_, rfl, hrounded⟩

/-- The same below zero. -/
theorem round_le_neg_zpow {m : Int} {q : ℚ} (hm : -1022 ≤ m) (h : q ≤ -(2 : ℚ) ^ m) :
    round q = .infinity true ∨ ∃ r, round q = .finite r ∧ r ≤ -2 ^ m := by
  have hpow : (0 : ℚ) < 2 ^ m := by positivity
  have hq : q < 0 := by linarith
  have hulp := ulp_pos q
  have hlog : m ≤ floorLog 2 |q| := by
    rw [abs_of_neg hq]
    exact le_floorLog (by linarith)
  have hunits : q / ulp q ≤ ((-2 ^ 52 : Int) : ℚ) := by
    have hle : (2 : ℚ) ^ floorLog 2 |q| ≤ |q| := zpow_floorLog_le (abs_pos.mpr hq.ne)
    rw [zpow_floorLog_eq (by omega), abs_of_neg hq] at hle
    rw [div_le_iff₀ hulp]
    push_cast at hle ⊢
    linarith
  have hrounded : (roundHalfEven (q / ulp q) : ℚ) * ulp q ≤ -2 ^ m := by
    have hle : (roundHalfEven (q / ulp q) : ℚ) ≤ ((-2 ^ 52 : Int) : ℚ) := by
      exact_mod_cast roundHalfEven_le hunits
    have hbound := mul_le_mul_of_nonneg_right hle hulp.le
    have hexponent : (2 : ℚ) ^ m ≤ 2 ^ floorLog 2 |q| := zpow_le_zpow_right₀ (by norm_num) hlog
    rw [zpow_floorLog_eq (by omega)] at hexponent
    push_cast at hbound hexponent ⊢
    linarith
  unfold round
  rw [if_neg hq.ne]
  dsimp only
  split
  · left
    rw [decide_eq_true hq]
  · exact Or.inr ⟨_, rfl, hrounded⟩

theorem floorLog_lt {q : ℚ} {m : Int} (hq : q ≠ 0) (h : |q| < 2 ^ m) : floorLog 2 |q| < m :=
  (zpow_lt_zpow_iff_right₀ (by norm_num : (1 : ℚ) < 2)).mp
    ((zpow_floorLog_le (abs_pos.mpr hq)).trans_lt h)

/-- Below `2 ^ 53` the spacing is a power of two that is not above one, so it divides every integer. -/
theorem exists_div_ulp {q : ℚ} (h : floorLog 2 |q| < 53) (n : Int) : ∃ k : Int, (n : ℚ) / ulp q = k := by
  refine ⟨n * 2 ^ (52 - max (floorLog 2 |q|) (-1022)).toNat, ?_⟩
  rw [div_eq_iff (ulp_pos q).ne']
  unfold ulp
  push_cast
  rw [mul_assoc, ← zpow_natCast, Int.toNat_of_nonneg (by omega), ← zpow_add₀ (by decide)]
  simp

theorem zpow_le_zpow_range : (2 : ℚ) ^ (53 : Int) ≤ 2 ^ (1024 : Int) :=
  zpow_le_zpow_right₀ (by norm_num) (by decide)

/-- **Integers below `2 ^ 53` are doubles.** -/
theorem round_intCast {n : Int} (h : |n| < 2 ^ 53) : round n = .finite n := by
  by_cases hn : n = 0
  · subst hn
    exact if_pos Int.cast_zero
  · have hq : (n : ℚ) ≠ 0 := Int.cast_ne_zero.mpr hn
    have hulp := ulp_pos (n : ℚ)
    have hcast : |(n : ℚ)| < 2 ^ (53 : Int) := by exact_mod_cast h
    obtain ⟨k, hk⟩ := exists_div_ulp (floorLog_lt hq hcast) n
    have hexact : (roundHalfEven ((n : ℚ) / ulp n) : ℚ) * ulp n = n := by
      rw [hk, roundHalfEven_intCast, ← hk, div_mul_cancel₀ _ hulp.ne']
    unfold round
    rw [if_neg hq]
    dsimp only
    rw [hexact, if_neg]
    rw [not_le]
    exact hcast.trans_le zpow_le_zpow_range

/-- **Rounding does not leave an interval from zero to an integer** that is a double itself. -/
theorem round_between {n : Int} {q : ℚ} (hn : n < 2 ^ 53) (hzero : 0 ≤ q) (hle : q ≤ n) :
    ∃ x, round q = .finite x ∧ 0 ≤ x ∧ x ≤ n := by
  have hnonneg : (0 : ℚ) ≤ n := hzero.trans hle
  rcases eq_or_lt_of_le hzero with rfl | hpos
  · exact ⟨0, if_pos rfl, le_refl 0, hnonneg⟩
  · have hulp := ulp_pos q
    have hcast : (n : ℚ) < 2 ^ (53 : Int) := by exact_mod_cast hn
    have habs : |q| < 2 ^ (53 : Int) := by
      rw [abs_of_pos hpos]
      exact hle.trans_lt hcast
    obtain ⟨k, hk⟩ := exists_div_ulp (floorLog_lt hpos.ne' habs) n
    have hlow : 0 ≤ roundHalfEven (q / ulp q) := by
      apply le_roundHalfEven
      rw [Int.cast_zero]
      exact div_nonneg hzero hulp.le
    have hhigh : roundHalfEven (q / ulp q) ≤ k := by
      apply roundHalfEven_le
      rw [← hk]
      exact div_le_div_of_nonneg_right hle hulp.le
    have hrounded : 0 ≤ (roundHalfEven (q / ulp q) : ℚ) * ulp q :=
      mul_nonneg (by exact_mod_cast hlow) hulp.le
    have hbound : (roundHalfEven (q / ulp q) : ℚ) * ulp q ≤ n := by
      have hunits : (roundHalfEven (q / ulp q) : ℚ) ≤ k := by exact_mod_cast hhigh
      rw [← hk, le_div_iff₀ hulp] at hunits
      exact hunits
    refine ⟨_, ?_, hrounded, hbound⟩
    unfold round
    rw [if_neg hpos.ne']
    dsimp only
    rw [if_neg]
    rw [not_le, abs_of_nonneg hrounded]
    exact (hbound.trans_lt hcast).trans_le zpow_le_zpow_range

/-- An integer that may be rounded stays on its side of every number before `2 ^ 53`. -/
theorem round_far {n : Int} (h : ¬ |n| < 2 ^ 53) :
    (2 ^ 53 ≤ n ∧ ∀ x : ℚ, x < 2 ^ 53 →
        (finite x).le (round n) = true ∧ (round n).le (.finite x) = false) ∨
      (n ≤ -2 ^ 53 ∧ ∀ x : ℚ, -2 ^ 53 < x →
        (round n).le (.finite x) = true ∧ (finite x).le (round n) = false) := by
  rw [not_lt] at h
  rcases lt_or_ge 0 n with hpos | hneg
  · rw [abs_of_pos hpos] at h
    have hpow : (2 : ℚ) ^ (53 : Int) ≤ n := by exact_mod_cast h
    refine Or.inl ⟨h, fun x hx => ?_⟩
    have hx : x < (2 : ℚ) ^ (53 : Int) := by exact_mod_cast hx
    rcases zpow_le_round (by decide) hpow with hround | ⟨r, hround, hr⟩
    · rw [hround]
      exact ⟨rfl, rfl⟩
    · rw [hround]
      have hlt := hx.trans_le hr
      simp [le, gt, hlt, hlt.le]
  · rw [abs_of_nonpos hneg] at h
    have hle : n ≤ -2 ^ 53 := by omega
    have hpow : (n : ℚ) ≤ -2 ^ (53 : Int) := by exact_mod_cast hle
    refine Or.inr ⟨hle, fun x hx => ?_⟩
    have hx : -(2 : ℚ) ^ (53 : Int) < x := by exact_mod_cast hx
    rcases round_le_neg_zpow (by decide) hpow with hround | ⟨r, hround, hr⟩
    · rw [hround]
      exact ⟨rfl, rfl⟩
    · rw [hround]
      have hlt := hr.trans_lt hx
      simp [le, gt, hlt, hlt.le]

section Bounds

variable {bound n : Int} (hbound : |bound| < 2 ^ 53)

include hbound

/-- **Rounding keeps an integer on its side of a bound** that is a double itself. -/
theorem finite_le_round_iff : (finite bound).le (round n) = true ↔ bound ≤ n := by
  obtain ⟨hlow, hhigh⟩ := abs_lt.mp hbound
  by_cases hn : |n| < 2 ^ 53
  · rw [round_intCast hn]
    simp [le, gt]
  · rcases round_far hn with ⟨hle, hfar⟩ | ⟨hle, hfar⟩
    · rw [(hfar bound (by exact_mod_cast hhigh)).1]
      exact iff_of_true rfl (by omega)
    · rw [(hfar bound (by exact_mod_cast hlow)).2]
      exact iff_of_false Bool.false_ne_true (by omega)

/-- The same for a bound from above. -/
theorem round_le_finite_iff : (round n).le (.finite bound) = true ↔ n ≤ bound := by
  obtain ⟨hlow, hhigh⟩ := abs_lt.mp hbound
  by_cases hn : |n| < 2 ^ 53
  · rw [round_intCast hn]
    simp [le, gt]
  · rcases round_far hn with ⟨hle, hfar⟩ | ⟨hle, hfar⟩
    · rw [(hfar bound (by exact_mod_cast hhigh)).2]
      exact iff_of_false Bool.false_ne_true (by omega)
    · rw [(hfar bound (by exact_mod_cast hlow)).1]
      exact iff_of_true rfl (by omega)

end Bounds

/-- **A number of hundredths is not rounded across zero.** -/
theorem round_hundredths_gt_zero {n : Int} (h : (round ((n : ℚ) / 100)).gt (.finite 0) = true) :
    1 ≤ n := by
  by_contra hn
  rcases eq_or_lt_of_le (show n ≤ 0 by omega) with rfl | hneg
  · rw [Int.cast_zero, zero_div, round, if_pos rfl] at h
    have hlt : (0 : ℚ) < 0 := of_decide_eq_true h
    exact lt_irrefl _ hlt
  · have hle : (n : ℚ) ≤ -1 := by exact_mod_cast (show n ≤ -1 by omega)
    have hfar : (n : ℚ) / 100 ≤ -(2 : ℚ) ^ (-7 : Int) := by
      norm_num
      linarith
    rcases round_le_neg_zpow (by decide) hfar with hinfinite | ⟨r, hr, hle⟩
    · rw [hinfinite] at h
      cases h
    · rw [hr] at h
      have hpos : 0 < r := of_decide_eq_true h
      have hpow : (0 : ℚ) < 2 ^ (-7 : Int) := by positivity
      linarith

/-- **A number of hundredths is not rounded down to a bound that it exceeds**, where the bound is a
number that doubles tell from its neighbours. -/
theorem round_hundredths_le {n bound : Int} (hbound : |(bound : ℚ)| < 2 ^ 45)
    (h : (round ((n : ℚ) / 100)).le (.finite bound) = true) : (n : ℚ) / 100 ≤ bound := by
  by_contra hn
  rw [not_le] at hn
  have hapart : (bound : ℚ) + 1 / 100 ≤ (n : ℚ) / 100 := by
    rw [lt_div_iff₀ (by norm_num)] at hn
    have hstep : bound * 100 + 1 ≤ n := by exact_mod_cast hn
    have hcast : (bound : ℚ) * 100 + 1 ≤ n := by exact_mod_cast hstep
    linarith
  have hlow := (abs_lt.mp hbound).1
  have habove : ∀ r : ℚ, round ((n : ℚ) / 100) = .finite r → (bound : ℚ) < r → False := by
    intro r hr hlt
    rw [hr] at h
    have hfalse : (finite r).gt (.finite bound) = true := decide_eq_true hlt
    simp [le, hfalse] at h
  by_cases hrange : (n : ℚ) / 100 < 2 ^ 46
  · have habs : |(n : ℚ) / 100| < 2 ^ 46 := by
      rw [abs_lt]
      constructor
      · norm_num at hlow ⊢
        linarith
      · exact hrange
    obtain ⟨r, hr, herror⟩ := round_lt_half_hundredth habs
    refine habove r hr ?_
    have hclose := (abs_lt.mp herror).1
    linarith
  · have hfar : (2 : ℚ) ^ (46 : Int) ≤ (n : ℚ) / 100 := by exact_mod_cast not_lt.mp hrange
    rcases zpow_le_round (by decide) hfar with hinfinite | ⟨r, hr, hle⟩
    · rw [hinfinite] at h
      cases h
    · refine habove r hr (lt_of_lt_of_le ?_ hle)
      have hhigh := (abs_lt.mp hbound).2
      norm_num at hhigh ⊢
      linarith

/-! ## The comparison with half a hundredth -/

/-- `q` to 53 significant binary digits (fewer below `2 ^ -1022`). -/
def nearest (q : ℚ) : ℚ := roundHalfEven (q / ulp q) * ulp q

/-- Rounding, without the case of a zero. -/
theorem round_eq (q : ℚ) : round q =
    if 2 ^ 1024 ≤ |nearest q| then .infinity (q < 0) else .finite (nearest q) := by
  by_cases hq : q = 0
  · have hzero : nearest 0 = 0 := by
      have hhalf : roundHalfEven (0 : ℚ) = 0 := by exact_mod_cast roundHalfEven_intCast 0
      rw [nearest, zero_div, hhalf, Int.cast_zero, zero_mul]
    rw [hq, hzero, abs_zero, if_neg (not_le.mpr (by positivity)), round, if_pos rfl]
  · unfold round
    rw [if_neg hq]
    rfl

theorem roundHalfEven_neg (q : ℚ) : roundHalfEven (-q) = -roundHalfEven q := by
  by_cases hinteger : (⌊q⌋ : ℚ) = q
  · rw [← hinteger, roundHalfEven_intCast]
    exact_mod_cast roundHalfEven_intCast (-⌊q⌋)
  · have hbelow : (⌊q⌋ : ℚ) < q := lt_of_le_of_ne (Int.floor_le q) hinteger
    have habove := Int.lt_floor_add_one q
    have hfloor : ⌊-q⌋ = -⌊q⌋ - 1 := by
      rw [Int.floor_eq_iff]
      push_cast
      constructor <;> linarith
    unfold roundHalfEven
    dsimp only
    rw [hfloor]
    push_cast
    split_ifs <;> first | omega | (exfalso; linarith)

theorem abs_roundHalfEven (q : ℚ) : |roundHalfEven q| = roundHalfEven |q| := by
  rcases le_total 0 q with hq | hq
  · have hnonneg : 0 ≤ roundHalfEven q := le_roundHalfEven (by exact_mod_cast hq)
    rw [abs_of_nonneg hq, abs_of_nonneg hnonneg]
  · have hnonneg : 0 ≤ roundHalfEven (-q) := le_roundHalfEven (by push_cast; linarith)
    rw [abs_of_nonpos hq, ← abs_neg, ← roundHalfEven_neg, abs_of_nonneg hnonneg]

/-- An odd number is exceeded from half a unit above it on. -/
theorem lt_roundHalfEven_iff {n : Int} (hodd : n % 2 = 1) {q : ℚ} :
    n < roundHalfEven q ↔ (n : ℚ) + 1 / 2 ≤ q := by
  have hbelow := Int.floor_le q
  have habove := Int.lt_floor_add_one q
  rcases lt_trichotomy ⌊q⌋ n with hlt | heq | hgt
  · have hle : (⌊q⌋ : ℚ) + 1 ≤ n := by exact_mod_cast hlt
    have hrounded : roundHalfEven q ≤ n := roundHalfEven_le (by linarith)
    exact iff_of_false (not_lt.mpr hrounded) (by linarith)
  · unfold roundHalfEven
    dsimp only
    rw [heq]
    rw [heq] at hbelow habove
    split_ifs with hless hmore
    · exact iff_of_false (lt_irrefl n) (by linarith)
    · exact iff_of_true (by omega) (by linarith)
    · exact absurd hodd (by omega)
    · exact iff_of_true (by omega) (by linarith)
  · have hge : (n : ℚ) + 1 ≤ ⌊q⌋ := by exact_mod_cast hgt
    have hrounded : ⌊q⌋ ≤ roundHalfEven q := le_roundHalfEven hbelow
    exact iff_of_true (by omega) (by linarith)

/-- The least difference that is more than 0.005 to a double: half a unit of the last place above the
double nearest to 0.005. -/
def overHalfHundredth : ℚ := 11529215046068471 / 2 ^ 61

theorem round_half_hundredth_eq : round (5 / 1000) = .finite (5764607523034235 / 2 ^ 60) := by
  decide +kernel

/-- Between `2 ^ -8` and `2 ^ -7` the doubles are `2 ^ -60` apart. -/
theorem ulp_hundredth {d : ℚ} (hlow : 2 ^ (-8 : Int) ≤ |d|) (hhigh : |d| < 2 ^ (-7 : Int)) :
    ulp d = 2 ^ (-60 : Int) := by
  have hd : d ≠ 0 := by
    rintro rfl
    norm_num at hlow
  have hlog : floorLog 2 |d| = -8 := by
    have hle := le_floorLog hlow
    have hlt := floorLog_lt hd hhigh
    omega
  rw [ulp, hlog]
  norm_num

/-- **When a rounded difference exceeds 0.005**, in terms of the difference itself. -/
theorem round_gt_iff (d : ℚ) :
    (round d).abs.gt (round (5 / 1000)) = true ↔ overHalfHundredth ≤ |d| := by
  rw [round_half_hundredth_eq]
  by_cases hlow : |d| < 2 ^ (-8 : Int)
  · obtain ⟨r, hr, herror⟩ := round_near (by decide) (by decide) hlow
    have htriangle := abs_sub_abs_le_abs_sub r d
    rw [hr]
    refine iff_of_false ?_ ?_
    · show ¬ decide (_ < |r|) = true
      rw [decide_eq_true_iff, not_lt]
      norm_num at hlow herror ⊢
      linarith
    · rw [overHalfHundredth, not_le]
      norm_num at hlow ⊢
      linarith
  rw [not_lt] at hlow
  by_cases hhigh : |d| < 2 ^ (-7 : Int)
  · have hulp := ulp_hundredth hlow hhigh
    obtain ⟨r, hr, -⟩ := round_near (by decide) (by decide) hhigh
    have hnear : r = nearest d := by
      rw [round_eq] at hr
      split at hr
      · cases hr
      · exact (finite.inj hr).symm
    have hscaled : |nearest d| = (roundHalfEven (|d| * 2 ^ 60) : ℚ) / 2 ^ 60 := by
      have hunit : (2 : ℚ) ^ (-60 : Int) = (2 ^ 60)⁻¹ := zpow_neg_coe_of_pos 2 (by decide)
      rw [nearest, hulp, hunit, abs_mul, ← Int.cast_abs, abs_roundHalfEven, div_inv_eq_mul, abs_mul,
        abs_of_pos (by positivity : (0 : ℚ) < 2 ^ 60),
        abs_of_pos (by positivity : (0 : ℚ) < (2 ^ 60)⁻¹), ← div_eq_mul_inv]
    rw [hr, hnear]
    show decide (_ < |nearest d|) = true ↔ _
    rw [decide_eq_true_iff, hscaled, div_lt_div_iff_of_pos_right (by positivity)]
    have hodd := lt_roundHalfEven_iff (n := 5764607523034235) (by decide) (q := |d| * 2 ^ 60)
    rw [← @Int.cast_lt ℚ] at hodd
    push_cast at hodd
    rw [hodd, overHalfHundredth, div_le_iff₀ (by positivity)]
    constructor <;> intro h <;> linarith
  · rw [not_lt] at hhigh
    refine iff_of_true ?_ ?_
    · have hfar : round d = .infinity false ∨ round d = .infinity true ∨
          ∃ r, round d = .finite r ∧ 2 ^ (-7 : Int) ≤ |r| := by
        rcases le_or_gt 0 d with hd | hd
        · rw [abs_of_nonneg hd] at hhigh
          rcases zpow_le_round (by decide) hhigh with hinf | ⟨r, hr, hle⟩
          · exact Or.inl hinf
          · exact Or.inr (Or.inr ⟨r, hr, hle.trans (le_abs_self r)⟩)
        · rw [abs_of_neg hd] at hhigh
          rcases round_le_neg_zpow (m := -7) (by decide) (by linarith) with hinf | ⟨r, hr, hle⟩
          · exact Or.inr (Or.inl hinf)
          · exact Or.inr (Or.inr ⟨r, hr, (le_neg_of_le_neg hle).trans (neg_le_abs r)⟩)
      rcases hfar with hinf | hinf | ⟨r, hr, hle⟩
      · rw [hinf]
        rfl
      · rw [hinf]
        rfl
      · rw [hr]
        refine decide_eq_true ?_
        norm_num at hle ⊢
        linarith
    · rw [overHalfHundredth]
      norm_num at hhigh ⊢
      linarith

/-- In the range of the doubles rounding keeps 53 digits. -/
theorem round_eq_nearest {q : ℚ} (h : |q| < 2 ^ (1023 : Int)) : round q = .finite (nearest q) := by
  obtain ⟨r, hr, -⟩ := round_near (by decide) le_rfl h
  rw [round_eq] at hr ⊢
  split at hr
  · cases hr
  · rw [if_neg ‹_›]

/-- **Two numbers of hundredths are told apart** below `2 ^ 44`, when each is kept to 53 digits. -/
theorem overHalfHundredth_le_iff {a b : Int} (ha : |(a : ℚ) / 100| < 2 ^ 44)
    (hb : |(b : ℚ) / 100| < 2 ^ 44) :
    overHalfHundredth ≤ |nearest ((a : ℚ) / 100) - nearest ((b : ℚ) / 100)| ↔ a ≠ b := by
  have hrange : (2 : ℚ) ^ 44 ≤ 2 ^ (1023 : Int) := by
    exact_mod_cast zpow_le_zpow_right₀ (by norm_num : (1 : ℚ) ≤ 2) (by decide : (44 : Int) ≤ 1023)
  rw [← hundredths_gt_iff ha hb, round_eq_nearest (ha.trans_le hrange),
    round_eq_nearest (hb.trans_le hrange)]
  exact (round_gt_iff _).symm

end Binary64

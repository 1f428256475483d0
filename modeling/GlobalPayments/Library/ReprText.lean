/-
# ReprText — the decimal that Python's `repr` writes for a double.

The search for the shortest digits ends with digits that round back: at most seventeen are needed
(`round_shortest`).  From `2 ^ 46` on they do not go below the hundredths
(`shortest_hundredths_of_large`), and below that they are the hundredths the double was rounded from
(`shortest_of_hundredths`).

`ofString_repr`: `Decimal` reads from the text the number that the digits stand for.
-/
import GlobalPayments.Library.NumberText

namespace Binary64

/-! ## What rounds to a double -/

theorem roundHalfEven_of_near {n : Int} {q : ℚ} (h : |q - n| < 1 / 2) : roundHalfEven q = n := by
  have hrounded := abs_roundHalfEven_sub_le q
  have hapart := abs_sub_le (roundHalfEven q : ℚ) q n
  have hlt : |(roundHalfEven q : ℚ) - n| < 1 := by linarith
  have hint : |roundHalfEven q - n| < 1 := by exact_mod_cast hlt
  exact sub_eq_zero.mp (Int.abs_lt_one_iff.mp hint)

/-- What is rounded to is the nearest number of 53 digits, and in the range of the doubles. -/
theorem nearest_of_round {x q : ℚ} (h : round x = .finite q) : nearest x = q ∧ |q| < 2 ^ 1024 := by
  rw [round_eq] at h
  split at h
  · cases h
  · rename_i hrange
    have hnearest := finite.inj h
    rw [hnearest, not_le] at hrange
    exact ⟨hnearest, hrange⟩

/-- Numbers that are not negative round alike if they have the same 53 digits. -/
theorem round_eq_of_nearest {x y : ℚ} (hx : 0 ≤ x) (hy : 0 ≤ y) (h : nearest x = nearest y) :
    round x = round y := by
  rw [round_eq, round_eq, h, decide_eq_false (not_lt.mpr hx), decide_eq_false (not_lt.mpr hy)]

/-- What is rounded to is a whole number of units of the last place of the number rounded, and of
smaller ones. -/
theorem exists_units {x c q : ℚ} (h : round x = .finite q)
    (hlog : floorLog 2 |c| ≤ max (floorLog 2 |x|) (-1022)) : ∃ k : Int, q = k * ulp c := by
  refine ⟨roundHalfEven (x / ulp x) *
    2 ^ (max (floorLog 2 |x|) (-1022) - max (floorLog 2 |c|) (-1022)).toNat, ?_⟩
  have hunits : ulp x =
      2 ^ (max (floorLog 2 |x|) (-1022) - max (floorLog 2 |c|) (-1022)).toNat * ulp c := by
    unfold ulp
    rw [← zpow_natCast, Int.toNat_of_nonneg (by omega), ← zpow_add₀ (by decide)]
    congr 1
    ring
  push_cast
  rw [mul_assoc, ← hunits]
  exact (nearest_of_round h).1.symm

/-- **Rounding again changes nothing.** -/
theorem round_round {x q : ℚ} (h : round x = .finite q) : round q = .finite q := by
  obtain ⟨hnearest, hrange⟩ := nearest_of_round h
  suffices hunits : ∃ k : Int, q = k * ulp q by
    obtain ⟨k, hk⟩ := hunits
    have hscaled : q / ulp q = k := by
      rw [div_eq_iff (ulp_pos q).ne']
      exact hk
    rw [round_eq, nearest, hscaled, roundHalfEven_intCast, ← hk, if_neg (not_le.mpr hrange)]
  by_cases hq : q = 0
  · exact ⟨0, by rw [hq, Int.cast_zero, zero_mul]⟩
  by_cases hlog : floorLog 2 |q| ≤ max (floorLog 2 |x|) (-1022)
  · exact exists_units h hlog
  -- only the next power of two has a larger exponent
  have hulp := ulp_pos x
  have hx : x ≠ 0 := by
    rintro rfl
    rw [round, if_pos rfl] at h
    rw [← finite.inj h] at hlog
    exact hlog (le_max_left _ _)
  have htop : (2 : ℚ) ^ (max (floorLog 2 |x|) (-1022) + 1) = ((2 ^ 53 : Int) : ℚ) * ulp x := by
    unfold ulp
    rw [show ((2 ^ 53 : Int) : ℚ) = 2 ^ (53 : Int) by norm_num, ← zpow_add₀ (by decide)]
    congr 1
    ring
  have hbelow : |x| ≤ ((2 ^ 53 : Int) : ℚ) * ulp x := by
    rw [← htop]
    refine (lt_zpow_floorLog_add_one (abs_pos.mpr hx)).le.trans ?_
    apply zpow_le_zpow_right₀ (by norm_num)
    omega
  have hmost : |q| ≤ 2 ^ (max (floorLog 2 |x|) (-1022) + 1) := by
    rw [htop, ← hnearest, nearest, abs_mul, abs_of_pos hulp]
    apply mul_le_mul_of_nonneg_right _ hulp.le
    rw [← Int.cast_abs, abs_roundHalfEven, abs_div, abs_of_pos hulp, Int.cast_le]
    apply roundHalfEven_le
    rwa [div_le_iff₀ hulp]
  have hleast := zpow_floorLog_le (abs_pos.mpr hq)
  have hexponent : floorLog 2 |q| ≤ max (floorLog 2 |x|) (-1022) + 1 :=
    (zpow_le_zpow_iff_right₀ (by norm_num : (1 : ℚ) < 2)).mp (hleast.trans hmost)
  have hlogq : floorLog 2 |q| = max (floorLog 2 |x|) (-1022) + 1 := by omega
  have hpower : |q| = ((2 ^ 52 : Int) : ℚ) * ulp q := by
    rw [← zpow_floorLog_eq (by omega)]
    refine le_antisymm ?_ hleast
    rwa [hlogq]
  rcases abs_choice q with hsign | hsign
  · exact ⟨2 ^ 52, by rw [← hpower, hsign]⟩
  · refine ⟨-2 ^ 52, ?_⟩
    push_cast at hpower ⊢
    linarith

section Near

variable {c q : ℚ} (hdouble : round q = .finite q)

include hdouble

/-- **What is less than half a unit away from a double rounds to it.** -/
theorem round_of_near (hlog : floorLog 2 |c| ≤ floorLog 2 |q|) (hnear : |c - q| < ulp c / 2) :
    round c = .finite q := by
  obtain ⟨k, hk⟩ := exists_units (c := c) hdouble (hlog.trans (le_max_left _ _))
  have hulp := ulp_pos c
  have hscaled : c / ulp c - k = (c - q) / ulp c := by
    rw [hk, sub_div, mul_div_cancel_right₀ _ hulp.ne']
  have hclose : |c / ulp c - k| < 1 / 2 := by
    rw [hscaled, abs_div, abs_of_pos hulp, div_lt_iff₀ hulp]
    linarith
  have hnearest : nearest c = q := by
    rw [nearest, roundHalfEven_of_near hclose, ← hk]
  rw [round_eq, hnearest, if_neg (not_le.mpr (nearest_of_round hdouble).2)]

/-- A unit above a double is still not beyond the next power of two. -/
theorem add_ulp_le (hq : 1 ≤ q) : q + ulp q ≤ 2 ^ (floorLog 2 |q| + 1) := by
  have hpos : 0 < q := zero_lt_one.trans_le hq
  have hulp := ulp_pos q
  have hlog : 0 ≤ floorLog 2 |q| := by
    rw [abs_of_pos hpos]
    exact le_floorLog (by rwa [zpow_zero])
  have htop : (2 : ℚ) ^ (floorLog 2 |q| + 1) = ((2 ^ 53 : Int) : ℚ) * ulp q := by
    rw [zpow_add_one₀ (by decide), zpow_floorLog_eq (by omega)]
    push_cast
    ring
  obtain ⟨k, hk⟩ := exists_units hdouble (le_max_left (floorLog 2 |q|) (-1022))
  have hlt : q < 2 ^ (floorLog 2 |q| + 1) := by
    rw [abs_of_pos hpos]
    exact lt_zpow_floorLog_add_one hpos
  have hunits : k < 2 ^ 53 := by
    rw [htop] at hlt
    conv_lhs at hlt => rw [hk]
    exact_mod_cast lt_of_mul_lt_mul_right hlt hulp.le
  have hstep : ((k + 1 : Int) : ℚ) * ulp q ≤ ((2 ^ 53 : Int) : ℚ) * ulp q :=
    mul_le_mul_of_nonneg_right (by exact_mod_cast hunits) hulp.le
  rw [htop]
  push_cast at hstep ⊢
  linarith

/-- What is less than a unit above a double has no larger exponent. -/
theorem floorLog_le_of_near (hq : 1 ≤ q) (hc : 0 < c) (hnear : c - q < ulp q) :
    floorLog 2 |c| ≤ floorLog 2 |q| := by
  have hbelow : |c| < 2 ^ (floorLog 2 |q| + 1) := by
    rw [abs_of_pos hc]
    have htop := add_ulp_le hdouble hq
    linarith
  have hlt := floorLog_lt hc.ne' hbelow
  omega

end Near

/-! ## The digits that are tried -/

/-- The decimal that is tried at an exponent. -/
def tried (q : ℚ) (exponent : Int) : ℚ := (roundHalfEven (q / 10 ^ exponent)).toNat * 10 ^ exponent

/-- The decimal that the shortest digits stand for. -/
def shortest (q : ℚ) : ℚ := (shortestDigits q 1 17).1 * 10 ^ (shortestDigits q 1 17).2

/-- The search is over with the first digits that round back; the induction is on the tries left. -/
theorem shortestDigits_found {q : ℚ} {j : Nat} (h : round (tried q (floorLog 10 q - j + 1)) = .finite q)
    {n fuel : Nat} (hlow : n ≤ j) (hfuel : j < n + fuel) :
    floorLog 10 q - j + 1 ≤ (shortestDigits q n fuel).2 ∧
      round ((shortestDigits q n fuel).1 * 10 ^ (shortestDigits q n fuel).2) = .finite q := by
  induction fuel generalizing n with
  | zero => omega
  | succ fuel ih =>
      unfold shortestDigits
      dsimp only
      split
      · rename_i hround
        exact ⟨by omega, hround⟩
      · rename_i hround
        have hne : n ≠ j := by
          rintro rfl
          exact hround h
        exact ih (by omega) (by omega)

section Digits

variable {q : ℚ}

/-- How far the decimal is from the double. -/
theorem tried_near (hq : 0 < q) (exponent : Int) :
    |tried q exponent - q| ≤ 10 ^ exponent / 2 := by
  have hpow : (0 : ℚ) < 10 ^ exponent := by positivity
  have hnonneg : 0 ≤ roundHalfEven (q / 10 ^ exponent) := le_roundHalfEven (by push_cast; positivity)
  have hcast : ((roundHalfEven (q / 10 ^ exponent)).toNat : ℚ) = roundHalfEven (q / 10 ^ exponent) := by
    exact_mod_cast Int.toNat_of_nonneg hnonneg
  have hscaled : tried q exponent - q =
      (roundHalfEven (q / 10 ^ exponent) - q / 10 ^ exponent) * 10 ^ exponent := by
    rw [tried, hcast, sub_mul, div_mul_cancel₀ q hpow.ne']
  rw [hscaled, abs_mul, abs_of_pos hpow]
  calc |(roundHalfEven (q / 10 ^ exponent) : ℚ) - q / 10 ^ exponent| * 10 ^ exponent
      ≤ 1 / 2 * 10 ^ exponent :=
        mul_le_mul_of_nonneg_right (abs_roundHalfEven_sub_le _) hpow.le
    _ = 10 ^ exponent / 2 := by ring

/-- It does not fall below a whole number of units of the exponent. -/
theorem le_tried {n : Nat} {exponent : Int} (h : n * 10 ^ exponent ≤ q) :
    n * 10 ^ exponent ≤ tried q exponent := by
  have hpow : (0 : ℚ) < 10 ^ exponent := by positivity
  have hle : ((n : Int) : ℚ) ≤ q / 10 ^ exponent := by
    rw [le_div_iff₀ hpow]
    exact_mod_cast h
  have hrounded := le_roundHalfEven hle
  have hdigits : n ≤ (roundHalfEven (q / 10 ^ exponent)).toNat := by omega
  exact mul_le_mul_of_nonneg_right (by exact_mod_cast hdigits) hpow.le

variable (hdouble : round q = .finite q)

include hdouble

/-- With seventeen digits the decimal rounds back. -/
theorem round_tried_seventeen (hq : 1 ≤ q) :
    round (tried q (floorLog 10 q - 17 + 1)) = .finite q := by
  have hpos : 0 < q := zero_lt_one.trans_le hq
  have hpow : (0 : ℚ) < 10 ^ (floorLog 10 q - 17 + 1) := by positivity
  have hsixteen : ((10 ^ 16 : Nat) : ℚ) * 10 ^ (floorLog 10 q - 17 + 1) ≤ q := by
    have hbase := base_zpow_floorLog_le (b := 10) (by decide) hpos
    refine le_trans (le_of_eq ?_) hbase
    rw [Nat.cast_pow, ← zpow_natCast, Nat.cast_ofNat, ← zpow_add₀ (by norm_num)]
    congr 1
    push_cast
    ring
  have hlarge := le_tried hsixteen
  have hnear := tried_near hpos (floorLog 10 q - 17 + 1)
  generalize tried q (floorLog 10 q - 17 + 1) = c at hlarge hnear ⊢
  generalize (10 : ℚ) ^ (floorLog 10 q - 17 + 1) = unit at hpow hsixteen hlarge hnear
  push_cast at hsixteen hlarge
  have hc : 0 < c := by linarith
  -- a number is below twice its power of two, and half its unit is the 54th part of that
  have hunit : ∀ x : ℚ, 0 < x → -1022 ≤ floorLog 2 |x| → x < 2 ^ 53 * ulp x := by
    intro x hx hlog
    have hlt := lt_zpow_floorLog_add_one hx
    have heq := zpow_floorLog_eq hlog
    rw [abs_of_pos hx] at heq
    rw [zpow_add_one₀ (by decide), heq] at hlt
    push_cast at hlt
    linarith
  have hlogq : 0 ≤ floorLog 2 |q| := by
    rw [abs_of_pos hpos]
    exact le_floorLog (by rwa [zpow_zero])
  have hlogc : -1 ≤ floorLog 2 |c| := by
    rw [abs_of_pos hc]
    apply le_floorLog
    have hclose := (abs_le.mp hnear).1
    norm_num
    linarith
  have hulpq := hunit q hpos (by omega)
  have hulpc := hunit c hc (by omega)
  have hexponent := floorLog_le_of_near hdouble hq hc (by
    have hclose := (abs_le.mp hnear).2
    linarith)
  refine round_of_near hdouble hexponent (hnear.trans_lt ?_)
  linarith

/-- **The shortest digits round back.** -/
theorem round_shortest (hq : 1 ≤ q) : round (shortest q) = .finite q :=
  (shortestDigits_found (j := 17) (round_tried_seventeen hdouble hq) (by decide) (by decide)).2

/-- From `2 ^ 46` on the nearest number of hundredths rounds back. -/
theorem round_tried_hundredths (hq : 2 ^ 46 ≤ q) : round (tried q (-2)) = .finite q := by
  have hpos : 0 < q := lt_of_lt_of_le (by norm_num) hq
  have hpow : (2 : ℚ) ^ (46 : Int) ≤ |q| := by
    rw [abs_of_pos hpos]
    exact_mod_cast hq
  have hlog : 46 ≤ floorLog 2 |q| := le_floorLog hpow
  have hbelow : (2 : ℚ) ^ floorLog 2 |q| ≤ q := by
    have hle := zpow_floorLog_le (abs_pos.mpr hpos.ne')
    rwa [abs_of_pos hpos] at hle ⊢
  have hnear := tried_near hpos (-2)
  have hunit : (1 : ℚ) / 64 ≤ ulp q := by
    have hle : (2 : ℚ) ^ (-6 : Int) ≤ ulp q := by
      apply zpow_le_zpow_right₀ (by norm_num)
      omega
    norm_num at hle ⊢
    exact hle
  -- the power of two is a whole number of hundredths
  have hwhole : (2 : ℚ) ^ floorLog 2 |q| =
      ((2 ^ (floorLog 2 |q|).toNat * 100 : Nat) : ℚ) * 10 ^ (-2 : Int) := by
    push_cast
    rw [← zpow_natCast, Int.toNat_of_nonneg (by omega), mul_assoc]
    norm_num
  have hlow : (2 : ℚ) ^ floorLog 2 |q| ≤ tried q (-2) := by
    rw [hwhole] at hbelow ⊢
    exact le_tried hbelow
  have hc : 0 < tried q (-2) := lt_of_lt_of_le (by positivity) hlow
  generalize tried q (-2) = c at hnear hlow hc ⊢
  norm_num at hnear
  have hclose := (abs_le.mp hnear).2
  have hexponent := floorLog_le_of_near hdouble (by linarith) hc (by linarith)
  have hsame : floorLog 2 |c| = floorLog 2 |q| := by
    refine le_antisymm hexponent (le_floorLog ?_)
    rwa [abs_of_pos hc]
  refine round_of_near hdouble hexponent (hnear.trans_lt ?_)
  rw [ulp, hsame]
  unfold ulp at hunit
  linarith

/-- **From `2 ^ 46` on the shortest digits do not go below the hundredths.** -/
theorem shortest_hundredths_of_large (hq : 2 ^ 46 ≤ q) : ∃ n : Nat, shortest q = n / 100 := by
  have hpos : 0 < q := lt_of_lt_of_le (by norm_num) hq
  have hexponent : -2 ≤ (shortestDigits q 1 17).2 := by
    by_cases hsmall : floorLog 10 q ≤ 14
    · have hlog : 13 ≤ floorLog 10 q := by
        apply le_base_floorLog (by decide)
        norm_num at hq ⊢
        linarith
      have htried : floorLog 10 q - (floorLog 10 q + 3).toNat + 1 = -2 := by omega
      have hround : round (tried q (floorLog 10 q - (floorLog 10 q + 3).toNat + 1)) = .finite q := by
        rw [htried]
        exact round_tried_hundredths hdouble hq
      have hfound : _ ≤ (shortestDigits q 1 17).2 :=
        (shortestDigits_found hround (by omega) (by omega)).1
      omega
    · have hone : (1 : ℚ) ≤ q := le_trans (by norm_num) hq
      have hfound : floorLog 10 q - (17 : Nat) + 1 ≤ (shortestDigits q 1 17).2 :=
        (shortestDigits_found (round_tried_seventeen hdouble hone) (by decide) (by decide)).1
      push_cast at hfound
      omega
  refine ⟨(shortestDigits q 1 17).1 * 10 ^ ((shortestDigits q 1 17).2 + 2).toNat, ?_⟩
  unfold shortest
  push_cast
  rw [← zpow_natCast, Int.toNat_of_nonneg (by omega), zpow_add₀ (by norm_num)]
  ring

end Digits

/-- Below `2 ^ 46` the shortest digits are the number of hundredths that was rounded. -/
theorem shortest_of_hundredths {n : Nat} {q : ℚ} (hn : 1 ≤ n) (hrange : (n : ℚ) / 100 < 2 ^ 46)
    (h : round ((n : ℚ) / 100) = .finite q) : shortest q = n / 100 :=
  (shortestDigits_hundredths hn hrange h).2

/-- The number is the one that is printed for its double. -/
def Printed (x : ℚ) : Prop := ∃ q, round x = .finite q ∧ shortest q = x

instance (x : ℚ) : Decidable (Printed x) :=
  match h : round x with
  | .finite q => decidable_of_iff (shortest q = x) (by simp [Printed, h])
  | .infinity _ => isFalse (by simp [Printed, h])
  | .nan => isFalse (by simp [Printed, h])

/-! ## The text -/

open PyDecimal (Written digitsValue pointed isDigit_toDigits)

/-- The text of a positive double has the parts of a number. -/
theorem reprPositive_written (q : ℚ) :
    ∃ (text : List Char) (coefficient : Nat) (exponent : Int) (whole fraction rest : List Char),
      reprPositive q = String.ofList text ∧
      Written text coefficient exponent whole fraction rest ∧
      (coefficient : ℚ) * 10 ^ exponent = shortest q := by
  unfold shortest reprPositive
  dsimp only
  generalize shortestDigits q 1 17 = found
  obtain ⟨digits, exponent⟩ := found
  dsimp only
  have hdigits := @isDigit_toDigits digits
  have hvalue := PyDecimal.digitsValue_toDigits digits
  have hne := Nat.toDigits_ne_nil (n := digits) (b := 10)
  generalize Nat.toDigits 10 digits = ds at hdigits hvalue hne ⊢
  have hpositive := List.length_pos_iff.mpr hne
  subst hvalue
  by_cases hscientific : (ds.length : Int) + exponent ≤ -4 ∨ 16 < (ds.length : Int) + exponent
  · rw [if_pos hscientific]
    obtain ⟨d, tail, rfl⟩ := List.exists_cons_of_ne_nil hne
    have hsign : (if ((d :: tail).length : Int) + exponent ≤ 0 then '-' else '+') =
        if ((d :: tail).length : Int) + exponent - 1 < 0 then '-' else '+' :=
      if_congr (by omega) rfl rfl
    have h := PyDecimal.written_scientific hdigits (Or.inl rfl)
      (((d :: tail).length : Int) + exponent - 1)
      (2 - (Nat.toDigits 10 (((d :: tail).length : Int) + exponent - 1).natAbs).length)
    rw [hsign]
    have hscale : ((d :: tail).length : Int) + exponent - 1 - tail.length = exponent := by
      rw [List.length_cons]
      omega
    rw [hscale] at h
    cases tail with
    | nil => exact ⟨_, _, _, _, _, _, rfl, h, rfl⟩
    | cons d' tail => exact ⟨_, _, _, _, _, _, rfl, h, rfl⟩
  rw [if_neg hscientific]
  by_cases hbelow : (ds.length : Int) + exponent ≤ 0
  · rw [if_pos hbelow]
    have h := PyDecimal.written_below hdigits hne (-((ds.length : Int) + exponent)).toNat
    refine ⟨_, _, _, _, _, _, rfl, h, ?_⟩
    congr 2
    omega
  rw [if_neg hbelow]
  by_cases hwhole : (ds.length : Int) ≤ (ds.length : Int) + exponent
  · rw [if_pos hwhole]
    have hzeros : ∀ c ∈ ds ++ List.replicate ((ds.length + exponent).toNat - ds.length) '0',
        c.isDigit = true := by
      intro c hc
      rcases List.mem_append.mp hc with hdigit | hzero
      · exact hdigits c hdigit
      · rw [List.eq_of_mem_replicate hzero]
        rfl
    have h := PyDecimal.written_integral (List.append_ne_nil_of_left_ne_nil hne _) hzeros
    refine ⟨_, _, _, _, _, _, rfl, h, ?_⟩
    rw [PyDecimal.digitsValue_eq, Numeral.ofDigitChars_zeros, ← PyDecimal.digitsValue_eq]
    have hcount : (((ds.length : Int) + exponent).toNat - ds.length : Nat) = exponent.toNat := by
      omega
    rw [hcount]
    push_cast
    rw [← zpow_natCast, Int.toNat_of_nonneg (by omega), mul_assoc]
    norm_num
  · rw [if_neg hwhole]
    have h := PyDecimal.written_between hdigits (k := ((ds.length : Int) + exponent).toNat)
      (by omega) (by omega)
    refine ⟨_, _, _, _, _, _, rfl, h, ?_⟩
    congr 2
    omega

/-- **`Decimal` reads from the text of a positive double the number its digits stand for.** -/
theorem ofString_repr {q : ℚ} (hq : 0 < q) :
    ∃ coefficient exponent, PyDecimal.ofString (repr (.finite q)) =
        some (.finite false coefficient exponent) ∧
      (coefficient : ℚ) * 10 ^ exponent = shortest q := by
  obtain ⟨text, coefficient, exponent, whole, fraction, rest, htext, hwritten, hvalue⟩ :=
    reprPositive_written q
  refine ⟨coefficient, exponent, ?_, hvalue⟩
  rw [repr, if_neg hq.ne', if_neg (not_lt.mpr hq.le), htext]
  exact hwritten.ofString false

example : PyDecimal.ofString (repr (round (10 ^ 16 + 2))) =
    some (.finite false 10000000000000002 0) := by
  decide +kernel

end Binary64

/-
# NumberText — how JavaScript and Java write a decimal number.

Both put the point among the digits while the number is neither too large nor too small (`plain`) and
use an exponent otherwise; they differ in the bounds, and in the digits: `String(n)` writes the
shortest ones that round back to the double, `BigDecimal.toString` all that the unscaled value has.

`BigDecimal.ofString_toText`: what `BigDecimal` writes it reads back, scale and all.
`Binary64.toText_hundredths`: below `2 ^ 46`, the shortest digits of a double nearest to a number of
hundredths are that number, so nothing of it is lost on the way through a double.
-/
import GlobalPayments.Library.Rounding
import GlobalPayments.Library.BigDecimal
import GlobalPayments.Library.DecimalText

/-! ## The point among the digits -/

namespace Numeral

open PyDecimal (pointed pointed_of_ne_nil)

/-- The digits with the point behind the first `point` of them, and zeros where there are none. -/
def plain (ds : List Char) (point : Int) : List Char :=
  if ds.length ≤ point then ds ++ List.replicate (point - ds.length).toNat '0'
  else if 0 < point then ds.take point.toNat ++ '.' :: ds.drop point.toNat
  else '0' :: '.' :: (List.replicate (-point).toNat '0' ++ ds)

/-- One digit in front of the point, and an exponent behind the letter `e`; `sign` writes its sign. -/
def scientific (e : Char) (ds : List Char) (adjusted : Int) : List Char :=
  (match ds with
    | [] => []
    | d :: rest => d :: pointed rest) ++
    e :: (if adjusted < 0 then '-' else '+') :: Nat.toDigits 10 adjusted.natAbs

/-- Without the zeros at the end. -/
def trimZeros (ds : List Char) : List Char := (ds.reverse.dropWhile (· = '0')).reverse

end Numeral

/-- `String(n)`. -/
def Binary64.toText : Binary64 → String
  | .nan => "NaN"
  | .infinity negative => if negative then "-Infinity" else "Infinity"
  | .finite q =>
      if q = 0 then "0"
      else
        let (digits, exponent) := shortestDigits |q| 1 17
        let all := Nat.toDigits 10 digits
        let ds := Numeral.trimZeros all
        let point := all.length + exponent
        let text :=
          if -6 < point ∧ point ≤ 21 then Numeral.plain ds point
          else Numeral.scientific 'e' ds (point - 1)
        String.ofList (if q < 0 then '-' :: text else text)

/-- `BigDecimal.toString`. -/
def BigDecimal.toText (d : BigDecimal) : String :=
  let ds := Nat.toDigits 10 d.unscaledValue.natAbs
  let adjusted := ds.length - 1 - d.scale
  let text :=
    if 0 ≤ d.scale ∧ -6 ≤ adjusted then Numeral.plain ds (ds.length - d.scale)
    else Numeral.scientific 'E' ds adjusted
  String.ofList (if d.unscaledValue < 0 then '-' :: text else text)

example : (Binary64.round (1 / 10)).toText = "0.1" := by decide +kernel
example : (Binary64.round (10 ^ 23)).toText = "1e+23" := by decide +kernel
example : (BigDecimal.mk (-10050) 2).toText = "-100.50" := by decide

namespace Numeral

open PyDecimal (pointed pointed_of_ne_nil)

/-! ## Reading a plain number -/

theorem ofDigitChars_zeros (ds : List Char) (k : Nat) :
    Nat.ofDigitChars 10 (ds ++ List.replicate k '0') 0 = Nat.ofDigitChars 10 ds 0 * 10 ^ k := by
  rw [Nat.ofDigitChars_append, Nat.ofDigitChars_replicate_zero, mul_comm]

theorem trimZeros_append (ds : List Char) :
    ∃ k, ds = trimZeros ds ++ List.replicate k '0' := by
  refine ⟨(ds.reverse.takeWhile (· = '0')).length, ?_⟩
  have hzeros : ds.reverse.takeWhile (· = '0') =
      List.replicate (ds.reverse.takeWhile (· = '0')).length '0' := by
    rw [List.eq_replicate_iff]
    refine ⟨rfl, fun c hc => ?_⟩
    have hzero := List.mem_takeWhile_imp hc
    exact of_decide_eq_true hzero
  calc ds = ds.reverse.reverse := ds.reverse_reverse.symm
    _ = (ds.reverse.takeWhile (· = '0') ++ ds.reverse.dropWhile (· = '0')).reverse := by
        rw [List.takeWhile_append_dropWhile]
    _ = trimZeros ds ++ (ds.reverse.takeWhile (· = '0')).reverse := List.reverse_append
    _ = _ := by rw [hzeros, List.reverse_replicate, List.length_replicate]

/-- Trimmed digits stand for the same number at the same point. -/
theorem trimZeros_value {ds : List Char} (hds : ∀ c ∈ ds, c.isDigit = true) :
    (∀ c ∈ trimZeros ds, c.isDigit = true) ∧ (trimZeros ds).length ≤ ds.length ∧
      (Nat.ofDigitChars 10 ds 0 : ℚ) =
        Nat.ofDigitChars 10 (trimZeros ds) 0 * 10 ^ ((ds.length : Int) - (trimZeros ds).length) := by
  obtain ⟨k, hk⟩ := trimZeros_append ds
  have hlength : ds.length = (trimZeros ds).length + k := by
    have hcount := congrArg List.length hk
    rwa [List.length_append, List.length_replicate] at hcount
  refine ⟨fun c hc => hds c ?_, by omega, ?_⟩
  · rw [hk]
    exact List.mem_append_left _ hc
  · rw [show (ds.length : Int) - (trimZeros ds).length = k by omega, zpow_natCast]
    conv_lhs => rw [hk]
    rw [ofDigitChars_zeros]
    push_cast
    rfl

/-- A number as digits, and digits behind a point. -/
structure Parts (text ds : List Char) (point : Int) (whole fraction : List Char) : Prop where
  text_eq : text = whole ++ pointed fraction
  nonempty : whole ≠ []
  wholeDigits : ∀ c ∈ whole, c.isDigit = true
  fractionDigits : ∀ c ∈ fraction, c.isDigit = true
  length_fraction : fraction.length = (ds.length - point).toNat
  value : Nat.ofDigitChars 10 (whole ++ fraction) 0 =
    Nat.ofDigitChars 10 ds 0 * 10 ^ (point - ds.length).toNat

section Plain

variable {ds : List Char} {point : Int}

/-- **The parts of a plain number.** -/
theorem plain_parts (hds : ∀ c ∈ ds, c.isDigit = true) (hne : ds ≠ []) (point : Int) :
    ∃ whole fraction, Parts (plain ds point) ds point whole fraction := by
  have hpositive := List.length_pos_iff.mpr hne
  unfold plain
  by_cases hwhole : (ds.length : Int) ≤ point
  · rw [if_pos hwhole]
    refine ⟨ds ++ List.replicate (point - ds.length).toNat '0', [], ?_, ?_, ?_, nofun, ?_, ?_⟩
    · rw [pointed, List.append_nil]
    · exact List.append_ne_nil_of_left_ne_nil hne _
    · intro c hc
      rcases List.mem_append.mp hc with hdigit | hzero
      · exact hds c hdigit
      · rw [List.eq_of_mem_replicate hzero]
        rfl
    · rw [List.length_nil]
      omega
    · rw [List.append_nil, ofDigitChars_zeros]
  rw [if_neg hwhole]
  by_cases hbetween : 0 < point
  · rw [if_pos hbetween]
    have hrest : ds.drop point.toNat ≠ [] := by
      rw [← List.length_pos_iff, List.length_drop]
      omega
    refine ⟨ds.take point.toNat, ds.drop point.toNat, ?_, ?_, ?_, ?_, ?_, ?_⟩
    · rw [pointed_of_ne_nil hrest]
    · rw [← List.length_pos_iff, List.length_take]
      omega
    · exact fun c hc => hds c (List.mem_of_mem_take hc)
    · exact fun c hc => hds c (List.mem_of_mem_drop hc)
    · rw [List.length_drop]
      omega
    · rw [List.take_append_drop, show (point - ds.length).toNat = 0 by omega, pow_zero, mul_one]
  · rw [if_neg hbetween]
    refine ⟨['0'], List.replicate (-point).toNat '0' ++ ds, ?_, by simp, ?_, ?_, ?_, ?_⟩
    · rw [pointed_of_ne_nil (List.append_ne_nil_of_right_ne_nil _ hne)]
      rfl
    · intro c hc
      rw [List.mem_singleton.mp hc]
      rfl
    · intro c hc
      rcases List.mem_append.mp hc with hzero | hdigit
      · rw [List.eq_of_mem_replicate hzero]
        rfl
      · exact hds c hdigit
    · rw [List.length_append, List.length_replicate]
      omega
    · rw [show (point - ds.length).toNat = 0 by omega, pow_zero, mul_one]
      exact PyDecimal.digitsValue_zeros ((-point).toNat + 1) ds

variable {text whole fraction : List Char}

theorem Parts.mantissa (h : Parts text ds point whole fraction) :
    mantissa text = (⟨whole, fraction⟩, []) := by
  rw [h.text_eq]
  by_cases hfraction : fraction = []
  · subst hfraction
    rw [pointed, List.append_nil]
    exact mantissa_whole h.wholeDigits
  · rw [pointed_of_ne_nil hfraction]
    exact mantissa_point h.wholeDigits h.fractionDigits

theorem Parts.splitSign (h : Parts text ds point whole fraction) :
    splitSign text = (false, text) := by
  obtain ⟨c, cs, hcons⟩ := List.exists_cons_of_ne_nil h.nonempty
  have hdigit := h.wholeDigits c (hcons ▸ List.mem_cons_self)
  rw [h.text_eq, hcons, List.cons_append]
  unfold Numeral.splitSign
  split
  · rename_i heq
    rw [(List.cons.inj heq).1] at hdigit
    cases hdigit
  · rename_i heq
    rw [(List.cons.inj heq).1] at hdigit
    cases hdigit
  · rfl

end Plain

end Numeral

namespace Numeral

open PyDecimal (pointed pointed_of_ne_nil EndsDigits)

/-! ## Reading a number with an exponent -/

/-- The mantissa ends where something else begins. -/
theorem mantissa_pointed {whole fraction rest : List Char} (hwhole : ∀ c ∈ whole, c.isDigit = true)
    (hfraction : ∀ c ∈ fraction, c.isDigit = true) (hrest : EndsDigits rest) :
    mantissa (whole ++ pointed fraction ++ rest) = (⟨whole, fraction⟩, rest) := by
  obtain ⟨htake, hdrop⟩ := hrest.takeWhile
  unfold mantissa
  rw [List.append_assoc, List.takeWhile_append_of_pos hwhole, List.dropWhile_append_of_pos hwhole]
  by_cases hnil : fraction = []
  · subst hnil
    rw [pointed, List.nil_append, htake, hdrop, List.append_nil]
    dsimp only
    split
    · rename_i tail
      exact absurd rfl (hrest '.' rfl).2
    · rfl
  · have hpoint : ¬ '.'.isDigit = true := by decide
    rw [pointed_of_ne_nil hnil, List.cons_append, List.takeWhile_cons_of_neg hpoint,
      List.dropWhile_cons_of_neg hpoint, List.append_nil]
    show ((⟨whole, (fraction ++ rest).takeWhile Char.isDigit⟩ : Mantissa),
      (fraction ++ rest).dropWhile Char.isDigit) = _
    rw [List.takeWhile_append_of_pos hfraction, List.dropWhile_append_of_pos hfraction, htake, hdrop,
      List.append_nil]

/-- A number is its magnitude with its sign. -/
theorem signed_natAbs (n : Int) : signed (decide (n < 0)) n.natAbs = n := by
  unfold signed
  by_cases hnegative : n < 0
  · rw [if_pos (decide_eq_true hnegative)]
    omega
  · rw [if_neg (by simpa using hnegative)]
    omega

/-- The exponent of a scientific number is read to its end. -/
theorem exponent_written {e : Char} (he : e.toLower = 'e') (adjusted : Int) :
    exponent (e :: (if adjusted < 0 then '-' else '+') :: Nat.toDigits 10 adjusted.natAbs) =
      some (adjusted, []) := by
  obtain ⟨htake, hdrop⟩ := takeWhile_digits (PyDecimal.isDigit_toDigits (n := adjusted.natAbs))
  have hne : Nat.toDigits 10 adjusted.natAbs ≠ [] := Nat.toDigits_ne_nil
  have hsplit : splitSign ((if adjusted < 0 then '-' else '+') :: Nat.toDigits 10 adjusted.natAbs) =
      (decide (adjusted < 0), Nat.toDigits 10 adjusted.natAbs) := by
    by_cases hnegative : adjusted < 0
    · rw [if_pos hnegative, decide_eq_true hnegative]
      rfl
    · rw [if_neg hnegative, decide_eq_false hnegative]
      rfl
  unfold exponent
  dsimp only
  rw [if_pos he, hsplit]
  dsimp only
  rw [htake, hdrop, if_neg hne, Nat.ofDigitChars_ten_toDigits, signed_natAbs]

end Numeral

namespace BigDecimal

open Numeral
open PyDecimal (pointed)

/-! ## `BigDecimal` reads what is written -/

/-- **A plain number is read back**, digit by digit, with or without a minus in front. -/
theorem ofString_plain {ds : List Char} (hds : ∀ c ∈ ds, c.isDigit = true) (hne : ds ≠ [])
    (point : Int) (negative : Bool) :
    ofString (String.ofList (if negative then '-' :: plain ds point else plain ds point)) =
      some ⟨signed negative (Nat.ofDigitChars 10 ds 0 * 10 ^ (point - ds.length).toNat),
        (ds.length - point).toNat⟩ := by
  obtain ⟨whole, fraction, hparts⟩ := plain_parts hds hne point
  have hsplit : splitSign (if negative then '-' :: plain ds point else plain ds point) =
      (negative, plain ds point) := by
    cases negative with
    | false => exact hparts.splitSign
    | true => rfl
  have hdigits : Mantissa.digits ⟨whole, fraction⟩ ≠ [] :=
    List.append_ne_nil_of_left_ne_nil hparts.nonempty _
  unfold ofString
  rw [String.toList_ofList, hsplit]
  dsimp only
  rw [hparts.mantissa]
  dsimp only
  rw [if_neg hdigits, ← hparts.value, ← hparts.length_fraction]
  rfl

/-- The number that a plain text stands for. -/
theorem value_plain (negative : Bool) (n : Nat) (shift : Int) :
    (⟨signed negative (n * 10 ^ shift.toNat), (-shift).toNat⟩ : BigDecimal).value =
      signed negative n * 10 ^ shift := by
  have hshift : (10 : ℚ) ^ shift.toNat * 10 ^ (-((-shift).toNat : Int)) = 10 ^ shift := by
    rw [← zpow_natCast, ← zpow_add₀ (by norm_num)]
    congr 1
    omega
  have hsigned : (signed negative (n * 10 ^ shift.toNat) : ℚ) =
      signed negative n * 10 ^ shift.toNat := by
    unfold signed
    cases negative with
    | false => push_cast; rfl
    | true => simp
  unfold value
  rw [hsigned, mul_assoc, hshift]

/-- **A scientific number is read back.** -/
theorem ofString_scientific {ds : List Char} (hds : ∀ c ∈ ds, c.isDigit = true) (hne : ds ≠ [])
    {e : Char} (he : e.toLower = 'e') (hends : e.isDigit = false ∧ e ≠ '.') (adjusted : Int)
    (negative : Bool) :
    ofString (String.ofList
        (if negative then '-' :: scientific e ds adjusted else scientific e ds adjusted)) =
      some ⟨signed negative (Nat.ofDigitChars 10 ds 0), ds.length - 1 - adjusted⟩ := by
  obtain ⟨d, rest, rfl⟩ := List.exists_cons_of_ne_nil hne
  have hdigit := hds d List.mem_cons_self
  have hmantissa : mantissa ([d] ++ pointed rest ++
      e :: (if adjusted < 0 then '-' else '+') :: Nat.toDigits 10 adjusted.natAbs) =
        (⟨[d], rest⟩, e :: (if adjusted < 0 then '-' else '+') :: Nat.toDigits 10 adjusted.natAbs) := by
    refine mantissa_pointed (fun c hc => ?_) (fun c hc => hds c (List.mem_cons_of_mem d hc))
      (fun c hc => ?_)
    · rw [List.mem_singleton.mp hc]
      exact hdigit
    · rw [← Option.some.inj hc]
      exact hends
  have hsplit : splitSign
      (if negative then '-' :: scientific e (d :: rest) adjusted
        else scientific e (d :: rest) adjusted) = (negative, scientific e (d :: rest) adjusted) := by
    cases negative with
    | true => rfl
    | false =>
        unfold scientific splitSign
        simp only [Bool.false_eq_true, if_false, List.cons_append]
        split
        · rename_i heq
          rw [(List.cons.inj heq).1] at hdigit
          cases hdigit
        · rename_i heq
          rw [(List.cons.inj heq).1] at hdigit
          cases hdigit
        · rfl
  unfold ofString
  rw [String.toList_ofList, hsplit]
  dsimp only
  rw [show scientific e (d :: rest) adjusted = [d] ++ pointed rest ++
    e :: (if adjusted < 0 then '-' else '+') :: Nat.toDigits 10 adjusted.natAbs from rfl, hmantissa]
  dsimp only
  rw [if_neg (by simp [Mantissa.digits]), if_neg (List.cons_ne_nil _ _), exponent_written he]
  simp [Mantissa.unscaled, Mantissa.digits]

/-- **What `toString` writes is read back as the same decimal**, scale and all. -/
theorem ofString_toText (d : BigDecimal) : ofString d.toText = some d := by
  have hne : Nat.toDigits 10 d.unscaledValue.natAbs ≠ [] := Nat.toDigits_ne_nil
  unfold toText
  dsimp only
  by_cases hplain : 0 ≤ d.scale ∧
      -6 ≤ ((Nat.toDigits 10 d.unscaledValue.natAbs).length : Int) - 1 - d.scale
  · rw [if_pos hplain]
    have hread := ofString_plain PyDecimal.isDigit_toDigits hne
      ((Nat.toDigits 10 d.unscaledValue.natAbs).length - d.scale) (decide (d.unscaledValue < 0))
    simp only [decide_eq_true_eq] at hread
    rw [hread, Nat.ofDigitChars_ten_toDigits, show ∀ n : Int, n - d.scale - n = -d.scale by omega,
      show ∀ n : Int, n - (n - d.scale) = d.scale by omega,
      show (-d.scale).toNat = 0 by omega, pow_zero, mul_one, signed_natAbs,
      Int.toNat_of_nonneg hplain.1]
  · rw [if_neg hplain]
    have hread := ofString_scientific PyDecimal.isDigit_toDigits hne (e := 'E') (by decide) (by decide)
      ((Nat.toDigits 10 d.unscaledValue.natAbs).length - 1 - d.scale)
      (decide (d.unscaledValue < 0))
    simp only [decide_eq_true_eq] at hread
    rw [hread, Nat.ofDigitChars_ten_toDigits, signed_natAbs,
      show ∀ n : Int, n - (n - d.scale) = d.scale by omega]

end BigDecimal

namespace Binary64

open Numeral

/-! ## The shortest digits -/

/-- What is found rounds back. -/
theorem shortestDigits_cases (q : ℚ) (n fuel : Nat) :
    shortestDigits q n fuel = (0, 0) ∨
      round ((shortestDigits q n fuel).1 * 10 ^ (shortestDigits q n fuel).2) = .finite q := by
  induction fuel generalizing n with
  | zero => exact Or.inl rfl
  | succ fuel ih =>
      unfold shortestDigits
      dsimp only
      split
      · rename_i hround
        exact Or.inr hround
      · exact ih (n + 1)

section Hundredths

variable {n : Nat} {q : ℚ}

/-- A double nearest to a number of hundredths is near it, and on its side of `2 ^ 46`. -/
theorem near_hundredths (hrange : (n : ℚ) / 100 < 2 ^ 46) (h : round ((n : ℚ) / 100) = .finite q) :
    |q - (n : ℚ) / 100| ≤ 1 / 256 ∧ q < 2 ^ 46 := by
  obtain ⟨r, hr, herror⟩ := round_near (q := (n : ℚ) / 100) (m := 46) (by decide) (by decide)
    (by rw [abs_of_nonneg (by positivity)]; exact_mod_cast hrange)
  obtain rfl : r = q := finite.inj (hr.symm.trans h)
  have hunit : (2 : ℚ) ^ (46 - 54 : Int) = 1 / 256 := by norm_num
  rw [hunit] at herror
  have hstep : n + 1 ≤ 2 ^ 46 * 100 := by
    rw [div_lt_iff₀ (by norm_num)] at hrange
    exact_mod_cast hrange
  have hcast : (n : ℚ) + 1 ≤ 2 ^ 46 * 100 := by exact_mod_cast hstep
  have hhigh := (abs_le.mp herror).2
  exact ⟨herror, by linarith⟩

/-- Digits down to the hundredths that round to the double of a number of hundredths are that
number. -/
theorem eq_of_round_hundredths (hrange : (n : ℚ) / 100 < 2 ^ 46)
    (h : round ((n : ℚ) / 100) = .finite q) {digits : Nat} {e : Int} (he : -2 ≤ e)
    (hround : round (digits * 10 ^ e) = .finite q) : (digits : ℚ) * 10 ^ e = n / 100 := by
  have hhundredths : (digits : ℚ) * 10 ^ e = ((digits * 10 ^ (e + 2).toNat : Nat) : Int) / 100 := by
    push_cast
    rw [← zpow_natCast, Int.toNat_of_nonneg (by omega), zpow_add₀ (by norm_num)]
    ring
  have hn : ((n : Int) : ℚ) / 100 = n / 100 := by push_cast; rfl
  obtain ⟨-, hbelow⟩ := near_hundredths hrange h
  -- digits from `2 ^ 46` on would round to a double from there on
  have hdigits : (digits : ℚ) * 10 ^ e < 2 ^ 46 := by
    by_contra hlarge
    have hpow : (2 : ℚ) ^ (46 : Int) ≤ digits * 10 ^ e := by exact_mod_cast not_lt.mp hlarge
    rcases zpow_le_round (by decide) hpow with hinfinite | ⟨r, hr, hle⟩
    · rw [hround] at hinfinite
      cases hinfinite
    · obtain rfl := finite.inj (hr.symm.trans hround)
      exact absurd hbelow (not_lt.mpr (by exact_mod_cast hle))
  have hinj := (round_hundredths_inj (a := ((digits * 10 ^ (e + 2).toNat : Nat) : Int)) (b := (n : Int))
    ?_ ?_).mp (by rw [← hhundredths, hn, hround, h])
  · rw [hhundredths, ← hn, hinj]
  · rw [← hhundredths, abs_of_nonneg (by positivity)]
    exact hdigits
  · rw [hn, abs_of_nonneg (by positivity)]
    exact hrange

/-- At the hundredths, the digits tried are the number of hundredths. -/
theorem candidate_hundredths (hrange : (n : ℚ) / 100 < 2 ^ 46)
    (h : round ((n : ℚ) / 100) = .finite q) : roundHalfEven (q / 10 ^ (-2 : Int)) = n := by
  have hscaled : q / 10 ^ (-2 : Int) = q * 100 := by
    rw [zpow_neg, div_inv_eq_mul]
    norm_num
  obtain ⟨hlow, hhigh⟩ := abs_le.mp (near_hundredths hrange h).1
  obtain ⟨hlow', hhigh'⟩ := abs_le.mp (abs_roundHalfEven_sub_le (q / 10 ^ (-2 : Int)))
  rw [hscaled] at hlow' hhigh' ⊢
  have hbelow : (roundHalfEven (q * 100) : ℚ) < n + 1 := by linarith
  have habove : (n : ℚ) - 1 < roundHalfEven (q * 100) := by linarith
  have hbelow' : roundHalfEven (q * 100) < n + 1 := by exact_mod_cast hbelow
  have habove' : (n : Int) - 1 < roundHalfEven (q * 100) := by exact_mod_cast habove
  omega

/-- The search ends at the hundredths at the latest: the induction is on the exponents still to try. -/
theorem shortestDigits_search (hrange : (n : ℚ) / 100 < 2 ^ 46)
    (h : round ((n : ℚ) / 100) = .finite q) (k : Nat) (tried fuel : Nat)
    (hk : floorLog 10 q - tried + 1 = k - 2) (hfuel : k < fuel) :
    -2 ≤ (shortestDigits q tried fuel).2 ∧
      ((shortestDigits q tried fuel).1 : ℚ) * 10 ^ (shortestDigits q tried fuel).2 = n / 100 := by
  induction k generalizing tried fuel with
  | zero =>
      obtain ⟨fuel, rfl⟩ := Nat.exists_eq_succ_of_ne_zero (by omega : fuel ≠ 0)
      have he : floorLog 10 q - tried + 1 = -2 := by omega
      have hcast : (((n : Int).toNat : Nat) : ℚ) * 10 ^ (-2 : Int) = n / 100 := by
        rw [Int.toNat_natCast, zpow_neg, div_eq_mul_inv]
        norm_num
      unfold shortestDigits
      dsimp only
      rw [he, candidate_hundredths hrange h, hcast, if_pos h]
      exact ⟨le_rfl, hcast⟩
  | succ k ih =>
      obtain ⟨fuel, rfl⟩ := Nat.exists_eq_succ_of_ne_zero (by omega : fuel ≠ 0)
      unfold shortestDigits
      dsimp only
      split
      · rename_i hround
        exact ⟨by omega, eq_of_round_hundredths hrange h (by omega) hround⟩
      · exact ih (tried + 1) fuel (by push_cast at hk ⊢; omega) (by omega)

end Hundredths

/-! ## The text of a double -/

section Text

variable {q : ℚ}

/-- The digits `String(n)` writes, and where it puts the point. -/
def textDigits (q : ℚ) : List Char := trimZeros (Nat.toDigits 10 (shortestDigits |q| 1 17).1)

def textPoint (q : ℚ) : Int :=
  (Nat.toDigits 10 (shortestDigits |q| 1 17).1).length + (shortestDigits |q| 1 17).2

theorem toText_finite (hq : q ≠ 0) :
    toText (.finite q) = String.ofList
      (if q < 0 then
        '-' :: (if -6 < textPoint q ∧ textPoint q ≤ 21 then plain (textDigits q) (textPoint q)
          else scientific 'e' (textDigits q) (textPoint q - 1))
      else
        (if -6 < textPoint q ∧ textPoint q ≤ 21 then plain (textDigits q) (textPoint q)
          else scientific 'e' (textDigits q) (textPoint q - 1))) := by
  unfold toText
  dsimp only
  rw [if_neg hq]
  rfl

theorem isDigit_textDigits : ∀ c ∈ textDigits q, c.isDigit = true :=
  (trimZeros_value PyDecimal.isDigit_toDigits).1

/-- The digits and the point stand for what the search found. -/
theorem textDigits_value : (Nat.ofDigitChars 10 (textDigits q) 0 : ℚ) *
      10 ^ (textPoint q - (textDigits q).length) =
    (shortestDigits |q| 1 17).1 * 10 ^ (shortestDigits |q| 1 17).2 := by
  have hdigits := (trimZeros_value (PyDecimal.isDigit_toDigits
    (n := (shortestDigits |q| 1 17).1))).2.2
  rw [Nat.ofDigitChars_ten_toDigits] at hdigits
  rw [hdigits, textPoint, add_sub_right_comm, zpow_add₀ (by norm_num), ← mul_assoc]
  rfl

/-- **What is written rounds back**, unless no digits were found at all. -/
theorem round_textDigits (hne : textDigits q ≠ []) :
    round (Nat.ofDigitChars 10 (textDigits q) 0 * 10 ^ (textPoint q - (textDigits q).length)) =
      .finite |q| := by
  rw [textDigits_value]
  rcases shortestDigits_cases |q| 1 17 with hnone | hround
  · refine absurd ?_ hne
    rw [textDigits, hnone]
    rfl
  · exact hround

/-- A text without digits is a zero. -/
theorem plain_nothing (hq : q ≠ 0) (h : textDigits q = []) :
    plain (textDigits q) (textPoint q) = ['0'] := by
  have hzero : (shortestDigits |q| 1 17).1 = 0 := by
    obtain ⟨k, hk⟩ := trimZeros_append (Nat.toDigits 10 (shortestDigits |q| 1 17).1)
    rw [show trimZeros (Nat.toDigits 10 (shortestDigits |q| 1 17).1) = [] from h,
      List.nil_append] at hk
    have hvalue := Nat.ofDigitChars_ten_toDigits (n := (shortestDigits |q| 1 17).1)
    rw [hk, Nat.ofDigitChars_replicate_zero, Nat.mul_zero] at hvalue
    exact hvalue.symm
  rcases shortestDigits_cases |q| 1 17 with hnone | hround
  · rw [h, textPoint, hnone]
    rfl
  · rw [hzero, Nat.cast_zero, zero_mul, round, if_pos rfl, finite.injEq] at hround
    exact absurd hround.symm (abs_ne_zero.mpr hq)

end Text

/-! ## Numbers of hundredths -/

section HundredthsText

variable {n : Nat} {q : ℚ}

/-- A number of hundredths is not rounded below a hundredth. -/
theorem hundredth_le_of_round (hn : 1 ≤ n) (hrange : (n : ℚ) / 100 < 2 ^ 46)
    (h : round ((n : ℚ) / 100) = .finite q) : 1 / 100 ≤ q := by
  rcases eq_or_lt_of_le hn with rfl | htwo
  · have hone : round (((1 : Nat) : ℚ) / 100) = .finite (5764607523034235 / 2 ^ 59) := by
      decide +kernel
    obtain rfl := finite.inj (hone.symm.trans h)
    norm_num
  · have hlow := (abs_le.mp (near_hundredths hrange h).1).1
    have hcast : (2 : ℚ) ≤ n := by exact_mod_cast htwo
    linarith

/-- **The shortest digits of a number of hundredths are that number.** -/
theorem shortestDigits_hundredths (hn : 1 ≤ n) (hrange : (n : ℚ) / 100 < 2 ^ 46)
    (h : round ((n : ℚ) / 100) = .finite q) :
    -2 ≤ (shortestDigits q 1 17).2 ∧
      ((shortestDigits q 1 17).1 : ℚ) * 10 ^ (shortestDigits q 1 17).2 = n / 100 := by
  have hlow := hundredth_le_of_round hn hrange h
  have hq : 0 < q := lt_of_lt_of_le (by norm_num) hlow
  have hbelow : -2 ≤ floorLog 10 q := by
    apply le_base_floorLog (by decide)
    norm_num
    linarith
  have habove : floorLog 10 q < 14 := by
    have hhigh := (near_hundredths hrange h).2
    have hpow : ((10 : Nat) : ℚ) ^ floorLog 10 q < (10 : Nat) ^ (14 : Int) := by
      refine (base_zpow_floorLog_le (by decide) hq).trans_lt ?_
      norm_num at hhigh ⊢
      linarith
    exact (zpow_lt_zpow_iff_right₀ (by norm_num)).mp hpow
  refine shortestDigits_search hrange h (floorLog 10 q + 2).toNat 1 17 ?_ ?_
  · push_cast
    omega
  · omega

/-- Where the point of a number stands among its digits says how large the number is. -/
theorem point_bounds {digits : Nat} (hdigits : digits ≠ 0) (e : Int) :
    (10 : ℚ) ^ ((Nat.toDigits 10 digits).length + e - 1) ≤ digits * 10 ^ e ∧
      (digits : ℚ) * 10 ^ e < 10 ^ ((Nat.toDigits 10 digits).length + e) := by
  have hpow : (0 : ℚ) < 10 ^ e := by positivity
  have hpositive : 0 < (Nat.toDigits 10 digits).length := Nat.length_toDigits_pos
  obtain ⟨k, hk⟩ := Nat.exists_eq_succ_of_ne_zero hpositive.ne'
  rw [hk]
  constructor
  · have hlow : 10 ^ k ≤ digits := by
      by_cases hzero : k = 0
      · subst hzero
        exact Nat.one_le_iff_ne_zero.mpr hdigits
      · have hlonger : ¬ (Nat.toDigits 10 digits).length ≤ k := by omega
        rw [Nat.length_toDigits_le_iff (by decide) (by omega)] at hlonger
        exact not_lt.mp hlonger
    rw [show ((k.succ : Nat) : Int) + e - 1 = k + e by push_cast; ring, zpow_add₀ (by norm_num),
      zpow_natCast]
    exact mul_le_mul_of_nonneg_right (by exact_mod_cast hlow) hpow.le
  · have hhigh : digits < 10 ^ (k + 1) :=
      (Nat.length_toDigits_le_iff (by decide) (by omega)).mp hk.le
    rw [zpow_add₀ (by norm_num), zpow_natCast]
    exact mul_lt_mul_of_pos_right (by exact_mod_cast hhigh) hpow

/-- **The text of a double nearest to a number of hundredths** is that number, written plainly with at
most two places. -/
theorem toText_hundredths (hn : 1 ≤ n) (hrange : (n : ℚ) / 100 < 2 ^ 46)
    (h : round ((n : ℚ) / 100) = .finite q) :
    toText (.finite q) = String.ofList (plain (textDigits q) (textPoint q)) ∧ textDigits q ≠ [] ∧
      (textDigits q).length - textPoint q ≤ 2 ∧
      (Nat.ofDigitChars 10 (textDigits q) 0 : ℚ) * 10 ^ (textPoint q - (textDigits q).length) =
        n / 100 := by
  have hlow := hundredth_le_of_round hn hrange h
  have hq : 0 < q := lt_of_lt_of_le (by norm_num) hlow
  obtain ⟨hexponent, hvalue⟩ := shortestDigits_hundredths hn hrange h
  have htext := textDigits_value (q := q)
  have hlength := (trimZeros_value (PyDecimal.isDigit_toDigits
    (n := (shortestDigits q 1 17).1))).2.1
  rw [abs_of_pos hq, hvalue] at htext
  have hpoint : textPoint q = (Nat.toDigits 10 (shortestDigits q 1 17).1).length +
      (shortestDigits q 1 17).2 := by
    rw [textPoint, abs_of_pos hq]
  have hdigits : textDigits q = trimZeros (Nat.toDigits 10 (shortestDigits q 1 17).1) := by
    rw [textDigits, abs_of_pos hq]
  rw [← hdigits] at hlength
  have hpositive : (0 : ℚ) < n / 100 := by
    have hcast : (1 : ℚ) ≤ n := by exact_mod_cast hn
    linarith
  have hne : textDigits q ≠ [] := by
    intro hnil
    rw [hnil] at htext
    rw [← htext, Nat.ofDigitChars_nil, Nat.cast_zero, zero_mul] at hpositive
    exact lt_irrefl _ hpositive
  have hbounds : -2 < textPoint q ∧ textPoint q < 15 := by
    have hdigitsPositive : (shortestDigits q 1 17).1 ≠ 0 := by
      intro hzero
      rw [hzero, Nat.cast_zero, zero_mul] at hvalue
      exact hpositive.ne hvalue
    obtain ⟨hleast, hmost⟩ := point_bounds hdigitsPositive (shortestDigits q 1 17).2
    rw [hvalue, ← hpoint] at hleast hmost
    constructor
    · have hpow : (10 : ℚ) ^ (-2 : Int) < 10 ^ textPoint q := by
        refine lt_of_le_of_lt ?_ hmost
        have hcast : (1 : ℚ) ≤ n := by exact_mod_cast hn
        norm_num
        linarith
      exact (zpow_lt_zpow_iff_right₀ (by norm_num)).mp hpow
    · have hpow : (10 : ℚ) ^ (textPoint q - 1) < 10 ^ (14 : Int) := by
        refine hleast.trans_lt (hrange.trans ?_)
        norm_num
      have hlt := (zpow_lt_zpow_iff_right₀ (by norm_num)).mp hpow
      omega
  refine ⟨?_, hne, by omega, htext⟩
  rw [toText_finite hq.ne', if_neg (not_lt.mpr hq.le), if_pos (by omega)]

end HundredthsText

end Binary64

/-
# BigDecimal — exact decimal numbers as an unscaled integer and a scale.

The number `unscaledValue × 10^(-scale)`, with the operations of the Java class of that name that
move the decimal point and read the number back as a 64-bit integer.  Everything is exact: moving
the point never changes a digit, and `longValueExact` refuses rather than round or wrap.

`value` is the rational the representation denotes; each operation has one lemma that says what it
does to `value`, and callers reason with those only.
-/
import GlobalPayments.Library.Numeral
import Mathlib.Data.Rat.Lemmas
import Mathlib.Algebra.Order.Field.Basic
import Mathlib.Algebra.GroupWithZero.Basic
import Mathlib.Tactic.FieldSimp
import Mathlib.Tactic.Ring
import Mathlib.Tactic.Positivity
import Mathlib.Tactic.NormNum

/-- An unscaled integer and the number of its digits that stand behind the decimal point; a negative
scale multiplies by a power of ten. -/
structure BigDecimal where
  unscaledValue : Int
  scale : Int
  deriving DecidableEq, Repr

namespace BigDecimal

/-- The exact number denoted. -/
def value (d : BigDecimal) : ℚ := d.unscaledValue * (10 : ℚ) ^ (-d.scale)

/-- The range of a signed 64-bit integer. -/
def longMin : Int := -2 ^ 63
def longMax : Int := 2 ^ 63 - 1

def IsLong (n : Int) : Prop := longMin ≤ n ∧ n ≤ longMax

instance (n : Int) : Decidable (IsLong n) := inferInstanceAs (Decidable (_ ∧ _))

/-- `ArithmeticException`: the exact result does not exist.  The texts it carries reach only logs. -/
inductive ArithmeticException where
  | inexact
  | overflow
  deriving DecidableEq, Repr

/-! ## Operations -/

/-- `BigDecimal.valueOf(long)`. -/
def valueOf (n : Int) : BigDecimal := ⟨n, 0⟩

/-- `new BigDecimal(text)`, in ASCII digits: the whole text has to be a number, and each digit behind
the point counts for the scale. -/
def ofString (text : String) : Option BigDecimal :=
  let (negative, cs) := Numeral.splitSign text.toList
  let (m, rest) := Numeral.mantissa cs
  let unscaled := Numeral.signed negative m.unscaled
  if m.digits = [] then none
  else if rest = [] then some ⟨unscaled, m.fraction.length⟩
  else
    match Numeral.exponent rest with
    | some (e, []) => some ⟨unscaled, m.fraction.length - e⟩
    | _ => none

/-- The number of decimal digits of the unscaled value; zero has one. -/
def precision (d : BigDecimal) : Int := (Nat.toDigits 10 d.unscaledValue.natAbs).length

/-- A result whose scale fell below zero is brought back to scale zero by writing the zeros out. -/
def clearNegativeScale (d : BigDecimal) : BigDecimal :=
  if d.scale < 0 then ⟨d.unscaledValue * 10 ^ (-d.scale).toNat, 0⟩ else d

/-- The point `n` digits to the right: the scale is lowered by `n`. -/
def movePointRight (d : BigDecimal) (n : Int) : BigDecimal :=
  if n = 0 then d else clearNegativeScale ⟨d.unscaledValue, d.scale - n⟩

/-- The point `n` digits to the left: the scale is raised by `n`. -/
def movePointLeft (d : BigDecimal) (n : Int) : BigDecimal :=
  if n = 0 then d else clearNegativeScale ⟨d.unscaledValue, d.scale + n⟩

/-- The integer the number is, when it is one. -/
def toIntegerExact (d : BigDecimal) : Option Int :=
  if d.scale ≤ 0 then some (d.unscaledValue * 10 ^ (-d.scale).toNat)
  else if d.unscaledValue % 10 ^ d.scale.toNat = 0 then
    some (d.unscaledValue / 10 ^ d.scale.toNat)
  else none

/-- The number as a `long`; raises when it has a fraction or leaves the range. -/
def longValueExact (d : BigDecimal) : Except ArithmeticException Int :=
  match d.toIntegerExact with
  | none => .error .inexact
  | some n => if longMin ≤ n ∧ n ≤ longMax then .ok n else .error .overflow

/-! ## What the operations do to the value -/

@[simp] theorem value_valueOf (n : Int) : (valueOf n).value = n := by
  simp [valueOf, value]

theorem ten_zpow_toNat {n : Int} (h : 0 ≤ n) : ((10 : ℚ) ^ n.toNat : ℚ) = (10 : ℚ) ^ n := by
  rw [← zpow_natCast, Int.toNat_of_nonneg h]

@[simp] theorem value_clearNegativeScale (d : BigDecimal) :
    d.clearNegativeScale.value = d.value := by
  unfold clearNegativeScale
  split
  · simp only [value, neg_zero, zpow_zero, mul_one]
    push_cast
    rw [ten_zpow_toNat (by omega)]
  · rfl

@[simp] theorem value_movePointRight (d : BigDecimal) (n : Int) :
    (d.movePointRight n).value = d.value * (10 : ℚ) ^ n := by
  unfold movePointRight
  split
  · rename_i h
    simp [h]
  · rw [value_clearNegativeScale, value, value, mul_assoc, ← zpow_add₀ (by norm_num)]
    congr 2
    ring

@[simp] theorem value_movePointLeft (d : BigDecimal) (n : Int) :
    (d.movePointLeft n).value = d.value * (10 : ℚ) ^ (-n) := by
  unfold movePointLeft
  split
  · rename_i h
    simp [h]
  · rw [value_clearNegativeScale, value, value, mul_assoc, ← zpow_add₀ (by norm_num)]
    congr 2
    ring

/-- `toIntegerExact` finds exactly the integers. -/
theorem toIntegerExact_eq_some_iff (d : BigDecimal) (n : Int) :
    d.toIntegerExact = some n ↔ d.value = n := by
  unfold toIntegerExact value
  split
  · rename_i h
    rw [← ten_zpow_toNat (by omega : 0 ≤ -d.scale), Option.some.injEq]
    constructor
    · rintro rfl
      push_cast
      rfl
    · intro hn
      exact_mod_cast hn
  · rename_i h
    -- a positive scale: the value is an integer exactly when the power of ten divides the digits
    have hpow : (0 : ℚ) < (10 : ℚ) ^ d.scale.toNat := by positivity
    have hvalue : (d.unscaledValue : ℚ) * 10 ^ (-d.scale) = n ↔
        d.unscaledValue = n * 10 ^ d.scale.toNat := by
      rw [zpow_neg, ← ten_zpow_toNat (by omega : 0 ≤ d.scale), ← div_eq_mul_inv,
        div_eq_iff hpow.ne']
      exact_mod_cast Iff.rfl
    have hpowInt : (10 : Int) ^ d.scale.toNat ≠ 0 := by positivity
    rw [hvalue]
    split
    · rename_i hmod
      have hdvd := Int.dvd_of_emod_eq_zero hmod
      rw [Option.some.injEq, Int.ediv_eq_iff_eq_mul_left hpowInt hdvd]
    · rename_i hmod
      refine ⟨fun hnone => by simp at hnone, fun hn => absurd ?_ hmod⟩
      rw [hn, Int.mul_emod_left]

/-- `longValueExact` returns exactly the integers in range, and raises on everything else. -/
theorem longValueExact_eq_ok_iff (d : BigDecimal) (n : Int) :
    d.longValueExact = .ok n ↔ d.value = n ∧ longMin ≤ n ∧ n ≤ longMax := by
  rw [← toIntegerExact_eq_some_iff]
  unfold longValueExact
  cases d.toIntegerExact with
  | none => simp
  | some k =>
      by_cases hk : longMin ≤ k ∧ k ≤ longMax
      · simp only [hk, and_self, if_true, Except.ok.injEq, Option.some.injEq]
        constructor
        · rintro rfl
          exact ⟨rfl, hk⟩
        · exact fun h => h.1
      · simp only [hk, if_false, Option.some.injEq, reduceCtorEq, false_iff, not_and]
        rintro rfl hlo hhi
        exact hk ⟨hlo, hhi⟩

end BigDecimal

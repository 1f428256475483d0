/-
# PyDecimal — Python's `decimal.Decimal`.

A finite decimal is a sign, a coefficient and an exponent; `value` is the rational it stands for.
`ofString` is the constructor on text, `toText` is `str`, `toBinary64` is `float`, and `divHundred`
is the division by 100 that turns hundredths into units: the quotient is exact and keeps no trailing
zeros behind the point, as the context's ideal exponent asks.  The digits a NaN can carry are not
kept.

`PyFloat.ofString` is `float` on text, which takes fewer spellings of the same numbers.
-/
import GlobalPayments.Library.Binary64
import GlobalPayments.Library.PyText

/-- `Decimal`. -/
inductive PyDecimal where
  | finite (negative : Bool) (coefficient : Nat) (exponent : Int)
  | infinity (negative : Bool)
  | nan (signaling : Bool)
  deriving DecidableEq, Repr

namespace PyDecimal

/-! ## Value -/

/-- The value of a finite decimal. -/
def value : PyDecimal → Option ℚ
  | .finite negative coefficient exponent =>
      some ((if negative then -(coefficient : ℚ) else coefficient) * 10 ^ exponent)
  | .infinity _ => none
  | .nan _ => none

/-- `float(d)`; a signaling NaN is a `ValueError`. -/
def toBinary64 : PyDecimal → Option Binary64
  | .finite negative coefficient exponent =>
      some (.round ((if negative then -(coefficient : ℚ) else coefficient) * 10 ^ exponent))
  | .infinity negative => some (.infinity negative)
  | .nan false => some .nan
  | .nan true => none

/-! ## Text -/

/-- The number a digit string stands for. -/
def digitsValue (ds : List Char) : Nat := ds.foldl (fun n d => 10 * n + (d.toNat - '0'.toNat)) 0

/-- Split off a sign. -/
def splitSign : List Char → Bool × List Char
  | '-' :: cs => (true, cs)
  | '+' :: cs => (false, cs)
  | cs => (false, cs)

/-- The exponent part: nothing, or `e` and a signed integer. -/
def parseExponent : List Char → Option Int
  | [] => some 0
  | e :: cs =>
      if e.toLower = 'e' then
        let (negative, ds) := splitSign cs
        if ds ≠ [] ∧ ds.all Char.isDigit then
          some (if negative then -(digitsValue ds : Int) else digitsValue ds)
        else none
      else none

/-- The text after the sign. -/
def parseUnsigned (negative : Bool) (cs : List Char) : Option PyDecimal :=
  let lower := cs.map Char.toLower
  if lower = "inf".toList ∨ lower = "infinity".toList then some (.infinity negative)
  else if "nan".toList.isPrefixOf lower ∧ (lower.drop 3).all Char.isDigit then some (.nan false)
  else if "snan".toList.isPrefixOf lower ∧ (lower.drop 4).all Char.isDigit then some (.nan true)
  else
    let whole := cs.takeWhile Char.isDigit
    let (fraction, rest) := match cs.dropWhile Char.isDigit with
      | '.' :: cs => (cs.takeWhile Char.isDigit, cs.dropWhile Char.isDigit)
      | cs => ([], cs)
    if whole ++ fraction = [] then none
    else (parseExponent rest).map fun e =>
      .finite negative (digitsValue (whole ++ fraction)) (e - fraction.length)

/-- A text in ASCII, as a decimal. -/
def parse (cs : List Char) : Option PyDecimal :=
  let (negative, cs) := splitSign cs
  parseUnsigned negative cs

/-- `Decimal(s)`; `none` is `InvalidOperation`.  Blanks around the number and underscores in it are
ignored.  There is no limit on the exponent here: see `representable`. -/
def ofString (s : String) : Option PyDecimal :=
  (((PyText.strip s).filter (· ≠ '_')).mapM PyText.toAscii).bind parse

/-- The exponents `_decimal` can hold: `MAX_EMAX` for the first digit, `MIN_ETINY` for the last. -/
def representable : PyDecimal → Bool
  | .finite _ coefficient exponent =>
      exponent + ((Nat.toDigits 10 coefficient).length - 1) ≤ 999999999999999999 &&
        -1999999999999999997 ≤ exponent
  | _ => true

/-- `str(d)`. -/
def toText : PyDecimal → String
  | .infinity negative => if negative then "-Infinity" else "Infinity"
  | .nan signaling => if signaling then "sNaN" else "NaN"
  | .finite negative coefficient exponent =>
      let ds := Nat.toDigits 10 coefficient
      let adjusted := exponent + (ds.length - 1)
      let text :=
        if exponent ≤ 0 ∧ -6 ≤ adjusted then
          let point := ds.length + exponent
          if exponent = 0 then ds
          else if 0 < point then ds.take point.toNat ++ ['.'] ++ ds.drop point.toNat
          else ['0', '.'] ++ List.replicate (-point).toNat '0' ++ ds
        else
          let mantissa := match ds with
            | [] => []
            | [d] => [d]
            | d :: rest => d :: '.' :: rest
          mantissa ++ ['E', if adjusted < 0 then '-' else '+'] ++ Nat.toDigits 10 adjusted.natAbs
      String.ofList (if negative then '-' :: text else text)

/-! ## Hundredths -/

/-- `Decimal(str(n)) / 100`. -/
def divHundred (n : Int) : PyDecimal :=
  let c := n.natAbs
  if c % 100 = 0 then .finite (n < 0) (c / 100) 0
  else if c % 10 = 0 then .finite (n < 0) (c / 10) (-1)
  else .finite (n < 0) c (-2)

/-- The division is exact. -/
theorem value_divHundred (n : Int) : (divHundred n).value = some ((n : ℚ) / 100) := by
  have hsigned : (if n < 0 then -(n.natAbs : ℚ) else n.natAbs) = n := by
    rw [Nat.cast_natAbs, Int.cast_abs]
    split
    · rename_i hneg
      rw [abs_of_neg (by exact_mod_cast hneg), neg_neg]
    · rename_i hnonneg
      exact abs_of_nonneg (by exact_mod_cast not_lt.mp hnonneg)
  -- the coefficient is the hundredths, less the zeros it ends in
  have hzeros : ∀ k : Nat, n.natAbs % k = 0 → (n.natAbs : ℚ) = (n.natAbs / k : Nat) * k := by
    intro k hk
    exact_mod_cast (Nat.div_mul_cancel (Nat.dvd_of_mod_eq_zero hk)).symm
  unfold divHundred
  dsimp only
  rw [← hsigned]
  by_cases hk : n.natAbs % 100 = 0
  · rw [if_pos hk]
    simp only [value, decide_eq_true_eq, Option.some.injEq]
    rw [hzeros 100 hk]
    split <;> push_cast <;> ring
  rw [if_neg hk]
  by_cases hk : n.natAbs % 10 = 0
  · rw [if_pos hk]
    simp only [value, decide_eq_true_eq, Option.some.injEq]
    rw [hzeros 10 hk]
    split <;> push_cast <;> ring
  · rw [if_neg hk]
    simp only [value, decide_eq_true_eq, Option.some.injEq]
    split <;> ring

/-! ## Sums -/

/-- The coefficient with its sign. -/
def signed (negative : Bool) (coefficient : Nat) : Int :=
  if negative then -coefficient else coefficient

/-- `a + b`, of decimals whose sum does not have more digits than the context takes; `none` is
`InvalidOperation`. -/
def add : PyDecimal → PyDecimal → Option PyDecimal
  | .finite n c e, .finite n' c' e' =>
      let exponent := min e e'
      let total := signed n c * 10 ^ (e - exponent).toNat + signed n' c' * 10 ^ (e' - exponent).toNat
      -- a zero is negative only as the sum of two negative ones
      some (.finite (if total = 0 then n && n' else total < 0) total.natAbs exponent)
  | .nan true, _ => none
  | _, .nan true => none
  | .nan false, _ => some (.nan false)
  | _, .nan false => some (.nan false)
  | .infinity n, .infinity n' => if n = n' then some (.infinity n) else none
  | .infinity n, .finite _ _ _ => some (.infinity n)
  | .finite _ _ _, .infinity n => some (.infinity n)

/-- `sum(ds)`: from zero on, one after the other. -/
def sum (ds : List PyDecimal) : Option PyDecimal := ds.foldlM add (.finite false 0 0)

theorem value_signed (negative : Bool) (coefficient : Nat) (exponent : Int) :
    (finite negative coefficient exponent).value =
      some ((signed negative coefficient : ℚ) * 10 ^ exponent) := by
  unfold value signed
  cases negative <;> simp

/-- Aligning a coefficient to a smaller exponent changes nothing. -/
theorem scale_align (c e e' : Int) (h : e' ≤ e) :
    ((c * 10 ^ (e - e').toNat : Int) : ℚ) * 10 ^ e' = c * 10 ^ e := by
  push_cast
  rw [mul_assoc, ← zpow_natCast, Int.toNat_of_nonneg (by omega), ← zpow_add₀ (by norm_num)]
  congr 2
  omega

/-- **A sum of numbers is exact.** -/
theorem value_add {a b : PyDecimal} {x y : ℚ} (ha : a.value = some x) (hb : b.value = some y) :
    ∃ d, a.add b = some d ∧ d.value = some (x + y) := by
  cases a with
  | infinity n => cases ha
  | nan signaling => cases ha
  | finite n c e =>
    cases b with
    | infinity n => cases hb
    | nan signaling => cases hb
    | finite n' c' e' =>
      rw [value_signed] at ha hb
      obtain rfl := Option.some.inj ha
      obtain rfl := Option.some.inj hb
      refine ⟨_, rfl, ?_⟩
      rw [← scale_align _ e (min e e') (min_le_left e e'),
        ← scale_align _ e' (min e e') (min_le_right e e'), ← add_mul, ← Int.cast_add]
      generalize signed n c * 10 ^ (e - min e e').toNat +
        signed n' c' * 10 ^ (e' - min e e').toNat = total
      rw [value_signed]
      have hsigned : signed (if total = 0 then n && n' else total < 0) total.natAbs = total := by
        unfold signed
        by_cases hzero : total = 0
        · simp [hzero]
        · rw [if_neg hzero]
          by_cases hneg : total < 0
          · rw [decide_eq_true hneg, if_pos rfl]
            omega
          · rw [decide_eq_false hneg, if_neg Bool.false_ne_true]
            omega
      rw [hsigned]

theorem value_foldlM_add {ds : List PyDecimal} {xs : List ℚ}
    (h : List.Forall₂ (fun d x => d.value = some x) ds xs) {a : PyDecimal} {x : ℚ}
    (ha : a.value = some x) : ∃ d, ds.foldlM add a = some d ∧ d.value = some (x + xs.sum) := by
  induction h generalizing a x with
  | nil => exact ⟨a, rfl, by rw [List.sum_nil, add_zero, ha]⟩
  | @cons d y ds xs hd hds ih =>
      obtain ⟨b, hb, hvalue⟩ := value_add ha hd
      obtain ⟨c, hc, hsum⟩ := ih hvalue
      refine ⟨c, ?_, ?_⟩
      · rw [List.foldlM_cons, hb]
        exact hc
      · rw [hsum, List.sum_cons, add_assoc]

/-- **The sum of a list.** -/
theorem value_sum {ds : List PyDecimal} {xs : List ℚ}
    (h : List.Forall₂ (fun d x => d.value = some x) ds xs) :
    ∃ d, sum ds = some d ∧ d.value = some xs.sum := by
  have hzero : (finite false 0 0).value = some 0 := by simp [value]
  obtain ⟨d, hd, hvalue⟩ := value_foldlM_add h hzero
  exact ⟨d, hd, by rw [hvalue, zero_add]⟩

example : (sum [.finite false 10050 (-2), .finite true 5 (-1)]).map toText = some "100.00" := by decide

example : (ofString " 1_00.50\u00a0").map toText = some "100.50" := by decide
example : (divHundred 10050).toText = "100.5" := by decide

end PyDecimal

namespace PyFloat

/-! ## `float` on text -/

/-- The blanks `float` takes off a text in ASCII. -/
def isBlank (c : Char) : Bool := c = ' ' || (9 ≤ c.toNat && c.toNat ≤ 13)

/-- Every underscore has a digit on both sides; `before` is the character in front of the text. -/
def grouped (before : Char) : List Char → Bool
  | [] => before ≠ '_'
  | c :: cs =>
      (if c = '_' then before.isDigit else before ≠ '_' || c.isDigit) && grouped c cs

/-- The number a text stands for, before it is rounded.  `float` knows one NaN, without digits. -/
def parse (s : String) : Option PyDecimal :=
  (s.toList.mapM PyText.toAscii).bind fun ascii =>
    let cs := PyText.stripBy isBlank ascii
    if grouped ' ' cs then
      match PyDecimal.parse (cs.filter (· ≠ '_')) with
      | some (.nan _) =>
          if (PyDecimal.splitSign cs).2.map Char.toLower = "nan".toList then some (.nan false) else none
      | parsed => parsed
    else none

/-- `float(s)`; `none` is a `ValueError`. -/
def ofString (s : String) : Option Binary64 := (parse s).bind PyDecimal.toBinary64

example : parse "\t1_0.5\u2003" = some (.finite false 105 (-1)) := by decide
example : parse "10_" = none ∧ parse "1__0" = none ∧ parse "nan12" = none ∧ parse "sNaN" = none := by
  decide
example : parse "-NaN" = some (.nan false) ∧ parse "\x1c1" = none := by decide

end PyFloat

/-
# Binary64 — IEEE 754 double precision on exact rationals.

A finite double is kept as the rational it stands for, so an operation is the exact rational
operation followed by `round`: to nearest, ties to even, subnormals and overflow included.  The sign
of a zero is not kept.  `repr` prints the shortest decimal that rounds back to the double.
-/
import Mathlib.Data.Nat.Log
import Mathlib.Data.Rat.Floor

/-- A double: a finite value, an infinity (`negative` or not) or a NaN. -/
inductive Binary64 where
  | finite (value : ℚ)
  | infinity (negative : Bool)
  | nan
  deriving DecidableEq, Repr

namespace Binary64

/-! ## Rounding -/

/-- `⌊log_base q⌋` for positive `q`, from the sizes of numerator and denominator. -/
def floorLog (base : Nat) (q : ℚ) : Int :=
  let e : Int := (Nat.log base q.num.natAbs : Int) - (Nat.log base q.den : Int)
  if (base : ℚ) ^ e ≤ q then e else e - 1

/-- The nearest integer, ties to even. -/
def roundHalfEven (q : ℚ) : Int :=
  let below := ⌊q⌋
  if q - below < 1 / 2 then below
  else if 1 / 2 < q - below then below + 1
  else if below % 2 = 0 then below
  else below + 1

/-- The spacing of the doubles around `q`. -/
def ulp (q : ℚ) : ℚ := 2 ^ (max (floorLog 2 |q|) (-1022) - 52)

/-- The double nearest to `q`. -/
def round (q : ℚ) : Binary64 :=
  if q = 0 then .finite 0
  else
    let rounded := roundHalfEven (q / ulp q) * ulp q
    if 2 ^ 1024 ≤ |rounded| then .infinity (q < 0) else .finite rounded

/-! ## Arithmetic -/

/-- `x - y`. -/
def sub : Binary64 → Binary64 → Binary64
  | .finite x, .finite y => round (x - y)
  | .nan, _ => .nan
  | _, .nan => .nan
  | .infinity a, .infinity b => if a = b then .nan else .infinity a
  | .infinity a, .finite _ => .infinity a
  | .finite _, .infinity b => .infinity (!b)

/-- `abs(x)`. -/
def abs : Binary64 → Binary64
  | .finite x => .finite |x|
  | .infinity _ => .infinity false
  | .nan => .nan

/-- `x > y`; false as soon as one is a NaN. -/
def gt : Binary64 → Binary64 → Bool
  | .finite x, .finite y => y < x
  | .infinity false, .finite _ => true
  | .infinity false, .infinity true => true
  | .finite _, .infinity true => true
  | _, _ => false

/-- `x <= y`; false as soon as one is a NaN. -/
def le : Binary64 → Binary64 → Bool
  | .nan, _ => false
  | _, .nan => false
  | x, y => !x.gt y

/-! ## Printing -/

/-- The shortest digits that round back to the positive double `q`, and their exponent: the decimal
is `digits * 10 ^ exponent`.  Seventeen digits always do. -/
def shortestDigits (q : ℚ) : Nat → Nat → Nat × Int
  | _, 0 => (0, 0)
  | n, fuel + 1 =>
      let exponent := floorLog 10 q - n + 1
      let digits := (roundHalfEven (q / 10 ^ exponent)).toNat
      if round (digits * 10 ^ exponent) = .finite q then (digits, exponent)
      else shortestDigits q (n + 1) fuel

/-- Positive `q` in the format of Python's `repr`. -/
def reprPositive (q : ℚ) : String :=
  let (digits, exponent) := shortestDigits q 1 17
  let ds := Nat.toDigits 10 digits
  -- the position of the point relative to the first digit
  let point := ds.length + exponent
  if point ≤ -4 ∨ 16 < point then
    let mantissa := match ds with
      | [] => []
      | [d] => [d]
      | d :: rest => d :: '.' :: rest
    let e := Nat.toDigits 10 (point - 1).natAbs
    String.ofList (mantissa ++ ['e', if point ≤ 0 then '-' else '+'] ++
      List.replicate (2 - e.length) '0' ++ e)
  else if point ≤ 0 then
    String.ofList (['0', '.'] ++ List.replicate (-point).toNat '0' ++ ds)
  else if ds.length ≤ point then
    String.ofList (ds ++ List.replicate (point.toNat - ds.length) '0' ++ ['.', '0'])
  else String.ofList (ds.take point.toNat ++ ['.'] ++ ds.drop point.toNat)

/-- Python's `repr(x)`. -/
def repr : Binary64 → String
  | .finite x => if x = 0 then "0.0" else if x < 0 then "-" ++ reprPositive (-x) else reprPositive x
  | .infinity negative => if negative then "-inf" else "inf"
  | .nan => "nan"

example : round (1 / 10) = .finite (3602879701896397 / 2 ^ 55) := by decide +kernel

end Binary64

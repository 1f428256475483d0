/-
# Numeral — decimal numbers as text.

A number is written as a sign, digits with a point among them, and an exponent.  Readers differ in
which of these they ask for and in what they do with the rest of the text; they share the parts:
`splitSign`, `mantissa` and `exponent` each take theirs off the front and hand back what follows.
-/
import Mathlib.Data.List.TakeWhile

namespace Numeral

/-- Split off a sign. -/
def splitSign : List Char → Bool × List Char
  | '-' :: cs => (true, cs)
  | '+' :: cs => (false, cs)
  | cs => (false, cs)

/-- `-n` or `n`. -/
def signed (negative : Bool) (n : Nat) : Int := if negative then -n else n

/-- The digits before and behind the point. -/
structure Mantissa where
  whole : List Char
  fraction : List Char
  deriving DecidableEq, Repr

/-- The mantissa at the front of a text, and what follows it. -/
def mantissa (cs : List Char) : Mantissa × List Char :=
  let whole := cs.takeWhile Char.isDigit
  match cs.dropWhile Char.isDigit with
  | '.' :: rest => (⟨whole, rest.takeWhile Char.isDigit⟩, rest.dropWhile Char.isDigit)
  | rest => (⟨whole, []⟩, rest)

/-- All digits of a mantissa. -/
def Mantissa.digits (m : Mantissa) : List Char := m.whole ++ m.fraction

/-- The number the digits make without the point. -/
def Mantissa.unscaled (m : Mantissa) : Nat := Nat.ofDigitChars 10 m.digits 0

/-- An exponent at the front of a text, and what follows it. -/
def exponent : List Char → Option (Int × List Char)
  | [] => none
  | e :: cs =>
      if e.toLower = 'e' then
        let (negative, cs) := splitSign cs
        let digits := cs.takeWhile Char.isDigit
        if digits = [] then none
        else some (signed negative (Nat.ofDigitChars 10 digits 0), cs.dropWhile Char.isDigit)
      else none

/-! ## Reading what was written -/

theorem takeWhile_digits {ds : List Char} (h : ∀ c ∈ ds, c.isDigit = true) :
    ds.takeWhile Char.isDigit = ds ∧ ds.dropWhile Char.isDigit = [] :=
  ⟨List.takeWhile_eq_self_iff.mpr h, List.dropWhile_eq_nil_iff.mpr h⟩

theorem mantissa_whole {ds : List Char} (h : ∀ c ∈ ds, c.isDigit = true) :
    mantissa ds = (⟨ds, []⟩, []) := by
  obtain ⟨htake, hdrop⟩ := takeWhile_digits h
  unfold mantissa
  rw [htake, hdrop]

theorem mantissa_point {ds fs : List Char} (hds : ∀ c ∈ ds, c.isDigit = true)
    (hfs : ∀ c ∈ fs, c.isDigit = true) : mantissa (ds ++ '.' :: fs) = (⟨ds, fs⟩, []) := by
  obtain ⟨htake, hdrop⟩ := takeWhile_digits hfs
  have hpoint : ¬ '.'.isDigit = true := by decide
  unfold mantissa
  rw [List.takeWhile_append_of_pos hds, List.dropWhile_append_of_pos hds,
    List.takeWhile_cons_of_neg hpoint, List.dropWhile_cons_of_neg hpoint, List.append_nil]
  show ((⟨ds, fs.takeWhile Char.isDigit⟩ : Mantissa), fs.dropWhile Char.isDigit) = _
  rw [htake, hdrop]

/-- A text that is a mantissa begins with a digit or the point. -/
theorem head_of_mantissa {c : Char} {cs : List Char} {m : Mantissa}
    (h : mantissa (c :: cs) = (m, [])) : c.isDigit = true ∨ c = '.' := by
  by_contra hother
  rw [not_or] at hother
  unfold mantissa at h
  rw [List.takeWhile_cons_of_neg hother.1, List.dropWhile_cons_of_neg hother.1] at h
  split at h
  · rename_i heq
    exact hother.2 (List.cons.inj heq).1
  · cases h

end Numeral

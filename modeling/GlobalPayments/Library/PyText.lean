/-
# PyText — the characters Python reads a number from.

`str.strip()` takes every blank of Unicode off a text, and `Decimal` and `float` read the digits of every
script.  Both turn the text into ASCII first: a blank becomes a space, a digit the ASCII digit of its
value, and any other character beyond ASCII refuses the text.
-/

namespace PyText

/-- `c.isspace()`. -/
def isSpace (c : Char) : Bool :=
  (9 ≤ c.toNat && c.toNat ≤ 13) || (28 ≤ c.toNat && c.toNat ≤ 32) ||
    (0x2000 ≤ c.toNat && c.toNat ≤ 0x200A) ||
    c.toNat ∈ [0x85, 0xA0, 0x1680, 0x2028, 0x2029, 0x202F, 0x205F, 0x3000]

/-- The zeros of all scripts (Unicode 15); the other nine digits follow each of them. -/
def zeros : List Nat :=
  [0x30, 0x660, 0x6F0, 0x7C0, 0x966, 0x9E6, 0xA66, 0xAE6, 0xB66, 0xBE6, 0xC66, 0xCE6, 0xD66, 0xDE6,
    0xE50, 0xED0, 0xF20, 0x1040, 0x1090, 0x17E0, 0x1810, 0x1946, 0x19D0, 0x1A80, 0x1A90, 0x1B50,
    0x1BB0, 0x1C40, 0x1C50, 0xA620, 0xA8D0, 0xA900, 0xA9D0, 0xA9F0, 0xAA50, 0xABF0, 0xFF10, 0x104A0,
    0x10D30, 0x11066, 0x110F0, 0x11136, 0x111D0, 0x112F0, 0x11450, 0x114D0, 0x11650, 0x116C0, 0x11730,
    0x118E0, 0x11950, 0x11C50, 0x11D50, 0x11DA0, 0x11F50, 0x16A60, 0x16AC0, 0x16B50, 0x1D7CE, 0x1D7D8,
    0x1D7E2, 0x1D7EC, 0x1D7F6, 0x1E140, 0x1E2F0, 0x1E4F0, 0x1E950, 0x1FBF0]

/-- The value of a decimal digit, of whatever script. -/
def decimalDigit (c : Char) : Option Nat :=
  (zeros.find? fun first => first ≤ c.toNat && c.toNat < first + 10).map (c.toNat - ·)

/-- A character as ASCII. -/
def toAscii (c : Char) : Option Char :=
  if 0 < c.toNat ∧ c.toNat < 128 then some c
  else if isSpace c then some ' '
  else (decimalDigit c).map Nat.digitChar

/-- Take the blanks off both ends. -/
def stripBy (blank : Char → Bool) (cs : List Char) : List Char :=
  ((cs.dropWhile blank).reverse.dropWhile blank).reverse

/-- `s.strip()`. -/
def strip (s : String) : List Char := stripBy isSpace s.toList

/-! ## Texts that are read as they are -/

/-- An ASCII character that is no blank. -/
def isPlain (c : Char) : Bool := 32 < c.toNat && c.toNat < 128

theorem isPlain_of_isDigit {c : Char} (h : c.isDigit = true) : isPlain c = true := by
  have hrange := Char.isDigit_iff_toNat.mp h
  change 48 ≤ c.toNat ∧ c.toNat ≤ 57 at hrange
  simp only [isPlain, Bool.and_eq_true, decide_eq_true_eq]
  omega

theorem isSpace_of_isPlain {c : Char} (h : isPlain c = true) : isSpace c = false := by
  simp only [isPlain, Bool.and_eq_true, decide_eq_true_eq] at h
  simp only [isSpace, List.mem_cons, List.not_mem_nil, or_false, Bool.or_eq_false_iff,
    Bool.and_eq_false_imp, decide_eq_true_eq, decide_eq_false_iff_not]
  omega

theorem toAscii_of_isPlain {c : Char} (h : isPlain c = true) : toAscii c = some c := by
  simp only [isPlain, Bool.and_eq_true, decide_eq_true_eq] at h
  exact if_pos ⟨by omega, h.2⟩

theorem stripBy_eq {blank : Char → Bool} {cs : List Char} (h : ∀ c ∈ cs, blank c = false) :
    stripBy blank cs = cs := by
  have hkept : ∀ l : List Char, (∀ c ∈ l, blank c = false) → l.dropWhile blank = l := by
    intro l hl
    cases l with
    | nil => rfl
    | cons c cs => exact List.dropWhile_cons_of_neg (by simp [hl c List.mem_cons_self])
  unfold stripBy
  rw [hkept _ h, hkept _ fun c hc => h c (List.mem_reverse.mp hc), List.reverse_reverse]

/-- A text of plain characters is its own ASCII. -/
theorem mapM_toAscii {cs : List Char} (h : ∀ c ∈ cs, isPlain c = true) :
    cs.mapM toAscii = some cs := by
  induction cs with
  | nil => rfl
  | cons c cs ih =>
      rw [List.mapM_cons, toAscii_of_isPlain (h c List.mem_cons_self),
        ih fun c hc => h c (List.mem_cons_of_mem _ hc)]
      rfl

end PyText

/-
# DigitOrder — texts with numbers in them, in the order of texts.

Digit strings of one length come in the order of their numbers.  Of different lengths, the shorter one
is compared with as many digits of the longer; when these agree, what follows the shorter number
decides.  A separator that comes before every digit then puts the shorter number first.

`before_iff` and `after_iff` are the two directions: a smaller number of no more digits stands before a
larger one exactly when the leading digits of the larger are no less.
-/
import Mathlib.Algebra.Group.Nat.Defs
import Mathlib.Data.List.Basic
import Mathlib.Data.Nat.Basic

namespace DigitOrder

/-- The number a digit string stands for. -/
def value (cs : List Char) : Nat := Nat.ofDigitChars 10 cs 0

def Digits (cs : List Char) : Prop := ∀ c ∈ cs, c.isDigit = true

/-! ## Values -/

theorem value_append (cs ds : List Char) :
    value (cs ++ ds) = 10 ^ ds.length * value cs + value ds := by
  rw [value, Nat.ofDigitChars_append, Nat.ofDigitChars_eq_ofDigitChars_zero]
  rfl

theorem value_cons (c : Char) (cs : List Char) :
    value (c :: cs) = 10 ^ cs.length * (c.toNat - 48) + value cs := by
  rw [value, Nat.ofDigitChars_cons, Nat.mul_zero, Nat.zero_add,
    Nat.ofDigitChars_eq_ofDigitChars_zero]
  rfl

theorem digit_range {c : Char} (h : c.isDigit = true) : 48 ≤ c.toNat ∧ c.toNat ≤ 57 :=
  Char.isDigit_iff_toNat.mp h

/-- What has a smaller code than `0` comes before every digit. -/
theorem lt_digit {sep : Char} (h : sep.toNat < 48) (c : Char) (hc : c.isDigit = true) : sep < c := by
  show sep.toNat < c.toNat
  exact Nat.lt_of_lt_of_le h (digit_range hc).1

theorem value_lt {cs : List Char} (h : Digits cs) : value cs < 10 ^ cs.length := by
  induction cs with
  | nil => exact Nat.one_pos
  | cons c cs ih =>
      have hdigit := digit_range (h c List.mem_cons_self)
      have hrest := ih fun c hc => h c (List.mem_cons_of_mem _ hc)
      rw [value_cons, List.length_cons, Nat.pow_succ]
      calc 10 ^ cs.length * (c.toNat - 48) + value cs
          < 10 ^ cs.length * (c.toNat - 48) + 10 ^ cs.length := Nat.add_lt_add_left hrest _
        _ = 10 ^ cs.length * (c.toNat - 48 + 1) := (Nat.mul_succ _ _).symm
        _ ≤ 10 ^ cs.length * 10 := Nat.mul_le_mul_left _ (by omega)

/-- The leading digits of a number. -/
theorem value_take {ds : List Char} (h : Digits ds) (k : Nat) :
    value (ds.take k) = value ds / 10 ^ (ds.length - k) := by
  have hdrop := value_lt fun c hc => h c (List.mem_of_mem_drop (i := k) hc)
  have hvalue := value_append (ds.take k) (ds.drop k)
  rw [List.length_drop] at hdrop
  rw [List.take_append_drop, List.length_drop] at hvalue
  rw [hvalue, Nat.mul_add_div (Nat.pow_pos (by decide)), Nat.div_eq_of_lt hdrop, Nat.add_zero]

/-! ## One length -/

/-- Texts that begin with parts of one length: the parts decide, unless they are equal. -/
theorem append_lt_append_iff {l l' r r' : List Char} (h : l.length = l'.length) :
    l ++ r < l' ++ r' ↔ l < l' ∨ l = l' ∧ r < r' := by
  induction l generalizing l' with
  | nil =>
      obtain rfl := List.eq_nil_of_length_eq_zero h.symm
      simp
  | cons c l ih =>
      obtain ⟨c', l', rfl⟩ := List.exists_cons_of_length_eq_add_one h.symm
      rw [List.cons_append, List.cons_append, List.cons_lt_cons_iff, List.cons_lt_cons_iff,
        List.cons.injEq, ih (Nat.succ.inj h)]
      tauto

theorem append_left_lt_iff {l r r' : List Char} : l ++ r < l ++ r' ↔ r < r' := by
  rw [append_lt_append_iff rfl]
  exact ⟨fun h => (h.resolve_left (List.lt_irrefl l)).2, fun h => Or.inr ⟨rfl, h⟩⟩

/-- A leading digit and a remainder: the digits decide, unless they are equal. -/
theorem leading_iff {P a b x y : Nat} (hx : x < P) (hy : y < P) :
    (P * a + x < P * b + y ↔ a < b ∨ a = b ∧ x < y) ∧
      (P * a + x = P * b + y ↔ a = b ∧ x = y) := by
  rcases Nat.lt_trichotomy a b with hlt | rfl | hgt
  · have hstep : P * a + P ≤ P * b := Nat.mul_succ P a ▸ Nat.mul_le_mul_left P hlt
    omega
  · omega
  · have hstep : P * b + P ≤ P * a := Nat.mul_succ P b ▸ Nat.mul_le_mul_left P hgt
    omega

/-- **Digit strings of one length are ordered as their numbers are**, and equal when these are. -/
theorem same_length {cs ds : List Char} (hcs : Digits cs) (hds : Digits ds)
    (h : cs.length = ds.length) :
    (cs < ds ↔ value cs < value ds) ∧ (cs = ds ↔ value cs = value ds) := by
  induction cs generalizing ds with
  | nil =>
      obtain rfl := List.eq_nil_of_length_eq_zero h.symm
      simp
  | cons c cs ih =>
      obtain ⟨d, ds, rfl⟩ := List.exists_cons_of_length_eq_add_one h.symm
      have hc := digit_range (hcs c List.mem_cons_self)
      have hd := digit_range (hds d List.mem_cons_self)
      have hcs' : Digits cs := fun c hc => hcs c (List.mem_cons_of_mem _ hc)
      have hds' : Digits ds := fun c hc => hds c (List.mem_cons_of_mem _ hc)
      have hlength : cs.length = ds.length := Nat.succ.inj h
      obtain ⟨hlt, heq⟩ := ih hcs' hds' hlength
      have hvalue := value_lt hcs'
      rw [hlength] at hvalue
      obtain ⟨hleading, hsame⟩ := @leading_iff _ (c.toNat - 48) (d.toNat - 48) _ _ hvalue (value_lt hds')
      have hdigit : c.toNat - 48 = d.toNat - 48 ↔ c = d := by
        rw [← Char.toNat_inj]
        omega
      have hbefore : c.toNat - 48 < d.toNat - 48 ↔ c < d := by
        show _ ↔ c.toNat < d.toNat
        omega
      rw [value_cons, value_cons, hlength, List.cons_lt_cons_iff, List.cons.injEq, hleading, hsame,
        hdigit, hbefore, hlt, heq]
      exact ⟨Iff.rfl, Iff.rfl⟩

/-! ## A number of fewer digits -/

section Shorter

variable {cs ds : List Char}

/-- A number against the leading digits of another. -/
theorem against_leading (hcs : Digits cs) (hds : Digits ds) (hle : cs.length ≤ ds.length) :
    (cs < ds.take cs.length ↔ value cs < value ds / 10 ^ (ds.length - cs.length)) ∧
      (cs = ds.take cs.length ↔ value cs = value ds / 10 ^ (ds.length - cs.length)) ∧
      (ds.take cs.length < cs ↔ value ds / 10 ^ (ds.length - cs.length) < value cs) := by
  have htake : Digits (ds.take cs.length) := fun c hc => hds c (List.mem_of_mem_take hc)
  have hlength : cs.length = (ds.take cs.length).length := (List.length_take_of_le hle).symm
  obtain ⟨hlt, heq⟩ := same_length hcs htake hlength
  obtain ⟨hgt, -⟩ := same_length htake hcs hlength.symm
  rw [value_take hds] at hlt heq hgt
  exact ⟨hlt, heq, hgt⟩

variable {sep : Char} (hsep : ∀ c : Char, c.isDigit = true → sep < c)
include hsep

/-- Digits do not stand before what begins with a separator. -/
theorem not_digits_lt (hds : Digits ds) (hne : ds ≠ []) (r r' : List Char) :
    ¬ ds ++ r < sep :: r' := by
  obtain ⟨d, tail, rfl⟩ := List.exists_cons_of_ne_nil hne
  have hd := hsep d (hds d List.mem_cons_self)
  rw [List.cons_append, List.cons_lt_cons_iff]
  rintro (hlt | ⟨rfl, -⟩)
  · exact Char.lt_asymm hd hlt
  · exact Char.lt_irrefl _ hd

/-- Where the leading digits agree, the larger number goes on with a digit. -/
theorem rest_of_leading (hds : Digits ds) (hlt : value cs < value ds) (r r' : List Char)
    (h : value cs = value ds / 10 ^ (ds.length - cs.length)) :
    sep :: r < ds.drop cs.length ++ r' ∧ ¬ ds.drop cs.length ++ r' < sep :: r := by
  have hdrop : Digits (ds.drop cs.length) := fun c hc => hds c (List.mem_of_mem_drop hc)
  have hne : ds.drop cs.length ≠ [] := by
    intro hnil
    -- numbers of one length whose digits agree are equal
    rw [List.drop_eq_nil_iff] at hnil
    rw [Nat.sub_eq_zero_of_le hnil, Nat.pow_zero, Nat.div_one] at h
    omega
  refine ⟨?_, not_digits_lt hsep hdrop hne r' r⟩
  obtain ⟨d, tail, heq⟩ := List.exists_cons_of_ne_nil hne
  rw [heq, List.cons_append, List.cons_lt_cons_iff]
  exact Or.inl (hsep d (hdrop d (heq ▸ List.mem_cons_self)))

variable (hcs : Digits cs) (hds : Digits ds) (hle : cs.length ≤ ds.length)
variable (hlt : value cs < value ds)
include hcs hds hle hlt

/-- **A smaller number of no more digits stands before a larger one** exactly when the leading digits
of the larger are no less. -/
theorem before_iff (r r' : List Char) :
    cs ++ sep :: r < ds ++ sep :: r' ↔ value cs ≤ value ds / 10 ^ (ds.length - cs.length) := by
  obtain ⟨hbefore, hequal, -⟩ := against_leading hcs hds hle
  have hrest := rest_of_leading hsep hds hlt r (sep :: r')
  have hsplit : ds ++ sep :: r' = ds.take cs.length ++ (ds.drop cs.length ++ sep :: r') := by
    rw [← List.append_assoc, List.take_append_drop]
  rw [hsplit, append_lt_append_iff (List.length_take_of_le hle).symm, hbefore, hequal,
    Nat.le_iff_lt_or_eq]
  exact or_congr_right (and_iff_left_of_imp fun heq => (hrest heq).1)

/-- **It stands behind it** exactly when the leading digits of the larger are less. -/
theorem after_iff (r r' : List Char) :
    ds ++ sep :: r' < cs ++ sep :: r ↔ value ds / 10 ^ (ds.length - cs.length) < value cs := by
  obtain ⟨-, hequal, hafter⟩ := against_leading hcs hds hle
  have hrest := rest_of_leading hsep hds hlt r (sep :: r')
  have hsplit : ds ++ sep :: r' = ds.take cs.length ++ (ds.drop cs.length ++ sep :: r') := by
    rw [← List.append_assoc, List.take_append_drop]
  rw [hsplit, append_lt_append_iff (List.length_take_of_le hle), hafter]
  refine or_iff_left ?_
  rintro ⟨heq, hless⟩
  exact (hrest (hequal.mp heq.symm)).2 hless

end Shorter

end DigitOrder

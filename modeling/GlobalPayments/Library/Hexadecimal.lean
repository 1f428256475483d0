/-
# Hexadecimal — digits of a fixed number of places, and reading them.

`write w n` are the last `w` hexadecimal digits of a number, in lower case.  `value` reads digits in
either case; what it reads from `w` digits is a number below `16 ^ w` whose digits are the text in lower
case (`write_value`), so up to the case of the letters a text of digits and a number stand for each
other.
-/
import Mathlib.Algebra.Group.Nat.Defs
import Mathlib.Data.List.Induction

namespace Hexadecimal

/-! ## Digits -/

/-- The last `w` digits. -/
def write : Nat → Nat → List Char
  | 0, _ => []
  | w + 1, n => write w (n / 16) ++ [Nat.digitChar (n % 16)]

/-- The digit of a character, in either case. -/
def digit (c : Char) : Option Nat :=
  if c.isDigit then some (c.toNat - '0'.toNat)
  else if 'a' ≤ c ∧ c ≤ 'f' then some (c.toNat - 'a'.toNat + 10)
  else if 'A' ≤ c ∧ c ≤ 'F' then some (c.toNat - 'A'.toNat + 10)
  else none

/-- The number that digits stand for. -/
def value (cs : List Char) : Option Nat :=
  cs.foldlM (fun n c => (digit c).map fun d => 16 * n + d) 0

/-- `[0-9A-F]`, in either case. -/
def isDigit (c : Char) : Bool := (digit c).isSome

@[simp] theorem length_write (w n : Nat) : (write w n).length = w := by
  induction w generalizing n with
  | zero => rfl
  | succ w ih => rw [write, List.length_append, ih, List.length_singleton]

theorem digit_digitChar : ∀ d < 16, digit (Nat.digitChar d) = some d := by decide

/-- The characters that are digits: sixteen, and six more in upper case. -/
theorem digit_cases {c : Char} {d : Nat} (h : digit c = some d) :
    d < 16 ∧ Nat.digitChar d = c.toLower := by
  have hall : ∀ n < 128, ∀ d ∈ digit (Char.ofNat n), d < 16 ∧
      Nat.digitChar d = (Char.ofNat n).toLower := by decide
  have hascii : c.toNat < 128 := by
    unfold digit at h
    split at h
    · rename_i hdigit
      simp only [Char.isDigit, Bool.and_eq_true, decide_eq_true_eq] at hdigit
      have hle := UInt32.le_iff_toNat_le.mp hdigit.2
      exact Nat.lt_of_le_of_lt hle (by decide)
    split at h
    · rename_i hlower
      have hle := UInt32.le_iff_toNat_le.mp (Char.le_def.mp hlower.2)
      exact Nat.lt_of_le_of_lt hle (by decide)
    split at h
    · rename_i hupper
      have hle := UInt32.le_iff_toNat_le.mp (Char.le_def.mp hupper.2)
      exact Nat.lt_of_le_of_lt hle (by decide)
    · cases h
  have hc := hall c.toNat hascii d
  rw [Char.ofNat_toNat] at hc
  exact hc h

/-! ## Reading -/

theorem value_append_singleton (cs : List Char) (c : Char) :
    value (cs ++ [c]) = (value cs).bind fun n => (digit c).map fun d => 16 * n + d := by
  unfold value
  rw [List.foldlM_append]
  cases cs.foldlM (fun n c => (digit c).map fun d => 16 * n + d) 0 with
  | none => rfl
  | some n => simp

theorem value_write (w n : Nat) : value (write w n) = some (n % 16 ^ w) := by
  induction w generalizing n with
  | zero => simp [write, value, Nat.mod_one]
  | succ w ih =>
      have hmod : n % 16 ^ (w + 1) = n % 16 + 16 * (n / 16 % 16 ^ w) := by
        rw [Nat.pow_succ', Nat.mod_mul]
      rw [write, value_append_singleton, ih, Option.bind_some,
        digit_digitChar _ (Nat.mod_lt n (by decide)), Option.map_some, hmod, Nat.add_comm]

theorem isDigit_digitChar : ∀ d < 16, isDigit (Nat.digitChar d) = true := by decide

theorem isDigit_of_mem_write {w n : Nat} {c : Char} (h : c ∈ write w n) : isDigit c = true := by
  induction w generalizing n with
  | zero => cases h
  | succ w ih =>
      rw [write, List.mem_append, List.mem_singleton] at h
      rcases h with h | rfl
      · exact ih h
      · exact isDigit_digitChar _ (Nat.mod_lt n (by decide))

/-- Digits have a value. -/
theorem exists_value {cs : List Char} (h : ∀ c ∈ cs, isDigit c = true) : ∃ n, value cs = some n := by
  induction cs using List.reverseRecOn with
  | nil => exact ⟨0, rfl⟩
  | append_singleton cs c ih =>
      obtain ⟨n, hn⟩ := ih fun c hc => h c (List.mem_append_left _ hc)
      obtain ⟨d, hd⟩ := Option.isSome_iff_exists.mp (h c (List.mem_append_right _ List.mem_cons_self))
      exact ⟨16 * n + d, by rw [value_append_singleton, hn, Option.bind_some, hd, Option.map_some]⟩

/-- **A text that has a value is the number's digits, up to the case of the letters.** -/
theorem write_value {cs : List Char} {n : Nat} (h : value cs = some n) :
    n < 16 ^ cs.length ∧ write cs.length n = cs.map Char.toLower := by
  induction cs using List.reverseRecOn generalizing n with
  | nil =>
      cases h
      exact ⟨by decide, rfl⟩
  | append_singleton cs c ih =>
      rw [value_append_singleton, Option.bind_eq_some_iff] at h
      obtain ⟨m, hm, h⟩ := h
      obtain ⟨d, hd, rfl⟩ := Option.map_eq_some_iff.mp h
      obtain ⟨hlt, hchar⟩ := digit_cases hd
      obtain ⟨hbound, hdigits⟩ := ih hm
      have hdiv : (16 * m + d) / 16 = m := by omega
      have hmod : (16 * m + d) % 16 = d := by omega
      rw [List.length_append, List.length_singleton, write, hdiv, hmod, hdigits, hchar,
        List.map_append, List.map_singleton, Nat.pow_succ']
      exact ⟨by omega, rfl⟩

theorem value_lt {cs : List Char} {n : Nat} (h : value cs = some n) : n < 16 ^ cs.length :=
  (write_value h).1

/-! ## Parts of a text of digits -/

/-- Only ASCII letters have another case. -/
theorem toLower_of_ascii {f : Char → Bool}
    (h : ∀ n < 128, f (Char.ofNat n).toLower = f (Char.ofNat n)) (c : Char) :
    f c.toLower = f c := by
  by_cases hascii : c.toNat < 128
  · have hc := h c.toNat hascii
    rwa [Char.ofNat_toNat] at hc
  · have hsame : c.toLower = c := by
      apply dif_neg
      rintro ⟨-, hle⟩
      exact hascii (Nat.lt_of_le_of_lt (UInt32.le_iff_toNat_le.mp hle) (by decide))
    rw [hsame]

theorem isDigit_toLower (c : Char) : isDigit c.toLower = isDigit c :=
  toLower_of_ascii (by decide) c

theorem value_append {cs ds : List Char} {m n : Nat} (hm : value cs = some m)
    (hn : value ds = some n) : value (cs ++ ds) = some (m * 16 ^ ds.length + n) := by
  induction ds using List.reverseRecOn generalizing n with
  | nil =>
      cases hn
      simp [hm]
  | append_singleton ds d ih =>
      rw [value_append_singleton, Option.bind_eq_some_iff] at hn
      obtain ⟨n', hn', hn⟩ := hn
      obtain ⟨k, hk, rfl⟩ := Option.map_eq_some_iff.mp hn
      rw [← List.append_assoc, value_append_singleton, ih hn', Option.bind_some, hk,
        Option.map_some, List.length_append, List.length_singleton, Nat.pow_succ', Nat.mul_add,
        Nat.mul_left_comm, Nat.add_assoc]

theorem write_add (v w n : Nat) : write (v + w) n = write v (n / 16 ^ w) ++ write w n := by
  induction w generalizing n with
  | zero => simp [write]
  | succ w ih =>
      rw [← Nat.add_assoc, write, ih, write, List.append_assoc, Nat.div_div_eq_div_mul,
        Nat.pow_succ']

theorem write_mod (w n : Nat) : write w (n % 16 ^ w) = write w n := by
  induction w generalizing n with
  | zero => rfl
  | succ w ih =>
      have hdiv : n % 16 ^ (w + 1) / 16 = n / 16 % 16 ^ w := by
        rw [Nat.pow_succ', Nat.mod_mul_right_div_self]
      have hmod : n % 16 ^ (w + 1) % 16 = n % 16 := by
        rw [Nat.pow_succ', Nat.mod_mul_right_mod]
      rw [write, hdiv, hmod, ih, write]

end Hexadecimal

/-
# GlobalPayments.Payments.Identifiers — the text of a UUID, and reading it.

`UUID.toString()` writes 32 lower-case digits in groups of 8-4-4-4-12; a path variable of type `UUID`
is read with `UUID.fromString`, which takes a text of 36 characters with hyphens in the same four
places, eight groups of four digits at a time, and leaves every other text to a second, more lenient
reader.  A text in the standard form is read as the UUID whose text it is, up to the case of the
letters (`fromString_hyphenated`, `toText_ofGroups`), and the lenient reader never sees it.
-/
import GlobalPayments.Library.Hexadecimal
import GlobalPayments.Payments.Lookups
import GlobalPayments.Payments.Reference

namespace GlobalPayments.Payments

open Hexadecimal

/-! ## Reading -/

/-- `UUID.parse4Nibbles(name, pos)`. -/
def parse4Nibbles (name : List Char) (pos : Nat) : Option Nat := value ((name.drop pos).take 4)

/-- `new UUID(msb1 << 48 | msb2 << 32 | msb3 << 16 | msb4, lsb1 << 48 | …)`. -/
def UUID.ofGroups (groups : List Nat) : UUID :=
  BitVec.ofNat 128 (groups.foldl (fun n group => 65536 * n + group) 0)

/-- `UUID.fromString(name)`; `fromString1` is its reader of the other texts. -/
def UUID.fromString (fromString1 : List Char → Option UUID) (name : List Char) : Option UUID :=
  if name.length = 36 ∧ ∀ pos ∈ [8, 13, 18, 23], name[pos]? = some '-' then
    match [0, 4, 9, 14, 19, 24, 28, 32].mapM (parse4Nibbles name) with
    | some groups => some (UUID.ofGroups groups)
    | none => fromString1 name
  else fromString1 name

/-- `UUID.version()`. -/
def UUID.version (u : UUID) : Nat := u.toNat / 16 ^ 19 % 16

/-- `UUID.variant() == 2`: the two bits `10`. -/
def UUID.isLeachSalz (u : UUID) : Bool := u.toNat / 2 ^ 62 % 4 = 2

/-- What `UUID.randomUUID()` makes. -/
def UUID.IsRandom (u : UUID) : Prop := u.version = 4 ∧ u.isLeachSalz = true

instance (u : UUID) : Decidable u.IsRandom := inferInstanceAs (Decidable (_ ∧ _))

/-- `PaymentController.getPaymentById`, from the path variable on; no answer is the refusal of a text
that is not read as a UUID. -/
def getPaymentByPath (fromString1 : List Char → Option UUID) (table : List Payment) (id : String) :
    Option (Except ServiceException PaymentResponse) :=
  (UUID.fromString fromString1 id.toList).map (getPaymentById table)

/-! ## Eight groups -/

/-- Eight groups of four characters, with hyphens where a UUID has them. -/
def hyphenated (g₁ g₂ g₃ g₄ g₅ g₆ g₇ g₈ : List Char) : List Char :=
  g₁ ++ (g₂ ++ '-' :: (g₃ ++ '-' :: (g₄ ++ '-' :: (g₅ ++ '-' :: (g₆ ++ (g₇ ++ g₈))))))

theorem map_hyphenated (g₁ g₂ g₃ g₄ g₅ g₆ g₇ g₈ : List Char) :
    (hyphenated g₁ g₂ g₃ g₄ g₅ g₆ g₇ g₈).map Char.toLower =
      hyphenated (g₁.map Char.toLower) (g₂.map Char.toLower) (g₃.map Char.toLower)
        (g₄.map Char.toLower) (g₅.map Char.toLower) (g₆.map Char.toLower) (g₇.map Char.toLower)
        (g₈.map Char.toLower) := by
  have hhyphen : '-'.toLower = '-' := by decide
  simp only [hyphenated, List.map_append, List.map_cons, hhyphen]

theorem paddedDigits_eq_write {w n : Nat} (h : n < 16 ^ (w + 1)) :
    paddedDigits 16 (w + 1) n = write (w + 1) n := by
  induction w generalizing n with
  | zero =>
      have hlt : n < 16 := by simpa using h
      rw [paddedDigits, Nat.toDigits_eq_if (by decide), if_pos hlt]
      simp [write, Nat.mod_eq_of_lt hlt]
  | succ w ih =>
      have hdiv : n / 16 < 16 ^ (w + 1) := Nat.div_lt_of_lt_mul (by rwa [← Nat.pow_succ'])
      rw [write, ← ih hdiv, paddedDigits, paddedDigits]
      by_cases hlt : n < 16
      · have hzero : n / 16 = 0 := by omega
        have hmod : n % 16 = n := Nat.mod_eq_of_lt hlt
        rw [Nat.toDigits_eq_if (by decide), if_pos hlt, hzero, hmod]
        simp [List.replicate_succ', Nat.toDigits_zero]
      · have hdigits : Nat.toDigits 16 n =
            Nat.toDigits 16 (n / 16) ++ [Nat.digitChar (n % 16)] := by
          rw [Nat.toDigits_eq_if (by decide), if_neg hlt]
        simp [hdigits]

/-- The text of a UUID is its digits, four at a time. -/
theorem UUID.toText_eq (u : UUID) : u.toText =
    hyphenated (write 4 (u.toNat / 16 ^ 28)) (write 4 (u.toNat / 16 ^ 24))
      (write 4 (u.toNat / 16 ^ 20)) (write 4 (u.toNat / 16 ^ 16)) (write 4 (u.toNat / 16 ^ 12))
      (write 4 (u.toNat / 16 ^ 8)) (write 4 (u.toNat / 16 ^ 4)) (write 4 u.toNat) := by
  have hsplit : ∀ w, write (4 + w) u.toNat = write 4 (u.toNat / 16 ^ w) ++ write w u.toNat :=
    fun w => write_add 4 w u.toNat
  have hhex : paddedDigits 16 32 u.toNat = write 4 (u.toNat / 16 ^ 28) ++
      (write 4 (u.toNat / 16 ^ 24) ++ (write 4 (u.toNat / 16 ^ 20) ++
        (write 4 (u.toNat / 16 ^ 16) ++ (write 4 (u.toNat / 16 ^ 12) ++
          (write 4 (u.toNat / 16 ^ 8) ++ (write 4 (u.toNat / 16 ^ 4) ++
            write 4 u.toNat)))))) := by
    rw [paddedDigits_eq_write u.isLt, hsplit 28, hsplit 24, hsplit 20, hsplit 16, hsplit 12,
      hsplit 8, hsplit 4]
  rw [UUID.toText, hhex]
  simp [hyphenated, List.drop_append, List.take_append, List.drop_eq_nil_of_le,
    List.take_of_length_le]

/-- Four digits and the number they stand for. -/
structure Quad (g : List Char) (v : Nat) : Prop where
  length : g.length = 4
  value : value g = some v

theorem Quad.lt {g : List Char} {v : Nat} (h : Quad g v) : v < 65536 := by
  have hlt := value_lt h.value
  rwa [h.length] at hlt

theorem Quad.write {g : List Char} {v : Nat} (h : Quad g v) {n : Nat} (hn : n % 65536 = v) :
    write 4 n = g.map Char.toLower := by
  rw [← (write_value h.value).2, h.length, ← write_mod, show 16 ^ 4 = 65536 by decide, hn]

theorem Quad.of_write (n : Nat) : Quad (Hexadecimal.write 4 n) (n % 65536) :=
  ⟨length_write 4 n, value_write 4 n⟩

section Groups

variable {g₁ g₂ g₃ g₄ g₅ g₆ g₇ g₈ : List Char} {v₁ v₂ v₃ v₄ v₅ v₆ v₇ v₈ : Nat}

/-- **The groups are read where they were put.** -/
theorem fromString_hyphenated (fromString1 : List Char → Option UUID) (h₁ : Quad g₁ v₁)
    (h₂ : Quad g₂ v₂) (h₃ : Quad g₃ v₃) (h₄ : Quad g₄ v₄) (h₅ : Quad g₅ v₅) (h₆ : Quad g₆ v₆)
    (h₇ : Quad g₇ v₇) (h₈ : Quad g₈ v₈) :
    UUID.fromString fromString1 (hyphenated g₁ g₂ g₃ g₄ g₅ g₆ g₇ g₈) =
      some (UUID.ofGroups [v₁, v₂, v₃, v₄, v₅, v₆, v₇, v₈]) := by
  have hform : (hyphenated g₁ g₂ g₃ g₄ g₅ g₆ g₇ g₈).length = 36 ∧
      ∀ pos ∈ [8, 13, 18, 23], (hyphenated g₁ g₂ g₃ g₄ g₅ g₆ g₇ g₈)[pos]? = some '-' := by
    constructor
    · simp [hyphenated, h₁.length, h₂.length, h₃.length, h₄.length, h₅.length, h₆.length,
        h₇.length, h₈.length]
    · simp [hyphenated, List.getElem?_append, h₁.length, h₂.length, h₃.length, h₄.length,
        h₅.length]
  have hgroups : [0, 4, 9, 14, 19, 24, 28, 32].mapM
      (parse4Nibbles (hyphenated g₁ g₂ g₃ g₄ g₅ g₆ g₇ g₈)) =
        some [v₁, v₂, v₃, v₄, v₅, v₆, v₇, v₈] := by
    simp [parse4Nibbles, hyphenated, List.drop_append, List.drop_eq_nil_of_le,
      List.take_of_length_le, h₁.length, h₂.length, h₃.length, h₄.length, h₅.length, h₆.length,
      h₇.length, h₈.length, h₁.value, h₂.value, h₃.value, h₄.value, h₅.value, h₆.value, h₇.value,
      h₈.value]
  unfold UUID.fromString
  rw [if_pos hform, hgroups]

theorem toNat_ofGroups (h₁ : Quad g₁ v₁)
    (h₂ : Quad g₂ v₂) (h₃ : Quad g₃ v₃) (h₄ : Quad g₄ v₄) (h₅ : Quad g₅ v₅) (h₆ : Quad g₆ v₆)
    (h₇ : Quad g₇ v₇) (h₈ : Quad g₈ v₈) :
    (UUID.ofGroups [v₁, v₂, v₃, v₄, v₅, v₆, v₇, v₈]).toNat =
      v₁ * 16 ^ 28 + v₂ * 16 ^ 24 + v₃ * 16 ^ 20 + v₄ * 16 ^ 16 + v₅ * 16 ^ 12 + v₆ * 16 ^ 8 +
        v₇ * 16 ^ 4 + v₈ := by
  have hb₁ := h₁.lt
  have hb₂ := h₂.lt
  have hb₃ := h₃.lt
  have hb₄ := h₄.lt
  have hb₅ := h₅.lt
  have hb₆ := h₆.lt
  have hb₇ := h₇.lt
  have hb₈ := h₈.lt
  unfold UUID.ofGroups
  rw [BitVec.toNat_ofNat]
  simp only [List.foldl_cons, List.foldl_nil]
  omega

/-- **The UUID that is read has the text it was read from**, in lower case. -/
theorem toText_ofGroups (h₁ : Quad g₁ v₁)
    (h₂ : Quad g₂ v₂) (h₃ : Quad g₃ v₃) (h₄ : Quad g₄ v₄) (h₅ : Quad g₅ v₅) (h₆ : Quad g₆ v₆)
    (h₇ : Quad g₇ v₇) (h₈ : Quad g₈ v₈) :
    (UUID.ofGroups [v₁, v₂, v₃, v₄, v₅, v₆, v₇, v₈]).toText =
      (hyphenated g₁ g₂ g₃ g₄ g₅ g₆ g₇ g₈).map Char.toLower := by
  have hb₁ := h₁.lt
  have hb₂ := h₂.lt
  have hb₃ := h₃.lt
  have hb₄ := h₄.lt
  have hb₅ := h₅.lt
  have hb₆ := h₆.lt
  have hb₇ := h₇.lt
  have hb₈ := h₈.lt
  rw [UUID.toText_eq, map_hyphenated, toNat_ofGroups h₁ h₂ h₃ h₄ h₅ h₆ h₇ h₈, h₁.write (by omega),
    h₂.write (by omega), h₃.write (by omega), h₄.write (by omega), h₅.write (by omega),
    h₆.write (by omega), h₇.write (by omega), h₈.write (by omega)]

end Groups

/-- **A UUID is read back from its text.** -/
theorem fromString_toText (fromString1 : List Char → Option UUID) (u : UUID) :
    UUID.fromString fromString1 u.toText = some u := by
  have hquad := fun w => Quad.of_write (u.toNat / 16 ^ w)
  have hlast := Quad.of_write u.toNat
  have hlt : u.toNat < 2 ^ 128 := u.isLt
  rw [UUID.toText_eq, fromString_hyphenated fromString1 (hquad 28) (hquad 24) (hquad 20) (hquad 16)
    (hquad 12) (hquad 8) (hquad 4) hlast]
  refine congrArg some (BitVec.eq_of_toNat_eq ?_)
  rw [toNat_ofGroups (hquad 28) (hquad 24) (hquad 20) (hquad 16) (hquad 12) (hquad 8) (hquad 4)
    hlast]
  omega

/-- Different UUIDs have different texts. -/
theorem toText_injective : Function.Injective UUID.toText := by
  intro u v h
  have hread := fromString_toText (fun _ => none) u
  rw [h, fromString_toText] at hread
  exact (Option.some.inj hread).symm

end GlobalPayments.Payments

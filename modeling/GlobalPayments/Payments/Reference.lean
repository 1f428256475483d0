/-
# GlobalPayments.Payments.Reference — identifiers and the payment reference generator.

`PaymentReferenceGenerator.generate` formats `PAY-<yyyyMMdd>-<%06d>-<XXXX>` from the day, the
generator's counter and the first four hexadecimal digits of a random UUID.  The day and the UUID
are read from outside, so they are arguments here; the state of the generator is the number of its
calls, and the `long` it prints is that number in 64 bits.
-/
import GlobalPayments.Library.DigitOrder
import Mathlib.Algebra.Group.Int.Defs
import Mathlib.Algebra.Group.Nat.Defs
import Mathlib.Data.List.Basic

namespace GlobalPayments.Payments

/-! ## Identifiers -/

/-- `java.util.UUID`: 128 bits. -/
abbrev UUID := BitVec 128

/-- Digits of `n` in `base`, padded with zeros in front to at least `width`. -/
def paddedDigits (base width n : Nat) : List Char :=
  let ds := Nat.toDigits base n
  List.replicate (width - ds.length) '0' ++ ds

/-- `UUID.toString()`: 32 lower-case hexadecimal digits in groups of 8-4-4-4-12. -/
def UUID.toText (u : UUID) : List Char :=
  let hex := paddedDigits 16 32 u.toNat
  hex.take 8 ++ ['-'] ++ (hex.drop 8).take 4 ++ ['-'] ++ (hex.drop 12).take 4 ++ ['-'] ++
    (hex.drop 16).take 4 ++ ['-'] ++ hex.drop 20

/-- `java.time.LocalDate`. -/
structure LocalDate where
  year : Nat
  month : Nat
  day : Nat
  deriving DecidableEq, Repr

/-- The month and the day are in their ranges. -/
def LocalDate.Valid (d : LocalDate) : Prop := 1 ≤ d.month ∧ d.month ≤ 12 ∧ 1 ≤ d.day ∧ d.day ≤ 31

instance (d : LocalDate) : Decidable d.Valid :=
  inferInstanceAs (Decidable (1 ≤ d.month ∧ d.month ≤ 12 ∧ 1 ≤ d.day ∧ d.day ≤ 31))

/-- `DateTimeFormatter.ofPattern("yyyyMMdd")`: a year beyond four digits is printed with a sign. -/
def LocalDate.format (d : LocalDate) : List Char :=
  (if d.year > 9999 then ['+'] else []) ++ paddedDigits 10 4 d.year ++ paddedDigits 10 2 d.month ++
    paddedDigits 10 2 d.day

/-! ## The generator -/

/-- `UUID.randomUUID().toString().replaceAll("-", "").substring(0, 4).toUpperCase()`. -/
def referenceSuffix (u : UUID) : List Char :=
  ((u.toText.filter (· ≠ '-')).take 4).map Char.toUpper

/-- The value of an `AtomicLong` after `n` increments from zero: it wraps around. -/
def longAfter (n : Nat) : Int :=
  if n % 2 ^ 64 < 2 ^ 63 then (n % 2 ^ 64 : Nat) else (n % 2 ^ 64 : Nat) - 2 ^ 64

/-- `%06d`: zeros fill six places, of which a sign takes one; a longer number is printed in full. -/
def sixPlaces (n : Int) : List Char :=
  if n < 0 then '-' :: paddedDigits 10 5 n.natAbs else paddedDigits 10 6 n.natAbs

/-- `String.format("PAY-%s-%06d-%s", date, seq, suffix)`, with the counter after `seq`
increments. -/
def formatReference (date : LocalDate) (seq : Nat) (u : UUID) : String :=
  String.ofList ("PAY-".toList ++ date.format ++ ['-'] ++ sixPlaces (longAfter seq) ++ ['-'] ++
    referenceSuffix u)

/-- `PaymentReferenceGenerator.generate`: the counter is incremented first and its new value is
printed.  Returns the reference and the number of increments. -/
def generate (sequence : Nat) (date : LocalDate) (u : UUID) : String × Nat :=
  (formatReference date (sequence + 1) u, sequence + 1)

example : (generate 41 ⟨2024, 3, 15⟩ 0xab12000000000000000000000000cafe#128).1 =
    "PAY-20240315-000042-AB12" := by decide

/-! ## Widths and characters -/

theorem length_paddedDigits (base width n : Nat) :
    (paddedDigits base width n).length = max width (Nat.toDigits base n).length := by
  rw [paddedDigits, List.length_append, List.length_replicate]
  omega

theorem width_le_length (base width n : Nat) : width ≤ (paddedDigits base width n).length := by
  rw [length_paddedDigits]
  exact Nat.le_max_left _ _

/-- Padding fixes the width of the numbers it is wide enough for, and of no other. -/
theorem length_paddedDigits_eq_iff {base width n : Nat} (hbase : 1 < base) (hwidth : 0 < width) :
    (paddedDigits base width n).length = width ↔ n < base ^ width := by
  rw [length_paddedDigits, ← Nat.length_toDigits_le_iff hbase hwidth]
  omega

theorem isDigit_of_mem_paddedDigits {width n : Nat} {c : Char} (h : c ∈ paddedDigits 10 width n) :
    c.isDigit = true := by
  rcases List.mem_append.mp h with hzero | hdigit
  · obtain rfl := List.eq_of_mem_replicate hzero
    rfl
  · exact Nat.isDigit_of_mem_toDigits (by decide) (by decide) hdigit

/-- Digits in any base are digit characters. -/
theorem exists_digitChar_of_mem_toDigits {base n : Nat} (hbase : 1 < base) {c : Char}
    (h : c ∈ Nat.toDigits base n) : ∃ d < base, c = Nat.digitChar d := by
  induction n using Nat.strongRecOn with
  | ind n ih =>
      rw [Nat.toDigits_eq_if hbase] at h
      split at h
      · rename_i hlt
        exact ⟨n, hlt, List.mem_singleton.mp h⟩
      · rename_i hge
        rcases List.mem_append.mp h with hfront | hlast
        · exact ih (n / base) (Nat.div_lt_self (by omega) hbase) hfront
        · exact ⟨n % base, Nat.mod_lt n (by omega), List.mem_singleton.mp hlast⟩

theorem exists_digitChar_of_mem_paddedDigits {base width n : Nat} (hbase : 1 < base) {c : Char}
    (h : c ∈ paddedDigits base width n) : ∃ d < base, c = Nat.digitChar d := by
  rcases List.mem_append.mp h with hzero | hdigit
  · exact ⟨0, by omega, List.eq_of_mem_replicate hzero⟩
  · exact exists_digitChar_of_mem_toDigits hbase hdigit

theorem digitChar_hexadecimal : ∀ d < 16, Nat.digitChar d ≠ '-' ∧
    ((Nat.digitChar d).toUpper.isUpper = true ∨ (Nat.digitChar d).toUpper.isDigit = true) := by
  decide

/-- The suffix is the first four hexadecimal digits: there is no hyphen among the first eight. -/
theorem referenceSuffix_eq (u : UUID) :
    referenceSuffix u = ((paddedDigits 16 32 u.toNat).take 4).map Char.toUpper := by
  have hhyphen : ∀ c ∈ (paddedDigits 16 32 u.toNat).take 8, c ≠ '-' := by
    intro c hc
    obtain ⟨d, hd, rfl⟩ :=
      exists_digitChar_of_mem_paddedDigits (by decide) (List.mem_of_mem_take hc)
    exact (digitChar_hexadecimal d hd).1
  have hlength : 4 ≤ ((paddedDigits 16 32 u.toNat).take 8).length := by
    rw [List.length_take, length_paddedDigits]
    omega
  have hfilter : ((paddedDigits 16 32 u.toNat).take 8).filter (· ≠ '-') =
      (paddedDigits 16 32 u.toNat).take 8 :=
    List.filter_eq_self.mpr fun c hc => decide_eq_true (hhyphen c hc)
  rw [referenceSuffix, UUID.toText]
  simp only [List.append_assoc, List.filter_append]
  rw [hfilter, List.take_append_of_le_length hlength, List.take_take]
  rfl

theorem length_referenceSuffix (u : UUID) : (referenceSuffix u).length = 4 := by
  rw [referenceSuffix_eq, List.length_map, List.length_take, length_paddedDigits]
  omega

/-- The suffix consists of upper-case letters and digits. -/
theorem mem_referenceSuffix {u : UUID} {c : Char} (h : c ∈ referenceSuffix u) :
    c.isUpper = true ∨ c.isDigit = true := by
  rw [referenceSuffix_eq] at h
  obtain ⟨x, hx, rfl⟩ := List.mem_map.mp h
  obtain ⟨d, hd, rfl⟩ := exists_digitChar_of_mem_paddedDigits (by decide) (List.mem_of_mem_take hx)
  exact (digitChar_hexadecimal d hd).2

/-- The month and the day take two places each. -/
theorem LocalDate.length_twoPlaces {d : LocalDate} (h : d.Valid) :
    (paddedDigits 10 2 d.month).length = 2 ∧ (paddedDigits 10 2 d.day).length = 2 := by
  obtain ⟨-, hmonth, -, hday⟩ := h
  constructor
  · exact (length_paddedDigits_eq_iff (by decide) (by decide)).mpr (by omega)
  · exact (length_paddedDigits_eq_iff (by decide) (by decide)).mpr (by omega)

/-- The day takes eight places until the year 9999, and more from then on. -/
theorem LocalDate.length_format {d : LocalDate} (h : d.Valid) :
    8 ≤ d.format.length ∧ (d.format.length = 8 ↔ d.year ≤ 9999) := by
  obtain ⟨hmonth, hday⟩ := LocalDate.length_twoPlaces h
  have hyear := width_le_length 10 4 d.year
  have hyear' : (paddedDigits 10 4 d.year).length = 4 ↔ d.year < 10 ^ 4 :=
    length_paddedDigits_eq_iff (by decide) (by decide)
  simp only [LocalDate.format, List.length_append, hmonth, hday]
  split
  · rw [List.length_singleton]
    omega
  · rw [List.length_nil]
    omega

theorem LocalDate.isDigit_of_mem_format {d : LocalDate} (h : d.format.length = 8) {c : Char}
    (hc : c ∈ d.format) : c.isDigit = true := by
  have hsign : ¬ d.year > 9999 := by
    intro hyear
    have hfour := width_le_length 10 4 d.year
    have hmonth := width_le_length 10 2 d.month
    have hday := width_le_length 10 2 d.day
    simp only [LocalDate.format, if_pos hyear, List.length_append, List.length_singleton] at h
    omega
  simp only [LocalDate.format, if_neg hsign, List.nil_append, List.mem_append] at hc
  rcases hc with (hc | hc) | hc <;> exact isDigit_of_mem_paddedDigits hc

/-- The counter takes at least six places. -/
theorem length_sixPlaces (n : Int) : 6 ≤ (sixPlaces n).length := by
  unfold sixPlaces
  split
  · rw [List.length_cons, length_paddedDigits]
    omega
  · rw [length_paddedDigits]
    omega

/-- Six digits are printed for the numbers below a million, and for no other. -/
theorem sixPlaces_digits_iff (n : Int) :
    ((sixPlaces n).length = 6 ∧ ∀ c ∈ sixPlaces n, c.isDigit = true) ↔ 0 ≤ n ∧ n < 1000000 := by
  unfold sixPlaces
  split
  · rename_i hneg
    refine ⟨fun h => ?_, fun h => absurd h.1 (by omega)⟩
    exact absurd (h.2 '-' List.mem_cons_self) (by decide)
  · rename_i hnonneg
    rw [length_paddedDigits_eq_iff (by decide) (by decide)]
    exact ⟨fun h => by omega, fun h => ⟨by omega, fun c => isDigit_of_mem_paddedDigits⟩⟩

theorem longAfter_lt_iff (n : Nat) :
    (0 ≤ longAfter n ∧ longAfter n < 1000000) ↔ n % 2 ^ 64 < 1000000 := by
  unfold longAfter
  split <;> omega

/-! ## Different numbers -/

@[simp] theorem value_paddedDigits (width n : Nat) :
    DigitOrder.value (paddedDigits 10 width n) = n := by
  rw [DigitOrder.value, paddedDigits, Nat.ofDigitChars_append, Nat.ofDigitChars_replicate_zero,
    Nat.mul_zero, Nat.ofDigitChars_ten_toDigits]

/-- Padded digits still say which number they are of. -/
theorem paddedDigits_injective (width : Nat) : Function.Injective (paddedDigits 10 width) :=
  Function.LeftInverse.injective (value_paddedDigits width)

/-- No two numbers are printed alike, whatever their widths. -/
theorem sixPlaces_injective : Function.Injective sixPlaces := by
  have hsign : ∀ {width n}, '-' ∉ paddedDigits 10 width n :=
    fun h => absurd (isDigit_of_mem_paddedDigits h) (by decide)
  intro n n' h
  unfold sixPlaces at h
  split at h <;> split at h
  · rw [List.cons.injEq] at h
    have habs := paddedDigits_injective 5 h.2
    omega
  · exact absurd (h ▸ List.mem_cons_self) hsign
  · exact absurd (h ▸ List.mem_cons_self) hsign
  · have habs := paddedDigits_injective 6 h
    omega

/-- The counter prints a number again only after all 64-bit numbers. -/
theorem longAfter_injective {n n' : Nat} (hn : 1 ≤ n ∧ n ≤ 2 ^ 64) (hn' : 1 ≤ n' ∧ n' ≤ 2 ^ 64)
    (h : longAfter n = longAfter n') : n = n' := by
  unfold longAfter at h
  split at h <;> split at h <;> omega

/-- **The number can be read off a reference.**  Day and suffix have fixed widths, so references of
different numbers differ, whatever their days and suffixes. -/
theorem formatReference_number {d d' : LocalDate} (hd : d.format.length = 8)
    (hd' : d'.format.length = 8) {n n' : Nat} (hn : 1 ≤ n ∧ n ≤ 2 ^ 64) (hn' : 1 ≤ n' ∧ n' ≤ 2 ^ 64)
    {u u' : UUID} (h : formatReference d n u = formatReference d' n' u') : n = n' := by
  apply longAfter_injective hn hn'
  unfold formatReference at h
  generalize longAfter n = m at h ⊢
  generalize longAfter n' = m' at h ⊢
  have hlists := congrArg String.toList h
  simp only [String.toList_ofList, List.append_assoc] at hlists
  have hlengths := congrArg List.length hlists
  simp only [List.length_append, hd, hd', length_referenceSuffix] at hlengths
  -- in front of the number: the mark, the day and a hyphen
  have hmark := List.append_cancel_left hlists
  obtain ⟨-, hrest⟩ := List.append_inj hmark (hd.trans hd'.symm)
  have hnumber := List.append_cancel_left hrest
  obtain ⟨hsix, -⟩ := List.append_inj hnumber (by omega)
  exact sixPlaces_injective hsix

end GlobalPayments.Payments

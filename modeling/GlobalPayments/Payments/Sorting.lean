/-
# GlobalPayments.Payments.Sorting — references in the order of their generation.

Calls that come one after the other, on days that do not go back, return references with the day and a
counter in them.  Whether sorting the references keeps their order depends on how two neighbours are
written: day and counter have a width up to which they are padded, and what is longer is compared by its
leading digits.

`references_sorted_iff` gives the condition, call by call (`CallInOrder`); below a million calls and the
year 10000 it holds (`RunInOrder.of_short`).
-/
import GlobalPayments.Library.DigitOrder
import GlobalPayments.Payments.Generator
import Mathlib.Data.List.Chain
import Mathlib.Data.String.Basic

namespace GlobalPayments.Payments

open DigitOrder Runs

/-! ## Calls one after the other -/

/-- What a call of `generate()` reads from outside. -/
structure Reading where
  date : LocalDate
  uuid : UUID

/-- The references of calls that come one after the other. -/
def generateAll (sequence : Nat) : List Reading → List String
  | [] => []
  | r :: rest =>
      (generate sequence r.date r.uuid).1 :: generateAll (generate sequence r.date r.uuid).2 rest

/-- A thread that nothing comes between returns these references. -/
theorem Generator.run_calls {t : ThreadId} (readings : List (Today × UUID)) {s : Sys}
    (hidle : s.threads t = .idle) :
    ∃ s', run step s (readings.flatMap fun r => call t r.1 r.2) = some s' ∧
      s'.threads t = .idle ∧
      s'.returned = s.returned ++
        generateAll s.sequence (readings.map fun r => ⟨r.1.toLocalDate, r.2⟩) := by
  induction readings generalizing s with
  | nil => exact ⟨s, rfl, hidle, (List.append_nil _).symm⟩
  | cons r rest ih =>
      obtain ⟨s₁, hrun, hidle₁, hreturned, hsequence⟩ := run_generate hidle r.1 r.2
      obtain ⟨s', hrest, hidle', hreturned'⟩ := ih hidle₁
      refine ⟨s', run_append step hrun hrest, hidle', ?_⟩
      rw [hreturned', hreturned, hsequence, List.append_assoc]
      rfl

/-! ## When neighbours are in order -/

/-- `LocalDate.isBefore`. -/
def LocalDate.isBefore (d d' : LocalDate) : Prop :=
  d.year < d'.year ∨ d.year = d'.year ∧
    (d.month < d'.month ∨ d.month = d'.month ∧ d.day < d'.day)

instance (d d' : LocalDate) : Decidable (d.isBefore d') :=
  inferInstanceAs (Decidable (d.year < d'.year ∨ d.year = d'.year ∧
    (d.month < d'.month ∨ d.month = d'.month ∧ d.day < d'.day)))

/-- Of two days, one is before the other. -/
theorem LocalDate.eq_of_not_isBefore {d d' : LocalDate} (h : ¬ d.isBefore d')
    (h' : ¬ d'.isBefore d) : d = d' := by
  obtain ⟨year, month, day⟩ := d
  obtain ⟨year', month', day'⟩ := d'
  unfold isBefore at h h'
  rw [LocalDate.mk.injEq]
  dsimp only at h h'
  omega

/-- The number that the digits of a date make. -/
def LocalDate.number (d : LocalDate) : Nat := d.year * 10000 + d.month * 100 + d.day

/-- The places the year takes. -/
def LocalDate.yearPlaces (d : LocalDate) : Nat := (paddedDigits 10 4 d.year).length

/-- A later day is written behind an earlier one: both years have four digits, or both have more and
the leading digits of the later date are no less. -/
def DateInOrder (d d' : LocalDate) : Prop :=
  d'.year ≤ 9999 ∨
    9999 < d.year ∧ d.number ≤ d'.number / 10 ^ (d'.yearPlaces - d.yearPlaces)

/-- The number after `m` is written behind it.  A positive number must not get a digit longer, and the
counter must not wrap around; of the negative ones only those are followed in order that lose a digit
or their sign. -/
def NextInOrder (m : Int) : Prop :=
  (0 ≤ m ∧ m + 1 < 2 ^ 63 ∧ ∀ k ≥ 6, m + 1 ≠ 10 ^ k) ∨ m = -1 ∨ ∃ k ≥ 5, m = -10 ^ k

/-- A call and the next, where the first prints the counter after `sequence` increments. -/
def CallInOrder (sequence : Nat) (r r' : Reading) : Prop :=
  if r.date = r'.date then NextInOrder (longAfter sequence) else DateInOrder r.date r'.date

/-- Every call of a run and the next. -/
def RunInOrder : Nat → List Reading → Prop
  | _, [] => True
  | _, [_] => True
  | sequence, r :: r' :: rest =>
      CallInOrder (sequence + 1) r r' ∧ RunInOrder (sequence + 1) (r' :: rest)

/-! ## Padded numbers -/

theorem hyphen_lt (c : Char) (h : c.isDigit = true) : '-' < c := lt_digit (by decide) c h

theorem digits_paddedDigits (width n : Nat) : Digits (paddedDigits 10 width n) :=
  fun _ => isDigit_of_mem_paddedDigits

theorem length_paddedDigits_le_iff {width k n : Nat} (hk : 0 < k) (hwidth : width ≤ k) :
    (paddedDigits 10 width n).length ≤ k ↔ n < 10 ^ k := by
  rw [length_paddedDigits, Nat.max_le, Nat.length_toDigits_le_iff (by decide) hk]
  exact and_iff_right hwidth

theorem paddedDigits_ne_nil {width : Nat} (hwidth : 0 < width) (n : Nat) :
    paddedDigits 10 width n ≠ [] :=
  List.ne_nil_of_length_pos (Nat.lt_of_lt_of_le hwidth (width_le_length 10 width n))

theorem lt_pow_length {width : Nat} (hwidth : 0 < width) (n : Nat) :
    n < 10 ^ (paddedDigits 10 width n).length := by
  have hle := width_le_length 10 width n
  exact (length_paddedDigits_le_iff (Nat.lt_of_lt_of_le hwidth hle) hle).mp (Nat.le_refl _)

/-- A larger number takes no fewer places. -/
theorem length_paddedDigits_mono {width n n' : Nat} (hwidth : 0 < width) (h : n ≤ n') :
    (paddedDigits 10 width n).length ≤ (paddedDigits 10 width n').length := by
  have hle := width_le_length 10 width n'
  apply (length_paddedDigits_le_iff (Nat.lt_of_lt_of_le hwidth hle) hle).mpr
  exact Nat.lt_of_le_of_lt h (lt_pow_length hwidth n')

/-- **The next number** takes as many places, or it is a power of ten and takes one more. -/
theorem length_paddedDigits_succ {width : Nat} (hwidth : 0 < width) (n : Nat) :
    ((paddedDigits 10 width (n + 1)).length = (paddedDigits 10 width n).length ∧
        ∀ k ≥ width, n + 1 ≠ 10 ^ k) ∨
      ∃ k ≥ width, n + 1 = 10 ^ k ∧ (paddedDigits 10 width n).length = k ∧
        (paddedDigits 10 width (n + 1)).length = k + 1 := by
  have hle := width_le_length 10 width n
  have hlt := lt_pow_length hwidth n
  have hmono := length_paddedDigits_mono hwidth (Nat.le_add_right n 1)
  have hiff := fun k => @length_paddedDigits_le_iff width k (n + 1)
  have hiff' := fun k => @length_paddedDigits_le_iff width k n
  by_cases hpow : n + 1 = 10 ^ (paddedDigits 10 width n).length
  · refine Or.inr ⟨_, hle, hpow, rfl, ?_⟩
    have hlonger := mt (hiff _ (by omega) hle).mp (by omega)
    have hone := (hiff ((paddedDigits 10 width n).length + 1) (by omega) (by omega)).mpr
      (by rw [hpow]; exact Nat.pow_lt_pow_right (by decide) (Nat.lt_succ_self _))
    omega
  · have hsame := (hiff _ (by omega) hle).mpr (by omega)
    refine Or.inl ⟨by omega, fun k hk heq => ?_⟩
    have hshort := (hiff' k (by omega) hk).mpr (by omega)
    have hlong := mt (hiff k (by omega) hk).mp (by omega)
    omega

/-- A number and the next as texts: in order unless the next takes one place more. -/
theorem paddedDigits_succ_order {width : Nat} (hwidth : 0 < width) (n : Nat) (r r' : List Char) :
    (paddedDigits 10 width n ++ '-' :: r < paddedDigits 10 width (n + 1) ++ '-' :: r' ↔
        ∀ k ≥ width, n + 1 ≠ 10 ^ k) ∧
      (paddedDigits 10 width (n + 1) ++ '-' :: r' < paddedDigits 10 width n ++ '-' :: r ↔
        ∃ k ≥ width, n + 1 = 10 ^ k) := by
  have hdigits := digits_paddedDigits width n
  have hdigits' := digits_paddedDigits width (n + 1)
  have hle := length_paddedDigits_mono hwidth (Nat.le_add_right n 1)
  have hlt : value (paddedDigits 10 width n) < value (paddedDigits 10 width (n + 1)) := by
    rw [value_paddedDigits, value_paddedDigits]
    exact Nat.lt_succ_self n
  rw [before_iff hyphen_lt hdigits hdigits' hle hlt, after_iff hyphen_lt hdigits hdigits' hle hlt,
    value_paddedDigits, value_paddedDigits]
  rcases length_paddedDigits_succ hwidth n with ⟨hsame, hpow⟩ | ⟨k, hk, hpow, hlength, hlonger⟩
  · rw [hsame, Nat.sub_self, Nat.pow_zero, Nat.div_one]
    refine ⟨iff_of_true (Nat.le_succ n) hpow, iff_of_false (by omega) ?_⟩
    rintro ⟨k, hk, heq⟩
    exact hpow k hk heq
  · -- a tenth of a power of ten is less than the number before it
    have hless : 10 ^ (k - 1) < n := by
      obtain ⟨j, rfl⟩ := Nat.exists_eq_add_of_lt (Nat.lt_of_lt_of_le hwidth hk)
      have hpos : 0 < 10 ^ j := Nat.pow_pos (by decide)
      rw [Nat.zero_add, Nat.pow_succ] at hpow
      rw [Nat.zero_add, Nat.add_sub_cancel]
      omega
    have htenth : 10 ^ k / 10 ^ 1 = 10 ^ (k - 1) := Nat.pow_div (by omega) (by decide)
    rw [hlength, hlonger, Nat.add_sub_cancel_left, hpow, htenth]
    exact ⟨iff_of_false (by omega) fun h => h k hk rfl, iff_of_true hless ⟨k, hk, rfl⟩⟩

/-! ## The counter -/

theorem sixPlaces_natCast (n : Nat) : sixPlaces n = paddedDigits 10 6 n := by
  rw [sixPlaces, if_neg (by omega), Int.natAbs_natCast]

theorem sixPlaces_neg {n : Nat} (h : 0 < n) : sixPlaces (-n) = '-' :: paddedDigits 10 5 n := by
  rw [sixPlaces, if_pos (by omega), Int.natAbs_neg, Int.natAbs_natCast]

/-- The counter wraps around. -/
theorem longAfter_succ (n : Nat) :
    (longAfter n + 1 < 2 ^ 63 ∧ longAfter (n + 1) = longAfter n + 1) ∨
      (longAfter n = 2 ^ 63 - 1 ∧ longAfter (n + 1) = -2 ^ 63) := by
  unfold longAfter
  split <;> split <;> omega

theorem nextInOrder_natCast {n : Nat} (h : (n : Int) + 1 < 2 ^ 63) :
    NextInOrder n ↔ ∀ k ≥ 6, n + 1 ≠ 10 ^ k := by
  constructor
  · rintro (⟨-, -, hpow⟩ | hone | ⟨j, -, hneg⟩) k hk heq
    · exact hpow k hk (by exact_mod_cast heq)
    · omega
    · have hpos := @Int.pow_pos 10 j (by decide)
      omega
  · intro hpow
    refine Or.inl ⟨Int.natCast_nonneg n, h, fun k hk heq => hpow k hk ?_⟩
    exact_mod_cast heq

theorem nextInOrder_neg {n : Nat} (h : 0 < n) :
    NextInOrder (-(n + 1 : Nat)) ↔ ∃ k ≥ 5, n + 1 = 10 ^ k := by
  constructor
  · rintro (⟨hnonneg, -⟩ | hone | ⟨k, hk, hpow⟩)
    · omega
    · omega
    · refine ⟨k, hk, ?_⟩
      have heq := Int.neg_inj.mp hpow
      exact_mod_cast heq
  · rintro ⟨k, hk, hpow⟩
    refine Or.inr (Or.inr ⟨k, hk, ?_⟩)
    rw [hpow]
    push_cast
    rfl

/-- **A number of the counter and the next one as texts.** -/
theorem sixPlaces_next_iff (n : Nat) (r r' : List Char) :
    sixPlaces (longAfter n) ++ '-' :: r < sixPlaces (longAfter (n + 1)) ++ '-' :: r' ↔
      NextInOrder (longAfter n) := by
  rcases longAfter_succ n with ⟨hbound, hnext⟩ | ⟨hlast, hnext⟩
  · rw [hnext]
    generalize longAfter n = m at hbound ⊢
    by_cases hneg : m < 0
    · obtain ⟨a, rfl⟩ : ∃ a : Nat, m = -((a + 1 : Nat) : Int) := ⟨m.natAbs - 1, by omega⟩
      have hsucc : -((a + 1 : Nat) : Int) + 1 = -(a : Int) := by omega
      rw [hsucc, sixPlaces_neg (Nat.succ_pos a)]
      by_cases hzero : a = 0
      · subst hzero
        -- the sign goes
        refine iff_of_true ?_ (Or.inr (Or.inl rfl))
        exact List.cons_lt_cons_iff.mpr (Or.inl (by decide))
      · have hpos := Nat.pos_of_ne_zero hzero
        rw [sixPlaces_neg hpos, nextInOrder_neg hpos, List.cons_append, List.cons_append,
          List.cons_lt_cons_self]
        exact (paddedDigits_succ_order (by decide) a r' r).2
    · obtain ⟨a, rfl⟩ := Int.eq_ofNat_of_zero_le (Int.not_lt.mp hneg)
      rw [nextInOrder_natCast hbound, ← Int.natCast_succ, sixPlaces_natCast, sixPlaces_natCast]
      exact (paddedDigits_succ_order (by decide) a r r').1
  · -- the sign comes
    have hcast : (2 : Int) ^ 63 - 1 = (2 ^ 63 - 1 : Nat) := by omega
    have hcast' : -(2 : Int) ^ 63 = -((2 ^ 63 : Nat) : Int) := by omega
    rw [hnext, hlast]
    refine iff_of_false ?_ ?_
    · rw [hcast, hcast', sixPlaces_natCast, sixPlaces_neg (by decide)]
      exact not_digits_lt hyphen_lt (digits_paddedDigits 6 _) (paddedDigits_ne_nil (by decide) _) _ _
    · rintro (⟨-, hbound, -⟩ | hone | ⟨k, -, hpow⟩)
      · omega
      · omega
      · have hpos := @Int.pow_pos 10 k (by decide)
        omega

/-! ## The day -/

/-- The digits of a date. -/
def LocalDate.digits (d : LocalDate) : List Char :=
  paddedDigits 10 4 d.year ++ paddedDigits 10 2 d.month ++ paddedDigits 10 2 d.day

theorem LocalDate.digits_digits (d : LocalDate) : Digits d.digits := by
  intro c hc
  rcases List.mem_append.mp hc with hc | hday
  · rcases List.mem_append.mp hc with hyear | hmonth
    · exact isDigit_of_mem_paddedDigits hyear
    · exact isDigit_of_mem_paddedDigits hmonth
  · exact isDigit_of_mem_paddedDigits hday

theorem LocalDate.yearPlaces_of_short {d : LocalDate} (h : d.year ≤ 9999) : d.yearPlaces = 4 :=
  (length_paddedDigits_eq_iff (by decide) (by decide)).mpr (by omega)

theorem LocalDate.format_short {d : LocalDate} (h : d.year ≤ 9999) : d.format = d.digits := by
  rw [format, if_neg (by omega), List.nil_append]
  rfl

theorem LocalDate.format_long {d : LocalDate} (h : 9999 < d.year) : d.format = '+' :: d.digits := by
  rw [format, if_pos h]
  rfl

section Dates

variable {d d' : LocalDate} (hd : d.Valid) (hd' : d'.Valid)

include hd

theorem LocalDate.length_digits : d.digits.length = d.yearPlaces + 4 := by
  obtain ⟨hmonth, hday⟩ := LocalDate.length_twoPlaces hd
  rw [digits, List.length_append, List.length_append, hmonth, hday, Nat.add_assoc]
  rfl

theorem LocalDate.value_digits : value d.digits = d.number := by
  obtain ⟨hmonth, hday⟩ := LocalDate.length_twoPlaces hd
  rw [digits, value_append, value_append, hmonth, hday, value_paddedDigits, value_paddedDigits,
    value_paddedDigits, number]
  omega

include hd'

/-- Dates are ordered as their numbers are. -/
theorem LocalDate.isBefore_iff : d.isBefore d' ↔ d.number < d'.number := by
  obtain ⟨-, hmonth, -, hday⟩ := hd
  obtain ⟨-, hmonth', -, hday'⟩ := hd'
  unfold isBefore number
  omega

/-- The digits of a day and of a later one. -/
theorem digits_lt_iff (h : d.isBefore d') (r r' : List Char) :
    d.digits ++ '-' :: r < d'.digits ++ '-' :: r' ↔
      d.number ≤ d'.number / 10 ^ (d'.yearPlaces - d.yearPlaces) := by
  have hnumber := (LocalDate.isBefore_iff hd hd').mp h
  have hyears : d.year ≤ d'.year := by
    unfold LocalDate.isBefore at h
    omega
  have hplaces : d.yearPlaces ≤ d'.yearPlaces := length_paddedDigits_mono (by decide) hyears
  have hlength := LocalDate.length_digits hd
  have hlength' := LocalDate.length_digits hd'
  have hlengths : d'.digits.length - d.digits.length = d'.yearPlaces - d.yearPlaces := by omega
  rw [← LocalDate.value_digits hd, ← LocalDate.value_digits hd'] at hnumber ⊢
  rw [before_iff hyphen_lt d.digits_digits d'.digits_digits (by omega) hnumber, hlengths]

/-- **A day and a later one as texts.** -/
theorem format_lt_iff (h : d.isBefore d') (r r' : List Char) :
    d.format ++ '-' :: r < d'.format ++ '-' :: r' ↔ DateInOrder d d' := by
  have hnumber := (LocalDate.isBefore_iff hd hd').mp h
  have hyears : d.year ≤ d'.year := by
    unfold LocalDate.isBefore at h
    omega
  have hdigits := digits_lt_iff hd hd' h r r'
  unfold DateInOrder
  by_cases hlong : 9999 < d.year
  · -- both years have a sign
    rw [LocalDate.format_long hlong, LocalDate.format_long (by omega), List.cons_append,
      List.cons_append, List.cons_lt_cons_self, hdigits, and_iff_right hlong]
    exact (or_iff_right (by omega)).symm
  · by_cases hlong' : 9999 < d'.year
    · -- a sign stands before a digit
      rw [LocalDate.format_short (by omega), LocalDate.format_long hlong']
      refine iff_of_false ?_ (by omega)
      exact not_digits_lt (lt_digit (by decide)) d.digits_digits
        (List.append_ne_nil_of_right_ne_nil _ (paddedDigits_ne_nil (by decide) _)) _ _
    · have hsame : d'.yearPlaces = d.yearPlaces := by
        rw [LocalDate.yearPlaces_of_short (by omega), LocalDate.yearPlaces_of_short (by omega)]
      rw [LocalDate.format_short (by omega), LocalDate.format_short (by omega), hdigits, hsame,
        Nat.sub_self, Nat.pow_zero, Nat.div_one]
      exact iff_of_true hnumber.le (Or.inl (by omega))

end Dates

/-! ## Neighbours and runs -/

theorem toList_formatReference (d : LocalDate) (n : Nat) (u : UUID) :
    (formatReference d n u).toList =
      "PAY-".toList ++ (d.format ++ '-' :: (sixPlaces (longAfter n) ++ '-' :: referenceSuffix u)) := by
  unfold formatReference
  generalize longAfter n = m
  rw [String.toList_ofList, List.append_assoc, List.append_assoc, List.append_assoc,
    List.append_assoc, List.singleton_append, List.singleton_append]

/-- **A reference and the next one**, on the same day or a later one. -/
theorem formatReference_lt_iff {r r' : Reading} (hd : r.date.Valid) (hd' : r'.date.Valid)
    (h : ¬ r'.date.isBefore r.date) (n : Nat) :
    formatReference r.date n r.uuid < formatReference r'.date (n + 1) r'.uuid ↔ CallInOrder n r r' := by
  rw [String.lt_iff_toList_lt, toList_formatReference, toList_formatReference, append_left_lt_iff]
  unfold CallInOrder
  by_cases hsame : r.date = r'.date
  · rw [if_pos hsame, hsame, append_left_lt_iff, List.cons_lt_cons_self]
    exact sixPlaces_next_iff n _ _
  · rw [if_neg hsame]
    apply format_lt_iff hd hd'
    by_contra hnot
    exact hsame (LocalDate.eq_of_not_isBefore hnot h)

/-- The references of a run, each against the next. -/
theorem isChain_generateAll_iff {readings : List Reading} (hvalid : ∀ r ∈ readings, r.date.Valid)
    (hdates : readings.Pairwise fun r r' => ¬ r'.date.isBefore r.date) (sequence : Nat) :
    (generateAll sequence readings).IsChain (· < ·) ↔ RunInOrder sequence readings := by
  induction readings generalizing sequence with
  | nil => exact iff_of_true .nil trivial
  | cons r rest ih =>
      obtain ⟨hlater, hrest⟩ := List.pairwise_cons.mp hdates
      have ih := ih (fun r hr => hvalid r (List.mem_cons_of_mem _ hr)) hrest (sequence + 1)
      cases rest with
      | nil => exact iff_of_true (.singleton _) trivial
      | cons r' rest =>
          have hd := hvalid r List.mem_cons_self
          have hd' := hvalid r' (List.mem_cons_of_mem _ List.mem_cons_self)
          have hcall := formatReference_lt_iff hd hd' (hlater r' List.mem_cons_self) (sequence + 1)
          show List.IsChain _ (_ :: _ :: _) ↔ _ ∧ _
          rw [List.isChain_cons_cons, ← ih, ← hcall]
          rfl

/-- In years of four digits, less than a million calls are in order. -/
theorem RunInOrder.of_short {readings : List Reading} (hyears : ∀ r ∈ readings, r.date.year ≤ 9999)
    {sequence : Nat} (hcount : sequence + readings.length < 1000000) :
    RunInOrder sequence readings := by
  induction readings generalizing sequence with
  | nil => trivial
  | cons r rest ih =>
      cases rest with
      | nil => trivial
      | cons r' rest =>
          rw [List.length_cons, List.length_cons] at hcount
          refine ⟨?_, ih (fun r hr => hyears r (List.mem_cons_of_mem _ hr)) ?_⟩
          · unfold CallInOrder
            split
            · have hnumber : longAfter (sequence + 1) = (sequence + 1 : Nat) := by
                unfold longAfter
                omega
              rw [hnumber, nextInOrder_natCast (by omega)]
              intro k hk heq
              have hpow : 10 ^ 6 ≤ 10 ^ k := Nat.pow_le_pow_right (by decide) hk
              omega
            · exact Or.inl (hyears r' (List.mem_cons_of_mem _ List.mem_cons_self))
          · rw [List.length_cons]
            omega

/-- A thread that nothing comes between, with less than a million calls. -/
theorem Generator.returned_sorted {t : ThreadId} {readings : List (Today × UUID)}
    (hcount : readings.length < 1000000)
    (hdates : readings.Pairwise fun r r' => ¬ r'.1.toLocalDate.isBefore r.1.toLocalDate) :
    ∃ s, run step start (readings.flatMap fun r => call t r.1 r.2) = some s ∧
      s.returned.Pairwise (· < ·) := by
  obtain ⟨s, hrun, -, hreturned⟩ := run_calls readings (s := start) (t := t) rfl
  refine ⟨s, hrun, ?_⟩
  rw [hreturned, ← List.isChain_iff_pairwise]
  apply (isChain_generateAll_iff _ _ _).mpr
  · apply RunInOrder.of_short
    · intro r hr
      obtain ⟨x, -, rfl⟩ := List.mem_map.mp hr
      exact x.1.fourDigits
    · rw [List.length_map]
      exact Nat.lt_of_le_of_lt (Nat.le_of_eq (Nat.zero_add _)) hcount
  · intro r hr
    obtain ⟨x, -, rfl⟩ := List.mem_map.mp hr
    exact x.1.valid
  · exact List.pairwise_map.mpr hdates

/-- The reference of a call, by its place in the run. -/
theorem getElem?_generateAll (readings : List Reading) (sequence i : Nat) :
    (generateAll sequence readings)[i]? =
      readings[i]?.map fun r => formatReference r.date (sequence + i + 1) r.uuid := by
  induction readings generalizing sequence i with
  | nil => rfl
  | cons r rest ih =>
      cases i with
      | zero => rfl
      | succ i =>
          show (generateAll (sequence + 1) rest)[i]? = rest[i]?.map _
          rw [ih, Nat.add_right_comm sequence 1 i]
          rfl

/-- **When sorting the references keeps the order of the calls.**  For calls one after the other, on
days that do not go back and with any suffixes, the references are strictly increasing exactly when
every call and the next are in order. -/
theorem references_sorted_iff {readings : List Reading} (hvalid : ∀ r ∈ readings, r.date.Valid)
    (hdates : readings.Pairwise fun r r' => ¬ r'.date.isBefore r.date) :
    (generateAll 0 readings).Pairwise (· < ·) ↔ RunInOrder 0 readings := by
  rw [← List.isChain_iff_pairwise]
  exact isChain_generateAll_iff hvalid hdates 0

/-- Two calls around midnight. -/
theorem references_sorted_midnight :
    generateAll 0 [⟨⟨2024, 3, 15⟩, 0xab12000000000000000000000000cafe#128⟩, ⟨⟨2024, 3, 16⟩, 0⟩] =
        ["PAY-20240315-000001-AB12", "PAY-20240316-000002-0000"] ∧
      (generateAll 0 [⟨⟨2024, 3, 15⟩, 0xab12000000000000000000000000cafe#128⟩,
        ⟨⟨2024, 3, 16⟩, 0⟩]).Pairwise (· < ·) := by
  refine ⟨by decide, (references_sorted_iff (by decide) (by decide)).mpr ⟨?_, trivial⟩⟩
  rw [CallInOrder, if_neg (by decide)]
  exact Or.inl (by decide)

/-- A million calls on one day: the last reference is sorted before the one in front of it. -/
theorem references_unsorted_million :
    let readings := List.replicate 1000000 (Reading.mk ⟨2024, 3, 15⟩ 0)
    (∀ r ∈ readings, r.date.Valid) ∧
      (readings.Pairwise fun r r' => ¬ r'.date.isBefore r.date) ∧
      (generateAll 0 readings)[999998]? = some "PAY-20240315-999999-0000" ∧
      (generateAll 0 readings)[999999]? = some "PAY-20240315-1000000-0000" ∧
      ¬ (generateAll 0 readings).Pairwise (· < ·) := by
  intro readings
  have hlast : (generateAll 0 readings)[999998]? = some "PAY-20240315-999999-0000" := by
    rw [getElem?_generateAll, List.getElem?_replicate_of_lt (by decide)]
    decide
  have hlonger : (generateAll 0 readings)[999999]? = some "PAY-20240315-1000000-0000" := by
    rw [getElem?_generateAll, List.getElem?_replicate_of_lt (by decide)]
    decide
  refine ⟨?_, ?_, hlast, hlonger, ?_⟩
  · intro r hr
    rw [List.eq_of_mem_replicate hr]
    decide
  · exact List.pairwise_replicate.mpr (Or.inr (by decide))
  · intro hsorted
    obtain ⟨hi, hlast⟩ := List.getElem?_eq_some_iff.mp hlast
    obtain ⟨hj, hlonger⟩ := List.getElem?_eq_some_iff.mp hlonger
    have hlt := List.pairwise_iff_getElem.mp hsorted _ _ hi hj (by decide)
    rw [hlast, hlonger] at hlt
    exact absurd hlt (by decide)

end GlobalPayments.Payments

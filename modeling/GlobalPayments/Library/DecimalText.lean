/-
# DecimalText — what `str` writes of a decimal, `Decimal` reads back.

A finite decimal is written as a whole number, with a point between its digits, with zeros behind the
point, or with an exponent.  All four have the same parts (`Written`), and the parts are read one after
the other (`Written.parse`).

`ofString_toText`: nothing is lost, not even the zeros at the end.
-/
import GlobalPayments.Library.PyDecimal
import Mathlib.Data.List.TakeWhile

namespace PyDecimal

/-! ## Digits and other characters -/

theorem digitsValue_eq (ds : List Char) : digitsValue ds = Nat.ofDigitChars 10 ds 0 := rfl

@[simp] theorem digitsValue_toDigits (n : Nat) : digitsValue (Nat.toDigits 10 n) = n :=
  Nat.ofDigitChars_ten_toDigits

/-- Zeros in front do not count. -/
theorem digitsValue_zeros (k : Nat) (ds : List Char) :
    digitsValue (List.replicate k '0' ++ ds) = digitsValue ds := by
  rw [digitsValue_eq, Nat.ofDigitChars_append, Nat.ofDigitChars_replicate_zero, Nat.mul_zero]
  rfl

theorem isDigit_toDigits {n : Nat} : ∀ c ∈ Nat.toDigits 10 n, c.isDigit = true :=
  fun _ hc => Nat.isDigit_of_mem_toDigits (by decide) (by decide) hc

theorem digitChar_plain : ∀ d < 10, (Nat.digitChar d).toLower = Nat.digitChar d ∧
    Nat.digitChar d ∉ ['i', 'n', 's', '-', '+', '.', '_', ' ', '\t', '\r', '\n'] := by
  decide

/-- A digit is its own lower case, and no sign, point, blank or beginning of a word. -/
theorem digit_plain {c : Char} (h : c.isDigit = true) : c.toLower = c ∧
    c ∉ ['i', 'n', 's', '-', '+', '.', '_', ' ', '\t', '\r', '\n'] := by
  have hrange := Char.isDigit_iff_toNat.mp h
  change 48 ≤ c.toNat ∧ c.toNat ≤ 57 at hrange
  have hc : Nat.digitChar (c.toNat - 48) = c := by
    apply Char.toNat_inj.mp
    rw [Nat.toNat_digitChar_of_lt_ten (by omega)]
    omega
  have hplain := digitChar_plain (c.toNat - 48) (by omega)
  rwa [hc] at hplain

/-- A text that begins with a digit is none of the words. -/
theorem no_word {c : Char} (h : c.isDigit = true) (tail : List Char) :
    (¬ ((c :: tail).map Char.toLower = "inf".toList ∨
        (c :: tail).map Char.toLower = "infinity".toList)) ∧
      "nan".toList.isPrefixOf ((c :: tail).map Char.toLower) = false ∧
      "snan".toList.isPrefixOf ((c :: tail).map Char.toLower) = false := by
  obtain ⟨hlower, hplain⟩ := digit_plain h
  simp only [List.mem_cons, not_or] at hplain
  obtain ⟨hi, hn, hs, -⟩ := hplain
  rw [List.map_cons, hlower]
  refine ⟨?_, ?_, ?_⟩
  · rintro (heq | heq)
    · exact hi (List.cons.inj heq).1
    · exact hi (List.cons.inj heq).1
  · exact Bool.and_eq_false_imp.mpr fun heq => absurd (beq_iff_eq.mp heq).symm hn
  · exact Bool.and_eq_false_imp.mpr fun heq => absurd (beq_iff_eq.mp heq).symm hs

/-! ## The parts of a number -/

/-- A fraction behind its point; without digits there is no point either. -/
def pointed : List Char → List Char
  | [] => []
  | fraction => '.' :: fraction

theorem pointed_of_ne_nil {fraction : List Char} (h : fraction ≠ []) :
    pointed fraction = '.' :: fraction := by
  obtain ⟨c, cs, rfl⟩ := List.exists_cons_of_ne_nil h
  rfl

/-- Where the digits of a number end. -/
def EndsDigits (rest : List Char) : Prop := ∀ c ∈ rest.head?, c.isDigit = false ∧ c ≠ '.'

theorem EndsDigits.takeWhile {rest : List Char} (h : EndsDigits rest) :
    rest.takeWhile Char.isDigit = [] ∧ rest.dropWhile Char.isDigit = rest := by
  cases rest with
  | nil => exact ⟨rfl, rfl⟩
  | cons c cs =>
      have hc := (h c rfl).1
      rw [List.takeWhile_cons, List.dropWhile_cons, hc]
      exact ⟨rfl, rfl⟩

/-- The characters a number is written with. -/
def isWritten (c : Char) : Bool := c.isDigit || c ∈ ['.', 'e', 'E', '+', '-']

/-- The text of a number without its sign: digits, perhaps a point and digits, perhaps an exponent. -/
structure Written (text : List Char) (coefficient : Nat) (exponent : Int)
    (whole fraction rest : List Char) : Prop where
  parts : text = whole ++ pointed fraction ++ rest
  nonempty : whole ≠ []
  wholeDigits : ∀ c ∈ whole, c.isDigit = true
  fractionDigits : ∀ c ∈ fraction, c.isDigit = true
  ends : EndsDigits rest
  restWritten : ∀ c ∈ rest, isWritten c = true
  value : digitsValue (whole ++ fraction) = coefficient
  scale : parseExponent rest = some (exponent + fraction.length)

/-- **The parts of a number are read one after the other.** -/
theorem Written.parse {negative : Bool} {text whole fraction rest : List Char} {coefficient : Nat}
    {exponent : Int} (h : Written text coefficient exponent whole fraction rest) :
    parseUnsigned negative text = some (.finite negative coefficient exponent) := by
  obtain ⟨rfl, hne, hwhole, hfraction, hrest, -, rfl, he⟩ := h
  suffices hparse : parseUnsigned negative (whole ++ pointed fraction ++ rest) =
      (parseExponent rest).map fun e =>
        .finite negative (digitsValue (whole ++ fraction)) (e - fraction.length) by
    rw [hparse, he, Option.map_some, Int.add_sub_cancel]
  obtain ⟨c, cs, rfl⟩ := List.exists_cons_of_ne_nil hne
  obtain ⟨htake, hdrop⟩ := hrest.takeWhile
  obtain ⟨hinf, hnan, hsnan⟩ := no_word (hwhole c List.mem_cons_self) (cs ++ pointed fraction ++ rest)
  have hdigits : ((c :: cs) ++ pointed fraction ++ rest).takeWhile Char.isDigit = c :: cs ∧
      ((c :: cs) ++ pointed fraction ++ rest).dropWhile Char.isDigit = pointed fraction ++ rest := by
    rw [List.append_assoc, List.takeWhile_append_of_pos hwhole, List.dropWhile_append_of_pos hwhole]
    cases fraction with
    | nil => rw [pointed, List.nil_append, htake, hdrop, List.append_nil]; exact ⟨rfl, rfl⟩
    | cons d ds => exact ⟨List.append_nil _, rfl⟩
  unfold parseUnsigned
  dsimp only
  rw [List.cons_append, List.cons_append] at hdigits ⊢
  rw [if_neg hinf, hnan, hsnan, if_neg (by simp), if_neg (by simp), hdigits.1, hdigits.2]
  cases fraction with
  | nil =>
      rw [pointed, List.nil_append]
      cases rest with
      | nil => rfl
      | cons x xs =>
          have hx : ∀ tail, x :: xs ≠ '.' :: tail :=
            fun tail h => (hrest x rfl).2 (List.cons.inj h).1
          split
          · rename_i heq
            exact absurd heq (hx _)
          · exact if_neg (by simp)
  | cons d ds =>
      have htaken : ((d :: ds) ++ rest).takeWhile Char.isDigit = d :: ds := by
        rw [List.takeWhile_append_of_pos hfraction, htake, List.append_nil]
      have hdropped : ((d :: ds) ++ rest).dropWhile Char.isDigit = rest := by
        rw [List.dropWhile_append_of_pos hfraction, hdrop]
      simp only [pointed, List.cons_append] at htaken hdropped ⊢
      rw [htaken, hdropped, if_neg (by simp)]

theorem isWritten_plain {c : Char} (h : isWritten c = true) :
    PyText.isPlain c = true ∧ c ≠ '_' := by
  rcases Bool.or_eq_true_iff.mp h with hdigit | hsign
  · have hplain := (digit_plain hdigit).2
    simp only [List.mem_cons, not_or] at hplain
    obtain ⟨-, -, -, -, -, -, hunderscore, -⟩ := hplain
    exact ⟨PyText.isPlain_of_isDigit hdigit, hunderscore⟩
  · have hmem := of_decide_eq_true hsign
    simp only [List.mem_cons, List.not_mem_nil, or_false] at hmem
    rcases hmem with rfl | rfl | rfl | rfl | rfl
    · exact ⟨rfl, by decide⟩
    · exact ⟨rfl, by decide⟩
    · exact ⟨rfl, by decide⟩
    · exact ⟨rfl, by decide⟩
    · exact ⟨rfl, by decide⟩

theorem isWritten_of_isDigit {c : Char} (h : c.isDigit = true) : isWritten c = true := by
  rw [isWritten, h, Bool.true_or]

/-! ## The forms of a number -/

section Forms

variable {ds : List Char}

/-- A whole number. -/
theorem written_whole (hne : ds ≠ []) (hds : ∀ c ∈ ds, c.isDigit = true) :
    Written ds (digitsValue ds) 0 ds [] [] where
  parts := by rw [pointed, List.append_nil, List.append_nil]
  nonempty := hne
  wholeDigits := hds
  fractionDigits := nofun
  ends := nofun
  restWritten := nofun
  value := by rw [List.append_nil]
  scale := rfl

/-- The point stands between the digits. -/
theorem written_between (hds : ∀ c ∈ ds, c.isDigit = true) {k : Nat} (hk : 0 < k)
    (hlength : k < ds.length) :
    Written (ds.take k ++ ['.'] ++ ds.drop k) (digitsValue ds) (k - ds.length) (ds.take k)
      (ds.drop k) [] where
  parts := by
    have hne : ds.drop k ≠ [] := by
      rw [← List.length_pos_iff, List.length_drop]
      omega
    rw [pointed_of_ne_nil hne, List.append_nil, List.append_assoc]
    rfl
  nonempty := by
    rw [← List.length_pos_iff, List.length_take]
    omega
  wholeDigits := fun c hc => hds c (List.mem_of_mem_take hc)
  fractionDigits := fun c hc => hds c (List.mem_of_mem_drop hc)
  ends := nofun
  restWritten := nofun
  value := by rw [List.take_append_drop]
  scale := by
    rw [List.length_drop, parseExponent, Option.some.injEq]
    omega

/-- Zeros stand behind the point. -/
theorem written_below (hds : ∀ c ∈ ds, c.isDigit = true) (hne : ds ≠ []) (zeros : Nat) :
    Written (['0', '.'] ++ List.replicate zeros '0' ++ ds) (digitsValue ds) (-(zeros + ds.length))
      ['0'] (List.replicate zeros '0' ++ ds) [] where
  parts := by
    rw [pointed_of_ne_nil (List.append_ne_nil_of_right_ne_nil _ hne), List.append_nil,
      List.append_assoc]
    rfl
  nonempty := by simp
  wholeDigits := fun c hc => by rw [List.mem_singleton.mp hc]; rfl
  fractionDigits := fun c hc => by
    rcases List.mem_append.mp hc with hzero | hdigit
    · rw [List.eq_of_mem_replicate hzero]
      rfl
    · exact hds c hdigit
  ends := nofun
  restWritten := nofun
  value := digitsValue_zeros (zeros + 1) ds
  scale := by
    rw [List.length_append, List.length_replicate, parseExponent, Option.some.injEq]
    omega

/-- A whole number with a zero behind the point. -/
theorem written_integral (hne : ds ≠ []) (hds : ∀ c ∈ ds, c.isDigit = true) :
    Written (ds ++ ['.', '0']) (digitsValue ds * 10) (-1) ds ['0'] [] where
  parts := by rw [pointed_of_ne_nil (by simp), List.append_nil]
  nonempty := hne
  wholeDigits := hds
  fractionDigits := fun c hc => by rw [List.mem_singleton.mp hc]; rfl
  ends := nofun
  restWritten := nofun
  value := by
    rw [digitsValue_eq, Nat.ofDigitChars_append, mul_comm]
    rfl
  scale := rfl

/-- The exponent of the scientific notation; zeros may stand in front of it. -/
theorem parseExponent_scientific {e : Char} (he : e.toLower = 'e') (adjusted : Int) (zeros : Nat) :
    parseExponent (e :: (if adjusted < 0 then '-' else '+') ::
      (List.replicate zeros '0' ++ Nat.toDigits 10 adjusted.natAbs)) = some adjusted := by
  have hall : (List.replicate zeros '0' ++ Nat.toDigits 10 adjusted.natAbs).all Char.isDigit =
      true := by
    refine List.all_eq_true.mpr fun c hc => ?_
    rcases List.mem_append.mp hc with hzero | hdigit
    · rw [List.eq_of_mem_replicate hzero]
      rfl
    · exact isDigit_toDigits c hdigit
  have hne : List.replicate zeros '0' ++ Nat.toDigits 10 adjusted.natAbs ≠ [] :=
    List.append_ne_nil_of_right_ne_nil _ Nat.toDigits_ne_nil
  have hvalue := digitsValue_zeros zeros (Nat.toDigits 10 adjusted.natAbs)
  rw [digitsValue_toDigits] at hvalue
  unfold parseExponent
  dsimp only
  rw [if_pos he]
  by_cases hnegative : adjusted < 0
  · rw [if_pos hnegative]
    simp only [splitSign]
    rw [if_pos ⟨hne, hall⟩, if_pos trivial, hvalue, Option.some.injEq]
    omega
  · rw [if_neg hnegative]
    simp only [splitSign]
    rw [if_pos ⟨hne, hall⟩, if_neg (by decide), hvalue, Option.some.injEq]
    omega

/-- One digit, a point and the others, and an exponent. -/
theorem written_scientific {d e : Char} {tail : List Char} (hds : ∀ c ∈ d :: tail, c.isDigit = true)
    (he : e = 'e' ∨ e = 'E') (adjusted : Int) (zeros : Nat) :
    Written (d :: pointed tail ++ [e, if adjusted < 0 then '-' else '+'] ++
        List.replicate zeros '0' ++ Nat.toDigits 10 adjusted.natAbs) (digitsValue (d :: tail))
      (adjusted - tail.length) [d] tail
      (e :: (if adjusted < 0 then '-' else '+') ::
        (List.replicate zeros '0' ++ Nat.toDigits 10 adjusted.natAbs)) where
  parts := by simp
  nonempty := by simp
  wholeDigits := fun c hc => hds c (by rw [List.mem_singleton.mp hc]; exact List.mem_cons_self)
  fractionDigits := fun c hc => hds c (List.mem_cons_of_mem _ hc)
  ends := by
    rintro c hc
    obtain rfl := Option.some.inj hc
    rcases he with rfl | rfl
    · exact ⟨rfl, by decide⟩
    · exact ⟨rfl, by decide⟩
  restWritten := by
    intro c hc
    rcases List.mem_cons.mp hc with rfl | hc
    · rcases he with rfl | rfl <;> rfl
    rcases List.mem_cons.mp hc with rfl | hc
    · split <;> rfl
    rcases List.mem_append.mp hc with hzero | hdigit
    · rw [List.eq_of_mem_replicate hzero]
      rfl
    · exact isWritten_of_isDigit (isDigit_toDigits c hdigit)
  value := rfl
  scale := by
    rw [parseExponent_scientific (by rcases he with rfl | rfl <;> rfl), Int.sub_add_cancel]

end Forms

/-- **How `str` writes a finite decimal.** -/
theorem toText_written (negative : Bool) (coefficient : Nat) (exponent : Int) :
    ∃ text, toText (.finite negative coefficient exponent) =
        String.ofList (if negative then '-' :: text else text) ∧
      ∃ whole fraction rest, Written text coefficient exponent whole fraction rest := by
  have hdigits := @isDigit_toDigits coefficient
  have hvalue := digitsValue_toDigits coefficient
  have hne := Nat.toDigits_ne_nil (n := coefficient) (b := 10)
  have hpos := List.length_pos_iff.mpr hne
  refine ⟨_, rfl, ?_⟩
  generalize Nat.toDigits 10 coefficient = ds at hdigits hvalue hne hpos ⊢
  subst hvalue
  by_cases hplain : exponent ≤ 0 ∧ -6 ≤ exponent + ((ds.length : Int) - 1)
  · rw [if_pos hplain]
    by_cases hzero : exponent = 0
    · subst hzero
      exact ⟨_, _, _, written_whole hne hdigits⟩
    · rw [if_neg hzero]
      by_cases hpoint : 0 < (ds.length : Int) + exponent
      · rw [if_pos hpoint]
        have h := written_between hdigits (k := ((ds.length : Int) + exponent).toNat) (by omega)
          (by omega)
        rw [Int.toNat_of_nonneg hpoint.le, add_sub_cancel_left] at h
        exact ⟨_, _, _, h⟩
      · rw [if_neg hpoint]
        have h := written_below hdigits hne (-((ds.length : Int) + exponent)).toNat
        have hexponent : -(((-((ds.length : Int) + exponent)).toNat : Int) + ds.length) = exponent := by
          omega
        rw [hexponent] at h
        exact ⟨_, _, _, h⟩
  · rw [if_neg hplain]
    obtain ⟨d, tail, rfl⟩ := List.exists_cons_of_ne_nil hne
    have h := written_scientific hdigits (Or.inr rfl) (exponent + (((d :: tail).length : Int) - 1)) 0
    rw [List.replicate_zero, List.append_nil] at h
    have hexponent : exponent + (((d :: tail).length : Int) - 1) - tail.length = exponent := by
      rw [List.length_cons]
      omega
    rw [hexponent] at h
    cases tail with
    | nil => exact ⟨_, _, _, h⟩
    | cons d' tail => exact ⟨_, _, _, h⟩

example : (PyDecimal.finite true 125 (-10)).toText = "-1.25E-8" := by decide

/-! ## Reading back what was written -/

theorem Written.plain {text whole fraction rest : List Char} {coefficient : Nat} {exponent : Int}
    (h : Written text coefficient exponent whole fraction rest) :
    ∀ c ∈ text, isWritten c = true := by
  intro c hc
  rw [h.parts, List.mem_append, List.mem_append] at hc
  rcases hc with (hwhole | hpointed) | hrest
  · exact isWritten_of_isDigit (h.wholeDigits c hwhole)
  · by_cases hnil : fraction = []
    · subst hnil
      cases hpointed
    · rw [pointed_of_ne_nil hnil] at hpointed
      rcases List.mem_cons.mp hpointed with rfl | hfraction
      · rfl
      · exact isWritten_of_isDigit (h.fractionDigits c hfraction)
  · exact h.restWritten c hrest

/-- A number that is written without a sign does not begin with one. -/
theorem Written.splitSign {text whole fraction rest : List Char} {coefficient : Nat}
    {exponent : Int} (h : Written text coefficient exponent whole fraction rest) :
    splitSign text = (false, text) := by
  obtain ⟨c, cs, hcons⟩ := List.exists_cons_of_ne_nil h.nonempty
  have hplain := (digit_plain (h.wholeDigits c (hcons ▸ List.mem_cons_self))).2
  simp only [List.mem_cons, not_or] at hplain
  obtain ⟨-, -, -, hminus, hplus, -⟩ := hplain
  rw [h.parts, hcons, List.cons_append, List.cons_append]
  unfold PyDecimal.splitSign
  split
  · rename_i heq
    exact absurd (List.cons.inj heq).1 hminus
  · rename_i heq
    exact absurd (List.cons.inj heq).1 hplus
  · rfl

/-- A text of the characters a number is written with is read as it is. -/
theorem ofString_ofList {cs : List Char} (h : ∀ c ∈ cs, isWritten c = true) :
    ofString (String.ofList cs) = parse cs := by
  have hplain : ∀ c ∈ cs, PyText.isPlain c = true := fun c hc => (isWritten_plain (h c hc)).1
  have hkept : cs.filter (· ≠ '_') = cs :=
    List.filter_eq_self.mpr fun c hc => decide_eq_true (isWritten_plain (h c hc)).2
  unfold ofString PyText.strip
  rw [String.toList_ofList, PyText.stripBy_eq fun c hc => PyText.isSpace_of_isPlain (hplain c hc),
    hkept, PyText.mapM_toAscii hplain]
  rfl

/-- **What is written is read back**, with or without a minus in front. -/
theorem Written.ofString {text whole fraction rest : List Char} {coefficient : Nat} {exponent : Int}
    (h : Written text coefficient exponent whole fraction rest) (negative : Bool) :
    ofString (String.ofList (if negative then '-' :: text else text)) =
      some (.finite negative coefficient exponent) := by
  have hplain : ∀ c ∈ (if negative then '-' :: text else text), isWritten c = true := by
    intro c hc
    cases negative with
    | false => exact h.plain c hc
    | true =>
        rcases List.mem_cons.mp hc with rfl | hc
        · rfl
        · exact h.plain c hc
  rw [ofString_ofList hplain]
  cases negative with
  | false =>
      show parseUnsigned (PyDecimal.splitSign text).1 (PyDecimal.splitSign text).2 = _
      rw [h.splitSign]
      exact h.parse
  | true => exact h.parse

/-- **What `str` writes, `Decimal` reads back**: the same decimal, zeros at the end and all. -/
theorem ofString_toText (d : PyDecimal) : ofString d.toText = some d := by
  cases d with
  | infinity negative => cases negative <;> decide
  | nan signaling => cases signaling <;> decide
  | finite negative coefficient exponent =>
      obtain ⟨text, htext, whole, fraction, rest, h⟩ := toText_written negative coefficient exponent
      rw [htext]
      exact h.ofString negative

end PyDecimal

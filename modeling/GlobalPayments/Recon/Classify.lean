/-
# GlobalPayments.Recon.Classify — what MATCHED says about a row.

`_classify_record` looks for reasons to call a row an EXCEPTION, and calls it MATCHED when it finds
none.  An amount that is missing gives no reason, and neither does a NaN, which no comparison exceeds:
a clearing record without an amount settles a payment.

How an amount reads is told in exact terms (`Reading`): a number, and the number to 53 significant
binary digits that `float` keeps of it.  `matched_sound_iff` names the kinds of amounts on which MATCHED
is wrong; amounts of hundredths below `2 ^ 44` are none of them (`not_misjudged_hundredths`).
-/
import GlobalPayments.Library.Rounding
import GlobalPayments.Recon.Matching

namespace GlobalPayments.Recon

open Frame

/-! ## The branches of `_classify_record` -/

section Branches

variable {row : Row Cell}

def internalAmount (row : Row Cell) : Cell := getD row "internal_amount" .none

def clearingAmount (row : Row Cell) : Cell := getD row "clearing_amount" .none

/-- A clearing record was found for the row. -/
def HasClearing (row : Row Cell) : Prop := (getD row "clearing_reference" .none).isna = false

/-- `row.get('internal_currency') == row.get('clearing_currency')`. -/
def SameCurrencies (row : Row Cell) : Prop :=
  (getD row "internal_currency" .none).differs (getD row "clearing_currency" .none) = false

/-- The check of the amounts: it raises, finds a difference, or finds none. -/
def amountsCheck (internal clearing : Cell) : Except PyError Bool :=
  if internal ≠ .none ∧ clearing ≠ .none then amountsDiffer internal clearing else .ok false

/-- A row with a clearing record, check by check. -/
theorem classifyRecord_eq (h : HasClearing row) :
    classifyRecord row =
      match amountsCheck (internalAmount row) (clearingAmount row) with
      | .error e => .error e
      | .ok true => .ok .EXCEPTION
      | .ok false =>
          if (getD row "internal_currency" .none).differs (getD row "clearing_currency" .none) then
            .ok .EXCEPTION
          else .ok .MATCHED := by
  have hpresent : ¬ (getD row "clearing_reference" .none).isna = true := by
    rw [h]
    nofun
  unfold classifyRecord
  rw [if_neg hpresent]
  rfl

/-- **What MATCHED takes**: a clearing record, equal currencies, and an amounts check that finds
nothing. -/
theorem classifyRecord_matched_iff :
    classifyRecord row = .ok .MATCHED ↔
      HasClearing row ∧ SameCurrencies row ∧
        amountsCheck (internalAmount row) (clearingAmount row) = .ok false := by
  by_cases hclearing : HasClearing row
  · rw [classifyRecord_eq hclearing, SameCurrencies]
    generalize amountsCheck (internalAmount row) (clearingAmount row) = check
    generalize (getD row "internal_currency" .none).differs _ = differ
    rcases check with e | found
    · simp
    · cases found <;> cases differ <;> simp [hclearing]
  · have hunmatched : classifyRecord row = .ok .UNMATCHED := by
      rw [classifyRecord_eq_unmatched_iff]
      simpa [HasClearing] using hclearing
    rw [hunmatched]
    simp [hclearing]

/-- What EXCEPTION takes: a clearing record, and a check that finds a difference. -/
theorem classifyRecord_exception_iff (h : HasClearing row) :
    classifyRecord row = .ok .EXCEPTION ↔
      amountsCheck (internalAmount row) (clearingAmount row) = .ok true ∨
        amountsCheck (internalAmount row) (clearingAmount row) = .ok false ∧
          ¬ SameCurrencies row := by
  rw [classifyRecord_eq h, SameCurrencies]
  generalize amountsCheck (internalAmount row) (clearingAmount row) = check
  generalize (getD row "internal_currency" .none).differs _ = differ
  rcases check with e | found
  · simp
  · cases found <;> cases differ <;> simp

end Branches

/-! ## How an amount reads -/

/-- What `float` finds in an amount. -/
inductive Reading where
  /-- it raises -/
  | refused
  | nan
  /-- an infinity, or a number that no double reaches -/
  | beyond (negative : Bool)
  /-- a number, and what 53 binary digits keep of it -/
  | number (value near : ℚ)
  deriving DecidableEq

/-- A number, by its magnitude. -/
def Reading.ofNumber (x : ℚ) : Reading :=
  if 2 ^ 1024 ≤ |Binary64.nearest x| then .beyond (x < 0) else .number x (Binary64.nearest x)

def Reading.ofDecimal : PyDecimal → Reading
  | .finite negative coefficient exponent =>
      .ofNumber ((if negative then -(coefficient : ℚ) else coefficient) * 10 ^ exponent)
  | .infinity negative => .beyond negative
  | .nan false => .nan
  | .nan true => .refused

/-- The reading of a cell.  An integer that no double reaches raises, where a decimal is infinite. -/
def Cell.reading : Cell → Reading
  | .none => .refused
  | .nat => .refused
  | .timestamp _ => .refused
  | .bool b => .number (if b then 1 else 0) (if b then 1 else 0)
  | .int n =>
      match Reading.ofNumber n with
      | .beyond _ => .refused
      | reading => reading
  | .float (.finite x) => .number x x
  | .float (.infinity negative) => .beyond negative
  | .float .nan => .nan
  | .decimal d => .ofDecimal d
  | .str s =>
      match PyFloat.parse s with
      | some d => .ofDecimal d
      | Option.none => .refused

/-- The double a reading gives. -/
def Reading.double : Reading → Option Binary64
  | .refused => none
  | .nan => some .nan
  | .beyond negative => some (.infinity negative)
  | .number _ near => some (.finite near)

theorem Reading.ofNumber_cases (x : ℚ) :
    (∃ negative, Reading.ofNumber x = .beyond negative) ∨
      Reading.ofNumber x = .number x (Binary64.nearest x) := by
  unfold Reading.ofNumber
  split
  · exact Or.inl ⟨_, rfl⟩
  · exact Or.inr rfl

theorem Reading.double_ofNumber (x : ℚ) : (Reading.ofNumber x).double = some (.round x) := by
  rw [Binary64.round_eq, Reading.ofNumber]
  split <;> rfl

theorem Reading.double_ofDecimal (d : PyDecimal) : (Reading.ofDecimal d).double = d.toBinary64 := by
  cases d with
  | finite negative coefficient exponent => exact Reading.double_ofNumber _
  | infinity negative => rfl
  | nan signaling => cases signaling <;> rfl

/-- **The reading tells what `float` gives.** -/
theorem Cell.double_reading (x : Cell) : x.reading.double = x.toFloat.toOption := by
  cases x with
  | int n =>
      show (Cell.reading (.int n)).double = (Cell.toFloat (.int n)).toOption
      have hdouble := Reading.double_ofNumber n
      unfold Cell.reading Cell.toFloat
      dsimp only
      rcases Reading.ofNumber_cases (n : ℚ) with ⟨negative, hreading⟩ | hreading
      · rw [hreading] at hdouble ⊢
        rw [← Option.some.inj hdouble]
        rfl
      · rw [hreading] at hdouble ⊢
        rw [← Option.some.inj hdouble]
        rfl
  | float x => cases x <;> rfl
  | decimal d =>
      show (Reading.ofDecimal d).double = (Cell.toFloat (.decimal d)).toOption
      rw [Reading.double_ofDecimal]
      unfold Cell.toFloat
      dsimp only
      cases d.toBinary64 <;> rfl
  | str s =>
      show (Cell.reading (.str s)).double = (Cell.toFloat (.str s)).toOption
      unfold Cell.reading Cell.toFloat PyFloat.ofString
      dsimp only
      cases PyFloat.parse s with
      | none => rfl
      | some d =>
          simp only [Reading.double_ofDecimal, Option.bind_some]
          cases d.toBinary64 <;> rfl
  | _ => rfl

/-- Two readings that a double tells more than 0.005 apart: numbers whose 53 digits differ by
`overHalfHundredth` at least, or an infinity next to anything else. -/
inductive Apart : Reading → Reading → Prop
  | numbers {a a' b b' : ℚ} : Binary64.overHalfHundredth ≤ |a' - b'| →
      Apart (.number a a') (.number b b')
  | left {negative : Bool} {b b' : ℚ} : Apart (.beyond negative) (.number b b')
  | right {a a' : ℚ} {negative : Bool} : Apart (.number a a') (.beyond negative)
  | opposite {negative : Bool} : Apart (.beyond negative) (.beyond !negative)

section Check

variable {x y : Cell}

theorem apart_numbers_iff {a a' b b' : ℚ} :
    Apart (.number a a') (.number b b') ↔ Binary64.overHalfHundredth ≤ |a' - b'| := by
  constructor
  · rintro ⟨h⟩
    exact h
  · exact .numbers

/-- The comparison of two doubles, by the readings they come from. -/
theorem gt_iff_apart {r r' : Reading} {a b : Binary64} (ha : r.double = some a)
    (hb : r'.double = some b) : (a.sub b).abs.gt (.round (5 / 1000)) = true ↔ Apart r r' := by
  rw [Binary64.round_half_hundredth_eq]
  cases r with
  | refused => cases ha
  | nan =>
      obtain rfl := Option.some.inj ha
      refine iff_of_false ?_ fun happart => by cases happart
      cases b <;> simp [Binary64.sub, Binary64.abs, Binary64.gt]
  | beyond negative =>
      obtain rfl := Option.some.inj ha
      cases r' with
      | refused => cases hb
      | nan =>
          obtain rfl := Option.some.inj hb
          exact iff_of_false Bool.false_ne_true fun happart => by cases happart
      | number value near =>
          obtain rfl := Option.some.inj hb
          exact iff_of_true rfl .left
      | beyond negative' =>
          obtain rfl := Option.some.inj hb
          by_cases hsame : negative = negative'
          · subst hsame
            refine iff_of_false (by simp [Binary64.sub, Binary64.abs, Binary64.gt]) ?_
            intro happart
            cases negative <;> cases happart
          · obtain rfl : negative' = !negative := by
              cases negative <;> cases negative' <;> simp_all
            exact iff_of_true (by cases negative <;> rfl) .opposite
  | number value near =>
      obtain rfl := Option.some.inj ha
      cases r' with
      | refused => cases hb
      | nan =>
          obtain rfl := Option.some.inj hb
          exact iff_of_false Bool.false_ne_true fun happart => by cases happart
      | beyond negative =>
          obtain rfl := Option.some.inj hb
          exact iff_of_true (by cases negative <;> rfl) .right
      | number value' near' =>
          obtain rfl := Option.some.inj hb
          rw [apart_numbers_iff, ← Binary64.round_gt_iff, Binary64.round_half_hundredth_eq]
          rfl

/-- Neither amount makes `float` raise. -/
def BothRead (x y : Cell) : Prop := x.reading ≠ .refused ∧ y.reading ≠ .refused

theorem toFloat_of_ne_refused (h : x.reading ≠ .refused) :
    ∃ a, x.toFloat = .ok a ∧ x.reading.double = some a := by
  have hdouble := x.double_reading
  cases hfloat : x.toFloat with
  | ok a =>
      rw [hfloat] at hdouble
      exact ⟨a, rfl, hdouble⟩
  | error e =>
      rw [hfloat] at hdouble
      cases hreading : x.reading with
      | refused => exact absurd hreading h
      | _ => rw [hreading] at hdouble; cases hdouble

theorem toFloat_of_refused (h : x.reading = .refused) : ∃ e, x.toFloat = .error e := by
  have hdouble := x.double_reading
  rw [h] at hdouble
  cases hfloat : x.toFloat with
  | error e => exact ⟨e, rfl⟩
  | ok a =>
      rw [hfloat] at hdouble
      cases hdouble

/-- **What the check of two amounts finds**, by their readings. -/
theorem amountsCheck_cases (x y : Cell) :
    ((x = .none ∨ y = .none) ∧ amountsCheck x y = .ok false) ∨
    (x ≠ .none ∧ y ≠ .none ∧ ¬ BothRead x y ∧ ∃ e, amountsCheck x y = .error e) ∨
    ∃ found, BothRead x y ∧ amountsCheck x y = .ok found ∧
      (found = true ↔ Apart x.reading y.reading) := by
  by_cases hnone : x = .none ∨ y = .none
  · refine Or.inl ⟨hnone, if_neg ?_⟩
    rintro ⟨hx, hy⟩
    exact hnone.elim hx hy
  rw [not_or] at hnone
  rw [amountsCheck, if_pos hnone, amountsDiffer]
  by_cases hx : x.reading = .refused
  · obtain ⟨e, he⟩ := toFloat_of_refused hx
    rw [he]
    exact Or.inr (Or.inl ⟨hnone.1, hnone.2, fun h => h.1 hx, e, rfl⟩)
  obtain ⟨a, ha, hreadx⟩ := toFloat_of_ne_refused hx
  rw [ha]
  by_cases hy : y.reading = .refused
  · obtain ⟨e, he⟩ := toFloat_of_refused hy
    rw [he]
    exact Or.inr (Or.inl ⟨hnone.1, hnone.2, fun h => h.2 hy, e, rfl⟩)
  obtain ⟨b, hb, hready⟩ := toFloat_of_ne_refused hy
  rw [hb]
  exact Or.inr (Or.inr ⟨_, ⟨hx, hy⟩, rfl, gt_iff_apart hreadx hready⟩)

theorem reading_none : (Cell.none).reading = .refused := rfl

theorem not_apart_refused {r r' : Reading} (h : Apart r r') : r ≠ .refused ∧ r' ≠ .refused := by
  cases h <;> exact ⟨nofun, nofun⟩

/-- The check finds a difference between amounts that are apart, and only there. -/
theorem amountsCheck_true_iff : amountsCheck x y = .ok true ↔ Apart x.reading y.reading := by
  rcases amountsCheck_cases x y with ⟨hnone, hcheck⟩ | ⟨-, -, hread, e, hcheck⟩ |
    ⟨found, -, hcheck, happart⟩
  · rw [hcheck]
    refine iff_of_false nofun fun happart => ?_
    obtain ⟨hx, hy⟩ := not_apart_refused happart
    rcases hnone with rfl | rfl
    · exact hx reading_none
    · exact hy reading_none
  · rw [hcheck]
    exact iff_of_false nofun fun happart => hread (not_apart_refused happart)
  · rw [hcheck, Except.ok.injEq]
    exact happart

/-- It finds nothing where an amount is `None`, and between amounts that read and are not apart. -/
theorem amountsCheck_false_iff : amountsCheck x y = .ok false ↔
    (x = .none ∨ y = .none) ∨ BothRead x y ∧ ¬ Apart x.reading y.reading := by
  rcases amountsCheck_cases x y with ⟨hnone, hcheck⟩ | ⟨hx, hy, hread, e, hcheck⟩ |
    ⟨found, hread, hcheck, happart⟩
  · exact iff_of_true hcheck (Or.inl hnone)
  · rw [hcheck]
    refine iff_of_false nofun ?_
    rintro ((hnone | hnone) | ⟨hboth, -⟩)
    · exact hx hnone
    · exact hy hnone
    · exact hread hboth
  · rw [hcheck, Except.ok.injEq, ← Bool.not_eq_true, happart]
    refine ⟨fun h => Or.inr ⟨hread, h⟩, ?_⟩
    rintro ((rfl | rfl) | ⟨-, h⟩)
    · exact absurd reading_none hread.1
    · exact absurd reading_none hread.2
    · exact h

end Check

/-! ## MATCHED -/

/-- The row's two amounts are numbers at most 0.005 apart, and its currencies are the same. -/
structure Agreement (row : Row Cell) : Prop where
  amounts : ∃ a b, (internalAmount row).number = some a ∧ (clearingAmount row).number = some b ∧
    |a - b| ≤ 5 / 1000
  currencies : SameCurrencies row

/-- The pairs of amounts that pass for equal and should not. -/
inductive Misjudged (x y : Cell) : Prop
  /-- one is missing: `None`, or no cell at all -/
  | missing : x = .none ∨ y = .none → Misjudged x y
  /-- one is a NaN, and the other does not make `float` raise -/
  | nan : BothRead x y → x.reading = .nan ∨ y.reading = .nan → Misjudged x y
  /-- two equal infinities; a text or a number too large for a double is one, too -/
  | infinite {negative : Bool} : x.reading = .beyond negative → y.reading = .beyond negative →
      x.number = none ∨ y.number = none → Misjudged x y
  /-- two numbers too large for a double, more than 0.005 apart -/
  | huge {negative : Bool} {a b : ℚ} : x.reading = .beyond negative → y.reading = .beyond negative →
      x.number = some a → y.number = some b → 5 / 1000 < |a - b| → Misjudged x y
  /-- a text, which is no number, and what it says is near the other amount -/
  | text {a a' b b' : ℚ} : x.reading = .number a a' → y.reading = .number b b' →
      x.number = none ∨ y.number = none → |a' - b'| < Binary64.overHalfHundredth → Misjudged x y
  /-- two numbers more than 0.005 apart, which 53 binary digits bring together -/
  | rounded {a a' b b' : ℚ} : x.reading = .number a a' → y.reading = .number b b' →
      x.number = some a → y.number = some b → 5 / 1000 < |a - b| →
      |a' - b'| < Binary64.overHalfHundredth → Misjudged x y

section Misjudged

variable {x y : Cell}

theorem Reading.ofDecimal_eq {d : PyDecimal} {v : ℚ} (h : d.value = some v) :
    Reading.ofDecimal d = .ofNumber v := by
  cases d with
  | finite negative coefficient exponent =>
      rw [← Option.some.inj h]
      rfl
  | infinity negative => cases h
  | nan signaling => cases h

/-- A number reads as itself, if it is not too large. -/
theorem reading_of_number {v : ℚ} (h : x.number = some v) :
    x.reading = .refused ∨ (∃ negative, x.reading = .beyond negative) ∨
      ∃ near, x.reading = .number v near := by
  cases x with
  | bool b =>
      obtain rfl := Option.some.inj h
      exact Or.inr (Or.inr ⟨_, rfl⟩)
  | int n =>
      obtain rfl := Option.some.inj h
      unfold Cell.reading
      dsimp only
      rcases Reading.ofNumber_cases (n : ℚ) with ⟨negative, hbeyond⟩ | hvalue
      · rw [hbeyond]
        exact Or.inl rfl
      · rw [hvalue]
        exact Or.inr (Or.inr ⟨_, rfl⟩)
  | float f =>
      cases f with
      | finite q =>
          obtain rfl := Option.some.inj h
          exact Or.inr (Or.inr ⟨_, rfl⟩)
      | infinity negative => cases h
      | nan => cases h
  | decimal d =>
      rw [show (Cell.decimal d).reading = .ofDecimal d from rfl, Reading.ofDecimal_eq h]
      rcases Reading.ofNumber_cases v with ⟨negative, hbeyond⟩ | hnear
      · exact Or.inr (Or.inl ⟨negative, hbeyond⟩)
      · exact Or.inr (Or.inr ⟨_, hnear⟩)
  | none => cases h
  | nat => cases h
  | str s => cases h
  | timestamp text => cases h

/-- The amounts are numbers at most 0.005 apart. -/
def Close (x y : Cell) : Prop :=
  ∃ a b, x.number = some a ∧ y.number = some b ∧ |a - b| ≤ 5 / 1000

/-- Amounts that are not close lack a number, or their numbers are too far apart. -/
theorem not_close_cases (h : ¬ Close x y) : (x.number = none ∨ y.number = none) ∨
    ∃ a b, x.number = some a ∧ y.number = some b ∧ 5 / 1000 < |a - b| := by
  cases hx : x.number with
  | none => exact Or.inl (Or.inl rfl)
  | some a =>
      cases hy : y.number with
      | none => exact Or.inl (Or.inr rfl)
      | some b => exact Or.inr ⟨a, b, rfl, rfl, not_le.mp fun hle => h ⟨a, b, hx, hy, hle⟩⟩

theorem Misjudged.not_close (h : Misjudged x y) : ¬ Close x y := by
  rintro ⟨a, b, ha, hb, hclose⟩
  have hnumbers : ¬ (x.number = none ∨ y.number = none) := by
    rw [ha, hb]
    nofun
  have hfar : ∀ {a₁ b₁ : ℚ}, x.number = some a₁ → y.number = some b₁ → ¬ 5 / 1000 < |a₁ - b₁| := by
    intro a₁ b₁ ha₁ hb₁
    rw [← Option.some.inj (ha.symm.trans ha₁), ← Option.some.inj (hb.symm.trans hb₁)]
    exact not_lt.mpr hclose
  have hnan : ∀ {z : Cell} {v : ℚ}, z.number = some v → z.reading ≠ .nan := by
    intro z v hv hread
    rcases reading_of_number hv with hrefused | ⟨negative, hbeyond⟩ | ⟨near, hnumber⟩
    · rw [hread] at hrefused; cases hrefused
    · rw [hread] at hbeyond; cases hbeyond
    · rw [hread] at hnumber; cases hnumber
  cases h with
  | missing hnone =>
      rcases hnone with rfl | rfl
      · cases ha
      · cases hb
  | nan _ hread => exact hread.elim (hnan ha) (hnan hb)
  | infinite _ _ hnumber => exact hnumbers hnumber
  | huge _ _ ha₁ hb₁ hapart => exact hfar ha₁ hb₁ hapart
  | text _ _ hnumber _ => exact hnumbers hnumber
  | rounded _ _ ha₁ hb₁ hapart _ => exact hfar ha₁ hb₁ hapart

/-- On these pairs the check finds nothing. -/
theorem Misjudged.check (h : Misjudged x y) : amountsCheck x y = .ok false := by
  rw [amountsCheck_false_iff]
  have hnumbers : ∀ {a a' b b' : ℚ}, x.reading = .number a a' → y.reading = .number b b' →
      |a' - b'| < Binary64.overHalfHundredth → BothRead x y ∧ ¬ Apart x.reading y.reading := by
    intro a a' b b' hx hy hnear
    rw [BothRead, hx, hy, apart_numbers_iff, not_le]
    exact ⟨⟨nofun, nofun⟩, hnear⟩
  have hbeyond : ∀ {negative : Bool}, x.reading = .beyond negative → y.reading = .beyond negative →
      BothRead x y ∧ ¬ Apart x.reading y.reading := by
    intro negative hx hy
    rw [BothRead, hx, hy]
    exact ⟨⟨nofun, nofun⟩, fun happart => by cases negative <;> cases happart⟩
  cases h with
  | missing hnone => exact Or.inl hnone
  | nan hread hnan =>
      refine Or.inr ⟨hread, ?_⟩
      generalize x.reading = r, y.reading = r' at hnan
      rintro (_ | _ | _ | _) <;> simp at hnan
  | infinite hx hy => exact Or.inr (hbeyond hx hy)
  | huge hx hy => exact Or.inr (hbeyond hx hy)
  | text hx hy _ hnear => exact Or.inr (hnumbers hx hy hnear)
  | rounded hx hy _ _ _ hnear => exact Or.inr (hnumbers hx hy hnear)

/-- Amounts that are not close, and between which the check finds nothing, are one of these pairs. -/
theorem misjudged_of_check (hcheck : amountsCheck x y = .ok false) (hclose : ¬ Close x y) :
    Misjudged x y := by
  rcases amountsCheck_false_iff.mp hcheck with hnone | ⟨hread, happart⟩
  · exact .missing hnone
  have hpair := not_close_cases hclose
  have hx := hread.1
  have hy := hread.2
  cases hrx : x.reading with
  | refused => exact absurd hrx hx
  | nan => exact .nan hread (Or.inl hrx)
  | beyond negative =>
      cases hry : y.reading with
      | refused => exact absurd hry hy
      | nan => exact .nan hread (Or.inr hry)
      | number b b' => exact absurd (by rw [hrx, hry]; exact .left) happart
      | beyond negative' =>
          obtain rfl : negative' = negative := by
            by_contra hne
            obtain rfl : negative' = !negative := by
              cases negative <;> cases negative' <;> simp_all
            exact happart (by rw [hrx, hry]; exact .opposite)
          rcases hpair with hnone | ⟨a, b, ha, hb, hfar⟩
          · exact .infinite hrx hry hnone
          · exact .huge hrx hry ha hb hfar
  | number a a' =>
      cases hry : y.reading with
      | refused => exact absurd hry hy
      | nan => exact .nan hread (Or.inr hry)
      | beyond negative => exact absurd (by rw [hrx, hry]; exact .right) happart
      | number b b' =>
          have hnear : |a' - b'| < Binary64.overHalfHundredth := by
            rw [← not_le, ← apart_numbers_iff (a := a) (b := b), ← hrx, ← hry]
            exact happart
          rcases hpair with hnone | ⟨v, w, hv, hw, hfar⟩
          · exact .text hrx hry hnone hnear
          · -- a number reads as itself
            have hself : ∀ {z : Cell} {q q' v : ℚ}, z.number = some v → z.reading = .number q q' →
                z.number = some q := by
              intro z q q' v hv hz
              rcases reading_of_number hv with h | ⟨negative, h⟩ | ⟨near, h⟩
              · rw [hz] at h; cases h
              · rw [hz] at h; cases h
              · rw [(Reading.number.inj (hz.symm.trans h)).1, hv]
            have ha := hself hv hrx
            have hb := hself hw hry
            rw [Option.some.inj (hv.symm.trans ha), Option.some.inj (hw.symm.trans hb)] at hfar
            exact .rounded hrx hry ha hb hfar hnear

end Misjudged

/-- **When MATCHED means a match.**  For every row: it has no clearing record, or its currencies
differ, or its amounts are none of the pairs that pass for equal. -/
theorem matched_sound_iff (row : Row Cell) :
    (classifyRecord row = .ok .MATCHED → Agreement row) ↔
      ¬ HasClearing row ∨ ¬ SameCurrencies row ∨
        ¬ Misjudged (internalAmount row) (clearingAmount row) := by
  rw [classifyRecord_matched_iff]
  constructor
  · intro h
    by_cases hclearing : HasClearing row
    · by_cases hsame : SameCurrencies row
      · refine Or.inr (Or.inr fun hpair => ?_)
        exact hpair.not_close (h ⟨hclearing, hsame, hpair.check⟩).amounts
      · exact Or.inr (Or.inl hsame)
    · exact Or.inl hclearing
  · rintro h ⟨hclearing, hsame, hcheck⟩
    refine ⟨?_, hsame⟩
    by_contra hclose
    rcases h with h | h | h
    · exact h hclearing
    · exact h hsame
    · exact h (misjudged_of_check hcheck hclose)

/-- The row of a settlement of the sample payment, with a reference of its own. -/
def settledRow (amount : Cell) : Row Cell :=
  [("internal_amount", .decimal (.divHundred 10000)), ("internal_currency", .str "GBP"),
    ("internal_status", .str "COMPLETED"), ("clearing_reference", .str "CLR-NET-001"),
    ("clearing_amount", amount), ("clearing_currency", .str "GBP")]

/-- A blank amount is loaded as `Decimal('NaN')`, and matches a payment of 100.00.  In the settlement
file the payment's own reference stands in for the network's. -/
theorem matched_unsound :
    parseAmount .nan = .ok (.decimal (.nan false)) ∧
      classifyRecord (settledRow (.decimal (.nan false))) = .ok .MATCHED ∧
      (do
        let clearing ← loadClearingFile asTimestamp
          (some (settlementFile [("PAY-20240315-000001-AB12", .nan, "GBP")]))
        let result ← reconcile (loadInternalPayments asTimestamp sampleTables.payments) clearing
        pure (result.rows.map (Row.get · "status"))) = .ok [some (.str "MATCHED")] ∧
      ¬ ∀ row, classifyRecord row = .ok .MATCHED → Agreement row := by
  have hmatched : classifyRecord (settledRow (.decimal (.nan false))) = .ok .MATCHED := by
    decide +kernel
  refine ⟨by decide, hmatched, by decide +kernel, fun hall => ?_⟩
  obtain ⟨a, b, -, hclearing, -⟩ := (hall _ hmatched).amounts
  cases hclearing

/-! ## Amounts in hundredths -/

/-- A decimal in the range of the doubles reads as its value. -/
theorem reading_decimal {d : PyDecimal} {v : ℚ} (hd : d.value = some v)
    (hv : |v| < 2 ^ (1023 : Int)) : (Cell.decimal d).reading = .number v (Binary64.nearest v) := by
  have hround := Binary64.round_eq_nearest hv
  rw [Binary64.round_eq] at hround
  rw [show (Cell.decimal d).reading = .ofDecimal d from rfl, Reading.ofDecimal_eq hd,
    Reading.ofNumber]
  split at hround
  · cases hround
  · rw [if_neg ‹_›]

/-- Every number of hundredths that is compared is in that range. -/
theorem hundredths_lt {n : Int} {k : Nat} (hk : k ≤ 1023) (h : |(n : ℚ) / 100| < 2 ^ k) :
    |(n : ℚ) / 100| < 2 ^ (1023 : Int) := by
  refine h.trans_le ?_
  exact_mod_cast zpow_le_zpow_right₀ (by norm_num : (1 : ℚ) ≤ 2)
    (by exact_mod_cast hk : (k : Int) ≤ 1023)

/-- Below `2 ^ 44` two decimals of hundredths are told apart exactly when they differ. -/
theorem apart_hundredths {d d' : PyDecimal} {n m : Int} (hd : d.value = some ((n : ℚ) / 100))
    (hd' : d'.value = some ((m : ℚ) / 100)) (hn : |(n : ℚ) / 100| < 2 ^ 44)
    (hm : |(m : ℚ) / 100| < 2 ^ 44) :
    Apart (Cell.decimal d).reading (Cell.decimal d').reading ↔ n ≠ m := by
  rw [reading_decimal hd (hundredths_lt (by decide) hn),
    reading_decimal hd' (hundredths_lt (by decide) hm), apart_numbers_iff]
  exact Binary64.overHalfHundredth_le_iff hn hm

/-- **They are never misjudged.** -/
theorem not_misjudged_hundredths {d d' : PyDecimal} {n m : Int} (hd : d.value = some ((n : ℚ) / 100))
    (hd' : d'.value = some ((m : ℚ) / 100)) (hn : |(n : ℚ) / 100| < 2 ^ 44)
    (hm : |(m : ℚ) / 100| < 2 ^ 44) : ¬ Misjudged (.decimal d) (.decimal d') := by
  intro hpair
  have hsame : n = m := by
    by_contra hne
    have happart := amountsCheck_true_iff.mpr ((apart_hundredths hd hd' hn hm).mpr hne)
    rw [hpair.check] at happart
    cases happart
  subst hsame
  refine hpair.not_close ⟨_, _, hd, hd', ?_⟩
  norm_num

end GlobalPayments.Recon

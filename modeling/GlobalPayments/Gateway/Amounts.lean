/-
# GlobalPayments.Gateway.Amounts — what the gateway's amount validators let through.

The validators read the amount as text, twice: `isDecimal` asks for a sign, digits and at most two
places, and the two custom checks compare what `parseFloat` makes of it with their bounds.
payments-service reads the same text as a `BigDecimal` and checks the exact number.

`amount_admitted`: whatever the validators accept is admitted there, right up to both limits.  A number
of hundredths is never rounded across 0 or across 1000000.
-/
import GlobalPayments.Gateway.Routes
import GlobalPayments.Library.Rounding
import GlobalPayments.Payments.Money

namespace GlobalPayments.Gateway

open Numeral

/-! ## The validators -/

/-- `isDecimal({ decimal_digits: '1,2' })`: `[-+]?[0-9]*(\.[0-9]\x7b1,2\x7d)?`, other than nothing
and a bare sign. -/
def isDecimal (text : String) : Bool :=
  if text = "" ∨ text = "-" ∨ text = "+" then false
  else
    let cs := (splitSign text.toList).2
    match cs.dropWhile Char.isDigit with
    | [] => true
    | '.' :: fraction =>
        fraction.all Char.isDigit && (fraction.length = 1 || fraction.length = 2)
    | _ => false

/-- `parseFloat(text)`: the number at the front, blanks in front of it skipped, or NaN. -/
def parseFloat (text : String) : Binary64 :=
  let (negative, cs) := splitSign (text.toList.dropWhile Json.isBlank)
  if "Infinity".toList.isPrefixOf cs then .infinity negative
  else
    let (m, rest) := mantissa cs
    if m.digits = [] then .nan
    else
      let e := ((exponent rest).map (·.1)).getD 0
      .round (signed negative m.unscaled * 10 ^ (e - m.fraction.length))

/-- The custom checks. -/
def AmountCheck.accepts (text : String) : AmountCheck → Bool
  | .above bound => (parseFloat text).gt (.finite bound)
  | .atMost bound => (parseFloat text).le (.finite bound)

/-- The steps of the amount's chain: the others check nothing. -/
def ChainStep.acceptsAmount (text : String) : ChainStep → Bool
  | .isDecimal _ => Gateway.isDecimal text
  | .custom check => check.accepts text
  | _ => true

/-- The chain of `POST /payments` for the amount. -/
def amountChain : List ChainStep :=
  (createPaymentChains.filter (·.field = "amount")).flatMap ValidationChain.steps

/-- The validators of the amount accept a text. -/
def amountAccepted (text : String) : Bool := amountChain.all (ChainStep.acceptsAmount text)

example : amountAccepted "+.5" = true := by decide +kernel
example : amountAccepted "1000000.01" = false := by decide +kernel

theorem amountAccepted_iff (text : String) :
    amountAccepted text = true ↔ isDecimal text = true ∧
      (parseFloat text).gt (.finite 0) = true ∧ (parseFloat text).le (.finite 1000000) = true := by
  have hchain : amountChain = [.isDecimal "1,2",
      .withMessage "amount must be a decimal with up to 2 places",
      .custom (.above 0), .withMessage "amount must be greater than 0",
      .custom (.atMost 1000000), .withMessage "amount exceeds single-transaction limit"] := rfl
  unfold amountAccepted
  rw [hchain]
  simp [ChainStep.acceptsAmount, AmountCheck.accepts]

/-! ## One text, two readers -/

/-- A text with nothing behind its sign is one of the three that are refused. -/
theorem splitSign_eq_nil {text : String} (h : (splitSign text.toList).2 = []) :
    text = "" ∨ text = "-" ∨ text = "+" := by
  rw [← String.toList_inj, ← String.toList_inj, ← String.toList_inj]
  unfold splitSign at h
  split at h
  · rename_i cs heq
    obtain rfl : cs = [] := h
    exact Or.inr (Or.inl heq)
  · rename_i cs heq
    obtain rfl : cs = [] := h
    exact Or.inr (Or.inr heq)
  · exact Or.inl h

/-- A decimal is its sign, its digits and at most two places, and nothing else. -/
theorem mantissa_of_isDecimal {text : String} (h : isDecimal text = true) :
    ∃ m, mantissa (splitSign text.toList).2 = (m, []) ∧ m.digits ≠ [] ∧ m.fraction.length ≤ 2 := by
  unfold isDecimal at h
  split at h
  · cases h
  · rename_i hnone
    dsimp only at h
    have hparts := List.takeWhile_append_dropWhile (p := Char.isDigit)
      (l := (splitSign text.toList).2)
    have hwhole : ∀ c ∈ (splitSign text.toList).2.takeWhile Char.isDigit, c.isDigit = true :=
      fun c hc => List.mem_takeWhile_imp hc
    split at h
    · rename_i hrest
      rw [hrest, List.append_nil] at hparts
      rw [hparts] at hwhole
      refine ⟨_, mantissa_whole hwhole, fun hempty => hnone (splitSign_eq_nil ?_), Nat.zero_le 2⟩
      simpa [Mantissa.digits] using hempty
    · rename_i fraction hrest
      rw [Bool.and_eq_true, List.all_eq_true, Bool.or_eq_true, decide_eq_true_eq,
        decide_eq_true_eq] at h
      obtain ⟨hfraction, hlength⟩ := h
      rw [← hparts, hrest]
      refine ⟨_, mantissa_point hwhole hfraction, fun hempty => ?_, ?_⟩
      · rw [Mantissa.digits, List.append_eq_nil_iff] at hempty
        obtain ⟨-, rfl⟩ := hempty
        simp at hlength
      · show fraction.length ≤ 2
        omega
    · cases h

theorem isBlank_of_isDigit {c : Char} (h : c.isDigit = true) : Json.isBlank c = false := by
  have hrange : 48 ≤ c.val.toNat ∧ c.val.toNat ≤ 57 := by
    simpa [Char.isDigit, UInt32.le_iff_toNat_le] using h
  simp only [Json.isBlank, Bool.or_eq_false_iff, decide_eq_false_iff_not, Bool.and_eq_false_iff,
    UInt32.le_iff_toNat_le, List.mem_cons, List.not_mem_nil, or_false, not_or,
    ← UInt32.toNat_inj]
  simp only [UInt32.reduceToNat]
  omega

/-- There are no blanks in front of a decimal. -/
theorem dropWhile_isBlank_of_mantissa {cs : List Char} {m : Mantissa}
    (h : mantissa (splitSign cs).2 = (m, [])) : cs.dropWhile Json.isBlank = cs := by
  have hblank : ∀ c rest, cs = c :: rest → ¬ Json.isBlank c = true := by
    rintro c rest rfl
    unfold splitSign at h
    split at h
    · rename_i heq
      obtain ⟨rfl, -⟩ := List.cons.inj heq
      decide
    · rename_i heq
      obtain ⟨rfl, -⟩ := List.cons.inj heq
      decide
    · rcases head_of_mantissa h with hdigit | rfl
      · rw [isBlank_of_isDigit hdigit]
        decide
      · decide
  cases cs with
  | nil => rfl
  | cons c rest => exact List.dropWhile_cons_of_neg (hblank c rest rfl)

/-- **The two readers agree on a decimal**: the gateway's number is the double nearest to the
service's. -/
theorem readers_agree {text : String} (h : isDecimal text = true) :
    ∃ d, BigDecimal.ofString text = some d ∧ 0 ≤ d.scale ∧ d.scale ≤ 2 ∧
      parseFloat text = .round d.value := by
  obtain ⟨m, hm, hdigits, hlength⟩ := mantissa_of_isDecimal h
  have hinfinity : "Infinity".toList.isPrefixOf (splitSign text.toList).2 = false := by
    generalize (splitSign text.toList).2 = cs at hm
    cases cs with
    | nil => rfl
    | cons c cs =>
        have hne : 'I' ≠ c := by
          rintro rfl
          rcases head_of_mantissa hm with hdigit | hpoint
          · cases hdigit
          · exact absurd hpoint (by decide)
        have hword : "Infinity".toList = 'I' :: "nfinity".toList := rfl
        rw [hword, List.isPrefixOf_cons_cons, beq_eq_false_iff_ne.mpr hne, Bool.false_and]
  refine ⟨⟨signed (splitSign text.toList).1 m.unscaled, m.fraction.length⟩, ?_, ?_, ?_, ?_⟩
  · unfold BigDecimal.ofString
    dsimp only
    rw [hm, if_neg hdigits]
    rfl
  · exact Int.natCast_nonneg _
  · show (m.fraction.length : Int) ≤ 2
    omega
  · unfold parseFloat
    dsimp only
    rw [dropWhile_isBlank_of_mantissa hm, hinfinity, hm]
    dsimp only
    rw [if_neg (by simp), if_neg hdigits, BigDecimal.value]
    simp [exponent]

/-! ## What is accepted is admitted -/

open Payments in
/-- A positive number up to a million has at most seven digits before the point. -/
theorem digits_of_bounds {d : BigDecimal} (hscale : 0 ≤ d.scale) (htwo : d.scale ≤ 2)
    (hpos : 0 ≤ d.value) (hmax : d.value ≤ 1000000) : digits 10 2 d = true := by
  obtain ⟨k, hk⟩ := Int.eq_ofNat_of_zero_le hscale
  have hpow : (0 : ℚ) < 10 ^ k := by positivity
  have hvalue : (d.unscaledValue : ℚ) = d.value * 10 ^ k := by
    rw [BigDecimal.value, hk, zpow_neg, zpow_natCast,
      inv_mul_cancel_right₀ hpow.ne']
  have hnonneg : 0 ≤ d.unscaledValue := by
    have hcast : (0 : ℚ) ≤ d.unscaledValue := by
      rw [hvalue]
      exact mul_nonneg hpos hpow.le
    exact_mod_cast hcast
  have hlt : d.unscaledValue.natAbs < 10 ^ (7 + k) := by
    have hcast : (d.unscaledValue : ℚ) < 10 ^ (7 + k) := by
      rw [hvalue, pow_add]
      apply mul_lt_mul_of_pos_right _ hpow
      exact hmax.trans_lt (by norm_num)
    have hint : d.unscaledValue < 10 ^ (7 + k) := by exact_mod_cast hcast
    have habs : (d.unscaledValue.natAbs : Int) = d.unscaledValue := Int.natAbs_of_nonneg hnonneg
    rw [← habs] at hint
    exact_mod_cast hint
  have hprecision : d.precision ≤ 7 + k := by
    have hlength := (Nat.length_toDigits_le_iff (by decide) (by omega)).mpr hlt
    show ((Nat.toDigits 10 d.unscaledValue.natAbs).length : Int) ≤ 7 + k
    exact_mod_cast hlength
  unfold digits
  rw [Bool.and_eq_true, decide_eq_true_eq, decide_eq_true_eq]
  omega

/-- **No amount passes the gateway and is refused upstream.**  Whatever text its validators accept,
payments-service reads an amount from it that its constraints admit. -/
theorem amount_admitted (text : String) (h : amountAccepted text = true) :
    ∃ d, BigDecimal.ofString text = some d ∧ Payments.amountAdmitted d = true := by
  obtain ⟨hdecimal, habove, hatMost⟩ := (amountAccepted_iff text).mp h
  obtain ⟨d, hd, hscale, htwo, hparse⟩ := readers_agree hdecimal
  obtain ⟨n, hn⟩ := Payments.exists_hundredths htwo
  have hvalue : d.value = n / 100 := by
    rw [← hn, mul_div_cancel_right₀ _ (by norm_num)]
  rw [hparse, hvalue] at habove hatMost
  have hone : 1 ≤ n := Binary64.round_hundredths_gt_zero habove
  have hmin : 1 / 100 ≤ d.value := by
    rw [hvalue]
    have hcast : (1 : ℚ) ≤ n := by exact_mod_cast hone
    linarith
  have hmax : d.value ≤ 1000000 := by
    rw [hvalue]
    have hle : (n : ℚ) / 100 ≤ (1000000 : Int) :=
      Binary64.round_hundredths_le (by norm_num) (by exact_mod_cast hatMost)
    exact_mod_cast hle
  refine ⟨d, hd, ?_⟩
  unfold Payments.amountAdmitted Payments.decimalMin Payments.decimalMax
  rw [Bool.and_eq_true, Bool.and_eq_true, decide_eq_true_eq, decide_eq_true_eq]
  exact ⟨⟨hmin, hmax⟩, digits_of_bounds hscale htwo (by linarith) hmax⟩

/-- The limit itself, with zeros in front. -/
theorem amount_admitted_limit :
    amountAccepted "+0001000000.00" = true ∧
      ∃ d, BigDecimal.ofString "+0001000000.00" = some d ∧ Payments.amountAdmitted d = true :=
  ⟨by decide +kernel, amount_admitted "+0001000000.00" (by decide +kernel)⟩

end GlobalPayments.Gateway

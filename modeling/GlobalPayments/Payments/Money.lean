/-
# GlobalPayments.Payments.Money — amounts, currencies and minor units.

Requests carry an amount in major units (`10.50`), the ledger stores a `long` of minor units
(`1050`), and `PaymentService.toMinorUnits` converts by moving the decimal point as many digits as
the currency has.  The bound on fraction digits (`@Digits(fraction = 2)`, and the gateway's
`decimal_digits: '1,2'`) is the same for every currency, while JPY has no minor unit at all:
`toMinorUnits_of_admitted_iff` says for which admitted amounts the conversion succeeds.
-/
import GlobalPayments.Library.BigDecimal
import Mathlib.Tactic.Linarith
import Mathlib.Data.Rat.Floor

namespace GlobalPayments.Payments

open BigDecimal

/-! ## Currencies -/

/-- `Currency`: the supported currencies. -/
inductive Currency where
  | GBP | USD | EUR | JPY | CHF | CAD | AUD | SGD | HKD | INR
  deriving DecidableEq, Repr

/-- `Currency.decimalPlaces`: the ISO 4217 decimal places the enumeration lists. -/
def Currency.decimalPlaces : Currency → Nat
  | .GBP => 2
  | .USD => 2
  | .EUR => 2
  | .JPY => 0
  | .CHF => 2
  | .CAD => 2
  | .AUD => 2
  | .SGD => 2
  | .HKD => 2
  | .INR => 2

/-- `Enum.name()`. -/
def Currency.name : Currency → String
  | .GBP => "GBP"
  | .USD => "USD"
  | .EUR => "EUR"
  | .JPY => "JPY"
  | .CHF => "CHF"
  | .CAD => "CAD"
  | .AUD => "AUD"
  | .SGD => "SGD"
  | .HKD => "HKD"
  | .INR => "INR"

theorem Currency.decimalPlaces_eq (c : Currency) :
    c.decimalPlaces = if c = .JPY then 0 else 2 := by
  cases c <;> rfl

/-! ## Conversion between major and minor units -/

/-- `PaymentService.toMinorUnits`. -/
def toMinorUnits (amount : BigDecimal) (decimalPlaces : Nat) :
    Except ArithmeticException Int :=
  (amount.movePointRight decimalPlaces).longValueExact

/-- `Payment.getAmountAsDecimal`, on the two fields it reads. -/
def amountAsDecimal (amountMinorUnits : Int) (currency : Currency) : BigDecimal :=
  (BigDecimal.valueOf amountMinorUnits).movePointLeft currency.decimalPlaces

/-- **`toMinorUnits` is exact.**  It returns `m` exactly when `m` is the amount times the currency's
power of ten and fits a `long`; it raises on every other amount. -/
theorem toMinorUnits_eq_ok_iff (amount : BigDecimal) (decimalPlaces : Nat) (m : Int) :
    toMinorUnits amount decimalPlaces = .ok m ↔
      amount.value * 10 ^ decimalPlaces = m ∧ longMin ≤ m ∧ m ≤ longMax := by
  rw [toMinorUnits, longValueExact_eq_ok_iff, value_movePointRight, zpow_natCast]

/-- The reported amount is the stored minor units over the currency's power of ten. -/
theorem value_amountAsDecimal (m : Int) (c : Currency) :
    (amountAsDecimal m c).value = m / 10 ^ c.decimalPlaces := by
  rw [amountAsDecimal, value_movePointLeft, value_valueOf, zpow_neg, zpow_natCast, div_eq_mul_inv]

/-- What was converted on the way in is reported unchanged on the way out. -/
theorem value_amountAsDecimal_toMinorUnits {amount : BigDecimal} {c : Currency} {m : Int}
    (h : toMinorUnits amount c.decimalPlaces = .ok m) :
    (amountAsDecimal m c).value = amount.value := by
  obtain ⟨hm, -⟩ := (toMinorUnits_eq_ok_iff amount _ m).mp h
  rw [value_amountAsDecimal, ← hm, mul_div_assoc, div_self (by positivity), mul_one]

/-- The conversion raises on an amount without a whole number of minor units, and on one whose minor
units leave the `long` range. -/
theorem toMinorUnits_raises_iff (amount : BigDecimal) (decimalPlaces : Nat) :
    (∃ e, toMinorUnits amount decimalPlaces = .error e) ↔
      ∀ n : Int, amount.value * 10 ^ decimalPlaces = n → ¬ (longMin ≤ n ∧ n ≤ longMax) := by
  constructor
  · rintro ⟨e, he⟩ n hn hrange
    have hok := (toMinorUnits_eq_ok_iff amount decimalPlaces n).mpr ⟨hn, hrange⟩
    rw [he] at hok
    cases hok
  · intro hall
    cases hresult : toMinorUnits amount decimalPlaces with
    | error e => exact ⟨e, rfl⟩
    | ok m =>
        obtain ⟨hm, hrange⟩ := (toMinorUnits_eq_ok_iff amount decimalPlaces m).mp hresult
        exact absurd hrange (hall m hm)

/-- What is reported for a `long` of minor units converts back to it. -/
theorem toMinorUnits_amountAsDecimal {m : Int} (hm : longMin ≤ m ∧ m ≤ longMax) (c : Currency) :
    toMinorUnits (amountAsDecimal m c) c.decimalPlaces = .ok m := by
  apply (toMinorUnits_eq_ok_iff _ _ _).mpr
  refine ⟨?_, hm⟩
  rw [value_amountAsDecimal, div_mul_cancel₀]
  positivity

/-- **Minor units lose nothing.**  Over every amount and currency: what converts is reported back as
the same number; the conversion raises on exactly the amounts that have no whole number of minor units
in the `long` range; and every `long` survives the way out and in again. -/
theorem minor_units_round_trip (c : Currency) :
    (∀ amount m, toMinorUnits amount c.decimalPlaces = .ok m →
        (amountAsDecimal m c).value = amount.value) ∧
      (∀ amount, (∃ e, toMinorUnits amount c.decimalPlaces = .error e) ↔
        ¬ ∃ n : Int, amount.value * 10 ^ c.decimalPlaces = n ∧ longMin ≤ n ∧ n ≤ longMax) ∧
      ∀ m, longMin ≤ m → m ≤ longMax →
        toMinorUnits (amountAsDecimal m c) c.decimalPlaces = .ok m := by
  refine ⟨fun amount m => value_amountAsDecimal_toMinorUnits, fun amount => ?_,
    fun m hmin hmax => toMinorUnits_amountAsDecimal ⟨hmin, hmax⟩ c⟩
  rw [toMinorUnits_raises_iff]
  constructor
  · rintro hall ⟨n, hn, hrange⟩
    exact hall n hn hrange
  · intro hnone n hn hrange
    exact hnone ⟨n, hn, hrange⟩

example : toMinorUnits ⟨1, -18⟩ 2 = .error .overflow := by decide
example : toMinorUnits ⟨-1050, 2⟩ 2 = .ok (-1050) := by decide

/-! ## The constraints on a requested amount -/

/-- `@DecimalMin(bound)`, inclusive. -/
def decimalMin (bound : ℚ) (amount : BigDecimal) : Bool := bound ≤ amount.value

/-- `@DecimalMax(bound)`, inclusive. -/
def decimalMax (bound : ℚ) (amount : BigDecimal) : Bool := amount.value ≤ bound

/-- `@Digits(integer, fraction)`: digits in front of the point are `precision - scale`, digits
behind it the scale, where it is positive. -/
def digits (integer fraction : Int) (amount : BigDecimal) : Bool :=
  amount.precision - amount.scale ≤ integer && max amount.scale 0 ≤ fraction

/-- The constraints of `CreatePaymentRequest.amount`. -/
def amountAdmitted (amount : BigDecimal) : Bool :=
  decimalMin (1 / 100) amount && decimalMax 1000000 amount && digits 10 2 amount

theorem amountAdmitted_bounds {amount : BigDecimal} (h : amountAdmitted amount = true) :
    1 / 100 ≤ amount.value ∧ amount.value ≤ 1000000 ∧ amount.scale ≤ 2 := by
  simp only [amountAdmitted, decimalMin, decimalMax, digits, Bool.and_eq_true,
    decide_eq_true_eq] at h
  obtain ⟨⟨hmin, hmax⟩, -, hscale⟩ := h
  exact ⟨hmin, hmax, by omega⟩

/-- An admitted amount is a whole number of hundredths. -/
theorem exists_hundredths {amount : BigDecimal} (h : amount.scale ≤ 2) :
    ∃ n : Int, amount.value * 100 = n := by
  refine ⟨amount.unscaledValue * 10 ^ (2 - amount.scale).toNat, ?_⟩
  push_cast
  rw [ten_zpow_toNat (by omega), value, mul_assoc,
    show (100 : ℚ) = 10 ^ (2 : Int) by norm_num, ← zpow_add₀ (by norm_num)]
  congr 2
  ring

/-! ## Which admitted amounts convert -/

/-- The conversion succeeds and its result can be stored: it is the amount in minor units, positive
(the table's `CHECK (amount_minor_units > 0)`) and a `long`. -/
def ConvertsExactly (amount : BigDecimal) (currency : Currency) : Prop :=
  ∃ m : Int, toMinorUnits amount currency.decimalPlaces = .ok m ∧
    (m : ℚ) = amount.value * 10 ^ currency.decimalPlaces ∧ 0 < m ∧ m ≤ longMax

/-- An admitted amount converts once its number of minor units is whole: the bounds on the amount
leave the result positive and far inside the `long` range. -/
theorem convertsExactly_of_whole {amount : BigDecimal} (h : amountAdmitted amount = true)
    {currency : Currency} {n : Int} (hn : amount.value * 10 ^ currency.decimalPlaces = n) :
    ConvertsExactly amount currency := by
  obtain ⟨hmin, hmax, -⟩ := amountAdmitted_bounds h
  have hpow : (1 : ℚ) ≤ 10 ^ currency.decimalPlaces ∧ (10 : ℚ) ^ currency.decimalPlaces ≤ 100 := by
    rw [Currency.decimalPlaces_eq]
    split <;> norm_num
  have hpos : (0 : ℚ) < n := by
    rw [← hn]
    exact mul_pos (by linarith) (by linarith)
  have hle : (n : ℚ) ≤ 1000000 * 100 := by
    rw [← hn]
    exact mul_le_mul hmax hpow.2 (by linarith) (by norm_num)
  have hpos' : 0 < n := by exact_mod_cast hpos
  have hle' : n ≤ 1000000 * 100 := by exact_mod_cast hle
  -- the largest admitted amount has 10^8 minor units, so the `long` range is never an issue
  have hmaxLong : n ≤ longMax := by
    show n ≤ 2 ^ 63 - 1
    omega
  have hminLong : longMin ≤ n := by
    show -2 ^ 63 ≤ n
    omega
  exact ⟨n, (toMinorUnits_eq_ok_iff _ _ _).mpr ⟨hn, hminLong, hmaxLong⟩, hn.symm, hpos', hmaxLong⟩

/-- **Which admitted amounts convert.**  Every admitted amount of a currency with two decimal places
does; a JPY amount only when it has no fraction, although the constraints admit two fraction digits
for JPY as well. -/
theorem toMinorUnits_of_admitted_iff (amount : BigDecimal) (currency : Currency)
    (h : amountAdmitted amount = true) :
    ConvertsExactly amount currency ↔ currency ≠ .JPY ∨ ∃ n : Int, amount.value = n := by
  constructor
  · rintro ⟨m, -, hm, -⟩
    by_cases hc : currency = .JPY
    · rw [Currency.decimalPlaces_eq, if_pos hc, pow_zero, mul_one] at hm
      exact Or.inr ⟨m, hm.symm⟩
    · exact Or.inl hc
  -- two decimal places take up every admitted fraction; a whole amount converts in any currency
  · rintro (hc | ⟨n, hn⟩)
    · obtain ⟨n, hn⟩ := exists_hundredths (amountAdmitted_bounds h).2.2
      refine convertsExactly_of_whole h (n := n) ?_
      rw [Currency.decimalPlaces_eq, if_neg hc, ← hn]
      norm_num
    · refine convertsExactly_of_whole h (n := n * 10 ^ currency.decimalPlaces) ?_
      push_cast
      rw [hn]

/-- Both disjuncts at work on JPY 1000.00: admitted with two (zero) fraction digits, and converted. -/
theorem toMinorUnits_of_admitted_jpy_whole :
    ConvertsExactly ⟨100000, 2⟩ .JPY :=
  (toMinorUnits_of_admitted_iff ⟨100000, 2⟩ .JPY (by decide +kernel)).mpr
    (Or.inr ⟨1000, by norm_num [BigDecimal.value]⟩)

/-- JPY 10.50 passes every constraint and makes the conversion raise. -/
theorem toMinorUnits_jpy_fraction :
    ¬ ∀ (amount : BigDecimal) (currency : Currency), amountAdmitted amount = true →
      ConvertsExactly amount currency := by
  intro hall
  obtain ⟨m, hm, -⟩ := hall ⟨1050, 2⟩ .JPY (by decide +kernel)
  have hraise : toMinorUnits ⟨1050, 2⟩ Currency.JPY.decimalPlaces = .error .inexact := rfl
  rw [hraise] at hm
  cases hm

end GlobalPayments.Payments

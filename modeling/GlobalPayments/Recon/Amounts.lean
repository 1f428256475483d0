/-
# GlobalPayments.Recon.Amounts — one column, decoded by two services.

`amount_minor_units` is written in the minor units of the payment's currency, and
`Payment.getAmountAsDecimal` reads it back with the currency's decimal places.
`_load_internal_payments` divides it by 100 whatever the currency is.  The two readings agree for the
currencies with two decimal places, and JPY has none.
-/
import GlobalPayments.Recon.Schedule

namespace GlobalPayments.Recon

open Frame
open Payments (Payment Currency)

variable {toDatetime : Cell → Cell}

/-- Wherever the query selects a payment, the internal frame has a row of it with the payment's
amount. -/
def SameAmount (toDatetime : Cell → Cell) (p : Payment) : Prop :=
  ∀ result, queryRow p ∈ result → ∃ row ∈ (loadInternalPayments toDatetime result).rows,
    row.get "payment_id" = some (.str (queryRow p).paymentId) ∧
      ∃ d, row.get "internal_amount" = some (.decimal d) ∧
        d.value = some p.getAmountAsDecimal.value

theorem loaded_rows (toDatetime : Cell → Cell) (result : List PaymentRow) :
    (loadInternalPayments toDatetime result).rows = result.map (internalRow toDatetime) := by
  unfold loadInternalPayments
  split
  · rename_i hnil
    rw [hnil]
    rfl
  · rfl

theorem value_getAmountAsDecimal (p : Payment) : p.getAmountAsDecimal.value =
    p.amountMinorUnits / 10 ^ p.currency.decimalPlaces :=
  Payments.value_amountAsDecimal _ _

/-- Both readings as rationals. -/
theorem sameAmount_iff_div (p : Payment) : SameAmount toDatetime p ↔
    (p.amountMinorUnits : ℚ) / 100 = p.amountMinorUnits / 10 ^ p.currency.decimalPlaces := by
  have hcell : (internalRow toDatetime (queryRow p)).get "internal_amount" =
      some (.decimal (.divHundred p.amountMinorUnits)) := rfl
  constructor
  · intro hsame
    obtain ⟨row, hrow, -, d, hd, hvalue⟩ := hsame [queryRow p] List.mem_cons_self
    rw [loaded_rows, List.map_singleton, List.mem_singleton] at hrow
    rw [hrow, hcell, Option.some.injEq, Cell.decimal.injEq] at hd
    rw [← hd, PyDecimal.value_divHundred, value_getAmountAsDecimal, Option.some.injEq] at hvalue
    exact hvalue
  · intro hdiv result hmem
    refine ⟨internalRow toDatetime (queryRow p), ?_, rfl, _, hcell, ?_⟩
    · rw [loaded_rows]
      exact List.mem_map_of_mem hmem
    · rw [PyDecimal.value_divHundred, value_getAmountAsDecimal, hdiv]

theorem amount_pos {p : Payment} (h : p.tableConstraints = true) : 0 < p.amountMinorUnits := by
  simp only [Payment.tableConstraints, Bool.and_eq_true, decide_eq_true_eq] at h
  tauto

/-- **Where the readings agree.**  The internal amount of a stored payment is its amount exactly when
its currency is not JPY. -/
theorem sameAmount_iff (p : Payment) (h : p.tableConstraints = true) :
    SameAmount toDatetime p ↔ p.currency ≠ .JPY := by
  rw [sameAmount_iff_div, Currency.decimalPlaces_eq]
  have hpos : (0 : ℚ) < p.amountMinorUnits := by exact_mod_cast amount_pos h
  constructor
  · rintro hdiv hjpy
    rw [if_pos hjpy, pow_zero, div_one] at hdiv
    linarith
  · intro hne
    rw [if_neg hne]
    norm_num

/-- A payment of 1000 JPY: the ledger means ¥1000. -/
def samplePaymentJpy : Payment where
  id := 8
  paymentReference := "PAY-20240315-000002-CD34"
  senderAccountId := "GB29NWBK60161331926819"
  receiverAccountId := "JP0001"
  receiverBankCode := "BOTKJPJT"
  amountMinorUnits := 1000
  currency := .JPY
  status := .COMPLETED
  paymentType := .SWIFT
  description := none
  clearingReference := some "CLR-002"
  idempotencyKey := none
  retryCount := 0
  failureReason := none
  createdAt := 1710496800000
  updatedAt := 1710500400000
  createdBy := some "ops"
  version := 2

/-- The same number of minor units in GBP is read as £10.00 by both services. -/
theorem sameAmount_gbp : ({ samplePaymentJpy with currency := .GBP } : Payment).currency ≠ .JPY ∧
    SameAmount id { samplePaymentJpy with currency := .GBP } :=
  ⟨nofun, (sameAmount_iff { samplePaymentJpy with currency := .GBP } (by decide)).mpr nofun⟩

/-- In JPY the reconciliation reads 10 where the payment says 1000. -/
theorem sameAmount_fails_jpy :
    (internalRow id (queryRow samplePaymentJpy)).get "internal_amount" =
        some (.decimal (.finite false 10 0)) ∧
      samplePaymentJpy.getAmountAsDecimal.value = 1000 ∧
      ¬ ∀ p : Payment, p.tableConstraints = true → SameAmount id p := by
  have hamount : samplePaymentJpy.getAmountAsDecimal.value = 1000 := by
    norm_num [value_getAmountAsDecimal, samplePaymentJpy, Currency.decimalPlaces]
  refine ⟨rfl, hamount, fun hall => ?_⟩
  have hsame := (sameAmount_iff_div samplePaymentJpy).mp (hall samplePaymentJpy (by decide))
  norm_num [samplePaymentJpy, Currency.decimalPlaces] at hsame

end GlobalPayments.Recon

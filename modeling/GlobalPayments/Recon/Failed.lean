/-
# GlobalPayments.Recon.Failed — a payment that failed, and that the network settled.

The query of `_load_internal_payments` selects FAILED payments next to COMPLETED ones, and
`_classify_record` does not look at the payment's status: a clearing record settles a FAILED payment
like any other.  So the row is an EXCEPTION only where the clearing record differs in amount or currency
(`failed_exception_iff`).
-/
import GlobalPayments.Recon.Classify
import GlobalPayments.Recon.Schedule

namespace GlobalPayments.Recon

open Frame
open Payments (Payment)

/-! ## The row of a payment -/

/-- The row holds a payment as `_load_internal_payments` loads it. -/
structure RowOf (p : PaymentRow) (row : Row Cell) : Prop where
  amount : row.get "internal_amount" = some (.decimal (.divHundred p.amountMinorUnits))
  currency : row.get "internal_currency" = some (.str p.currency)
  status : row.get "internal_status" = some (.str p.status)

theorem internalRow_rowOf (toDatetime : Cell → Cell) (p : PaymentRow) :
    RowOf p (internalRow toDatetime p) :=
  ⟨rfl, rfl, rfl⟩

/-- The labels a payment's row is compared by, and its status. -/
def comparedLabels : List String := ["internal_amount", "internal_currency", "internal_status"]

/-- **Where such rows come from**: a join gives every payment one, unless the clearing table has
columns of these names itself. -/
theorem exists_rowOf {toDatetime : Cell → Cell} {payments : List PaymentRow}
    {clearing merged : Frame Cell} {p : PaymentRow} (hp : p ∈ payments)
    (h : joined (loadInternalPayments toDatetime payments) clearing = .ok merged)
    (hnames : ∀ label ∈ comparedLabels, label ∉ clearing.columns) :
    ∃ m ∈ merged.rows, m.get "payment_reference" = some (.str p.paymentReference) ∧ RowOf p m := by
  obtain ⟨hcolumns, hrows⟩ := loadInternalPayments_of_ne_nil toDatetime (List.ne_nil_of_mem hp)
  have hrow : internalRow toDatetime p ∈ (loadInternalPayments toDatetime payments).rows := by
    rw [hrows]
    exact List.mem_map_of_mem hp
  obtain ⟨m, hm, hjoined⟩ := exists_joined (joined_ok h) hrow
  have hlabels : (internalRow toDatetime p).map Prod.fst =
      (loadInternalPayments toDatetime payments).columns := hcolumns.symm
  have hkept : ∀ label ∈ comparedLabels, m.get label = (internalRow toDatetime p).get label := by
    intro label hlabel
    have hside : label ∈ internalColumns ∧ label ≠ "payment_reference" ∧
        (∀ l, l ++ "_internal" ≠ label) ∧ ∀ l, l ++ "_clearing" ≠ label := by
      simp only [comparedLabels, List.mem_cons, List.not_mem_nil, or_false] at hlabel
      rcases hlabel with rfl | rfl | rfl <;>
        exact ⟨by decide, by decide, append_ne (by decide) (by decide),
          append_ne (by decide) (by decide)⟩
    rw [hjoined.get_eq hlabels (hcolumns ▸ hside.1) hside.2.1 hside.2.2.1 hside.2.2.2,
      if_neg (hnames label hlabel)]
  have hloaded := internalRow_rowOf toDatetime p
  refine ⟨m, hm, ?_, (hkept _ (by decide)).trans hloaded.amount,
    (hkept _ (by decide)).trans hloaded.currency, (hkept _ (by decide)).trans hloaded.status⟩
  rw [hjoined.get_key (by rw [hlabels, hcolumns]; decide) (append_ne (by decide) (by decide))]
  rfl

/-- A payment of the ledger that failed, and a row in which it stands next to a clearing record.  The
column of its amount is a `BIGINT`. -/
structure FailedButSettled (table : List Payment) (d : Day) (p : Payment) (row : Row Cell) : Prop where
  stored : p ∈ table
  created : dayOf p.createdAt = d
  failed : p.status = .FAILED
  bigint : |p.amountMinorUnits| < 2 ^ 63
  holds : RowOf (queryRow p) row
  settled : HasClearing row

def clearingCurrency (row : Row Cell) : Cell := getD row "clearing_currency" .none

/-- A clearing record differs from a payment in amount or currency. -/
inductive DetailsDiffer (p : Payment) (amount currency : Cell) : Prop
  /-- its amount is a number that 53 binary digits keep apart from the payment's -/
  | number {b b' : ℚ} : amount.reading = .number b b' →
      Binary64.overHalfHundredth ≤ |Binary64.nearest ((p.amountMinorUnits : ℚ) / 100) - b'| →
      DetailsDiffer p amount currency
  /-- its amount is infinite -/
  | infinite {negative : Bool} : amount.reading = .beyond negative →
      DetailsDiffer p amount currency
  /-- its currency is another one, and `float` does not raise on its amount -/
  | currency : amount = .none ∨ amount.reading ≠ .refused →
      (Cell.str p.currency.name).differs currency = true → DetailsDiffer p amount currency

section Rows

variable {table : List Payment} {d : Day} {p : Payment} {row : Row Cell}

/-- The query selects it. -/
theorem FailedButSettled.selected (h : FailedButSettled table d p row) :
    queryRow p ∈ queryPayments d table :=
  mem_queryPayments h.stored (Or.inr h.failed) h.created

theorem FailedButSettled.internalAmount_eq (h : FailedButSettled table d p row) :
    internalAmount row = .decimal (.divHundred p.amountMinorUnits) := by
  rw [internalAmount, getD, h.holds.amount]
  rfl

theorem FailedButSettled.sameCurrencies_iff (h : FailedButSettled table d p row) :
    SameCurrencies row ↔ (Cell.str p.currency.name).differs (clearingCurrency row) = false := by
  rw [SameCurrencies, getD, h.holds.currency]
  rfl

theorem FailedButSettled.reading_eq (h : FailedButSettled table d p row) :
    (internalAmount row).reading =
      .number ((p.amountMinorUnits : ℚ) / 100)
        (Binary64.nearest ((p.amountMinorUnits : ℚ) / 100)) := by
  rw [h.internalAmount_eq]
  refine reading_decimal (PyDecimal.value_divHundred _) (hundredths_lt (k := 63) (by decide) ?_)
  have hbigint : |(p.amountMinorUnits : ℚ)| < 2 ^ 63 := by exact_mod_cast h.bigint
  rw [abs_div, abs_of_pos (by norm_num : (0 : ℚ) < 100)]
  have hnonneg := abs_nonneg (p.amountMinorUnits : ℚ)
  linarith

/-- The amounts of such a row are apart when the clearing record's is infinite or another number. -/
theorem FailedButSettled.apart_iff (h : FailedButSettled table d p row) :
    Apart (internalAmount row).reading (clearingAmount row).reading ↔
      (∃ b b', (clearingAmount row).reading = .number b b' ∧ Binary64.overHalfHundredth ≤
        |Binary64.nearest ((p.amountMinorUnits : ℚ) / 100) - b'|) ∨
      ∃ negative, (clearingAmount row).reading = .beyond negative := by
  rw [h.reading_eq]
  generalize (clearingAmount row).reading = reading
  constructor
  · rintro (hfar | _ | _ | _)
    · exact Or.inl ⟨_, _, rfl, hfar⟩
    · exact Or.inr ⟨_, rfl⟩
  · rintro (⟨b, b', rfl, hfar⟩ | ⟨negative, rfl⟩)
    · exact .numbers hfar
    · exact .right

/-- **When a failed payment that was settled is an EXCEPTION**: when the clearing record differs
from it in amount or currency.  It is loaded like a completed one, and its status is not looked at:
for amounts of hundredths the row is MATCHED as soon as amount and currency are the payment's. -/
theorem failed_exception_iff (h : FailedButSettled table d p row) :
    queryRow p ∈ queryPayments d table ∧
      (classifyRecord row = .ok .EXCEPTION ↔
        DetailsDiffer p (clearingAmount row) (clearingCurrency row)) ∧
      ∀ (amount : PyDecimal) (m : Int), clearingAmount row = .decimal amount →
        amount.value = some ((m : ℚ) / 100) → |(p.amountMinorUnits : ℚ) / 100| < 2 ^ 44 →
        |(m : ℚ) / 100| < 2 ^ 44 →
        classifyRecord row = .ok (if p.amountMinorUnits = m ∧
          (Cell.str p.currency.name).differs (clearingCurrency row) = false then .MATCHED
            else .EXCEPTION) := by
  have hsame := h.sameCurrencies_iff
  refine ⟨h.selected, ?_, fun amount m hamount hvalue hn hm => ?_⟩
  · rw [classifyRecord_exception_iff h.settled, amountsCheck_true_iff, amountsCheck_false_iff,
      h.apart_iff, hsame, Bool.not_eq_false]
    constructor
    · rintro ((⟨b, b', hb, hfar⟩ | ⟨negative, hbeyond⟩) | ⟨hunread | ⟨hread, -⟩, hcurrency⟩)
      · exact .number hb hfar
      · exact .infinite hbeyond
      · refine .currency (Or.inl (hunread.resolve_left ?_)) hcurrency
        rw [h.internalAmount_eq]
        simp
      · exact .currency (Or.inr hread.2) hcurrency
    · intro hdiffer
      by_cases happart : (∃ b b', (clearingAmount row).reading = .number b b' ∧
          Binary64.overHalfHundredth ≤ |Binary64.nearest ((p.amountMinorUnits : ℚ) / 100) - b'|) ∨
          ∃ negative, (clearingAmount row).reading = .beyond negative
      · exact Or.inl happart
      · refine Or.inr ?_
        cases hdiffer with
        | number hb hfar => exact absurd (Or.inl ⟨_, _, hb, hfar⟩) happart
        | infinite hbeyond => exact absurd (Or.inr ⟨_, hbeyond⟩) happart
        | currency hread hcurrency =>
            refine ⟨hread.imp Or.inr fun hread => ⟨⟨?_, hread⟩, happart⟩, hcurrency⟩
            rw [h.reading_eq]
            simp
  · have happart := apart_hundredths (PyDecimal.value_divHundred p.amountMinorUnits) hvalue hn hm
    rw [← hamount, ← h.internalAmount_eq] at happart
    have hread : BothRead (internalAmount row) (clearingAmount row) := by
      rw [BothRead, h.reading_eq, hamount,
        reading_decimal hvalue (hundredths_lt (by decide) hm)]
      simp
    by_cases heq : p.amountMinorUnits = m
    · have hnothing : amountsCheck (internalAmount row) (clearingAmount row) = .ok false :=
        amountsCheck_false_iff.mpr (Or.inr ⟨hread, fun hfar => happart.mp hfar heq⟩)
      by_cases hcurrency : SameCurrencies row
      · rw [if_pos ⟨heq, hsame.mp hcurrency⟩, classifyRecord_matched_iff]
        exact ⟨h.settled, hcurrency, hnothing⟩
      · rw [if_neg fun hboth => hcurrency (hsame.mpr hboth.2), classifyRecord_exception_iff h.settled]
        exact Or.inr ⟨hnothing, hcurrency⟩
    · rw [if_neg fun hboth => heq hboth.1, classifyRecord_exception_iff h.settled]
      exact Or.inl (amountsCheck_true_iff.mpr (happart.mpr heq))

end Rows

/-! ## A payment of 15 March 2024 -/

/-- A payment of 100.00 GBP that the clearing network refused, and then settled after all. -/
def refusedPayment : Payment :=
  { World.samplePayment with
    status := .FAILED
    clearingReference := some "CLR-001"
    retryCount := 3
    failureReason := some "timeout"
    updatedAt := 1710500400000
    version := 4 }

/-- Its row, next to a clearing record of some amount in GBP. -/
def refusedRow (amount : Cell) : Row Cell :=
  [("internal_amount", .decimal (.divHundred 10000)), ("internal_currency", .str "GBP"),
    ("internal_status", .str "FAILED"), ("clearing_reference", .str "CLR-NET-001"),
    ("clearing_amount", amount), ("clearing_currency", .str "GBP")]

theorem refusedRow_settled (amount : Cell) :
    FailedButSettled [refusedPayment] 19797 refusedPayment (refusedRow amount) :=
  ⟨List.mem_singleton_self _, by decide, rfl, by decide, ⟨rfl, rfl, rfl⟩, rfl⟩

/-- A clearing record of 90.00 makes it an EXCEPTION, one of 100.00 does not. -/
theorem failed_exception_apart :
    (queryRow refusedPayment ∈ queryPayments 19797 [refusedPayment] ∧
      classifyRecord (refusedRow (.decimal (.finite false 9000 (-2)))) = .ok .EXCEPTION) ∧
    classifyRecord (refusedRow (.decimal (.finite false 10000 (-2)))) = .ok .MATCHED := by
  have hvalue : ∀ n : Nat, PyDecimal.value (.finite false n (-2)) = some (((n : Int) : ℚ) / 100) := by
    intro n
    norm_num [PyDecimal.value, div_eq_mul_inv]
  obtain ⟨hselected, -, hhundredths⟩ :=
    failed_exception_iff (refusedRow_settled (.decimal (.finite false 9000 (-2))))
  obtain ⟨-, -, hsame⟩ :=
    failed_exception_iff (refusedRow_settled (.decimal (.finite false 10000 (-2))))
  have hrange : |(refusedPayment.amountMinorUnits : ℚ) / 100| < 2 ^ 44 := by
    norm_num [refusedPayment, World.samplePayment]
  refine ⟨⟨hselected, ?_⟩, ?_⟩
  · exact hhundredths _ 9000 rfl (hvalue 9000) hrange (by norm_num)
  · exact hsame _ 10000 rfl (hvalue 10000) hrange (by norm_num)

/-- **Settled in full, a failed payment is MATCHED**, by the classifier and by a whole reconciliation
over a settlement file without the network's references. -/
theorem failed_matched :
    classifyRecord (refusedRow (.decimal (.finite false 10000 (-2)))) = .ok .MATCHED ∧
      (do
        let clearing ← loadClearingFile asTimestamp
          (some (settlementFile [("PAY-20240315-000001-AB12", .str "100.00", "GBP")]))
        let internal := loadInternalPayments asTimestamp (queryPayments 19797 [refusedPayment])
        let result ← reconcile internal clearing
        pure (result.rows.map (Row.get · "status"))) = .ok [some (.str "MATCHED")] ∧
      ¬ ∀ (table : List Payment) (d : Day) (p : Payment) (row : Row Cell),
        FailedButSettled table d p row → classifyRecord row = .ok .EXCEPTION := by
  have hmatched : classifyRecord (refusedRow (.decimal (.finite false 10000 (-2)))) =
      .ok .MATCHED := by
    decide +kernel
  refine ⟨hmatched, by decide +kernel, fun hall => ?_⟩
  have hexception := hall _ _ _ _ (refusedRow_settled (.decimal (.finite false 10000 (-2))))
  rw [hmatched] at hexception
  cases hexception

end GlobalPayments.Recon

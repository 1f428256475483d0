/-
# GlobalPayments.Recon.Totals — what `total_amount_gbp` adds up.

The total is the sum of `internal_amount` over the rows of the result: every payment counts whatever
its currency, as hundredths, and as often as the settlement file repeats its reference.  The sum becomes
a double, and the column keeps two places of the decimal that is printed for it: below `2 ^ 46` that is
the sum itself, beyond that only where the sum is what its double prints (`storedAmount_round`).

So the stored figure is the sum of the GBP payments for tables without other rows (`total_gbp_iff`);
where the surplus of the others is not noticed, the sum is beyond `2 ^ 46` and rounding has swallowed
it.  `completed_total` takes the figure to the rows of COMPLETED runs.
-/
import GlobalPayments.Library.ReprText
import GlobalPayments.Recon.Conservation
import GlobalPayments.Recon.Summaries
import Mathlib.Algebra.Order.BigOperators.Group.List

namespace GlobalPayments.Recon

open Frame

/-- The rows of the query: one for each reference, and amounts as the ledger's checks leave them. -/
structure LedgerRows where
  payments : List PaymentRow
  unique : (payments.map (·.paymentReference)).Nodup
  positive : ∀ p ∈ payments, 0 < p.amountMinorUnits

/-- The hundredths of the GBP payments. -/
def gbpHundredths (payments : List PaymentRow) : Int :=
  ((payments.filter (·.currency = "GBP")).map (·.amountMinorUnits)).sum

/-- No payment is counted twice: the sum is over the set of the GBP payments. -/
theorem LedgerRows.gbpHundredths_eq_sum (ledger : LedgerRows) :
    gbpHundredths ledger.payments =
      ∑ p ∈ ledger.payments.toFinset with p.currency = "GBP", p.amountMinorUnits := by
  have hdistinct : ledger.payments.Nodup := ledger.unique.of_map _
  have hset : (ledger.payments.filter (·.currency = "GBP")).toFinset =
      {p ∈ ledger.payments.toFinset | p.currency = "GBP"} := by
    ext p
    simp
  rw [← hset, List.sum_toFinset _ (hdistinct.filter _), gbpHundredths]

/-- How many rows of the result are about a payment. -/
def repetitions (clearing : Frame Cell) (p : PaymentRow) : Nat := max 1 (multiplicity clearing p)

/-- The hundredths that are added up. -/
def reportedHundredths (payments : List PaymentRow) (clearing : Frame Cell) : Int :=
  (payments.map fun p => repetitions clearing p * p.amountMinorUnits).sum

variable {toDatetime : Cell → Cell} {payments : List PaymentRow} {clearing result : Frame Cell}

/-! ## The column of amounts -/

theorem mem_classified_columns {merged : Frame Cell} (h : classified merged = .ok result)
    {label : String}
    (hlabel : label ∉ ["status", "discrepancy_amount", "requires_investigation", "notes"])
    (hmem : label ∈ result.columns) : label ∈ merged.columns := by
  unfold classified at h
  obtain ⟨df₁, h₁, h⟩ := Runs.bind_eq_ok.mp h
  obtain ⟨df₂, h₂, h⟩ := Runs.bind_eq_ok.mp h
  obtain ⟨df₃, h₃, h₄⟩ := Runs.bind_eq_ok.mp h
  rw [assign_columns h₄, assign_columns h₃, assign_columns h₂, assign_columns h₁] at hmem
  have hset : ∀ (other : String) (columns : List String), label ≠ other →
      label ∈ setLabel other columns → label ∈ columns := by
    intro other columns hne hset
    unfold setLabel at hset
    split at hset
    · exact hset
    · exact (List.mem_append.mp hset).resolve_right (by simpa using hne)
  simp only [List.mem_cons, List.not_mem_nil, or_false, not_or] at hlabel
  exact hset _ _ hlabel.1 (hset _ _ hlabel.2.1 (hset _ _ hlabel.2.2.1 (hset _ _ hlabel.2.2.2 hmem)))

/-- The cells the total adds up: each payment's amount, as often as it has rows. -/
theorem result_amounts (hne : payments ≠ [])
    (h : reconcile (loadInternalPayments toDatetime payments) clearing = .ok result)
    (hcolumn : "internal_amount" ∈ result.columns) :
    result.rows.map (Row.get · "internal_amount") = payments.flatMap fun p =>
      List.replicate (repetitions clearing p) (some (.decimal (.divHundred p.amountMinorUnits))) := by
  rw [reconcile_of_ne_nil hne] at h
  obtain ⟨merged, hjoined, hclassified⟩ := Runs.bind_eq_ok.mp h
  obtain ⟨hcolumns, hrows⟩ := loadInternalPayments_of_ne_nil toDatetime hne
  have hmerged := mem_classified_columns hclassified (by decide) hcolumn
  have hinternal : "internal_amount" ∈ (loadInternalPayments toDatetime payments).columns := by
    rw [hcolumns]
    decide
  -- a column of that name in the clearing table would have renamed both
  have hnot : "internal_amount" ∉ common "payment_reference"
      (loadInternalPayments toDatetime payments).columns clearing.columns := by
    intro hcommon
    have hclearing : "internal_amount" ∈ clearing.columns := by
      simpa [common, hinternal] using hcommon
    rw [(mergeLeft_ok (joined_ok hjoined)).1] at hmerged
    exact not_mem_joinedColumns hinternal hclearing (by decide) (append_ne (by decide) (by decide))
      (append_ne (by decide) (by decide)) hmerged
  have hkept : result.rows.map (Row.get · "internal_amount") =
      merged.rows.map (Row.get · "internal_amount") :=
    (map_eq_of_forall₂ ((classified_rows hclassified).imp fun _ _ hrow =>
      (hrow.kept "internal_amount" (by decide)).symm)).symm
  rw [hkept, mergeLeft_column (joined_ok hjoined) hinternal hnot (append_ne (by decide) (by decide)),
    hrows, List.flatMap_map]
  refine List.flatMap_congr fun p _ => ?_
  rw [repetitions, multiplicity, List.countP_eq_length_filter]
  rfl

/-! ## The sum -/

theorem sum_replicated (repeats : PaymentRow → Nat) (payments : List PaymentRow) :
    (payments.flatMap fun p =>
        List.replicate (repeats p) ((p.amountMinorUnits : ℚ) / 100)).sum =
      (((payments.map fun p => repeats p * p.amountMinorUnits).sum : Int) : ℚ) / 100 := by
  induction payments with
  | nil => simp
  | cons p payments ih =>
      rw [List.flatMap_cons, List.sum_append, ih, List.map_cons, List.sum_cons, List.sum_replicate,
        nsmul_eq_mul]
      push_cast
      ring

theorem summand_hundredths (n : Int) :
    summand (.decimal (.divHundred n)) = .ok ((n : ℚ) / 100) := by
  have hvalue := PyDecimal.value_divHundred n
  have hisna : (Cell.decimal (.divHundred n)).isna = false := by
    cases hd : PyDecimal.divHundred n with
    | finite => rfl
    | infinity => rfl
    | nan =>
        rw [hd] at hvalue
        cases hvalue
  rw [summand, hisna]
  simp [Cell.number, hvalue]

/-- **What a run adds up**: the hundredths of every payment, times its rows. -/
theorem totalAmount_eq
    (h : reconcile (loadInternalPayments toDatetime payments) clearing = .ok result)
    {total : Binary64} (htotal : totalAmount result = .ok total) :
    total = .round ((reportedHundredths payments clearing : ℚ) / 100) := by
  by_cases hne : payments = []
  · subst hne
    obtain rfl := Except.ok.inj h
    obtain rfl := Except.ok.inj htotal
    simp [reportedHundredths, Binary64.round]
  · have hrows : result.rows ≠ [] := by
      intro hnil
      obtain ⟨p, hp⟩ := List.exists_mem_of_ne_nil payments hne
      have hreference := (mem_references h p.referenceCell).mpr ⟨p, hp, rfl⟩
      rw [references, hnil] at hreference
      cases hreference
    unfold totalAmount at htotal
    rw [if_neg hrows] at htotal
    split at htotal
    case isFalse => cases htotal
    rename_i hcolumn
    obtain ⟨amounts, hamounts, rfl⟩ := map_eq_ok htotal
    have hcells : result.rows.map (fun row => summand (getD row "internal_amount" .none)) =
        amounts.map Except.ok :=
      map_eq_of_forall₂ (Runs.mapM_ok_iff.mp hamounts)
    have hvalues : result.rows.map (fun row => summand (getD row "internal_amount" .none)) =
        (payments.flatMap fun p => List.replicate (repetitions clearing p)
          ((p.amountMinorUnits : ℚ) / 100)).map Except.ok := by
      have hcompose : (fun row : Row Cell => summand (getD row "internal_amount" .none)) =
          (fun cell => summand (cell.getD .none)) ∘ (Row.get · "internal_amount") := rfl
      rw [hcompose, ← List.map_map, result_amounts hne h hcolumn, List.map_flatMap, List.map_flatMap]
      refine List.flatMap_congr fun p _ => ?_
      rw [List.map_replicate, List.map_replicate]
      exact congrArg _ (summand_hundredths _)
    have hsame : amounts = payments.flatMap fun p => List.replicate (repetitions clearing p)
        ((p.amountMinorUnits : ℚ) / 100) :=
      List.map_injective_iff.mpr (fun _ _ => Except.ok.inj) (hcells.symm.trans hvalues)
    rw [hsame, sum_replicated]
    rfl

/-! ## The sum it should be -/

/-- Every payment is in GBP, and the clearing table repeats none of them. -/
def GbpOnce (payments : List PaymentRow) (clearing : Frame Cell) : Prop :=
  ∀ p ∈ payments, p.currency = "GBP" ∧ multiplicity clearing p ≤ 1

instance (payments : List PaymentRow) (clearing : Frame Cell) :
    Decidable (GbpOnce payments clearing) :=
  inferInstanceAs (Decidable (∀ p ∈ payments, p.currency = "GBP" ∧ multiplicity clearing p ≤ 1))

/-- The sum of all rows is so large that its 53 binary digits are also those of the GBP payments. -/
def Swallowed (payments : List PaymentRow) (clearing : Frame Cell) : Prop :=
  2 ^ 46 ≤ (reportedHundredths payments clearing : ℚ) / 100 ∧
    Binary64.nearest ((reportedHundredths payments clearing : ℚ) / 100) =
      Binary64.nearest ((gbpHundredths payments : ℚ) / 100)

/-- What a payment should add. -/
def due (p : PaymentRow) : Int := if p.currency = "GBP" then p.amountMinorUnits else 0

theorem gbpHundredths_eq (payments : List PaymentRow) :
    gbpHundredths payments = (payments.map due).sum := by
  induction payments with
  | nil => rfl
  | cons p payments ih =>
      rw [List.map_cons, List.sum_cons, ← ih, gbpHundredths, List.filter_cons]
      by_cases hgbp : p.currency = "GBP"
      · simp [hgbp, due, gbpHundredths]
      · simp [hgbp, due, gbpHundredths]

/-- A payment adds at least what it should, and more unless it is in GBP and has one row. -/
theorem due_le {p : PaymentRow} (hpos : 0 < p.amountMinorUnits) (clearing : Frame Cell) :
    due p ≤ repetitions clearing p * p.amountMinorUnits ∧
      (¬ (p.currency = "GBP" ∧ multiplicity clearing p ≤ 1) →
        due p < repetitions clearing p * p.amountMinorUnits) := by
  have hone : (1 : Int) ≤ repetitions clearing p := by
    unfold repetitions
    omega
  have hle : p.amountMinorUnits ≤ repetitions clearing p * p.amountMinorUnits :=
    le_mul_of_one_le_left hpos.le hone
  unfold due
  refine ⟨by split <;> omega, fun hextra => ?_⟩
  split
  · rename_i hgbp
    have htwice : (2 : Int) ≤ repetitions clearing p := by
      have hrepeated : ¬ multiplicity clearing p ≤ 1 := fun h => hextra ⟨hgbp, h⟩
      unfold repetitions
      omega
    have htwo := mul_le_mul_of_nonneg_right htwice hpos.le
    omega
  · omega

/-- The surplus is nothing exactly for GBP payments with one row each. -/
theorem reported_eq_gbp_iff (ledger : LedgerRows) (clearing : Frame Cell) :
    gbpHundredths ledger.payments ≤ reportedHundredths ledger.payments clearing ∧
      (reportedHundredths ledger.payments clearing = gbpHundredths ledger.payments ↔
        GbpOnce ledger.payments clearing) := by
  have hterms : ∀ p ∈ ledger.payments, due p ≤ repetitions clearing p * p.amountMinorUnits :=
    fun p hp => (due_le (ledger.positive p hp) clearing).1
  rw [gbpHundredths_eq, reportedHundredths]
  refine ⟨List.sum_le_sum hterms, fun heq => ?_, fun hclean => ?_⟩
  · by_contra hextra
    simp only [GbpOnce, not_forall] at hextra
    obtain ⟨p, hp, hextra⟩ := hextra
    have hlt := List.sum_lt_sum due (fun p => repetitions clearing p * p.amountMinorUnits) hterms
      ⟨p, hp, (due_le (ledger.positive p hp) clearing).2 hextra⟩
    omega
  · refine congrArg List.sum (List.map_congr_left fun p hp => ?_)
    obtain ⟨hgbp, honce⟩ := hclean p hp
    have hone : repetitions clearing p = 1 := by
      unfold repetitions
      omega
    rw [due, if_pos hgbp, hone]
    exact one_mul _

/-! ## The column -/

section Column

variable {run : ReconciliationRun} {n : Nat} {q : ℚ}

/-- A number of hundredths fits the column. -/
theorem storedAmount_of_hundredths (hrun : run.totalAmountGbp = .finite q) (hq : 0 < q)
    (hprinted : Binary64.shortest q = n / 100) :
    run.storedAmount.bind PyDecimal.value = some ((n : ℚ) / 100) := by
  obtain ⟨coefficient, exponent, htext, hvalue⟩ := Binary64.ofString_repr hq
  rw [hprinted] at hvalue
  have hread : (PyDecimal.finite false coefficient exponent).value = some ((n : ℚ) / 100) := by
    rw [← hvalue]
    rfl
  have hnonneg : (0 : ℚ) ≤ n / 100 := by positivity
  have hcents : ⌊|(n : ℚ) / 100| * 100 + 1 / 2⌋.toNat = n := by
    rw [abs_of_nonneg hnonneg, div_mul_cancel₀ _ (by norm_num)]
    have hfloor : ⌊(n : ℚ) + 1 / 2⌋ = n := by
      rw [Int.floor_eq_iff]
      push_cast
      constructor <;> linarith
    rw [hfloor, Int.toNat_natCast]
  unfold ReconciliationRun.storedAmount numericColumn
  rw [hrun]
  dsimp only
  rw [htext, Option.map_some, hread]
  dsimp only
  rw [hcents, decide_eq_false (not_lt.mpr hnonneg), Option.bind_some, PyDecimal.value, Bool.false_and]
  norm_num
  ring

/-- **What the column keeps of a sum**: the sum below `2 ^ 46`, and from there on the decimal that is
printed for its double. -/
theorem storedAmount_round (hrun : run.totalAmountGbp = .round ((n : ℚ) / 100)) :
    ((n : ℚ) / 100 < 2 ^ 46 → run.storedAmount.bind PyDecimal.value = some ((n : ℚ) / 100)) ∧
    (2 ^ 46 ≤ (n : ℚ) / 100 → ∀ x, run.storedAmount.bind PyDecimal.value = some x ↔
      ∃ q, Binary64.round ((n : ℚ) / 100) = .finite q ∧ Binary64.shortest q = x) := by
  constructor
  · intro hsmall
    rcases Nat.eq_zero_or_pos n with rfl | hpos
    · rw [Nat.cast_zero, zero_div, Binary64.round, if_pos rfl] at hrun
      unfold ReconciliationRun.storedAmount
      rw [hrun, Nat.cast_zero, zero_div]
      decide +kernel
    · obtain ⟨q, hq, -⟩ := Binary64.round_lt_half_hundredth (q := (n : ℚ) / 100) (by
        rwa [abs_of_nonneg (by positivity)])
      have hlow := Binary64.hundredth_le_of_round hpos hsmall hq
      exact storedAmount_of_hundredths (hrun.trans hq) (by linarith)
        (Binary64.shortest_of_hundredths hpos hsmall hq)
  · intro hlarge x
    have hpow : (2 : ℚ) ^ (46 : Int) ≤ n / 100 := by exact_mod_cast hlarge
    rcases Binary64.zpow_le_round (by decide) hpow with hinfinite | ⟨q, hq, hle⟩
    · have hnone : run.storedAmount.bind PyDecimal.value = none := by
        unfold ReconciliationRun.storedAmount
        rw [hrun, hinfinite]
        decide +kernel
      rw [hnone, hinfinite]
      exact iff_of_false (by simp) (by simp)
    · have hle : 2 ^ 46 ≤ q := by exact_mod_cast hle
      have hdouble : Binary64.round q = .finite q := Binary64.round_round hq
      obtain ⟨k, hk⟩ := Binary64.shortest_hundredths_of_large hdouble hle
      rw [storedAmount_of_hundredths (hrun.trans hq) (lt_of_lt_of_le (by norm_num) hle) hk, ← hk, hq]
      simp

end Column

/-! ## The figure -/

/-- The GBP payments add up to a number of hundredths. -/
theorem gbpHundredths_nonneg (ledger : LedgerRows) : 0 ≤ gbpHundredths ledger.payments := by
  apply List.sum_nonneg
  intro n hn
  obtain ⟨p, hp, rfl⟩ := List.mem_map.mp hn
  exact (ledger.positive p (List.mem_filter.mp hp).1).le

/-- **What is stored of the hundredths that are added up**, compared with those of the GBP payments. -/
theorem storedAmount_iff (ledger : LedgerRows) {run : ReconciliationRun}
    (hrun : run.totalAmountGbp =
      .round ((reportedHundredths ledger.payments clearing : ℚ) / 100)) :
    run.storedAmount.bind PyDecimal.value = some ((gbpHundredths ledger.payments : ℚ) / 100) ↔
      (GbpOnce ledger.payments clearing ∨ Swallowed ledger.payments clearing) ∧
        ((gbpHundredths ledger.payments : ℚ) / 100 < 2 ^ 46 ∨
          Binary64.Printed ((gbpHundredths ledger.payments : ℚ) / 100)) := by
  obtain ⟨hle, hexact⟩ := reported_eq_gbp_iff ledger clearing
  have hnonneg := gbpHundredths_nonneg ledger
  unfold Swallowed
  rw [← hexact]
  generalize gbpHundredths ledger.payments = due at hle hnonneg ⊢
  generalize reportedHundredths ledger.payments clearing = total at hrun hle ⊢
  obtain ⟨due, rfl⟩ := Int.eq_ofNat_of_zero_le hnonneg
  obtain ⟨total, rfl⟩ := Int.eq_ofNat_of_zero_le (hnonneg.trans hle)
  simp only [Int.cast_natCast, Nat.cast_inj, Nat.cast_le] at hrun hle ⊢
  obtain ⟨hbelow, hbeyond⟩ := storedAmount_round hrun
  have hcast : (due : ℚ) ≤ total := by exact_mod_cast hle
  by_cases hsmall : (total : ℚ) / 100 < 2 ^ 46
  · rw [hbelow hsmall, Option.some.injEq, div_left_inj' (by norm_num), Nat.cast_inj]
    refine ⟨fun heq => ⟨Or.inl heq, Or.inl ?_⟩, fun h => ?_⟩
    · linarith
    · exact h.1.resolve_right fun hswallowed => absurd hswallowed.1 (not_le.mpr hsmall)
  · rw [not_lt] at hsmall
    rw [hbeyond hsmall]
    constructor
    · rintro ⟨q, hq, hprinted⟩
      have hround : Binary64.round ((due : ℚ) / 100) = .finite q := by
        rw [← hprinted]
        have hpow : (2 : ℚ) ^ (46 : Int) ≤ total / 100 := by exact_mod_cast hsmall
        rcases Binary64.zpow_le_round (by decide) hpow with hinfinite | ⟨r, hr, hlarge⟩
        · rw [hq] at hinfinite
          cases hinfinite
        · obtain rfl := Binary64.finite.inj (hr.symm.trans hq)
          have hone : (1 : ℚ) ≤ r := le_trans (by norm_num) hlarge
          exact Binary64.round_shortest (Binary64.round_round hq) hone
      have hdigits := (Binary64.nearest_of_round hq).1.trans (Binary64.nearest_of_round hround).1.symm
      exact ⟨Or.inr ⟨hsmall, hdigits⟩, Or.inr ⟨q, hround, hprinted⟩⟩
    · rintro ⟨hsame, hshown⟩
      have hround : Binary64.round ((total : ℚ) / 100) = .round ((due : ℚ) / 100) := by
        rcases hsame with heq | ⟨-, heq⟩
        · rw [heq]
        · exact Binary64.round_eq_of_nearest (by positivity) (by positivity) heq
      rw [hround]
      refine hshown.resolve_left fun hdue => ?_
      -- a sum below `2 ^ 46` does not have the double of one from there on
      have hpow : (2 : ℚ) ^ (46 : Int) ≤ total / 100 := by exact_mod_cast hsmall
      obtain ⟨q, hq, -⟩ := Binary64.round_lt_half_hundredth (q := (due : ℚ) / 100) (by
        rwa [abs_of_nonneg (by positivity)])
      have hlt := (Binary64.near_hundredths hdue hq).2
      rcases Binary64.zpow_le_round (by decide) hpow with hinfinite | ⟨r, hr, hlarge⟩
      · rw [hround, hq] at hinfinite
        cases hinfinite
      · obtain rfl := Binary64.finite.inj (hr.symm.trans (hround.trans hq))
        exact absurd hlt (not_lt.mpr (by exact_mod_cast hlarge))

/-- **When the stored total is the GBP total.**  When every reconciled payment is in GBP and has one
row, and the sum is below `2 ^ 46` or what its double prints; beyond that only when the sum of all rows
is at least `2 ^ 46` and its 53 digits do not show the surplus. -/
theorem total_gbp_iff (ledger : LedgerRows)
    (hresult : reconcile (loadInternalPayments toDatetime ledger.payments) clearing = .ok result)
    {run : ReconciliationRun} (htotal : totalAmount result = .ok run.totalAmountGbp) :
    run.storedAmount.bind PyDecimal.value = some ((gbpHundredths ledger.payments : ℚ) / 100) ↔
      (GbpOnce ledger.payments clearing ∨ Swallowed ledger.payments clearing) ∧
        ((gbpHundredths ledger.payments : ℚ) / 100 < 2 ^ 46 ∨
          Binary64.Printed ((gbpHundredths ledger.payments : ℚ) / 100)) :=
  storedAmount_iff ledger (totalAmount_eq hresult htotal)

/-! ## Completed runs -/

/-- The query returns rows of the ledger. -/
def Action.FromLedger : Action → Prop
  | .step _ (.queried rows) => ∃ ledger : LedgerRows, ledger.payments = rows
  | _ => True

/-- A table loaded from the ledger. -/
def LoadedFrom (toDatetime : Cell → Cell) (internal : Frame Cell) : Prop :=
  ∃ ledger : LedgerRows, internal = loadInternalPayments toDatetime ledger.payments

/-- A result of a table loaded from the ledger. -/
def ResultOf (toDatetime : Cell → Cell) (results : Frame Cell) : Prop :=
  ∃ (ledger : LedgerRows) (clearing : Frame Cell),
    reconcile (loadInternalPayments toDatetime ledger.payments) clearing = .ok results

/-- What a call holds between its query and the commit of its total. -/
def Worker.Totalled (toDatetime : Cell → Cell) (worker : Worker) : Prop :=
  match worker.phase with
  | .loadingClearing internal => LoadedFrom toDatetime internal
  | .reconciling internal _ => LoadedFrom toDatetime internal
  | .building results _ _ => ResultOf toDatetime results
  | .inserting results _ _ => ResultOf toDatetime results
  | .committingBatch results _ => ResultOf toDatetime results
  | .summarising results => ResultOf toDatetime results
  | .totalling results => ResultOf toDatetime results
  | .committingSummary results =>
      ResultOf toDatetime results ∧ totalAmount results = .ok worker.run.totalAmountGbp
  | _ => True

/-- The total of a run row is that of a result whose rows are the run's records. -/
def Accounted (toDatetime : Cell → Cell) (records : List ReconciliationRecord)
    (run : ReconciliationRun) : Prop :=
  ∃ results, ResultOf toDatetime results ∧ List.Forall₂ (RecordOf run.id) results.rows records ∧
    totalAmount results = .ok run.totalAmountGbp

section Stored

variable {db db' : ReportingDb} {worker worker' : Worker} {outcome : Outcome}

theorem totalled_nextRow {results : Frame Cell} {rest : List (Row Cell)}
    {batch : List ReconciliationRecord} (h : ResultOf toDatetime results) :
    ({ worker with phase := nextRow results rest batch } : Worker).Totalled toDatetime := by
  unfold nextRow
  split <;> exact h

theorem Advances.totalled_kept (h : Advances toDatetime db worker outcome db' worker')
    (hledger : ∀ rows, outcome = .queried rows → ∃ ledger : LedgerRows, ledger.payments = rows)
    (htotalled : worker.Totalled toDatetime) : worker'.Totalled toDatetime := by
  cases h with
  | queried rows hphase =>
      obtain ⟨ledger, rfl⟩ := hledger rows rfl
      exact ⟨ledger, rfl⟩
  | reconciled hphase hresult =>
      simp only [Worker.Totalled, hphase] at htotalled
      obtain ⟨ledger, rfl⟩ := htotalled
      exact ⟨ledger, _, hresult⟩
  | built id hphase _ =>
      simp only [Worker.Totalled, hphase] at htotalled
      exact totalled_nextRow htotalled
  | totalled now hphase htotal =>
      simp only [Worker.Totalled, hphase] at htotalled
      exact ⟨htotalled, htotal⟩
  | downloaded file hphase =>
      simpa only [Worker.Totalled, hphase] using htotalled
  | persisted hphase =>
      simpa only [Worker.Totalled, hphase] using htotalled
  | remainder hphase =>
      simpa only [Worker.Totalled, hphase] using htotalled
  | inserted now hphase =>
      simpa only [Worker.Totalled, hphase] using htotalled
  | committedBatch hphase =>
      simpa only [Worker.Totalled, hphase] using htotalled
  | summarised hphase =>
      simpa only [Worker.Totalled, hphase] using htotalled
  | _ => trivial

/-- The invariant of the totals. -/
structure Sys.Totalled (toDatetime : Cell → Cell) (s : Sys) : Prop where
  sound : s.Sound
  stored : ∀ run ∈ s.db.runs, run.status = .COMPLETED →
    Accounted toDatetime (s.db.recordsOf run.id) run
  workers : ∀ w, (s.workers w).Totalled toDatetime

theorem Sys.Totalled.step {s s' : Sys} {a : Action} (h : s.Totalled toDatetime)
    (hledger : a.FromLedger) (hstep : Recon.step toDatetime s a = some s') :
    s'.Totalled toDatetime := by
  rcases step_cases hstep with ⟨w, date, -, hstarted⟩ | ⟨w, outcome, rfl, hstepped⟩
  · refine ⟨h.sound.started hstarted, hstarted.db ▸ h.stored, ?_⟩
    exact hstarted.forall_worker (P := fun _ _ worker => worker.Totalled toDatetime) trivial
      fun w' _ => h.workers w'
  · refine ⟨h.sound.stepped hstepped, ?_, fun w' => ?_⟩
    · refine hstepped.forall_completed h.sound h.stored fun results hphase => ?_
      have htotalled := h.workers w
      have hfiled := (h.sound.workers w).filed
      simp only [Worker.Totalled, hphase] at htotalled
      simp only [Worker.Filed, hphase] at hfiled
      exact ⟨results, htotalled.1, hfiled, htotalled.2⟩
    · by_cases hw : w' = w
      · subst hw
        refine hstepped.advances.totalled_kept ?_ (h.workers w')
        rintro rows rfl
        exact hledger
      · rw [hstepped.others w' hw]
        exact h.workers w'

/-- **A completed run's total is that of its records.**  In every reachable state, whatever calls have
been made, the total of a COMPLETED row is what the rows behind its records add up to. -/
theorem completed_total {trace : List Action} {s : Sys}
    (hrun : Runs.RunsUnder (step toDatetime) (fun _ a => a.FromLedger) (Sys.start ⟨[], []⟩) trace s)
    {run : ReconciliationRun} (hmem : run ∈ s.db.runs) (hcompleted : run.status = .COMPLETED) :
    ∃ (ledger : LedgerRows) (clearing results : Frame Cell),
      reconcile (loadInternalPayments toDatetime ledger.payments) clearing = .ok results ∧
      List.Forall₂ (RecordOf run.id) results.rows (s.db.recordsOf run.id) ∧
      (run.storedAmount.bind PyDecimal.value = some ((gbpHundredths ledger.payments : ℚ) / 100) ↔
        (GbpOnce ledger.payments clearing ∨ Swallowed ledger.payments clearing) ∧
          ((gbpHundredths ledger.payments : ℚ) / 100 < 2 ^ 46 ∨
            Binary64.Printed ((gbpHundredths ledger.payments : ℚ) / 100))) := by
  have htotalled : s.Totalled toDatetime :=
    hrun.invariant (fun _ _ _ hs hledger hstep => hs.step hledger hstep)
      ⟨.start .empty, fun _ h => absurd h List.not_mem_nil, fun _ => trivial⟩
  obtain ⟨results, ⟨ledger, clearing, hresult⟩, hrecords, htotal⟩ :=
    htotalled.stored run hmem hcompleted
  exact ⟨ledger, clearing, results, hresult, hrecords,
    storedAmount_iff ledger (totalAmount_eq hresult htotal)⟩

end Stored

/-! ## Three tables -/

/-- A run row with a total. -/
def totalling (total : ℚ) : ReconciliationRun := { newRun 19797 with totalAmountGbp := .round total }

def sampleLedger : LedgerRows where
  payments := samplePayments
  unique := by decide
  positive := by decide

/-- Payments of 100.00 GBP and 25.00 GBP, settled once each: 125.00 is stored. -/
theorem total_gbp_sample :
    ∃ clearing result, loadClearingFile asTimestamp (some (settledAt "100.00" "25.00")) = .ok clearing ∧
      reconcile (loadInternalPayments asTimestamp sampleLedger.payments) clearing = .ok result ∧
      totalAmount result = .ok (totalling 125).totalAmountGbp ∧
      GbpOnce sampleLedger.payments clearing ∧
      (totalling 125).storedAmount.map PyDecimal.toText = some "125.00" ∧
      (totalling 125).storedAmount.bind PyDecimal.value =
        some ((gbpHundredths sampleLedger.payments : ℚ) / 100) := by
  obtain ⟨clearing, hclearing, hclean, htotal⟩ : ∃ clearing,
      loadClearingFile asTimestamp (some (settledAt "100.00" "25.00")) = .ok clearing ∧
      GbpOnce sampleLedger.payments clearing ∧
      (reconcile (loadInternalPayments asTimestamp sampleLedger.payments) clearing).bind totalAmount =
        .ok (.round 125) := ⟨_, rfl, by decide +kernel, by decide +kernel⟩
  obtain ⟨result, hresult, htotal⟩ := Runs.bind_eq_ok.mp htotal
  exact ⟨clearing, result, hclearing, hresult, htotal, hclean, by decide +kernel,
    (total_gbp_iff sampleLedger hresult htotal).mpr ⟨Or.inl hclean, Or.inl (by decide +kernel)⟩⟩

/-- A GBP payment of 100.00 and a USD payment of 25.00. -/
def mixedLedger : LedgerRows where
  payments := samplePayments.map fun p =>
    if p.amountMinorUnits = 2500 then { p with currency := "USD" } else p
  unique := by decide
  positive := by decide

/-- A GBP payment of 100.00. -/
def singleLedger : LedgerRows where
  payments := samplePayments.take 1
  unique := by decide
  positive := by decide

/-- A GBP payment of 70368744177664.01. -/
def largeLedger : LedgerRows where
  payments := [completedPayment "PAY-20240315-000003-EF56" "00000000-0000-0000-0000-000000000009"
    7036874417766401 "CLR-003"]
  unique := by decide
  positive := by decide

/-- For the GBP payment and the one in USD 125.00 is stored, for a GBP payment settled in two lines
200.00, where the GBP payments make 100.00; and the double of a payment beyond `2 ^ 46` prints as the
hundredth above it. -/
theorem total_mixed :
    ((reconcile (loadInternalPayments asTimestamp mixedLedger.payments) sampleTables.clearing).bind
        totalAmount = .ok (totalling 125).totalAmountGbp ∧
      (totalling 125).storedAmount.map PyDecimal.toText = some "125.00" ∧
      (gbpHundredths mixedLedger.payments : ℚ) / 100 = 100) ∧
    ((reconcile (loadInternalPayments asTimestamp singleLedger.payments) settledTwice).bind
        totalAmount = .ok (totalling 200).totalAmountGbp ∧
      (totalling 200).storedAmount.map PyDecimal.toText = some "200.00" ∧
      (gbpHundredths singleLedger.payments : ℚ) / 100 = 100) ∧
    ((reconcile (loadInternalPayments asTimestamp largeLedger.payments) sampleTables.clearing).bind
        totalAmount = .ok (totalling (7036874417766401 / 100)).totalAmountGbp ∧
      (totalling (7036874417766401 / 100)).storedAmount.map PyDecimal.toText =
        some "70368744177664.02") ∧
    ¬ ∀ (ledger : LedgerRows) (clearing result : Frame Cell) (run : ReconciliationRun),
      reconcile (loadInternalPayments asTimestamp ledger.payments) clearing = .ok result →
      totalAmount result = .ok run.totalAmountGbp →
      run.storedAmount.bind PyDecimal.value = some ((gbpHundredths ledger.payments : ℚ) / 100) := by
  have hmixed : (reconcile (loadInternalPayments asTimestamp mixedLedger.payments)
      sampleTables.clearing).bind totalAmount = .ok (totalling 125).totalAmountGbp := by decide +kernel
  refine ⟨⟨hmixed, by decide +kernel, by decide +kernel⟩,
    ⟨by decide +kernel, by decide +kernel, by decide +kernel⟩,
    ⟨by decide +kernel, by decide +kernel⟩, fun hall => ?_⟩
  obtain ⟨result, hresult, htotal⟩ := Runs.bind_eq_ok.mp hmixed
  exact absurd (hall mixedLedger sampleTables.clearing result _ hresult htotal) (by decide +kernel)

end GlobalPayments.Recon

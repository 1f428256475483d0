/-
# GlobalPayments.Recon.Absence — how a record says that there is nothing.

A payment without a clearing row has no clearing amount, and a record that is no exception has no
discrepancy.  The record should say so with `None`, which is stored as NULL.  But the join fills the
clearing columns with NaN or NaT, and a discrepancy next to a number in its column is NaN as well;
`_persist_results` hands both on as they are.

`absenceKept_iff` states exactly for which tables every absence is a `None`: for every payment and its
clearing row, if it has one, it says by their cells whether the pair is told apart.
-/
import GlobalPayments.Recon.Classify
import GlobalPayments.Recon.Invariant

namespace GlobalPayments.Recon

open Frame

variable {toDatetime : Cell → Cell} {payments : List PaymentRow} {clearing result : Frame Cell}

/-! ## What is claimed of the records -/

/-- The clearing columns of a record, the network's reference aside. -/
def ReconciliationRecord.clearingCells (r : ReconciliationRecord) : List Cell :=
  [r.clearingAmount, r.clearingCurrency, r.clearingStatus, r.clearingSettledAt]

/-- The labels they are read from. -/
def clearingLabels : List String :=
  ["clearing_amount", "clearing_currency", "clearing_status", "clearing_settled_at"]

/-- No clearing row has this reference. -/
def Unsettled (clearing : Frame Cell) (reference : Cell) : Prop :=
  ∀ row ∈ clearing.rows, row.get "payment_reference" ≠ some reference

instance (clearing : Frame Cell) (reference : Cell) : Decidable (Unsettled clearing reference) :=
  inferInstanceAs (Decidable (∀ row ∈ clearing.rows, _ ≠ _))

/-- What is absent is `None`: the clearing columns of a payment without a clearing row, and the
discrepancy of a record that is no EXCEPTION. -/
structure AbsenceKept (clearing : Frame Cell) (records : List ReconciliationRecord) : Prop where
  clearing : ∀ r ∈ records, Unsettled clearing r.paymentReference →
    ∀ cell ∈ r.clearingCells, cell = .none
  discrepancy : ∀ r ∈ records, r.status ≠ .EXCEPTION → r.discrepancyAmount = .none

/-! ## The discrepancy of a joined row -/

/-- A joined row is an EXCEPTION whose amounts can both be read. -/
def compared (m : Row Cell) : Bool :=
  match classifyRecord m, (getD m "internal_amount" (.int 0)).toFloat,
      (getD m "clearing_amount" (.int 0)).toFloat with
  | .ok .EXCEPTION, .ok _, .ok _ => true
  | _, _, _ => false

theorem compared_eq_true_iff {m : Row Cell} : compared m = true ↔
    classifyRecord m = .ok .EXCEPTION ∧ (∃ a, (getD m "internal_amount" (.int 0)).toFloat = .ok a) ∧
      ∃ b, (getD m "clearing_amount" (.int 0)).toFloat = .ok b := by
  unfold compared
  generalize (getD m "internal_amount" (.int 0)).toFloat = x
  generalize (getD m "clearing_amount" (.int 0)).toFloat = y
  rcases classifyRecord m with e | status
  · simp
  · cases status <;> cases x <;> cases y <;> simp

/-- The cell `_compute_discrepancy` has for a joined row. -/
inductive Discrepancy (m : Row Cell) : Cell → Prop
  | number (x : Binary64) : compared m = true → Discrepancy m (.float x)
  | absent : compared m = false → Discrepancy m .none

/-- What `_compute_discrepancy` has for an EXCEPTION: a number if both amounts can be read.  An amount
that cannot is caught, where the run goes on. -/
theorem computeDiscrepancy_exception {row : Row Cell} {cell : Cell}
    (hstatus : getD row "status" .none = .str ReconciliationStatus.EXCEPTION.value)
    (h : computeDiscrepancy row = .ok cell) :
    (∃ a b, (getD row "internal_amount" (.int 0)).toFloat = .ok a ∧
        (getD row "clearing_amount" (.int 0)).toFloat = .ok b ∧ cell = .float (a.sub b).abs) ∨
      (∃ e, (getD row "internal_amount" (.int 0)).toFloat = .error e ∨
        (getD row "clearing_amount" (.int 0)).toFloat = .error e) ∧ cell = .none := by
  unfold computeDiscrepancy at h
  rw [if_neg (not_not.mpr hstatus)] at h
  split at h
  · rename_i a b ha hb
    exact Or.inl ⟨a, b, ha, hb, (Except.ok.inj h).symm⟩
  · rename_i ha
    exact Or.inr ⟨⟨_, Or.inl ha⟩, (Except.ok.inj h).symm⟩
  · rename_i ha
    exact Or.inr ⟨⟨_, Or.inl ha⟩, (Except.ok.inj h).symm⟩
  · cases h
  · rename_i hb
    exact Or.inr ⟨⟨_, Or.inr hb⟩, (Except.ok.inj h).symm⟩
  · rename_i hb
    exact Or.inr ⟨⟨_, Or.inr hb⟩, (Except.ok.inj h).symm⟩
  · cases h

/-- The status column is set by then, and the amounts are those of the joined row. -/
theorem discrepancy_of_compute {m row : Row Cell} {status : ReconciliationStatus} {cell : Cell}
    (hstatus : classifyRecord m = .ok status) (hcell : row.get "status" = some (.str status.value))
    (hkept : ∀ label, label ≠ "status" → row.get label = m.get label)
    (h : computeDiscrepancy row = .ok cell) : Discrepancy m cell := by
  have hinternal : getD row "internal_amount" (.int 0) = getD m "internal_amount" (.int 0) := by
    rw [getD, hkept _ (by decide), getD]
  have hclearing : getD row "clearing_amount" (.int 0) = getD m "clearing_amount" (.int 0) := by
    rw [getD, hkept _ (by decide), getD]
  have hvalue : getD row "status" .none = .str status.value := by
    rw [getD, hcell]
    rfl
  by_cases hexception : status = .EXCEPTION
  · subst hexception
    rcases computeDiscrepancy_exception hvalue h with
      ⟨a, b, ha, hb, rfl⟩ | ⟨⟨e, hunread⟩, rfl⟩
    · rw [hinternal] at ha
      rw [hclearing] at hb
      refine .number _ ?_
      unfold compared
      rw [hstatus, ha, hb]
    · rw [hinternal, hclearing] at hunread
      refine .absent ?_
      unfold compared
      rw [hstatus]
      rcases hunread with ha | hb
      · rw [ha]
      · rw [hb]
        cases (getD m "internal_amount" (.int 0)).toFloat with
        | ok a => rfl
        | error e' => rfl
  · have hother : Cell.str status.value ≠ .str ReconciliationStatus.EXCEPTION.value := by
      rw [Ne, Cell.str.injEq, ReconciliationStatus.value_injective.eq_iff]
      exact hexception
    unfold computeDiscrepancy at h
    rw [hvalue, if_pos hother] at h
    obtain rfl := Except.ok.inj h
    refine .absent ?_
    unfold compared
    rw [hstatus]
    cases status with
    | EXCEPTION => exact absurd rfl hexception
    | MATCHED => rfl
    | UNMATCHED => rfl

theorem Discrepancy.eq_none_iff {m : Row Cell} {cell : Cell} (h : Discrepancy m cell) :
    cell = .none ↔ compared m = false := by
  cases h with
  | number x hcompared => simp [hcompared]
  | absent hcompared => exact iff_of_true rfl hcompared

/-- A column of discrepancies holds numbers and `None` only. -/
theorem Discrepancy.none_or_float {m : Row Cell} {cell : Cell} (h : Discrepancy m cell) :
    cell = .none ∨ ∃ x, cell = .float x := by
  cases h with
  | number x _ => exact Or.inr ⟨x, rfl⟩
  | absent _ => exact Or.inl rfl

/-- In such a column a `None` lasts exactly when there is no number next to it. -/
theorem seriesCell_none_iff {column : List Cell}
    (h : ∀ cell ∈ column, cell = .none ∨ ∃ x, cell = .float x) :
    seriesCell column .none = .none ↔ ∀ cell ∈ column, cell = .none := by
  constructor
  · intro hlasts cell hcell
    rcases h cell hcell with hnone | ⟨x, rfl⟩
    · exact hnone
    · have hnan : seriesCell column .none = .nan := by
        unfold seriesCell
        refine if_pos ⟨rfl, List.any_eq_true.mpr ⟨_, hcell, rfl⟩,
          List.all_eq_true.mpr fun c hc => ?_⟩
        rcases h c hc with rfl | ⟨y, rfl⟩ <;> rfl
      rw [hnan] at hlasts
      cases hlasts
  · intro hall
    unfold seriesCell
    refine if_neg ?_
    rintro ⟨-, hany, -⟩
    obtain ⟨c, hc, hfloat⟩ := List.any_eq_true.mp hany
    rw [hall c hc] at hfloat
    cases hfloat

/-! ## From the joined rows to the records -/

/-- The joined rows of the two tables, payment by payment. -/
def joinedRows (toDatetime : Cell → Cell) (payments : List PaymentRow) (clearing : Frame Cell) :
    List (Row Cell) :=
  let internal := loadInternalPayments toDatetime payments
  internal.rows.flatMap
    (joinRow "payment_reference" "_internal" "_clearing" (missingCell clearing) internal clearing)

/-- What a record keeps of a joined row, next to the column of discrepancies it was computed in. -/
structure RecordedAs (column : List Cell) (m : Row Cell) (r : ReconciliationRecord) : Prop where
  reference : m.get "payment_reference" = some r.paymentReference
  status : classifyRecord m = .ok r.status
  clearing : r.clearingCells = clearingLabels.map (getD m · .none)
  discrepancy : ∃ cell, Discrepancy m cell ∧ r.discrepancyAmount = seriesCell column cell

/-- The clearing columns and the discrepancy go from the row to its record as they are. -/
theorem RecordOf.cells {run : String} {row : Row Cell} {r : ReconciliationRecord}
    (h : RecordOf run row r) :
    r.clearingCells = clearingLabels.map (getD row · .none) ∧
      r.discrepancyAmount = getD row "discrepancy_amount" .none := by
  obtain ⟨id, h⟩ := h
  unfold toRecord at h
  obtain ⟨reference, -, h⟩ := Runs.bind_eq_ok.mp h
  obtain ⟨cell, -, h⟩ := Runs.bind_eq_ok.mp h
  obtain ⟨status, -, h⟩ := Runs.bind_eq_ok.mp h
  have heq := Except.ok.inj h
  have hamount := congrArg ReconciliationRecord.clearingAmount heq
  have hcurrency := congrArg ReconciliationRecord.clearingCurrency heq
  have hstatus := congrArg ReconciliationRecord.clearingStatus heq
  have hsettled := congrArg ReconciliationRecord.clearingSettledAt heq
  have hdiscrepancy := congrArg ReconciliationRecord.discrepancyAmount heq
  refine ⟨?_, hdiscrepancy.symm⟩
  show [_, _, _, _] = [_, _, _, _]
  rw [← hamount, ← hcurrency, ← hstatus, ← hsettled]

/-- What the first two assignments make of the joined rows, and the last two leave. -/
theorem classified_discrepancies {merged : Frame Cell} (h : classified merged = .ok result) :
    ∃ column, List.Forall₂ Discrepancy merged.rows column ∧
      List.Forall₂ (fun m row => ∃ cell, Discrepancy m cell ∧
        row.get "discrepancy_amount" = some (seriesCell column cell)) merged.rows result.rows := by
  unfold classified at h
  obtain ⟨df₁, h₁, h⟩ := Runs.bind_eq_ok.mp h
  obtain ⟨df₂, h₂, h⟩ := Runs.bind_eq_ok.mp h
  obtain ⟨df₃, h₃, h₄⟩ := Runs.bind_eq_ok.mp h
  obtain ⟨statuses, h₁⟩ := assign_ok h₁
  obtain ⟨column, hcolumn, h₂⟩ := assign_column h₂
  obtain ⟨flags, h₃⟩ := assign_ok h₃
  obtain ⟨notes, h₄⟩ := assign_ok h₄
  -- the discrepancy computed for a row with its status is that of the joined row
  have hcompute : ∀ m row cell,
      (∃ status, (classifyRecord m).map (fun s => Cell.str s.value) = .ok status ∧
        row = m.set "status" (seriesCell statuses status)) →
      computeDiscrepancy row = .ok cell → Discrepancy m cell := by
    rintro m _ cell ⟨value, hvalue, rfl⟩ hcell
    obtain ⟨status, hstatus, rfl⟩ := map_eq_ok hvalue
    refine discrepancy_of_compute hstatus ?_ (fun label hlabel => Row.get_set_of_ne hlabel _ _) hcell
    rw [Row.get_set_self, seriesCell_of_ne (by simp)]
  have hcell : List.Forall₂ (fun m row => ∃ cell, Discrepancy m cell ∧
      row.get "discrepancy_amount" = some (seriesCell column cell)) merged.rows df₂.rows := by
    refine forall₂_comp ?_ h₁ h₂
    rintro m row _ hstatus ⟨cell, hcell, rfl⟩
    exact ⟨cell, hcompute m row cell hstatus hcell, Row.get_set_self _ _ _⟩
  have hkept : List.Forall₂ (fun row row' : Row Cell =>
      row'.get "discrepancy_amount" = row.get "discrepancy_amount") df₂.rows result.rows := by
    refine forall₂_comp ?_ h₃ h₄
    rintro row _ _ ⟨_, -, rfl⟩ ⟨_, -, rfl⟩
    rw [Row.get_set_of_ne (by decide), Row.get_set_of_ne (by decide)]
  refine ⟨column, forall₂_comp hcompute h₁ hcolumn, forall₂_comp ?_ hcell hkept⟩
  rintro m row row' ⟨cell, hcell, heq⟩ hsame
  exact ⟨cell, hcell, hsame.trans heq⟩

/-- **From the joined rows to the records.**  Each record keeps what its joined row says, in order. -/
theorem recordedAs_of_reconcile {runId : String} {records : List ReconciliationRecord}
    (h : reconcile (loadInternalPayments toDatetime payments) clearing = .ok result)
    (hrecords : List.Forall₂ (RecordOf runId) result.rows records) :
    ∃ column, List.Forall₂ Discrepancy (joinedRows toDatetime payments clearing) column ∧
      List.Forall₂ (RecordedAs column) (joinedRows toDatetime payments clearing) records := by
  by_cases hne : payments = []
  · subst hne
    obtain rfl := Except.ok.inj h
    obtain rfl := List.forall₂_nil_left_iff.mp hrecords
    exact ⟨[], .nil, .nil⟩
  · rw [reconcile_of_ne_nil hne] at h
    obtain ⟨merged, hjoined, hclassified⟩ := Runs.bind_eq_ok.mp h
    have hrows : merged.rows = joinedRows toDatetime payments clearing :=
      (mergeLeft_ok (joined_ok hjoined)).2
    obtain ⟨column, hcolumn, hdiscrepancy⟩ := classified_discrepancies hclassified
    rw [← hrows]
    refine ⟨column, hcolumn, forall₂_comp ?_
      (List.Forall₂.mp (fun _ _ => And.intro) (classified_rows hclassified) hdiscrepancy) hrecords⟩
    rintro m row r ⟨hderived, cell, hcell, hvalue⟩ hrecord
    obtain ⟨hclearing, hamount⟩ := hrecord.cells
    obtain ⟨status, hstatus, hlabel⟩ := hderived.status
    rw [hrecord.status, Option.some.injEq, Cell.str.injEq] at hlabel
    obtain rfl := ReconciliationStatus.value_injective hlabel
    refine ⟨?_, hstatus, ?_, cell, hcell, ?_⟩
    · rw [← hderived.kept _ (by decide), hrecord.reference]
    · rw [hclearing]
      refine List.map_congr_left fun label hmem => ?_
      have hother : label ∉
          ["status", "discrepancy_amount", "requires_investigation", "notes"] := by
        revert hmem
        simp only [clearingLabels, List.mem_cons, List.not_mem_nil, or_false]
        rintro (rfl | rfl | rfl | rfl) <;> decide
      rw [getD, hderived.kept label hother, getD]
    · rw [hamount, getD, hvalue]
      rfl

/-! ## Payments and their clearing rows -/

/-- The clearing row that a payment is joined with, or that there is none. -/
def PairedWith (clearing : Frame Cell) (p : PaymentRow) : Option (Row Cell) → Prop
  | some r => r ∈ clearing.rows ∧ HasReference p r
  | none => ∀ r ∈ clearing.rows, ¬ HasReference p r

/-- What the join leaves of a payment's cell: a clearing column of the same name takes the label away
from both. -/
def paymentCell (clearing : Frame Cell) (label : String) (cell : Cell) : Option Cell :=
  if label ∈ clearing.columns then none else some cell

/-- The cell on the clearing side: the row's, or the mark of the column. -/
def clearingCell (clearing : Frame Cell) (label : String) (partner : Option (Row Cell)) :
    Option Cell :=
  if label ∈ clearing.columns then partnerCell (missingCell clearing) label partner else none

/-- The joined row of a payment and a partner, by the cells that are read from it. -/
structure PairRow (clearing : Frame Cell) (p : PaymentRow) (partner : Option (Row Cell))
    (m : Row Cell) : Prop where
  reference : m.get "payment_reference" = some (.str p.paymentReference)
  clearingReference : m.get "clearing_reference" =
    paymentCell clearing "clearing_reference" (textCell p.clearingReference)
  amount : m.get "internal_amount" =
    paymentCell clearing "internal_amount" (.decimal (.divHundred p.amountMinorUnits))
  currency : m.get "internal_currency" = paymentCell clearing "internal_currency" (.str p.currency)
  clearing : ∀ label ∈ clearingLabels, m.get label = clearingCell clearing label partner

/-- The joined row of two partners has their cells. -/
theorem pairRow_of_partner {p : PaymentRow} {partner : Option (Row Cell)} (hp : p ∈ payments)
    (hpaired : PairedWith clearing p partner) {m : Row Cell}
    (hm : m = joinedLeft "payment_reference" "_internal" (loadInternalPayments toDatetime payments)
        clearing (internalRow toDatetime p) ++
      joinedPartner "payment_reference" "_clearing" (missingCell clearing)
        (loadInternalPayments toDatetime payments) clearing partner) :
    PairRow clearing p partner m := by
  obtain ⟨hcolumns, hrows⟩ := loadInternalPayments_of_ne_nil toDatetime (List.ne_nil_of_mem hp)
  have hlabels : (internalRow toDatetime p).map Prod.fst =
      (loadInternalPayments toDatetime payments).columns := hcolumns.symm
  have hpartner : Partner "payment_reference" clearing (internalRow toDatetime p) partner := by
    cases partner with
    | none => exact hpaired
    | some r => exact hpaired
  have hrow : internalRow toDatetime p ∈ (loadInternalPayments toDatetime payments).rows := by
    rw [hrows]
    exact List.mem_map_of_mem hp
  have hjoined : Joined "payment_reference" "_internal" "_clearing"
      (loadInternalPayments toDatetime payments) clearing (internalRow toDatetime p) m :=
    ⟨⟨_, hm⟩, labels_joinRow _ _ _ (missingCell clearing) _ _ hrow
      (mem_joinRow_iff.mpr ⟨partner, hpartner, hm⟩)⟩
  have hkept : ∀ label ∈ ["clearing_reference", "internal_amount", "internal_currency"],
      m.get label = if label ∈ clearing.columns then none
        else (internalRow toDatetime p).get label := by
    intro label hlabel
    have hside : label ∈ internalColumns ∧ label ≠ "payment_reference" ∧
        (∀ l, l ++ "_internal" ≠ label) ∧ ∀ l, l ++ "_clearing" ≠ label := by
      simp only [List.mem_cons, List.not_mem_nil, or_false] at hlabel
      rcases hlabel with rfl | rfl | rfl <;>
        exact ⟨by decide, by decide, append_ne (by decide) (by decide),
          append_ne (by decide) (by decide)⟩
    exact hjoined.get_eq hlabels (hcolumns ▸ hside.1) hside.2.1 hside.2.2.1 hside.2.2.2
  refine ⟨?_, hkept _ (by decide), hkept _ (by decide), hkept _ (by decide), fun label hlabel => ?_⟩
  · rw [hjoined.get_key (by rw [hlabels, hcolumns]; decide) (append_ne (by decide) (by decide))]
    rfl
  · have hfacts : label ∉ internalColumns ∧ label ≠ "payment_reference" ∧
        label.toList.getLast? ≠ "_internal".toList.getLast? ∧
        label.toList.getLast? ≠ "_clearing".toList.getLast? := by
      revert hlabel
      simp only [clearingLabels, List.mem_cons, List.not_mem_nil, or_false]
      rintro (rfl | rfl | rfl | rfl) <;> decide
    obtain ⟨hinternal, hkey, hsl, hsr⟩ := hfacts
    rw [hm]
    exact get_joinedPartner hlabels hpartner (by rw [hcolumns]; exact hinternal) hkey
      (append_ne (by decide) hsl.symm) (append_ne (by decide) hsr.symm)

/-- Every joined row is that of a payment and a partner. -/
theorem exists_pair_of_joined {m : Row Cell} (hm : m ∈ joinedRows toDatetime payments clearing) :
    ∃ p ∈ payments, ∃ partner, PairedWith clearing p partner ∧ PairRow clearing p partner m := by
  obtain ⟨row, hrow, hmem⟩ := List.mem_flatMap.mp hm
  have hne : payments ≠ [] := by
    rintro rfl
    cases hrow
  rw [(loadInternalPayments_of_ne_nil toDatetime hne).2] at hrow
  obtain ⟨p, hp, rfl⟩ := List.mem_map.mp hrow
  obtain ⟨partner, hpartner, heq⟩ := mem_joinRow_iff.mp hmem
  have hpaired : PairedWith clearing p partner := by
    cases partner with
    | none => exact hpartner
    | some r => exact hpartner
  exact ⟨p, hp, partner, hpaired, pairRow_of_partner hp hpaired heq⟩

/-- Every payment has a joined row with each of its partners. -/
theorem exists_joined_of_pair (toDatetime : Cell → Cell) {p : PaymentRow}
    {partner : Option (Row Cell)} (hp : p ∈ payments) (hpaired : PairedWith clearing p partner) :
    ∃ m ∈ joinedRows toDatetime payments clearing, PairRow clearing p partner m := by
  have hpartner : Partner "payment_reference" clearing (internalRow toDatetime p) partner := by
    cases partner with
    | none => exact hpaired
    | some r => exact hpaired
  refine ⟨_, List.mem_flatMap.mpr ⟨internalRow toDatetime p, ?_,
    mem_joinRow_iff.mpr ⟨partner, hpartner, rfl⟩⟩, pairRow_of_partner hp hpaired rfl⟩
  rw [(loadInternalPayments_of_ne_nil toDatetime (List.ne_nil_of_mem hp)).2]
  exact List.mem_map_of_mem hp

/-! ## Pairs that are told apart -/

section Pairs

variable (clearing : Frame Cell) (p : PaymentRow) (partner : Option (Row Cell))

def paymentAmount : Option Cell :=
  paymentCell clearing "internal_amount" (.decimal (.divHundred p.amountMinorUnits))

def settledAmount : Option Cell := clearingCell clearing "clearing_amount" partner

/-- The currencies of a pair differ; a column that is not there has `None` for each of its cells. -/
def CurrenciesDiffer : Prop :=
  ((paymentCell clearing "internal_currency" (.str p.currency)).getD .none).differs
    ((clearingCell clearing "clearing_currency" partner).getD .none) = true

/-- **The pairs that are an EXCEPTION.**  The clearing table has no column `clearing_reference` and
the payment has a reference of its own; and the amounts are apart, or the currencies differ, where
the amounts do not make `float` raise or one of them is `None`. -/
structure ToldApart : Prop where
  unshadowed : "clearing_reference" ∉ clearing.columns
  referenced : p.clearingReference ≠ none
  details :
    Apart ((paymentAmount clearing p).getD .none).reading
        ((settledAmount clearing partner).getD .none).reading ∨
      (((paymentAmount clearing p).getD .none = .none ∨
          (settledAmount clearing partner).getD .none = .none) ∨
        BothRead ((paymentAmount clearing p).getD .none)
          ((settledAmount clearing partner).getD .none)) ∧
      CurrenciesDiffer clearing p partner

/-- The two amounts have a difference to be computed; one that is not there counts as 0. -/
def AmountsRead : Prop :=
  BothRead ((paymentAmount clearing p).getD (.int 0))
    ((settledAmount clearing partner).getD (.int 0))

end Pairs

section PairRow

variable {p : PaymentRow} {partner : Option (Row Cell)} {m : Row Cell}

/-- A pair has a clearing record if it does not share the column and the payment names one. -/
theorem PairRow.hasClearing_iff (h : PairRow clearing p partner m) :
    HasClearing m ↔ "clearing_reference" ∉ clearing.columns ∧ p.clearingReference ≠ none := by
  rw [HasClearing, getD, h.clearingReference, paymentCell]
  by_cases hcolumn : "clearing_reference" ∈ clearing.columns
  · simp [hcolumn, Cell.isna]
  · cases p.clearingReference <;> simp [hcolumn, textCell, Cell.isna]

theorem PairRow.internalAmount_eq (h : PairRow clearing p partner m) (default : Cell) :
    getD m "internal_amount" default = (paymentAmount clearing p).getD default := by
  rw [getD, h.amount]
  rfl

theorem PairRow.clearingAmount_eq (h : PairRow clearing p partner m) (default : Cell) :
    getD m "clearing_amount" default = (settledAmount clearing partner).getD default := by
  rw [getD, h.clearing _ (by decide)]
  rfl

theorem PairRow.currenciesDiffer_iff (h : PairRow clearing p partner m) :
    ¬ SameCurrencies m ↔ CurrenciesDiffer clearing p partner := by
  rw [SameCurrencies, getD, getD, h.currency, h.clearing _ (by decide), Bool.not_eq_false]
  rfl

/-- **The EXCEPTIONs among the joined rows** are the pairs that are told apart. -/
theorem PairRow.exception_iff (h : PairRow clearing p partner m) :
    classifyRecord m = .ok .EXCEPTION ↔ ToldApart clearing p partner := by
  by_cases hclearing : HasClearing m
  · obtain ⟨hunshadowed, hreferenced⟩ := h.hasClearing_iff.mp hclearing
    rw [classifyRecord_exception_iff hclearing, internalAmount, clearingAmount,
      h.internalAmount_eq, h.clearingAmount_eq, h.currenciesDiffer_iff, amountsCheck_true_iff,
      amountsCheck_false_iff]
    constructor
    · rintro (happart | ⟨hnone | ⟨hread, -⟩, hcurrencies⟩)
      · exact ⟨hunshadowed, hreferenced, Or.inl happart⟩
      · exact ⟨hunshadowed, hreferenced, Or.inr ⟨Or.inl hnone, hcurrencies⟩⟩
      · exact ⟨hunshadowed, hreferenced, Or.inr ⟨Or.inr hread, hcurrencies⟩⟩
    · intro htold
      by_cases happart : Apart ((paymentAmount clearing p).getD .none).reading
          ((settledAmount clearing partner).getD .none).reading
      · exact Or.inl happart
      · obtain ⟨hread, hcurrencies⟩ := htold.details.resolve_left happart
        exact Or.inr ⟨hread.imp_right fun hboth => ⟨hboth, happart⟩, hcurrencies⟩
  · have hunmatched : classifyRecord m = .ok .UNMATCHED := by
      rw [classifyRecord_eq_unmatched_iff]
      simpa [HasClearing] using hclearing
    rw [hunmatched]
    refine iff_of_false (by simp) fun htold => hclearing ?_
    exact h.hasClearing_iff.mpr ⟨htold.unshadowed, htold.referenced⟩

theorem toFloat_ok_iff {x : Cell} : (∃ a, x.toFloat = .ok a) ↔ x.reading ≠ .refused := by
  constructor
  · rintro ⟨a, ha⟩ hrefused
    obtain ⟨e, he⟩ := toFloat_of_refused hrefused
    rw [he] at ha
    cases ha
  · intro hread
    obtain ⟨a, ha, -⟩ := toFloat_of_ne_refused hread
    exact ⟨a, ha⟩

/-- **Those with a number for a discrepancy** are the ones whose amounts can be read. -/
theorem PairRow.compared_iff (h : PairRow clearing p partner m) :
    compared m = true ↔ ToldApart clearing p partner ∧ AmountsRead clearing p partner := by
  rw [compared_eq_true_iff, h.exception_iff, h.internalAmount_eq, h.clearingAmount_eq, toFloat_ok_iff,
    toFloat_ok_iff]
  rfl

end PairRow

/-! ## When every absence is a `None` -/

/-- Nothing is missing on the clearing side: every payment has a clearing row, or there is no column
to be filled. -/
def NothingFilled (payments : List PaymentRow) (clearing : Frame Cell) : Prop :=
  (∀ p ∈ payments, ∃ r ∈ clearing.rows, HasReference p r) ∨
    ∀ label ∈ clearingLabels, label ∉ clearing.columns

/-- The discrepancies are all of one kind: every payment is told apart from each of its clearing
rows, or no pair that is has amounts that can be read. -/
def OneKind (payments : List PaymentRow) (clearing : Frame Cell) : Prop :=
  (∀ p ∈ payments, ∀ partner, PairedWith clearing p partner → ToldApart clearing p partner) ∨
    ∀ p ∈ payments, ∀ partner, PairedWith clearing p partner → ToldApart clearing p partner →
      ¬ AmountsRead clearing p partner

/-- The same, of the joined rows. -/
theorem oneKind_iff_joined (toDatetime : Cell → Cell) : OneKind payments clearing ↔
    (∀ m ∈ joinedRows toDatetime payments clearing, classifyRecord m = .ok .EXCEPTION) ∨
      ∀ m ∈ joinedRows toDatetime payments clearing, compared m = false := by
  -- a property of the joined rows is one of the pairs
  have hpairs : ∀ {P : Row Cell → Prop} {Q : PaymentRow → Option (Row Cell) → Prop},
      (∀ p partner m, PairRow clearing p partner m → (P m ↔ Q p partner)) →
      ((∀ p ∈ payments, ∀ partner, PairedWith clearing p partner → Q p partner) ↔
        ∀ m ∈ joinedRows toDatetime payments clearing, P m) := by
    intro P Q hPQ
    constructor
    · intro hall m hm
      obtain ⟨p, hp, partner, hpaired, hrow⟩ := exists_pair_of_joined hm
      exact (hPQ p partner m hrow).mpr (hall p hp partner hpaired)
    · intro hall p hp partner hpaired
      obtain ⟨m, hm, hrow⟩ := exists_joined_of_pair toDatetime hp hpaired
      exact (hPQ p partner m hrow).mp (hall m hm)
  refine or_congr (hpairs fun p partner m hrow => hrow.exception_iff)
    (hpairs fun p partner m hrow => ?_)
  rw [← Bool.not_eq_true, hrow.compared_iff, not_and]

section Kept

variable {column : List Cell} {records : List ReconciliationRecord}

theorem clearing_kept_iff
    (h : List.Forall₂ (RecordedAs column) (joinedRows toDatetime payments clearing) records) :
    (∀ r ∈ records, Unsettled clearing r.paymentReference → ∀ cell ∈ r.clearingCells, cell = .none) ↔
      NothingFilled payments clearing := by
  constructor
  · intro hkept
    by_contra hfilled
    simp only [NothingFilled, not_or, not_forall, not_not] at hfilled
    obtain ⟨⟨p, hp, hnone⟩, label, hlabel, hcolumn⟩ := hfilled
    have hunsettled : Unsettled clearing (.str p.paymentReference) :=
      fun r hr heq => hnone ⟨r, hr, heq⟩
    -- the payment has a joined row, so it has a record, and the record has the mark
    have hpaired : PairedWith clearing p none := fun r hr hsame => hnone ⟨r, hr, hsame⟩
    obtain ⟨m, hm, hrow⟩ := exists_joined_of_pair toDatetime hp hpaired
    obtain ⟨r, hr, hrecorded⟩ := exists_of_mem_left h hm
    have hreference := hrow.reference
    rw [hrecorded.reference, Option.some.injEq] at hreference
    have hunsettled' : Unsettled clearing r.paymentReference := by
      rwa [hreference]
    have hcell : missingCell clearing label ∈ r.clearingCells := by
      rw [hrecorded.clearing]
      refine List.mem_map.mpr ⟨label, hlabel, ?_⟩
      rw [getD, hrow.clearing label hlabel, clearingCell, if_pos hcolumn]
      rfl
    exact missingCell_ne_none clearing label (hkept r hr hunsettled' _ hcell)
  · intro hnothing r hr hunsettled cell hcell
    obtain ⟨m, hm, hrecorded⟩ := exists_of_mem_right h hr
    obtain ⟨p, hp, partner, -, hrow⟩ := exists_pair_of_joined hm
    have hreference := hrow.reference
    rw [hrecorded.reference, Option.some.injEq] at hreference
    rw [hreference] at hunsettled
    rcases hnothing with hsettled | hcolumns
    · obtain ⟨row, hmem, hsame⟩ := hsettled p hp
      exact absurd hsame (hunsettled row hmem)
    · rw [hrecorded.clearing] at hcell
      obtain ⟨label, hlabel, rfl⟩ := List.mem_map.mp hcell
      rw [getD, hrow.clearing label hlabel, clearingCell, if_neg (hcolumns label hlabel)]
      rfl

/-- A joined row that is no EXCEPTION has no number. -/
theorem not_compared {m : Row Cell} (h : classifyRecord m ≠ .ok .EXCEPTION) : compared m = false := by
  rw [← Bool.not_eq_true]
  exact fun hcompared => h (compared_eq_true_iff.mp hcompared).1

theorem column_none_iff {rows : List (Row Cell)} (hcolumn : List.Forall₂ Discrepancy rows column) :
    (∀ cell ∈ column, cell = .none) ↔ ∀ m ∈ rows, compared m = false := by
  constructor
  · intro hnone m hm
    obtain ⟨cell, hcell, hdiscrepancy⟩ := exists_of_mem_left hcolumn hm
    exact hdiscrepancy.eq_none_iff.mp (hnone cell hcell)
  · intro hplain cell hcell
    obtain ⟨m, hm, hdiscrepancy⟩ := exists_of_mem_right hcolumn hcell
    exact hdiscrepancy.eq_none_iff.mpr (hplain m hm)

theorem discrepancy_kept_iff
    (hcolumn : List.Forall₂ Discrepancy (joinedRows toDatetime payments clearing) column)
    (h : List.Forall₂ (RecordedAs column) (joinedRows toDatetime payments clearing) records) :
    (∀ r ∈ records, r.status ≠ .EXCEPTION → r.discrepancyAmount = .none) ↔
      OneKind payments clearing := by
  rw [oneKind_iff_joined toDatetime]
  have htyped : ∀ cell ∈ column, cell = .none ∨ ∃ x, cell = .float x := by
    intro cell hcell
    obtain ⟨m, -, hdiscrepancy⟩ := exists_of_mem_right hcolumn hcell
    exact hdiscrepancy.none_or_float
  have hlasts : seriesCell column .none = .none ↔
      ∀ m ∈ joinedRows toDatetime payments clearing, compared m = false :=
    (seriesCell_none_iff htyped).trans (column_none_iff hcolumn)
  constructor
  · intro hkept
    refine or_iff_not_imp_left.mpr fun hother => hlasts.mp ?_
    rw [not_forall] at hother
    obtain ⟨m, hother⟩ := hother
    obtain ⟨hm, hplain⟩ := Classical.not_imp.mp hother
    -- a record that is no exception has the `None` of the column
    obtain ⟨r, hr, hrecorded⟩ := exists_of_mem_left h hm
    obtain ⟨cell, hdiscrepancy, hamount⟩ := hrecorded.discrepancy
    have hstatus : r.status ≠ .EXCEPTION := by
      intro heq
      rw [← heq] at hplain
      exact hplain hrecorded.status
    obtain rfl := hdiscrepancy.eq_none_iff.mpr (not_compared hplain)
    rw [← hamount]
    exact hkept r hr hstatus
  · intro hkind r hr hstatus
    obtain ⟨m, hm, hrecorded⟩ := exists_of_mem_right h hr
    obtain ⟨cell, hdiscrepancy, hamount⟩ := hrecorded.discrepancy
    rcases hkind with hexceptions | hplain
    · have hexception := hexceptions m hm
      rw [hrecorded.status, Except.ok.injEq] at hexception
      exact absurd hexception hstatus
    · rw [hamount, hdiscrepancy.eq_none_iff.mpr (hplain m hm)]
      exact hlasts.mpr hplain

end Kept

/-- **When absence stays `None`.**  The records of a result have `None` for everything that is not
there exactly when the join fills no column and the discrepancies are of one kind. -/
theorem absenceKept_iff (toDatetime : Cell → Cell) (payments : List PaymentRow)
    (clearing result : Frame Cell) (runId : String) (records : List ReconciliationRecord)
    (h : reconcile (loadInternalPayments toDatetime payments) clearing = .ok result)
    (hrecords : List.Forall₂ (RecordOf runId) result.rows records) :
    AbsenceKept clearing records ↔
      NothingFilled payments clearing ∧ OneKind payments clearing := by
  obtain ⟨column, hcolumn, hrecorded⟩ := recordedAs_of_reconcile h hrecords
  rw [← clearing_kept_iff hrecorded, ← discrepancy_kept_iff hcolumn hrecorded]
  exact ⟨fun hkept => ⟨hkept.clearing, hkept.discrepancy⟩, fun hkept => ⟨hkept.1, hkept.2⟩⟩

/-- Where the clearing table has the network's reference nothing is told apart, so what counts is
whether the join fills a column. -/
theorem oneKind_of_referenced (h : "clearing_reference" ∈ clearing.columns) :
    OneKind payments clearing :=
  Or.inr fun _ _ _ _ htold => absurd h htold.unshadowed

theorem recordOf_of_mapM {rows : List (Row Cell)} {runId : String} {id : Payments.UUID}
    {records : List ReconciliationRecord} (h : rows.mapM (toRecord id runId) = .ok records) :
    List.Forall₂ (RecordOf runId) rows records :=
  (Runs.mapM_ok_iff.mp h).imp fun _ _ hrecord => RecordOf.of_toRecord hrecord

/-- The sample payment has its clearing row, and nothing is an EXCEPTION. -/
theorem absenceKept_sample :
    ∃ result records, reconcile (loadInternalPayments id sampleTables.payments)
        sampleTables.clearing = .ok result ∧
      List.Forall₂ (RecordOf "RECON-20240315") result.rows records ∧
      AbsenceKept sampleTables.clearing records := by
  have hrecords : ∃ result records, reconcile (loadInternalPayments id sampleTables.payments)
        sampleTables.clearing = .ok result ∧
      result.rows.mapM (toRecord 0 "RECON-20240315") = .ok records := ⟨_, _, rfl, rfl⟩
  obtain ⟨result, records, hresult, hmapM⟩ := hrecords
  have hfiled := recordOf_of_mapM hmapM
  refine ⟨result, records, hresult, hfiled, ?_⟩
  rw [absenceKept_iff id _ _ _ _ _ hresult hfiled]
  refine ⟨Or.inl fun p hp => ?_, oneKind_of_referenced (by decide)⟩
  obtain rfl := List.mem_singleton.mp hp
  exact ⟨_, List.mem_cons_self, rfl⟩

/-- Another payment of the day, which the settlement file does not have. -/
def pendingPayment : PaymentRow where
  paymentReference := "PAY-20240315-000002-CD34"
  paymentId := "bbb-222"
  amountMinorUnits := 2500
  currency := "GBP"
  status := "COMPLETED"
  clearingReference := none
  createdAt := "2024-03-15 11:00:00+00:00"
  updatedAt := "2024-03-15 11:05:00+00:00"

/-- Its record has NaN for a clearing amount. -/
theorem absence_lost :
    (∃ result record, reconcile (loadInternalPayments id [pendingPayment]) sampleTables.clearing =
        .ok result ∧
      List.Forall₂ (RecordOf "RECON-20240315") result.rows [record] ∧
      Unsettled sampleTables.clearing record.paymentReference ∧
      record.clearingAmount = .nan) ∧
    ¬ ∀ (toDatetime : Cell → Cell) (payments : List PaymentRow) (clearing result : Frame Cell)
        (runId : String) (records : List ReconciliationRecord),
      reconcile (loadInternalPayments toDatetime payments) clearing = .ok result →
      List.Forall₂ (RecordOf runId) result.rows records → AbsenceKept clearing records := by
  have hrun : ∃ result record, reconcile (loadInternalPayments id [pendingPayment])
        sampleTables.clearing = .ok result ∧
      result.rows.mapM (toRecord 0 "RECON-20240315") = .ok [record] ∧
      Unsettled sampleTables.clearing record.paymentReference ∧
      record.clearingAmount = .nan := ⟨_, _, rfl, rfl, by decide, by decide⟩
  obtain ⟨result, record, hresult, hmapM, hunsettled, hamount⟩ := hrun
  have hfiled := recordOf_of_mapM hmapM
  refine ⟨⟨result, record, hresult, hfiled, hunsettled, hamount⟩, fun hall => ?_⟩
  have hkept := (hall _ _ _ _ _ _ hresult hfiled).clearing record List.mem_cons_self hunsettled
    record.clearingAmount List.mem_cons_self
  rw [hamount] at hkept
  cases hkept

end GlobalPayments.Recon

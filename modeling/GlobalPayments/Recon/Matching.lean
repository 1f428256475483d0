/-
# GlobalPayments.Recon.Matching — what status a payment gets, and what it should get.

`_classify_record` looks for the clearing network's reference under `clearing_reference`.  The
internal frame has a column of that name too, so the join renames both, and the label is gone from
every joined row: `row.get('clearing_reference')` is `None` and the payment is UNMATCHED, whatever the
clearing file says about it.

`reconciled_iff` states exactly when the statuses are nevertheless the right ones.
-/
import GlobalPayments.Library.Runs
import GlobalPayments.Recon.Reconcile
import Mathlib.Algebra.Order.Group.Unbundled.Abs

namespace GlobalPayments.Recon

open Frame

/-! ## What the statuses mean -/

/-- A clearing row is about a payment. -/
def HasReference (p : PaymentRow) (r : Row Cell) : Prop :=
  r.get "payment_reference" = some (.str p.paymentReference)

def SameCurrency (p : PaymentRow) (r : Row Cell) : Prop :=
  r.get "clearing_currency" = some (.str p.currency)

/-- The amounts differ by at most 0.005, in exact arithmetic. -/
def AmountsAgree (p : PaymentRow) (r : Row Cell) : Prop :=
  ∃ d x, r.get "clearing_amount" = some (.decimal d) ∧ d.value = some x ∧
    |(p.amountMinorUnits : ℚ) / 100 - x| ≤ 5 / 1000

/-- The status a payment should get from a clearing table. -/
inductive Prescribed (clearing : Frame Cell) (p : PaymentRow) : ReconciliationStatus → Prop
  | unmatched : (∀ r ∈ clearing.rows, ¬ HasReference p r) → Prescribed clearing p .UNMATCHED
  | matched (r : Row Cell) : r ∈ clearing.rows → HasReference p r → SameCurrency p r →
      AmountsAgree p r → Prescribed clearing p .MATCHED
  | exception (r : Row Cell) : r ∈ clearing.rows → HasReference p r →
      (∀ r ∈ clearing.rows, HasReference p r → ¬ (SameCurrency p r ∧ AmountsAgree p r)) →
      Prescribed clearing p .EXCEPTION

/-- A result row reports a status for a payment. -/
def Reports (p : PaymentRow) (status : ReconciliationStatus) (row : Row Cell) : Prop :=
  row.get "payment_reference" = some (.str p.paymentReference) ∧
    row.get "status" = some (.str status.value)

/-- A clearing row with everything a comparison needs. -/
def Complete (r : Row Cell) : Prop :=
  ∀ label ∈ ["payment_reference", "clearing_amount", "clearing_currency", "clearing_reference"],
    (getD r label .none).isna = false

instance (r : Row Cell) : Decidable (Complete r) :=
  inferInstanceAs (Decidable (∀ label ∈ ["payment_reference", "clearing_amount",
    "clearing_currency", "clearing_reference"], (getD r label .none).isna = false))

/-- The two tables of a run: payments and clearing rows as the loaders build them, each payment
reference once in each of them, and no gap in a clearing row. -/
structure Tables (toDatetime : Cell → Cell) where
  payments : List PaymentRow
  file : Option (Frame Cell)
  clearing : Frame Cell
  loaded : loadClearingFile toDatetime file = .ok clearing
  payments_unique : (payments.map (·.paymentReference)).Nodup
  clearing_unique : (clearing.rows.map (Row.get · "payment_reference")).Nodup
  complete : ∀ r ∈ clearing.rows, Complete r

variable {toDatetime : Cell → Cell}

/-- `_reconcile` returns, with one row for each payment, in order, and the prescribed status. -/
def Tables.Reconciled (t : Tables toDatetime) : Prop :=
  ∃ result, reconcile (loadInternalPayments toDatetime t.payments) t.clearing = .ok result ∧
    List.Forall₂ (fun p row => ∃ status, Prescribed t.clearing p status ∧ Reports p status row)
      t.payments result.rows

/-! ## The derived columns -/

/-- What the four assignments make of a joined row. -/
structure Derived (m row : Row Cell) : Prop where
  status : ∃ status, classifyRecord m = .ok status ∧ row.get "status" = some (.str status.value)
  kept : ∀ label,
    label ∉ ["status", "discrepancy_amount", "requires_investigation", "notes"] →
      row.get label = m.get label

theorem seriesCell_of_ne {column : List Cell} {cell : Cell} (h : cell ≠ .none) :
    seriesCell column cell = cell := by
  simp [seriesCell, h]

theorem map_eq_ok {ε : Type*} {β γ : Type*} {x : Except ε β} {f : β → γ} {c : γ}
    (h : x.map f = .ok c) : ∃ b, x = .ok b ∧ f b = c := by
  cases x with
  | error e => cases h
  | ok b => exact ⟨b, rfl, Except.ok.inj h⟩

theorem classified_rows {merged result : Frame Cell} (h : classified merged = .ok result) :
    List.Forall₂ Derived merged.rows result.rows := by
  unfold classified at h
  obtain ⟨df₁, h₁, h⟩ := Runs.bind_eq_ok.mp h
  obtain ⟨df₂, h₂, h⟩ := Runs.bind_eq_ok.mp h
  obtain ⟨df₃, h₃, h₄⟩ := Runs.bind_eq_ok.mp h
  obtain ⟨cells₁, h₁⟩ := assign_ok h₁
  obtain ⟨cells₂, h₂⟩ := assign_ok h₂
  obtain ⟨cells₃, h₃⟩ := assign_ok h₃
  obtain ⟨cells₄, h₄⟩ := assign_ok h₄
  -- the status is set first; the later columns have names of their own and leave it alone
  refine forall₂_comp ?_ (forall₂_comp (T := Derived) ?_ h₁ h₂)
    (forall₂_comp (T := fun row row' => ∀ label,
      label ∉ ["requires_investigation", "notes"] → row'.get label = row.get label) ?_ h₃ h₄)
  · rintro m row row' hderived hkept
    obtain ⟨status, hstatus, hcell⟩ := hderived.status
    refine ⟨⟨status, hstatus, ?_⟩, fun label hlabel => ?_⟩
    · rw [hkept "status" (by decide), hcell]
    · rw [hkept label (by simp_all), hderived.kept label hlabel]
  · rintro m _ _ ⟨cell, hcell, rfl⟩ ⟨_, -, rfl⟩
    obtain ⟨status, hstatus, rfl⟩ := map_eq_ok hcell
    refine ⟨⟨status, hstatus, ?_⟩, fun label hlabel => ?_⟩
    · rw [Row.get_set_of_ne (by decide), Row.get_set_self, seriesCell_of_ne (by simp)]
    · rw [Row.get_set_of_ne (by simp_all), Row.get_set_of_ne (by simp_all)]
  · rintro row _ _ ⟨_, -, rfl⟩ ⟨_, -, rfl⟩ label hlabel
    rw [Row.get_set_of_ne (by simp_all), Row.get_set_of_ne (by simp_all)]

/-- Without an EXCEPTION nothing in the derived columns can fail. -/
theorem classified_succeeds {merged : Frame Cell}
    (h : ∀ m ∈ merged.rows, classifyRecord m = .ok .UNMATCHED) :
    ∃ result, classified merged = .ok result := by
  have hassign : ∀ label (f : Row Cell → Except PyError Cell) (df : Frame Cell),
      (∀ row ∈ df.rows, ∃ cell, f row = .ok cell) → ∃ df', df.assign seriesCell label f = .ok df' :=
    fun _ _ _ => assign_succeeds
  obtain ⟨df₁, h₁⟩ := hassign "status"
    (fun row => (classifyRecord row).map fun status => .str status.value) merged
    fun m hm => ⟨.str "UNMATCHED", by rw [h m hm]; rfl⟩
  obtain ⟨cells, hrows⟩ := assign_ok h₁
  have hstatus : ∀ row ∈ df₁.rows, computeDiscrepancy row = .ok .none := by
    intro row hrow
    obtain ⟨m, hm, cell, hcell, rfl⟩ := exists_of_mem_right hrows hrow
    rw [h m hm] at hcell
    obtain rfl := Except.ok.inj hcell
    unfold computeDiscrepancy getD
    rw [Row.get_set_self, seriesCell_of_ne (by simp)]
    rfl
  obtain ⟨df₂, h₂⟩ := hassign "discrepancy_amount" computeDiscrepancy df₁
    fun row hrow => ⟨_, hstatus row hrow⟩
  obtain ⟨df₃, h₃⟩ := hassign "requires_investigation"
    (fun row => .ok (.bool (getD row "status" .none = .str ReconciliationStatus.EXCEPTION.value)))
    df₂ fun _ _ => ⟨_, rfl⟩
  obtain ⟨df₄, h₄⟩ := hassign "notes" (fun row => .ok (generateNotes row)) df₃ fun _ _ => ⟨_, rfl⟩
  refine ⟨df₄, Runs.bind_eq_ok.mpr ⟨df₁, h₁, ?_⟩⟩
  refine Runs.bind_eq_ok.mpr ⟨df₂, h₂, ?_⟩
  exact Runs.bind_eq_ok.mpr ⟨df₃, h₃, h₄⟩

/-! ## The joined rows -/

/-- The join of an internal table with this clearing table is not refused: the key column is there,
and the suffix makes no column name repeat another. -/
def Mergeable (clearing : Frame Cell) : Prop :=
  "payment_reference" ∈ clearing.columns ∧
    newRepeat (suffixed "_clearing" (common "payment_reference" internalColumns clearing.columns))
      (clearing.columns.filter (· ≠ "payment_reference")) = false

theorem loadInternalPayments_of_ne_nil (toDatetime : Cell → Cell) {payments : List PaymentRow}
    (h : payments ≠ []) :
    (loadInternalPayments toDatetime payments).columns = internalColumns ∧
      (loadInternalPayments toDatetime payments).rows = payments.map (internalRow toDatetime) := by
  unfold loadInternalPayments
  rw [if_neg h]
  exact ⟨rfl, rfl⟩

/-- No internal label is another one with the suffix, so only the clearing side can clash. -/
theorem newRepeat_internal (both : List String) :
    newRepeat (suffixed "_internal" both) internalColumns = false :=
  newRepeat_of_nodup (nodup_suffixed (by decide) (by decide))

theorem joined_succeeds_iff (toDatetime : Cell → Cell) {payments : List PaymentRow}
    {clearing : Frame Cell} (h : payments ≠ []) :
    (∃ merged, joined (loadInternalPayments toDatetime payments) clearing = .ok merged) ↔
      Mergeable clearing := by
  have hkey : "payment_reference" ∈ internalColumns := by decide
  unfold joined mergeLeft Mergeable
  rw [(loadInternalPayments_of_ne_nil toDatetime h).1, newRepeat_internal, Bool.false_or]
  by_cases hcolumn : "payment_reference" ∈ clearing.columns
  · rw [if_neg (by simp [hkey, hcolumn])]
    generalize newRepeat (suffixed "_clearing" _) _ = clash
    cases clash <;> simp [hcolumn]
  · rw [if_pos (Or.inr hcolumn)]
    simp [hcolumn]

theorem joined_ok {internal clearing merged : Frame Cell} (h : joined internal clearing = .ok merged) :
    mergeLeft "payment_reference" "_internal" "_clearing" (missingCell clearing) internal clearing =
      .ok merged := by
  unfold joined at h
  split at h
  · cases h
  · cases h
  · rename_i heq
    rw [heq, Except.ok.inj h]

/-- A joined row has the payment's reference, and a `clearing_reference` exactly where the clearing
table has no column of that name; then it is the payment's own. -/
structure JoinedFrom (clearing : Frame Cell) (p : PaymentRow) (m : Row Cell) : Prop where
  reference : m.get "payment_reference" = some (.str p.paymentReference)
  shadowed : "clearing_reference" ∈ clearing.columns → m.get "clearing_reference" = none
  own : "clearing_reference" ∉ clearing.columns →
    m.get "clearing_reference" = some (textCell p.clearingReference)

theorem joined_rows {t : Tables toDatetime} {merged : Frame Cell} (h : t.payments ≠ [])
    (hjoined : joined (loadInternalPayments toDatetime t.payments) t.clearing = .ok merged) :
    List.Forall₂ (JoinedFrom t.clearing) t.payments merged.rows := by
  obtain ⟨hcolumns, hrows⟩ := loadInternalPayments_of_ne_nil toDatetime h
  have hall := mergeLeft_rows (joined_ok hjoined) t.clearing_unique
  rw [hrows, List.forall₂_map_left_iff] at hall
  refine hall.imp fun p m hm => ?_
  have hlabels : (internalRow toDatetime p).map Prod.fst = internalColumns := rfl
  -- both suffixes end in a letter that `clearing_reference` does not end in
  have hcell : m.get "clearing_reference" =
      if "clearing_reference" ∈ t.clearing.columns then none
      else (internalRow toDatetime p).get "clearing_reference" :=
    hm.get_eq (hlabels.trans hcolumns.symm) (by rw [hcolumns]; decide) (by decide)
      (append_ne (by decide) (by decide)) (append_ne (by decide) (by decide))
  refine ⟨?_, fun hmem => ?_, fun hnot => ?_⟩
  · rw [hm.get_key (by rw [hlabels]; decide) (append_ne (by decide) (by decide))]
    rfl
  · rw [hcell, if_pos hmem]
  · rw [hcell, if_neg hnot]
    rfl

theorem classifyRecord_eq_unmatched_iff (m : Row Cell) :
    classifyRecord m = .ok .UNMATCHED ↔ (getD m "clearing_reference" .none).isna = true := by
  constructor
  · intro h
    by_contra hisna
    unfold classifyRecord at h
    rw [if_neg hisna] at h
    grind
  · intro hisna
    unfold classifyRecord
    rw [if_pos hisna]

/-- **The join decides the classification.**  A joined row is UNMATCHED when the clearing table has a
`clearing_reference` column, whatever is in it. -/
theorem JoinedFrom.unmatched_iff {clearing : Frame Cell} {p : PaymentRow} {m : Row Cell}
    (h : JoinedFrom clearing p m) :
    classifyRecord m = .ok .UNMATCHED ↔
      "clearing_reference" ∈ clearing.columns ∨ p.clearingReference = none := by
  rw [classifyRecord_eq_unmatched_iff, getD]
  by_cases hcolumn : "clearing_reference" ∈ clearing.columns
  · simp [h.shadowed hcolumn, hcolumn, Cell.isna]
  · rw [h.own hcolumn]
    cases p.clearingReference <;> simp [textCell, Cell.isna, hcolumn]

/-! ## The statuses a run reports -/

/-- The result of a run over at least one payment. -/
theorem reconcile_of_ne_nil {payments : List PaymentRow} {clearing : Frame Cell}
    (h : payments ≠ []) :
    reconcile (loadInternalPayments toDatetime payments) clearing =
      (joined (loadInternalPayments toDatetime payments) clearing).bind classified := by
  obtain ⟨hcolumns, hrows⟩ := loadInternalPayments_of_ne_nil toDatetime h
  unfold reconcile
  rw [if_neg]
  rw [hcolumns, hrows, List.map_eq_nil_iff, not_or]
  exact ⟨h, by decide⟩

/-- A clearing table with a row has a `clearing_reference` column: nothing is missing in a row. -/
theorem Tables.column_of_mem (t : Tables toDatetime) {r : Row Cell} (hr : r ∈ t.clearing.rows) :
    "clearing_reference" ∈ t.clearing.columns := by
  rw [← t.clearing.aligned r hr, ← Row.get_isSome_iff]
  have hcell := t.complete r hr "clearing_reference" (by simp)
  cases hget : r.get "clearing_reference" with
  | none =>
      rw [getD, hget] at hcell
      cases hcell
  | some cell => rfl

/-- The clearing table is one `_reconcile` gets right for these payments. -/
def Tables.Harmless (t : Tables toDatetime) : Prop :=
  t.payments = [] ∨ (Mergeable t.clearing ∧
    (∀ p ∈ t.payments, ∀ r ∈ t.clearing.rows, ¬ HasReference p r) ∧
    ("clearing_reference" ∈ t.clearing.columns ∨ ∀ p ∈ t.payments, p.clearingReference = none))

/-- Every payment is classified through its joined row. -/
theorem Tables.Reconciled.classify {t : Tables toDatetime} (h : t.Reconciled)
    (hne : t.payments ≠ []) :
    Mergeable t.clearing ∧ ∀ p ∈ t.payments, ∃ m status, JoinedFrom t.clearing p m ∧
      classifyRecord m = .ok status ∧ Prescribed t.clearing p status := by
  obtain ⟨result, hrun, hreports⟩ := h
  rw [reconcile_of_ne_nil hne] at hrun
  obtain ⟨merged, hjoined, hclassified⟩ := Runs.bind_eq_ok.mp hrun
  refine ⟨(joined_succeeds_iff toDatetime hne).mp ⟨merged, hjoined⟩, ?_⟩
  have hderived : List.Forall₂ (fun p row => ∃ m, JoinedFrom t.clearing p m ∧ Derived m row)
      t.payments result.rows :=
    forall₂_comp (fun p m row hm hrow => ⟨m, hm, hrow⟩) (joined_rows hne hjoined)
      (classified_rows hclassified)
  have hboth : List.Forall₂ (fun p row => (∃ m status, JoinedFrom t.clearing p m ∧
      classifyRecord m = .ok status ∧ Prescribed t.clearing p status) ∧ Row.get row "status" ≠ none)
      t.payments result.rows := by
    refine List.Forall₂.mp (fun p row => ?_) hderived hreports
    rintro ⟨m, hm, hrow⟩ ⟨status, hprescribed, -, hcell⟩
    obtain ⟨status', hstatus', hcell'⟩ := hrow.status
    rw [hcell, Option.some.injEq, Cell.str.injEq] at hcell'
    obtain rfl := ReconciliationStatus.value_injective hcell'
    exact ⟨⟨m, status, hm, hstatus', hprescribed⟩, by simp [hcell]⟩
  exact ((List.forall₂_and_left _ _).mp hboth).1

/-- Without payments `_reconcile` returns the empty table. -/
theorem Tables.reconciled_of_nil {t : Tables toDatetime} (h : t.payments = []) :
    t.Reconciled := by
  refine ⟨loadInternalPayments toDatetime t.payments, ?_, ?_⟩
  · unfold reconcile
    rw [if_pos (Or.inl (by rw [h]; rfl))]
  · rw [h]
    exact .nil

/-- When no payment has a clearing row and no `clearing_reference` shows, every payment is UNMATCHED,
and rightly so. -/
theorem Tables.reconciled_of_absent {t : Tables toDatetime} (hmerge : Mergeable t.clearing)
    (habsent : ∀ p ∈ t.payments, ∀ r ∈ t.clearing.rows, ¬ HasReference p r)
    (hlabel : "clearing_reference" ∈ t.clearing.columns ∨
      ∀ p ∈ t.payments, p.clearingReference = none) (hne : t.payments ≠ []) : t.Reconciled := by
  obtain ⟨merged, hjoined⟩ := (joined_succeeds_iff toDatetime hne).mpr hmerge
  have hfrom := joined_rows hne hjoined
  have hunmatched : ∀ p ∈ t.payments, ∀ m, JoinedFrom t.clearing p m →
      classifyRecord m = .ok .UNMATCHED :=
    fun p hp m hm => hm.unmatched_iff.mpr (hlabel.imp_right fun h => h p hp)
  have hall : ∀ m ∈ merged.rows, classifyRecord m = .ok .UNMATCHED := by
    intro m hm
    obtain ⟨p, hp, hpm⟩ := exists_of_mem_right hfrom hm
    exact hunmatched p hp m hpm
  obtain ⟨result, hclassified⟩ := classified_succeeds hall
  refine ⟨result, ?_, ?_⟩
  · rw [reconcile_of_ne_nil hne]
    exact Runs.bind_eq_ok.mpr ⟨merged, hjoined, hclassified⟩
  · have hmembers := (List.forall₂_and_left _ _).mpr ⟨fun p hp => hp, hfrom⟩
    refine forall₂_comp (fun p m row hm hrow => ?_) hmembers (classified_rows hclassified)
    obtain ⟨status, hstatus, hcell⟩ := hrow.status
    rw [hunmatched p hm.1 m hm.2] at hstatus
    obtain rfl := Except.ok.inj hstatus
    refine ⟨.UNMATCHED, .unmatched (habsent p hm.1), ?_, hcell⟩
    rw [hrow.kept _ (by decide), hm.2.reference]

/-- **When the statuses are right.**  `_reconcile` gives every payment the prescribed status exactly
when there is nothing to match: no payment has a clearing row, and no joined row shows a
`clearing_reference`. -/
theorem reconciled_iff (t : Tables toDatetime) : t.Reconciled ↔ t.Harmless := by
  constructor
  · intro h
    by_cases hne : t.payments = []
    · exact Or.inl hne
    obtain ⟨hmerge, hclassify⟩ := h.classify hne
    refine Or.inr ⟨hmerge, fun p hp r hr hreference => ?_, ?_⟩
    · -- a clearing row brings the column, and the column hides the reference
      obtain ⟨m, status, hm, hstatus, hprescribed⟩ := hclassify p hp
      rw [hm.unmatched_iff.mpr (Or.inl (t.column_of_mem hr))] at hstatus
      obtain rfl := Except.ok.inj hstatus
      cases hprescribed with
      | unmatched hnone => exact hnone r hr hreference
    · by_cases hcolumn : "clearing_reference" ∈ t.clearing.columns
      · exact Or.inl hcolumn
      · right
        intro p hp
        obtain ⟨m, status, hm, hstatus, hprescribed⟩ := hclassify p hp
        cases hprescribed with
        | unmatched _ => exact (hm.unmatched_iff.mp hstatus).resolve_left hcolumn
        | matched r hr _ _ _ => exact absurd (t.column_of_mem hr) hcolumn
        | exception r hr _ _ => exact absurd (t.column_of_mem hr) hcolumn
  · intro h
    by_cases hne : t.payments = []
    · exact Tables.reconciled_of_nil hne
    · obtain ⟨hmerge, habsent, hlabel⟩ := h.resolve_left hne
      exact Tables.reconciled_of_absent hmerge habsent hlabel hne

/-- One completed payment of 100.00 GBP, and a settlement file that settles it. -/
def sampleTables : Tables id where
  payments := [{
    paymentReference := "PAY-20240315-000001-AB12", paymentId := "aaa-111"
    amountMinorUnits := 10000, currency := "GBP", status := "COMPLETED"
    clearingReference := some "CLR-001"
    createdAt := "2024-03-15 10:00:00+00:00", updatedAt := "2024-03-15 10:05:00+00:00" }]
  file := some
    { columns := ["payment_reference", "amount", "currency", "reference", "status", "settled_at"]
      rows := [[("payment_reference", .str "PAY-20240315-000001-AB12"), ("amount", .str "100.00"),
        ("currency", .str "GBP"), ("reference", .str "CLR-NET-001"), ("status", .str "SETTLED"),
        ("settled_at", .str "2024-03-15T23:00:00Z")]]
      aligned := by decide }
  clearing :=
    { columns := ["payment_reference", "clearing_amount_raw", "clearing_currency",
        "clearing_reference", "clearing_status", "clearing_settled_at", "clearing_amount"]
      rows := [[("payment_reference", .str "PAY-20240315-000001-AB12"),
        ("clearing_amount_raw", .str "100.00"), ("clearing_currency", .str "GBP"),
        ("clearing_reference", .str "CLR-NET-001"), ("clearing_status", .str "SETTLED"),
        ("clearing_settled_at", .str "2024-03-15T23:00:00Z"),
        ("clearing_amount", .decimal (.finite false 10000 (-2)))]]
      aligned := by decide }
  loaded := rfl
  payments_unique := by decide
  clearing_unique := by decide
  complete := by decide

/-- The payment has its clearing row, currency and amount agree, and it is reported UNMATCHED. -/
theorem reconcile_misses_match :
    (∀ p ∈ sampleTables.payments, Prescribed sampleTables.clearing p .MATCHED) ∧
    (∃ result, reconcile (loadInternalPayments id sampleTables.payments) sampleTables.clearing =
        .ok result ∧
      result.rows.map (Row.get · "status") = [some (.str "UNMATCHED")]) ∧
    ¬ sampleTables.Reconciled := by
  have hmatched : ∀ p ∈ sampleTables.payments, Prescribed sampleTables.clearing p .MATCHED := by
    intro p hp
    obtain rfl := List.mem_singleton.mp hp
    refine .matched _ List.mem_cons_self rfl rfl ⟨_, 100, rfl, ?_, ?_⟩
    · norm_num [PyDecimal.value]
    · norm_num
  refine ⟨hmatched, ⟨_, rfl, by decide⟩, fun h => ?_⟩
  obtain ⟨-, hclassify⟩ := h.classify (by decide)
  obtain ⟨m, status, hm, hstatus, hprescribed⟩ := hclassify _ List.mem_cons_self
  rw [hm.unmatched_iff.mpr (Or.inl (by decide))] at hstatus
  obtain rfl := Except.ok.inj hstatus
  cases hprescribed with
  | unmatched hnone => exact hnone _ List.mem_cons_self rfl

end GlobalPayments.Recon

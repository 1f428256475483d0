/-
# GlobalPayments.Recon.Conservation — which rows a reconciliation has.

The result is a left join: it has the reference of every internal payment, once for each clearing row
that repeats it and at least once (`reconcile_references`), and no other reference.  So a reference
that the settlement file repeats is counted and stored as often (`oneEach_iff`), and a clearing row
without a payment leaves no trace (`allAccounted_iff`).  Whatever the loader makes of a settlement file
has a result (`reconcile_returns`).
-/
import GlobalPayments.Recon.Matching
import GlobalPayments.Recon.Invariant

namespace GlobalPayments.Recon

open Frame

variable {toDatetime : Cell → Cell} {payments : List PaymentRow} {clearing result : Frame Cell}

instance (p : PaymentRow) (r : Row Cell) : Decidable (HasReference p r) :=
  inferInstanceAs (Decidable (r.get "payment_reference" = some (.str p.paymentReference)))

/-- How many clearing rows are about a payment. -/
def multiplicity (clearing : Frame Cell) (p : PaymentRow) : Nat :=
  clearing.rows.countP fun r => HasReference p r

/-- The references of the rows of a frame. -/
def references (df : Frame Cell) : List (Option Cell) :=
  df.rows.map (Row.get · "payment_reference")

/-- The reference of a payment, as a cell. -/
def PaymentRow.referenceCell (p : PaymentRow) : Option Cell := some (.str p.paymentReference)

/-! ## When there is a result -/

/-- The join of the two tables is not refused, and the clearing table has the network's reference. -/
structure Accepted (payments : List PaymentRow) (clearing : Frame Cell) : Prop where
  joinable : payments = [] ∨ Mergeable clearing
  referenced : "clearing_reference" ∈ clearing.columns

/-- The columns `_load_clearing_file` renames. -/
def settlementColumns : List String :=
  ["payment_reference", "amount", "currency", "reference", "status", "settled_at"]

/-- A settlement file with these columns, once it could be read, is accepted; so is a missing one. -/
theorem accepted_of_loaded {file : Option (Frame Cell)}
    (hfile : ∀ csv ∈ file, csv.columns = settlementColumns)
    (h : loadClearingFile toDatetime file = .ok clearing) : Accepted payments clearing := by
  have hcolumns : clearing.columns = ["payment_reference", "clearing_amount", "clearing_currency",
        "clearing_reference", "clearing_status", "clearing_settled_at"] ∨
      clearing.columns = ["payment_reference", "clearing_amount_raw", "clearing_currency",
        "clearing_reference", "clearing_status", "clearing_settled_at", "clearing_amount"] := by
    cases file with
    | none =>
        obtain rfl := Except.ok.inj h
        exact Or.inl rfl
    | some csv =>
        obtain ⟨-, -, h⟩ := Runs.bind_eq_ok.mp h
        obtain ⟨priced, hpriced, h⟩ := Runs.bind_eq_ok.mp h
        obtain ⟨-, -, h⟩ := Runs.bind_eq_ok.mp h
        rw [assign_columns h, assign_columns hpriced]
        refine Or.inr ?_
        show setLabel _ (setLabel _ (csv.columns.map clearingName)) = _
        rw [hfile csv rfl]
        decide
  rcases hcolumns with heq | heq <;>
    exact ⟨Or.inr (by rw [Mergeable, heq]; decide), by rw [heq]; decide⟩

theorem sampleTables_accepted : Accepted sampleTables.payments sampleTables.clearing := by
  refine accepted_of_loaded (fun csv hcsv => ?_) sampleTables.loaded
  obtain rfl := Option.some.inj hcsv
  rfl

/-- **An accepted clearing table has a result.**  Its `clearing_reference` column hides the payments'
own, so every joined row is UNMATCHED and nothing is compared. -/
theorem reconcile_returns (h : Accepted payments clearing) :
    ∃ result, reconcile (loadInternalPayments toDatetime payments) clearing = .ok result := by
  by_cases hne : payments = []
  · subst hne
    exact ⟨_, rfl⟩
  · obtain ⟨merged, hjoined⟩ :=
      (joined_succeeds_iff toDatetime hne).mpr (h.joinable.resolve_left hne)
    have hhidden : "clearing_reference" ∉ merged.columns := by
      rw [(mergeLeft_ok (joined_ok hjoined)).1]
      exact not_mem_joinedColumns (by rw [(loadInternalPayments_of_ne_nil toDatetime hne).1]; decide)
        h.referenced (by decide) (append_ne (by decide) (by decide))
        (append_ne (by decide) (by decide))
    have hall : ∀ m ∈ merged.rows, classifyRecord m = .ok .UNMATCHED := by
      intro m hm
      have hnone := Row.get_eq_none_iff.mpr (merged.aligned m hm ▸ hhidden)
      rw [classifyRecord_eq_unmatched_iff, getD, hnone]
      rfl
    obtain ⟨result, hclassified⟩ := classified_succeeds hall
    rw [reconcile_of_ne_nil hne]
    exact ⟨result, Runs.bind_eq_ok.mpr ⟨merged, hjoined, hclassified⟩⟩

/-! ## The references of a result -/

/-- The derived columns leave the references alone. -/
theorem references_classified {merged : Frame Cell} (h : classified merged = .ok result) :
    references result = references merged :=
  (map_eq_of_forall₂ ((classified_rows h).imp fun _ _ hrow =>
    (hrow.kept "payment_reference" (by decide)).symm)).symm

theorem references_joined {merged : Frame Cell} (hne : payments ≠ [])
    (h : joined (loadInternalPayments toDatetime payments) clearing = .ok merged) :
    references merged = payments.flatMap fun p =>
      List.replicate (max 1 (multiplicity clearing p)) p.referenceCell := by
  obtain ⟨hcolumns, hrows⟩ := loadInternalPayments_of_ne_nil toDatetime hne
  have hkeys := mergeLeft_keys (joined_ok h) (by rw [hcolumns]; decide)
    (append_ne (by decide) (by decide))
  rw [hrows, List.flatMap_map] at hkeys
  rw [references, hkeys]
  refine List.flatMap_congr fun p _ => ?_
  rw [multiplicity, List.countP_eq_length_filter]
  rfl

/-- **The references of a result**, payment by payment: each as often as the clearing table has it,
and at least once. -/
theorem reconcile_references
    (h : reconcile (loadInternalPayments toDatetime payments) clearing = .ok result) :
    references result = payments.flatMap fun p =>
      List.replicate (max 1 (multiplicity clearing p)) p.referenceCell := by
  by_cases hne : payments = []
  · subst hne
    obtain rfl := Except.ok.inj h
    rfl
  · rw [reconcile_of_ne_nil hne] at h
    obtain ⟨merged, hjoined, hclassified⟩ := Runs.bind_eq_ok.mp h
    rw [references_classified hclassified, references_joined hne hjoined]

/-- A row of the result is about a payment. -/
theorem mem_references
    (h : reconcile (loadInternalPayments toDatetime payments) clearing = .ok result)
    (reference : Option Cell) :
    reference ∈ references result ↔ ∃ p ∈ payments, p.referenceCell = reference := by
  rw [reconcile_references h, List.mem_flatMap]
  refine exists_congr fun p => and_congr_right fun _ => ?_
  rw [List.mem_replicate]
  constructor
  · rintro ⟨-, heq⟩
    exact heq.symm
  · intro heq
    exact ⟨by omega, heq.symm⟩

/-! ## One row for each payment -/

/-- Among these references each payment's is there exactly once, and there is no other. -/
structure OneEach (payments : List PaymentRow) (found : List (Option Cell)) : Prop where
  once : ∀ p ∈ payments, found.count p.referenceCell = 1
  only : ∀ reference ∈ found, ∃ p ∈ payments, p.referenceCell = reference

/-- The records a run stores have the references of its result. -/
theorem references_records {runId : String} {records : List ReconciliationRecord}
    (h : List.Forall₂ (RecordOf runId) result.rows records) :
    records.map (fun r => some r.paymentReference) = references result := by
  exact (map_eq_of_forall₂ (h.imp fun _ _ hrow => hrow.reference)).symm

/-- The rows of a result, counted by payment. -/
theorem oneEach_references_iff (hunique : (payments.map (·.paymentReference)).Nodup)
    (hresult : reconcile (loadInternalPayments toDatetime payments) clearing = .ok result) :
    OneEach payments (references result) ↔ ∀ p ∈ payments, multiplicity clearing p ≤ 1 := by
  have hkeys : (payments.map PaymentRow.referenceCell).Nodup := by
    have hcell : payments.map PaymentRow.referenceCell =
        (payments.map (·.paymentReference)).map fun s => some (Cell.str s) := by
      rw [List.map_map]
      rfl
    rw [hcell]
    exact hunique.map fun s t h => Cell.str.inj (Option.some.inj h)
  have hcount : ∀ p ∈ payments,
      (references result).count p.referenceCell = max 1 (multiplicity clearing p) := by
    intro p hp
    rw [reconcile_references hresult]
    exact count_replicated hkeys hp
  constructor
  · intro h p hp
    have honce := h.once p hp
    rw [hcount p hp] at honce
    omega
  · intro h
    refine ⟨fun p hp => ?_, fun reference hmem => (mem_references hresult reference).mp hmem⟩
    rw [hcount p hp]
    have hle := h p hp
    omega

/-- **Which results have one row for each payment**, and lead to one record for each: those of
clearing tables that repeat no payment's reference.  An accepted table has a result. -/
theorem oneEach_iff (hunique : (payments.map (·.paymentReference)).Nodup) :
    (Accepted payments clearing →
      ∃ result, reconcile (loadInternalPayments toDatetime payments) clearing = .ok result) ∧
    ∀ result, reconcile (loadInternalPayments toDatetime payments) clearing = .ok result →
      (OneEach payments (references result) ↔ ∀ p ∈ payments, multiplicity clearing p ≤ 1) ∧
        ∀ runId records, List.Forall₂ (RecordOf runId) result.rows records →
          (OneEach payments (records.map fun r => some r.paymentReference) ↔
            ∀ p ∈ payments, multiplicity clearing p ≤ 1) := by
  refine ⟨reconcile_returns, fun result hresult => ?_⟩
  have hrows := oneEach_references_iff hunique hresult
  refine ⟨hrows, fun runId records hrecords => ?_⟩
  rw [references_records hrecords]
  exact hrows

/-- The sample file names its payment once. -/
theorem oneEach_sample :
    ∃ result, reconcile (loadInternalPayments id sampleTables.payments) sampleTables.clearing =
        .ok result ∧ OneEach sampleTables.payments (references result) := by
  obtain ⟨hreturns, heach⟩ := oneEach_iff sampleTables.payments_unique
  obtain ⟨result, hresult⟩ := hreturns sampleTables_accepted
  exact ⟨result, hresult, (heach result hresult).1.mpr (by decide)⟩

/-- The sample settlement, listed twice. -/
def settledTwice : Frame Cell where
  columns := sampleTables.clearing.columns
  rows := sampleTables.clearing.rows ++ sampleTables.clearing.rows
  aligned := by decide

/-- A payment settled in two lines is reconciled as two payments. -/
theorem oneEach_fails_settledTwice :
    (∃ result, reconcile (loadInternalPayments id sampleTables.payments) settledTwice =
        .ok result ∧
      references result = [some (.str "PAY-20240315-000001-AB12"),
        some (.str "PAY-20240315-000001-AB12")]) ∧
    ¬ ∀ (payments : List PaymentRow) (clearing result : Frame Cell),
      (payments.map (·.paymentReference)).Nodup →
      reconcile (loadInternalPayments id payments) clearing = .ok result →
      OneEach payments (references result) := by
  have htwice : ∃ result, reconcile (loadInternalPayments id sampleTables.payments) settledTwice =
        .ok result ∧
      references result = [some (.str "PAY-20240315-000001-AB12"),
        some (.str "PAY-20240315-000001-AB12")] := ⟨_, rfl, by decide⟩
  refine ⟨htwice, fun hall => ?_⟩
  obtain ⟨result, hresult, hreferences⟩ := htwice
  have heach := hall _ _ result sampleTables.payments_unique hresult
  have honce := heach.once _ List.mem_cons_self
  rw [hreferences] at honce
  exact absurd honce (by decide)

/-! ## Every clearing row -/

/-- Two rows with one reference. -/
def SameReference (r row : Row Cell) : Prop :=
  row.get "payment_reference" = r.get "payment_reference"

instance (r row : Row Cell) : Decidable (SameReference r row) :=
  inferInstanceAs (Decidable (row.get "payment_reference" = r.get "payment_reference"))

/-- No clearing row is lost: one about a payment has its reference in the result, and those about
none have as many rows of their own there, none of them MATCHED. -/
structure AllAccounted (payments : List PaymentRow) (clearing result : Frame Cell) : Prop where
  paid : ∀ r ∈ clearing.rows, (∃ p ∈ payments, HasReference p r) →
    ∃ row ∈ result.rows, SameReference r row
  unpaid : ∀ r ∈ clearing.rows, (∀ p ∈ payments, ¬ HasReference p r) →
    clearing.rows.countP (fun r' => SameReference r r') ≤
      result.rows.countP fun row => SameReference r row ∧
        row.get "status" ≠ some (.str ReconciliationStatus.MATCHED.value)

/-- A row of the result has the reference of a payment, and each payment has one. -/
theorem exists_sameReference_iff
    (hresult : reconcile (loadInternalPayments toDatetime payments) clearing = .ok result)
    (r : Row Cell) :
    (∃ row ∈ result.rows, SameReference r row) ↔ ∃ p ∈ payments, HasReference p r := by
  have hmem := mem_references hresult (r.get "payment_reference")
  rw [references, List.mem_map] at hmem
  refine hmem.trans (exists_congr fun p => and_congr_right fun _ => ?_)
  exact eq_comm

/-- **Which clearing tables are accounted for**: those whose every row is about an internal
payment.  An accepted table has a result. -/
theorem allAccounted_iff :
    (Accepted payments clearing →
      ∃ result, reconcile (loadInternalPayments toDatetime payments) clearing = .ok result) ∧
    ∀ result, reconcile (loadInternalPayments toDatetime payments) clearing = .ok result →
      (AllAccounted payments clearing result ↔
        ∀ r ∈ clearing.rows, ∃ p ∈ payments, HasReference p r) := by
  refine ⟨reconcile_returns, fun result hresult => ⟨fun h r hr => ?_, fun h => ⟨?_, ?_⟩⟩⟩
  · by_contra hpaid
    have hnone : ∀ p ∈ payments, ¬ HasReference p r := fun p hp h => hpaid ⟨p, hp, h⟩
    -- the row itself is counted on the left, so there is a row with its reference on the right
    have hpos : 0 < clearing.rows.countP fun r' => SameReference r r' :=
      List.countP_pos_iff.mpr ⟨r, hr, by simp [SameReference]⟩
    obtain ⟨row, hrow, hsame⟩ := List.countP_pos_iff.mp (hpos.trans_le (h.unpaid r hr hnone))
    obtain ⟨p, hp, hreference⟩ := (exists_sameReference_iff hresult r).mp
      ⟨row, hrow, (of_decide_eq_true hsame).1⟩
    exact hpaid ⟨p, hp, hreference⟩
  · exact fun r _ hpaid => (exists_sameReference_iff hresult r).mpr hpaid
  · intro r hr hnone
    obtain ⟨p, hp, hreference⟩ := h r hr
    exact absurd hreference (hnone p hp)

/-- The one row of the sample file is about the sample payment. -/
theorem allAccounted_sample :
    ∃ result, reconcile (loadInternalPayments id sampleTables.payments) sampleTables.clearing =
        .ok result ∧ AllAccounted sampleTables.payments sampleTables.clearing result := by
  obtain ⟨hreturns, haccounted⟩ := allAccounted_iff
  obtain ⟨result, hresult⟩ := hreturns sampleTables_accepted
  exact ⟨result, hresult, (haccounted result hresult).mpr (by decide)⟩

/-- A settlement without a payment in the ledger is in no row: next to a payment of another
reference, and next to no payment at all. -/
theorem allAccounted_fails_unpaid :
    (∃ result, reconcile (loadInternalPayments id (sampleTables.payments.map fun p =>
        { p with paymentReference := "PAY-20240315-000002-CD34" })) sampleTables.clearing =
        .ok result ∧
      references result = [some (.str "PAY-20240315-000002-CD34")]) ∧
    (∃ result, reconcile (loadInternalPayments id []) sampleTables.clearing = .ok result ∧
      references result = []) ∧
    ¬ ∀ (payments : List PaymentRow) (clearing result : Frame Cell),
      reconcile (loadInternalPayments id payments) clearing = .ok result →
      AllAccounted payments clearing result := by
  refine ⟨⟨_, rfl, by decide⟩, ⟨_, rfl, rfl⟩, fun hall => ?_⟩
  have hunpaid := (hall [] sampleTables.clearing _ rfl).unpaid _ List.mem_cons_self nofun
  exact absurd hunpaid (by decide)

end GlobalPayments.Recon

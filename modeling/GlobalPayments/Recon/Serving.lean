/-
# GlobalPayments.Recon.Serving — the amounts of a stored record as the endpoints serve them.

`_serialize_record` and the exceptions report both write an amount as `str(x) if x else None`.  A
decimal that is zero is falsy, so a zero and a NULL come out alike; every other amount is written as a
text that reads back (`columnTextOrNone_cases`).

`amounts_served_iff`: the answers say what is stored exactly for the records without a zero.
-/
import GlobalPayments.Library.DecimalText
import GlobalPayments.Recon.Reports

namespace GlobalPayments.Recon

open Frame Runs

/-! ## The records of a run -/

/-- The dict of `_serialize_record`. -/
structure RecordEntry where
  id : String
  paymentReference : Cell
  internalAmount : String
  internalCurrency : Cell
  internalStatus : Cell
  clearingAmount : Option String
  clearingReference : Cell
  clearingStatus : Cell
  status : String
  discrepancyAmount : Option String
  requiresInvestigation : Bool
  notes : Cell
  reconciledAt : Option String
  deriving DecidableEq

/-- `_serialize_record`; `isoformat` is that of a `datetime`. -/
def serializeRecord (isoformat : Int → String) (r : ReconciliationRecord) : RecordEntry where
  id := String.ofList r.id.toText
  paymentReference := r.paymentReference
  internalAmount := columnText r.internalAmount
  internalCurrency := r.internalCurrency
  internalStatus := r.internalStatus
  clearingAmount := columnTextOrNone r.clearingAmount
  clearingReference := r.clearingReference
  clearingStatus := r.clearingStatus
  status := r.status.value
  discrepancyAmount := columnTextOrNone r.discrepancyAmount
  requiresInvestigation := r.requiresInvestigation
  notes := r.notes
  reconciledAt := r.reconciledAt.map isoformat

/-- What `paginate` returns. -/
structure Pagination where
  items : List ReconciliationRecord
  page : Int
  perPage : Int
  total : Nat
  pages : Nat

structure RecordsPage where
  records : List RecordEntry
  page : Int
  perPage : Int
  total : Nat
  totalPages : Nat
  deriving DecidableEq

/-- `filter_by(status=status)`, where there is a status; `none` is the `LookupError` for a text that is
no name of the column's enum. -/
def filterByStatus (status : Option String) (rows : List ReconciliationRecord) :
    Option (List ReconciliationRecord) :=
  match status with
  | none => some rows
  | some text =>
      if text = "" then some rows
      else
        match ReconciliationStatus.ofCell (.str text) with
        | .ok status => some (rows.filter fun r => r.status = status)
        | .error _ => none

section Endpoint

variable (isoformat : Int → String)
variable (arrange : List ReconciliationRecord → List ReconciliationRecord)
variable (paginate : List ReconciliationRecord → Int → Int → Pagination)

/-- `get_run_records`, once its numbers are read; `none` is an exception.  `arrange` is what the
database makes of `order_by(payment_reference)`, `paginate` is `paginate(…, error_out=False)`. -/
def getRunRecords (db : ReportingDb) (runId : String) (status exceptionsOnly : Option String)
    (page perPage : Int) : Option RecordsPage :=
  let perPage := min perPage 200
  let onlyExceptions := (exceptionsOnly.getD "false").toLower = "true"
  (filterByStatus status (db.recordsOf runId)).map fun rows =>
    let rows := if onlyExceptions then rows.filter (·.requiresInvestigation) else rows
    let paginated := paginate (arrange rows) page perPage
    { records := paginated.items.map (serializeRecord isoformat)
      page := paginated.page
      perPage := paginated.perPage
      total := paginated.total
      totalPages := paginated.pages }

end Endpoint

theorem mem_of_filterByStatus {status : Option String} {rows selected : List ReconciliationRecord}
    (h : filterByStatus status rows = some selected) {r : ReconciliationRecord}
    (hr : r ∈ selected) : r ∈ rows := by
  unfold filterByStatus at h
  split at h
  · obtain rfl := Option.some.inj h
    exact hr
  split at h
  · obtain rfl := Option.some.inj h
    exact hr
  split at h
  · obtain rfl := Option.some.inj h
    exact (List.mem_filter.mp hr).1
  · cases h

/-- **What the endpoint serves**: stored records of the run, each as `_serialize_record` writes it. -/
theorem served_of_getRunRecords {isoformat : Int → String}
    {arrange : List ReconciliationRecord → List ReconciliationRecord}
    {paginate : List ReconciliationRecord → Int → Int → Pagination}
    (harrange : ∀ rows, (arrange rows).Perm rows)
    (hpaginate : ∀ rows page perPage, ∀ r ∈ (paginate rows page perPage).items, r ∈ rows)
    {db : ReportingDb} {runId : String} {status exceptionsOnly : Option String} {page perPage : Int}
    {body : RecordsPage}
    (h : getRunRecords isoformat arrange paginate db runId status exceptionsOnly page perPage =
      some body) :
    ∀ entry ∈ body.records, ∃ r ∈ db.recordsOf runId, entry = serializeRecord isoformat r := by
  intro entry hentry
  unfold getRunRecords at h
  obtain ⟨rows, hrows, rfl⟩ := Option.map_eq_some_iff.mp h
  obtain ⟨r, hr, rfl⟩ := List.mem_map.mp hentry
  refine ⟨r, ?_, rfl⟩
  have hselected := (harrange _).mem_iff.mp (hpaginate _ _ _ r hr)
  apply mem_of_filterByStatus hrows
  split at hselected
  · exact (List.mem_filter.mp hselected).1
  · exact hselected

/-- **What the report serves**: stored records of the day's run, each as one of its entries. -/
theorem served_of_exceptionsReport {fromisoformat : String → Option Day}
    {arrange : List ReconciliationRecord → List ReconciliationRecord}
    (harrange : ∀ rows, (arrange rows).Perm rows) {db : ReportingDb} {dateParam : Option String}
    {report : ExceptionsReport}
    (h : exceptionsReport fromisoformat arrange db dateParam = .ok report) :
    ∀ entry ∈ report.exceptions, ∃ r ∈ db.recordsOf report.runId, entry = exceptionEntry r := by
  intro entry hentry
  unfold exceptionsReport at h
  split at h
  · cases h
  split at h
  · cases h
  split at h
  · cases h
  · obtain rfl := Except.ok.inj h
    obtain ⟨r, hr, rfl⟩ := List.mem_map.mp hentry
    exact ⟨r, (List.mem_filter.mp ((harrange _).mem_iff.mp hr)).1, rfl⟩

/-! ## An amount and what is shown of it -/

/-- Shown as null exactly where it is NULL, and else as a text that reads back. -/
structure AmountShown (stored : Option PyDecimal) (shown : Option String) : Prop where
  null_iff : shown = none ↔ stored = none
  readsBack : ∀ text, shown = some text → PyDecimal.ofString text = stored

/-- No two amounts are shown alike. -/
theorem AmountShown.unique {stored stored' : Option PyDecimal} {shown : Option String}
    (h : AmountShown stored shown) (h' : AmountShown stored' shown) : stored = stored' := by
  cases shown with
  | none => rw [h.null_iff.mp rfl, h'.null_iff.mp rfl]
  | some text => rw [← h.readsBack text rfl, h'.readsBack text rfl]

/-- The stored amount is a zero. -/
def StoredZero (cell : Cell) : Prop := ∃ d, numericColumn cell = some d ∧ d.value = some 0

/-- **What `str(x) if x else None` shows**: null for NULL and for a zero, else the text of the
decimal. -/
theorem columnTextOrNone_cases (cell : Cell) :
    (numericColumn cell = none ∧ columnTextOrNone cell = none) ∨
    (StoredZero cell ∧ columnTextOrNone cell = none) ∨
    ∃ d, numericColumn cell = some d ∧ ¬ StoredZero cell ∧
      columnTextOrNone cell = some d.toText := by
  unfold columnTextOrNone StoredZero
  cases numericColumn cell with
  | none => exact .inl ⟨rfl, rfl⟩
  | some d =>
      by_cases hzero : d.value = some 0
      · exact .inr (.inl ⟨⟨d, rfl, hzero⟩, if_pos hzero⟩)
      · refine .inr (.inr ⟨d, rfl, ?_, if_neg hzero⟩)
        rintro ⟨d', heq, hd'⟩
        obtain rfl := Option.some.inj heq
        exact hzero hd'

/-- An amount is shown as it is stored unless it is a zero. -/
theorem amountShown_iff (cell : Cell) :
    AmountShown (numericColumn cell) (columnTextOrNone cell) ↔ ¬ StoredZero cell := by
  rcases columnTextOrNone_cases cell with ⟨hnull, hshown⟩ | ⟨hzero, hshown⟩ | ⟨d, hd, hzero, hshown⟩
  · rw [hnull, hshown]
    refine iff_of_true ⟨iff_of_true rfl rfl, fun _ h => nomatch h⟩ ?_
    rintro ⟨d, hd, -⟩
    rw [hnull] at hd
    cases hd
  · refine iff_of_false (fun h => ?_) (not_not_intro hzero)
    obtain ⟨d, hd, -⟩ := hzero
    rw [h.null_iff.mp hshown] at hd
    cases hd
  · rw [hd, hshown]
    refine iff_of_true ⟨iff_of_false nofun nofun, fun text htext => ?_⟩ hzero
    obtain rfl := Option.some.inj htext
    exact PyDecimal.ofString_toText d

/-! ## A record and what is served of it -/

namespace ReconciliationRecord

/-- Both endpoints show both amounts of the record as they are stored. -/
structure AmountsShown (isoformat : Int → String) (r : ReconciliationRecord) : Prop where
  clearing : AmountShown (numericColumn r.clearingAmount) (serializeRecord isoformat r).clearingAmount
  discrepancy : AmountShown (numericColumn r.discrepancyAmount)
    (serializeRecord isoformat r).discrepancyAmount
  reportedClearing : AmountShown (numericColumn r.clearingAmount) (exceptionEntry r).clearingAmount
  reportedDiscrepancy : AmountShown (numericColumn r.discrepancyAmount)
    (exceptionEntry r).discrepancyAmount

/-- The record with other amounts. -/
def withAmounts (r : ReconciliationRecord) (clearing discrepancy : Cell) : ReconciliationRecord :=
  { r with clearingAmount := clearing, discrepancyAmount := discrepancy }

/-- The records store the same amounts. -/
def SameAmounts (r r' : ReconciliationRecord) : Prop :=
  numericColumn r.clearingAmount = numericColumn r'.clearingAmount ∧
    numericColumn r.discrepancyAmount = numericColumn r'.discrepancyAmount

/-- Records that store different amounts are served differently, by both endpoints. -/
def ToldApart (isoformat : Int → String) (r r' : ReconciliationRecord) : Prop :=
  ¬ r.SameAmounts r' →
    serializeRecord isoformat r ≠ serializeRecord isoformat r' ∧ exceptionEntry r ≠ exceptionEntry r'

/-- Neither amount of the record is a zero. -/
def NoZeroAmount (r : ReconciliationRecord) : Prop :=
  ¬ StoredZero r.clearingAmount ∧ ¬ StoredZero r.discrepancyAmount

theorem amountsShown_iff (isoformat : Int → String) (r : ReconciliationRecord) :
    r.AmountsShown isoformat ↔ r.NoZeroAmount := by
  constructor
  · intro h
    exact ⟨(amountShown_iff _).mp h.clearing, (amountShown_iff _).mp h.discrepancy⟩
  · rintro ⟨hclearing, hdiscrepancy⟩
    have hclearing := (amountShown_iff _).mpr hclearing
    have hdiscrepancy := (amountShown_iff _).mpr hdiscrepancy
    exact ⟨hclearing, hdiscrepancy, hclearing, hdiscrepancy⟩

/-- What is shown as it is stored tells the records apart. -/
theorem AmountsShown.toldApart {isoformat : Int → String} {r r' : ReconciliationRecord}
    (h : r.AmountsShown isoformat) (h' : r'.AmountsShown isoformat) : r.ToldApart isoformat r' := by
  intro hdifferent
  constructor
  · intro heq
    have hclearing := h'.clearing
    have hdiscrepancy := h'.discrepancy
    rw [← heq] at hclearing hdiscrepancy
    exact hdifferent ⟨h.clearing.unique hclearing, h.discrepancy.unique hdiscrepancy⟩
  · intro heq
    have hclearing := h'.reportedClearing
    have hdiscrepancy := h'.reportedDiscrepancy
    rw [← heq] at hclearing hdiscrepancy
    exact hdifferent
      ⟨h.reportedClearing.unique hclearing, h.reportedDiscrepancy.unique hdiscrepancy⟩

end ReconciliationRecord

/-- **When the answers say what is stored.**  Two records that differ in their amounts at most: both
endpoints show the amounts of both as they are stored, and tell the records apart, exactly when neither
stores a zero. -/
theorem amounts_served_iff (isoformat : Int → String) (r : ReconciliationRecord)
    (clearing discrepancy : Cell) :
    (r.AmountsShown isoformat ∧ (r.withAmounts clearing discrepancy).AmountsShown isoformat ∧
      r.ToldApart isoformat (r.withAmounts clearing discrepancy)) ↔
      r.NoZeroAmount ∧ (r.withAmounts clearing discrepancy).NoZeroAmount := by
  rw [← r.amountsShown_iff isoformat,
    ← (r.withAmounts clearing discrepancy).amountsShown_iff isoformat]
  constructor
  · rintro ⟨hshown, hother, -⟩
    exact ⟨hshown, hother⟩
  · rintro ⟨hshown, hother⟩
    exact ⟨hshown, hother, hshown.toldApart hother⟩

/-- Where the settlement file has the amount in euros, the exception has a discrepancy of 0.00, and the
endpoints serve it as they would without any. -/
theorem zero_discrepancy_served_as_null :
    ∃ s r, run (step asTimestamp) (Sys.start ⟨[], []⟩) (settleFirst "100.00" "EUR") = some s ∧
      r ∈ s.db.records ∧ r.status = .EXCEPTION ∧
      numericColumn r.discrepancyAmount = some (.finite false 0 (-2)) ∧
      (exceptionEntry r).discrepancyAmount = none ∧
      (∀ isoformat, (serializeRecord isoformat r).discrepancyAmount = none) ∧
      ∀ isoformat, ¬ r.AmountsShown isoformat ∧
        ¬ r.ToldApart isoformat (r.withAmounts r.clearingAmount .none) := by
  obtain ⟨s, hrun, r, hr, hstatus, hstored⟩ : ∃ s ∈ run (step asTimestamp) (Sys.start ⟨[], []⟩)
        (settleFirst "100.00" "EUR"),
      ∃ r ∈ s.db.records, r.status = .EXCEPTION ∧
        numericColumn r.discrepancyAmount = some (.finite false 0 (-2)) := by
    decide +kernel
  have hzero : PyDecimal.value (.finite false 0 (-2)) = some 0 := by decide +kernel
  have hnull : columnTextOrNone r.discrepancyAmount = none := by
    rw [columnTextOrNone, hstored, Option.bind_some, if_pos hzero]
  refine ⟨s, r, hrun, hr, hstatus, hstored, hnull, fun _ => hnull,
    fun isoformat => ⟨fun hshown => ?_, fun htold => ?_⟩⟩
  · have hiff := hshown.discrepancy.null_iff
    rw [hstored] at hiff
    cases hiff.mp hnull
  · have hdifferent : ¬ r.SameAmounts (r.withAmounts r.clearingAmount .none) := by
      intro hsame
      have hsame := hsame.2
      rw [hstored] at hsame
      cases hsame
    apply (htold hdifferent).2
    unfold exceptionEntry
    rw [hnull]
    rfl

end GlobalPayments.Recon

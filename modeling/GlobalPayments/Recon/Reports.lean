/-
# GlobalPayments.Recon.Reports — the exceptions report of a day.

The report filters the stored records on `requires_investigation`; the run counts the EXCEPTION rows of
its frame; the record stores status and flag next to each other.  The three stay in step because the
flag is computed from the status column, row by row (`RowFlagged`), and both are copied to the record
(`ReconciliationRecord.Flagged`).

An entry has the reference, the amounts and the notes of one record (`ExceptionEntry.Shows`), so the
report says of which payments the exceptions are.
-/
import GlobalPayments.Library.DecimalText
import GlobalPayments.Library.Query
import GlobalPayments.Recon.Matching
import GlobalPayments.Recon.Tally
import Mathlib.Data.String.Basic

namespace GlobalPayments.Recon

open Frame Runs

/-! ## The report -/

/-- `str(r.internal_amount)` and the like: what a `NUMERIC(18, 2)` column gives back for a cell.  The
database rounds to hundredths, half away from zero; `none` is NULL. -/
def numericColumn (cell : Cell) : Option PyDecimal :=
  let literal : Option PyDecimal :=
    match cell with
    | .decimal d => some d
    | .int n => some (.finite (n < 0) n.natAbs 0)
    | .float x => PyDecimal.ofString x.repr
    | _ => none
  literal.map fun d =>
    match d.value with
    | some x =>
        -- a `NUMERIC` has one zero, without a sign
        let coefficient := ⌊|x| * 100 + 1 / 2⌋.toNat
        .finite (x < 0 && coefficient ≠ 0) coefficient (-2)
    | none => d

/-- `str(x)` of a column, `None` for NULL. -/
def columnText (cell : Cell) : String :=
  match numericColumn cell with
  | some d => d.toText
  | none => "None"

/-- `str(x) if x else None`: a zero is falsy as well. -/
def columnTextOrNone (cell : Cell) : Option String :=
  (numericColumn cell).bind fun d => if d.value = some 0 then none else some d.toText

example : columnTextOrNone (.decimal (.divHundred 10050)) = some "100.50" := by decide +kernel

/-- One entry of the report. -/
structure ExceptionEntry where
  paymentReference : Cell
  internalAmount : String
  clearingAmount : Option String
  discrepancyAmount : Option String
  notes : Cell
  deriving DecidableEq

/-- The entry of a record. -/
def exceptionEntry (r : ReconciliationRecord) : ExceptionEntry where
  paymentReference := r.paymentReference
  internalAmount := columnText r.internalAmount
  clearingAmount := columnTextOrNone r.clearingAmount
  discrepancyAmount := columnTextOrNone r.discrepancyAmount
  notes := r.notes

/-- The entry has the reference and the notes of the record, and its texts read back as the amounts
that the columns hold; a zero is left out like NULL. -/
structure ExceptionEntry.Shows (entry : ExceptionEntry) (r : ReconciliationRecord) : Prop where
  paymentReference : entry.paymentReference = r.paymentReference
  internalAmount : PyDecimal.ofString entry.internalAmount = numericColumn r.internalAmount
  clearingAmount : entry.clearingAmount.bind PyDecimal.ofString =
    (numericColumn r.clearingAmount).filter (·.value ≠ some 0)
  discrepancyAmount : entry.discrepancyAmount.bind PyDecimal.ofString =
    (numericColumn r.discrepancyAmount).filter (·.value ≠ some 0)
  notes : entry.notes = r.notes

theorem ofString_columnText (cell : Cell) :
    PyDecimal.ofString (columnText cell) = numericColumn cell := by
  unfold columnText
  cases numericColumn cell with
  | none =>
      show PyDecimal.ofString "None" = none
      decide
  | some d => exact PyDecimal.ofString_toText d

theorem ofString_columnTextOrNone (cell : Cell) :
    (columnTextOrNone cell).bind PyDecimal.ofString =
      (numericColumn cell).filter (·.value ≠ some 0) := by
  unfold columnTextOrNone
  cases numericColumn cell with
  | none => rfl
  | some d =>
      rw [Option.bind_some]
      by_cases hzero : d.value = some 0
      · rw [if_pos hzero, Option.filter_some_neg (by simpa using hzero)]
        rfl
      · rw [if_neg hzero, Option.filter_some_pos (by simpa using hzero)]
        exact PyDecimal.ofString_toText d

/-- **The entry of a record shows it.** -/
theorem exceptionEntry_shows (r : ReconciliationRecord) : (exceptionEntry r).Shows r where
  paymentReference := rfl
  internalAmount := ofString_columnText r.internalAmount
  clearingAmount := ofString_columnTextOrNone r.clearingAmount
  discrepancyAmount := ofString_columnTextOrNone r.discrepancyAmount
  notes := rfl

structure ExceptionsReport where
  runId : String
  date : String
  count : Nat
  exceptions : List ExceptionEntry
  deriving DecidableEq

/-- `jsonify(code=…, message=…), status`. -/
structure ErrorReply where
  status : Nat
  code : String
  message : String
  deriving DecidableEq, Repr

section Endpoint

variable (fromisoformat : String → Option Day)
variable (arrange : List ReconciliationRecord → List ReconciliationRecord)

/-- `exceptions_report`.  `fromisoformat` is `date.fromisoformat`, `none` for its `ValueError`;
`arrange` is what the database makes of `order_by(payment_reference)`. -/
def exceptionsReport (db : ReportingDb) (dateParam : Option String) :
    Except ErrorReply ExceptionsReport :=
  match dateParam with
  | none => .error ⟨400, "VALIDATION_ERROR", "date query param is required"⟩
  | some text =>
      if text = "" then .error ⟨400, "VALIDATION_ERROR", "date query param is required"⟩
      else
        match fromisoformat text with
        | none => .error ⟨400, "VALIDATION_ERROR", "Invalid date format"⟩
        | some day =>
            let records := arrange ((db.recordsOf (runIdOf day)).filter (·.requiresInvestigation))
            .ok
              { runId := runIdOf day
                date := text
                count := records.length
                exceptions := records.map exceptionEntry }

end Endpoint

/-! ## Flag and status -/

/-- A record is flagged exactly when it is an EXCEPTION. -/
def ReconciliationRecord.Flagged (r : ReconciliationRecord) : Prop :=
  r.requiresInvestigation = decide (r.status = .EXCEPTION)

/-- A row that has a status has the flag that goes with it. -/
def RowFlagged (row : Row Cell) : Prop :=
  ∀ cell, row.get "status" = some cell →
    row.get "requires_investigation" =
      some (.bool (decide (cell = .str ReconciliationStatus.EXCEPTION.value)))

theorem flagged_of_toRecord {id : Payments.UUID} {runId : String} {row : Row Cell}
    {r : ReconciliationRecord} (hrow : RowFlagged row) (h : toRecord id runId row = .ok r) :
    r.Flagged := by
  unfold toRecord at h
  obtain ⟨reference, -, h⟩ := bind_eq_ok.mp h
  obtain ⟨cell, hcell, h⟩ := bind_eq_ok.mp h
  obtain ⟨status, hstatus, h⟩ := bind_eq_ok.mp h
  obtain rfl := Except.ok.inj h
  have hflag := hrow cell (item_ok hcell)
  rw [ReconciliationStatus.ofCell_ok hstatus] at hflag
  have hsame : Cell.str status.value = .str ReconciliationStatus.EXCEPTION.value ↔
      status = .EXCEPTION := by
    rw [Cell.str.injEq]
    exact ReconciliationStatus.value_injective.eq_iff
  show (getD row "requires_investigation" (.bool false)).truthy = decide (status = .EXCEPTION)
  rw [getD, hflag]
  exact decide_eq_decide.mpr hsame

/-- The flag column is computed from the status column, and the notes leave both alone. -/
theorem rowFlagged_of_classified {merged result : Frame Cell} (h : classified merged = .ok result) :
    ∀ row ∈ result.rows, RowFlagged row := by
  intro row hrow
  unfold classified at h
  obtain ⟨df₁, h₁, h⟩ := bind_eq_ok.mp h
  obtain ⟨df₂, h₂, h⟩ := bind_eq_ok.mp h
  obtain ⟨df₃, h₃, h₄⟩ := bind_eq_ok.mp h
  obtain ⟨statuses, h₁⟩ := assign_ok h₁
  obtain ⟨discrepancies, h₂⟩ := assign_ok h₂
  obtain ⟨flags, h₃⟩ := assign_ok h₃
  obtain ⟨notes, h₄⟩ := assign_ok h₄
  obtain ⟨flagged, hflagged, -, -, rfl⟩ := exists_of_mem_right h₄ hrow
  obtain ⟨row, hrow, flag, hflag, rfl⟩ := exists_of_mem_right h₃ hflagged
  obtain rfl := Except.ok.inj hflag
  intro cell hcell
  rw [Row.get_set_of_ne (by decide), Row.get_set_of_ne (by decide)] at hcell
  rw [Row.get_set_of_ne (by decide), Row.get_set_self, seriesCell_of_ne (by simp), getD, hcell]
  rfl

/-- **The rows of a result are flagged by their status.** -/
theorem rowFlagged_of_reconcile {internal clearing result : Frame Cell}
    (h : reconcile internal clearing = .ok result) : ∀ row ∈ result.rows, RowFlagged row := by
  unfold reconcile at h
  split at h
  · rename_i hempty
    obtain rfl := Except.ok.inj h
    intro row hrow cell hcell
    -- an empty table has no rows, or no labels
    rcases hempty with hrows | hcolumns
    · rw [hrows] at hrow
      cases hrow
    · have hlabels := internal.aligned row hrow
      rw [hcolumns, List.map_eq_nil_iff] at hlabels
      rw [hlabels] at hcell
      cases hcell
  · obtain ⟨merged, -, hclassified⟩ := bind_eq_ok.mp h
    exact rowFlagged_of_classified hclassified

/-! ## One statement of a call -/

/-- The rows a call has still to go through, and the records it has built of the others. -/
def Worker.Flagged (worker : Worker) : Prop :=
  match worker.phase with
  | .building _ rest batch => (∀ row ∈ rest, RowFlagged row) ∧ ∀ r ∈ batch, r.Flagged
  | .inserting _ rest batch => (∀ row ∈ rest, RowFlagged row) ∧ ∀ r ∈ batch, r.Flagged
  | .committingBatch _ rest => ∀ row ∈ rest, RowFlagged row
  | _ => True

/-- Every stored record is flagged by its status. -/
def ReportingDb.Flagged (db : ReportingDb) : Prop := ∀ r ∈ db.records, r.Flagged

/-- The invariant of the flags: on the stored records, on those of an open transaction, and on what a
call has in hand. -/
structure Sys.Flagged (s : Sys) : Prop where
  stored : s.db.Flagged
  uncommitted : ∀ w, ∀ r ∈ (s.workers w).uncommitted, r.Flagged
  workers : ∀ w, (s.workers w).Flagged

section Advance

variable {toDatetime : Cell → Cell} {db db' : ReportingDb} {worker worker' : Worker}
variable {outcome : Outcome}

theorem flagged_nextRow {results : Frame Cell} {rest : List (Row Cell)}
    {batch : List ReconciliationRecord} (hrest : ∀ row ∈ rest, RowFlagged row)
    (hbatch : ∀ r ∈ batch, r.Flagged) :
    ({ worker with phase := nextRow results rest batch } : Worker).Flagged := by
  unfold nextRow
  split
  · exact ⟨hrest, hbatch⟩
  · exact ⟨hrest, hbatch⟩

/-- What a call has in hand stays flagged. -/
theorem Advances.flagged (h : Advances toDatetime db worker outcome db' worker')
    (hworker : worker.Flagged) : worker'.Flagged := by
  cases h with
  | reconciled _ hresults =>
      exact ⟨rowFlagged_of_reconcile hresults, fun _ hr => absurd hr List.not_mem_nil⟩
  | built id hphase hrecord =>
      simp only [Worker.Flagged, hphase] at hworker
      obtain ⟨hrest, hbatch⟩ := hworker
      apply flagged_nextRow
      · exact fun row hrow => hrest row (List.mem_cons_of_mem _ hrow)
      · intro r hr
        rcases List.mem_append.mp hr with hr | hr
        · exact hbatch r hr
        · obtain rfl := List.mem_singleton.mp hr
          exact flagged_of_toRecord (hrest _ List.mem_cons_self) hrecord
  | remainder hphase =>
      simp only [Worker.Flagged, hphase] at hworker
      exact hworker
  | inserted now hphase =>
      simp only [Worker.Flagged, hphase] at hworker
      exact hworker.1
  | committedBatch hphase =>
      simp only [Worker.Flagged, hphase] at hworker
      exact ⟨hworker, fun _ hr => absurd hr List.not_mem_nil⟩
  | _ => trivial

/-- A bulk insert stores the records as they are, but for the time. -/
theorem Advances.uncommitted_flagged (h : Advances toDatetime db worker outcome db' worker')
    (hworker : worker.Flagged) (huncommitted : ∀ r ∈ worker.uncommitted, r.Flagged) :
    ∀ r ∈ worker'.uncommitted, r.Flagged := by
  intro r hr
  cases h with
  | inserted now hphase =>
      simp only [Worker.Flagged, hphase] at hworker
      obtain ⟨record, hrecord, rfl⟩ := List.mem_map.mp hr
      exact hworker.2 record hrecord
  | committedBatch => cases hr
  | handled => cases hr
  | exited => cases hr
  | struck database =>
      cases database with
      | true => cases hr
      | false => exact huncommitted r hr
  | _ => exact huncommitted r hr

end Advance

/-! ## Every run -/

theorem Sys.Flagged.step {toDatetime : Cell → Cell} {s s' : Sys} {a : Action} (h : s.Flagged)
    (hstep : step toDatetime s a = some s') : s'.Flagged := by
  rcases step_cases hstep with ⟨w, date, -, hstarted⟩ | ⟨w, outcome, -, hstepped⟩
  · refine ⟨hstarted.db ▸ h.stored, ?_, ?_⟩
    · exact hstarted.forall_worker (P := fun _ _ worker => ∀ r ∈ worker.uncommitted, r.Flagged)
        (fun _ hr => absurd hr List.not_mem_nil) fun w' _ => h.uncommitted w'
    · exact hstarted.forall_worker (P := fun _ _ worker => worker.Flagged) trivial
        fun w' _ => h.workers w'
  · have hadvances := hstepped.advances
    refine ⟨fun r hr => ?_, fun w' => ?_, fun w' => ?_⟩
    · rcases hadvances.records r hr with hold | ⟨hnew, -⟩
      · exact h.stored r hold
      · exact h.uncommitted w r hnew
    all_goals by_cases hw : w' = w
    · rw [hw]
      exact hadvances.uncommitted_flagged (h.workers w) (h.uncommitted w)
    · rw [hstepped.others w' hw]
      exact h.uncommitted w'
    · rw [hw]
      exact hadvances.flagged (h.workers w)
    · rw [hstepped.others w' hw]
      exact h.workers w'

/-- **Every stored record is flagged by its status**, in every reachable state. -/
theorem flagged_of_run {toDatetime : Cell → Cell} {db : ReportingDb} (hdb : db.Flagged)
    {trace : List Action} {s : Sys} (hrun : run (step toDatetime) (Sys.start db) trace = some s) :
    s.db.Flagged := by
  have hstart : (Sys.start db).Flagged :=
    ⟨hdb, fun _ _ hr => absurd hr List.not_mem_nil, fun _ => trivial⟩
  have hflagged := run_invariant (I := Sys.Flagged) (fun _ _ _ hs hstep => hs.step hstep) hstart hrun
  exact hflagged.stored

/-- The records an exceptions report of a run should list. -/
def ReportingDb.exceptionsOf (db : ReportingDb) (id : String) : List ReconciliationRecord :=
  (db.recordsOf id).filter fun r => r.status = .EXCEPTION

/-- Where the flags are those of the statuses, the filter of the report is the right one. -/
theorem ReportingDb.Flagged.filter_eq {db : ReportingDb} (h : db.Flagged) (id : String) :
    (db.recordsOf id).filter (·.requiresInvestigation) = db.exceptionsOf id := by
  refine List.filter_congr fun r hr => ?_
  exact h r (List.mem_filter.mp hr).1

/-- **The report lists the exceptions of the run.**  In every reachable state the report of a day has
an entry for each stored EXCEPTION record of its run, which shows that record, and no other; once the
run is COMPLETED it has as many as the run counted. -/
theorem exceptions_reported {κ : Type*} [LinearOrder κ] {toDatetime : Cell → Cell}
    {fromisoformat : String → Option Day} (collation : ReconciliationRecord → κ)
    {arrange : List ReconciliationRecord → List ReconciliationRecord}
    (harrange : ∀ rows, Query.Ordered collation rows (arrange rows)) {db : ReportingDb}
    (hdb : db.Valid) (htallied : db.Tallied) (hflagged : db.Flagged) {trace : List Action} {s : Sys}
    (hrun : run (step toDatetime) (Sys.start db) trace = some s) {text : String} {day : Day}
    (htext : text ≠ "") (hday : fromisoformat text = some day) :
    ∃ (report : ExceptionsReport) (records : List ReconciliationRecord),
      exceptionsReport fromisoformat arrange s.db (some text) = .ok report ∧
      report.runId = runIdOf day ∧
      List.Forall₂ ExceptionEntry.Shows report.exceptions records ∧
      records.Perm (s.db.exceptionsOf (runIdOf day)) ∧
      report.count = report.exceptions.length ∧
      ∀ run ∈ s.db.runs, run.id = runIdOf day → run.status = .COMPLETED →
        report.count = run.exceptionCount := by
  have hfilter := (flagged_of_run hflagged hrun).filter_eq (runIdOf day)
  have hperm := (harrange (s.db.exceptionsOf (runIdOf day))).perm
  have hreport : exceptionsReport fromisoformat arrange s.db (some text) = .ok
      { runId := runIdOf day
        date := text
        count := (arrange (s.db.exceptionsOf (runIdOf day))).length
        exceptions := (arrange (s.db.exceptionsOf (runIdOf day))).map exceptionEntry } := by
    unfold exceptionsReport
    simp only [htext, hday, hfilter, if_false]
  have hshows : List.Forall₂ ExceptionEntry.Shows
      ((arrange (s.db.exceptionsOf (runIdOf day))).map exceptionEntry)
      (arrange (s.db.exceptionsOf (runIdOf day))) := by
    rw [List.forall₂_map_left_iff, List.forall₂_same]
    exact fun r _ => exceptionEntry_shows r
  refine ⟨_, _, hreport, rfl, hshows, hperm, (List.length_map _).symm, fun run hmem hid hcompleted => ?_⟩
  have htallies := (Sys.Tallied.run hdb htallied hrun).stored run hmem hcompleted
  show (arrange _).length = _
  rw [hperm.length_eq, htallies.exceptions, hid, ReportingDb.exceptionsOf, List.countP_eq_length_filter]

/-- A call for 2024-03-15 over two payments, up to the commit of its summary: the settlement file has
the amount and the currency for the first of them, which is of 100.00 GBP, and the second as it is. -/
def settleFirst (amount currency : String) : List Action :=
  storing 0 19797 samplePayments
    (settlementFile [("PAY-20240315-000001-AB12", .str amount, currency),
      ("PAY-20240315-000002-CD34", .str "25.00", "GBP")]) [9, 10] ++ completing 0

/-- What the report of 2024-03-15 has for the first payment, settled at 90.00. -/
def shortSettled : ExceptionEntry where
  paymentReference := .str "PAY-20240315-000001-AB12"
  internalAmount := "100.00"
  clearingAmount := some "90.00"
  discrepancyAmount := some "10.00"
  notes := .str "Amount discrepancy: internal=100, clearing=90.00. Requires manual review."

/-- Of the two payments one is an exception: the report has its entry, and the run counted it. -/
theorem exceptions_reported_one :
    ∃ s report, run (step asTimestamp) (Sys.start ⟨[], []⟩) (settleFirst "90.00" "GBP") = some s ∧
      s.db.records.map (·.status) = [.EXCEPTION, .MATCHED] ∧
      exceptionsReport (fun _ => some 19797) (fun rows => rows.mergeSort fun a b =>
        decide (a.paymentReference.toText ≤ b.paymentReference.toText)) s.db (some "2024-03-15") =
          .ok report ∧
      report.exceptions = [shortSettled] ∧
      (∃ r, s.db.exceptionsOf report.runId = [r] ∧ shortSettled.Shows r) ∧
      s.db.runs.map (fun r => (r.status, r.exceptionCount)) = [(.COMPLETED, report.count)] := by
  obtain ⟨s, hrun, hstatus, hentries, hruns⟩ : ∃ s ∈ run (step asTimestamp) (Sys.start ⟨[], []⟩)
        (settleFirst "90.00" "GBP"),
      s.db.records.map (·.status) = [.EXCEPTION, .MATCHED] ∧
      ((s.db.recordsOf (runIdOf 19797)).filter (·.requiresInvestigation)).map exceptionEntry =
        [shortSettled] ∧
      s.db.runs.map (fun r => (r.status, r.exceptionCount)) = [(.COMPLETED, 1)] := by
    decide +kernel
  obtain ⟨report, records, hreported, hid, hshows, hperm, -, -⟩ :=
    @exceptions_reported _ _ _ (fun _ => some 19797) (fun r => r.paymentReference.toText) _
      (fun rows => Query.ordered_mergeSort _ rows) _ .empty (fun _ h => absurd h List.not_mem_nil)
      (fun _ h => absurd h List.not_mem_nil) _ _ hrun "2024-03-15" _ (by decide) rfl
  have hlisted : report.exceptions = [shortSettled] ∧ report.count = 1 := by
    obtain ⟨r, hr, hentry⟩ := List.map_eq_singleton_iff.mp hentries
    simp only [exceptionsReport, hr, List.mergeSort_singleton, List.map_singleton, hentry] at hreported
    obtain rfl := Except.ok.inj hreported
    exact ⟨rfl, rfl⟩
  rw [hlisted.1] at hshows
  obtain ⟨r, rest, hshown, hrest, rfl⟩ := List.forall₂_cons_left_iff.mp hshows
  obtain rfl := List.forall₂_nil_left_iff.mp hrest
  refine ⟨s, report, hrun, hstatus, hreported, hlisted.1, ⟨r, ?_, hshown⟩, ?_⟩
  · rw [hid]
    exact List.perm_singleton.mp hperm.symm
  · rw [hlisted.2, hruns]

end GlobalPayments.Recon

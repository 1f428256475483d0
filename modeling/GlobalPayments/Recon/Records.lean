/-
# GlobalPayments.Recon.Records — the reporting database and what a run writes to it.

`ReconciliationRun` and `ReconciliationRecord` with every column a run fills, the figures of the run
summary, and the record `_persist_results` builds from one row of the result.  Days are counted from
1970-01-01, as UTC days of the payments' instants are.
-/
import GlobalPayments.Payments.Reference
import GlobalPayments.Recon.Reconcile

namespace GlobalPayments.Recon

open Frame
open Payments (UUID paddedDigits)

/-! ## Days and run ids -/

/-- A `date`, as the number of days since 1970-01-01. -/
abbrev Day := Int

/-- Year, month and day of the month, in the proleptic Gregorian calendar: days are counted in
400-year cycles from 0000-03-01, so that the leap day is the last of its year. -/
def Day.civil (d : Day) : Nat × Nat × Nat :=
  let z := d + 719468
  let dayOfEra := (z % 146097).toNat
  let yearOfEra := (dayOfEra - dayOfEra / 1460 + dayOfEra / 36524 - dayOfEra / 146096) / 365
  let dayOfYear := dayOfEra - (365 * yearOfEra + yearOfEra / 4 - yearOfEra / 100)
  let shifted := (5 * dayOfYear + 2) / 153
  let month := if shifted < 10 then shifted + 3 else shifted - 9
  let year := (z / 146097).toNat * 400 + yearOfEra + if month ≤ 2 then 1 else 0
  (year, month, dayOfYear - (153 * shifted + 2) / 5 + 1)

/-- `f"RECON-{target_date.strftime('%Y%m%d')}"`.  `%Y` has no zeros in front. -/
def runIdOf (d : Day) : String :=
  let (year, month, day) := d.civil
  String.ofList ("RECON-".toList ++ Nat.toDigits 10 year ++ paddedDigits 10 2 month ++
    paddedDigits 10 2 day)

example : runIdOf 19797 = "RECON-20240315" := by decide
example : runIdOf 11016 = "RECON-20000229" := by decide
example : runIdOf (-354650) = "RECON-9990101" := by decide

/-! ## The tables -/

/-- The values of `ReconciliationRun.status`. -/
inductive RunStatus where
  | RUNNING | COMPLETED | FAILED
  deriving DecidableEq, Repr

/-- A row of `reconciliation_runs`.  `runDate` stands for its midnight, UTC; the total is the float
that is written to the `Numeric(20, 2)` column. -/
structure ReconciliationRun where
  id : String
  runDate : Day
  startedAt : Option Int := none
  completedAt : Option Int := none
  totalRecords : Nat := 0
  matchedCount : Nat := 0
  unmatchedCount : Nat := 0
  exceptionCount : Nat := 0
  totalAmountGbp : Binary64 := .finite 0
  status : RunStatus := .RUNNING
  errorMessage : Option String := none
  deriving DecidableEq, Repr

/-- A row of `reconciliation_records`, its cells as the result frame has them. -/
structure ReconciliationRecord where
  id : UUID
  paymentReference : Cell
  paymentId : Cell
  internalAmount : Cell
  internalCurrency : Cell
  internalStatus : Cell
  internalCreatedAt : Cell
  clearingAmount : Cell
  clearingCurrency : Cell
  clearingReference : Cell
  clearingStatus : Cell
  clearingSettledAt : Cell
  status : ReconciliationStatus
  discrepancyAmount : Cell
  notes : Cell
  reconciliationRunId : String
  reconciledAt : Option Int := none
  requiresInvestigation : Bool
  deriving DecidableEq, Repr

/-- The `nullable=False` columns of a record that a frame cell fills. -/
def ReconciliationRecord.notNull (r : ReconciliationRecord) : Bool :=
  r.paymentReference ≠ .none && r.paymentId ≠ .none && r.internalAmount ≠ .none &&
    r.internalCurrency ≠ .none && r.internalStatus ≠ .none && r.internalCreatedAt ≠ .none

/-- The reporting database. -/
structure ReportingDb where
  runs : List ReconciliationRun
  records : List ReconciliationRecord
  deriving DecidableEq, Repr

/-- The stored row of a run. -/
def ReportingDb.findRun (db : ReportingDb) (id : String) : Option ReconciliationRun :=
  db.runs.find? fun r => r.id = id

/-- The stored records of a run. -/
def ReportingDb.recordsOf (db : ReportingDb) (id : String) : List ReconciliationRecord :=
  db.records.filter fun r => r.reconciliationRunId = id

/-! ## The summary of a run -/

/-- `(results_df['status'] == status).sum()`. -/
def statusCount (results : Frame Cell) (status : ReconciliationStatus) : Nat :=
  results.rows.countP fun row => row.get "status" = some (.str status.value)

/-- The three counts; an absent column is a `KeyError`. -/
def summarise (results : Frame Cell) (run : ReconciliationRun) :
    Except PyError ReconciliationRun :=
  if "status" ∈ results.columns then .ok
    { run with
      totalRecords := results.rows.length
      matchedCount := statusCount results .MATCHED
      unmatchedCount := statusCount results .UNMATCHED
      exceptionCount := statusCount results .EXCEPTION }
  else .error (.keyError "status")

/-- A cell as a summand: a missing value counts as zero. -/
def summand (cell : Cell) : Except PyError ℚ :=
  if cell.isna then .ok 0
  else
    match cell.number with
    | some x => .ok x
    | none => .error .typeError

/-- `float(results_df['internal_amount'].sum() if len(results_df) > 0 else 0)`. -/
def totalAmount (results : Frame Cell) : Except PyError Binary64 :=
  if results.rows = [] then .ok (.finite 0)
  else if "internal_amount" ∈ results.columns then
    (results.rows.mapM fun row => summand (getD row "internal_amount" .none)).map fun amounts =>
      .round amounts.sum
  else .error (.keyError "internal_amount")

/-- `match_rate`: `round(matched_count / total_records * 100, 2)`. -/
def ReconciliationRun.matchRate (run : ReconciliationRun) : Binary64 :=
  if run.totalRecords = 0 then .finite 0
  else
    match Binary64.round (run.matchedCount / run.totalRecords) with
    | .finite ratio =>
        match Binary64.round (ratio * 100) with
        | .finite percent => .round (Binary64.roundHalfEven (percent * 100) / 100)
        | x => x
    | x => x

/-- What a run returns. -/
structure Summary where
  runId : String
  date : Day
  total : Nat
  matched : Nat
  unmatched : Nat
  exceptions : Nat
  matchRatePct : Binary64
  status : RunStatus
  deriving DecidableEq, Repr

/-! ## The record of a row -/

/-- `bool(x)`. -/
def Cell.truthy : Cell → Bool
  | .none => false
  | .nat => true
  | .bool b => b
  | .str s => s ≠ ""
  | .int n => n ≠ 0
  | .float x => x ≠ .finite 0
  | .decimal d => d.value ≠ some 0
  | .timestamp _ => true

/-- `row[label]`. -/
def item (row : Row Cell) (label : String) : Except PyError Cell :=
  match row.get label with
  | some cell => .ok cell
  | none => .error (.keyError label)

/-- `ReconciliationStatus(x)`. -/
def ReconciliationStatus.ofCell (cell : Cell) : Except PyError ReconciliationStatus :=
  if cell = .str ReconciliationStatus.MATCHED.value then .ok .MATCHED
  else if cell = .str ReconciliationStatus.UNMATCHED.value then .ok .UNMATCHED
  else if cell = .str ReconciliationStatus.EXCEPTION.value then .ok .EXCEPTION
  else .error .valueError

theorem item_ok {row : Row Cell} {label : String} {cell : Cell} (h : item row label = .ok cell) :
    row.get label = some cell := by
  unfold item at h
  split at h
  · rename_i heq
    rw [heq, Except.ok.inj h]
  · cases h

theorem ReconciliationStatus.ofCell_ok {cell : Cell} {status : ReconciliationStatus}
    (h : ReconciliationStatus.ofCell cell = .ok status) : cell = .str status.value := by
  unfold ReconciliationStatus.ofCell at h
  split at h
  · obtain rfl := Except.ok.inj h
    assumption
  split at h
  · obtain rfl := Except.ok.inj h
    assumption
  split at h
  · obtain rfl := Except.ok.inj h
    assumption
  · cases h

/-- The `ReconciliationRecord` of one row. -/
def toRecord (id : UUID) (runId : String) (row : Row Cell) :
    Except PyError ReconciliationRecord := do
  let paymentReference ← item row "payment_reference"
  let status ← item row "status"
  let status ← ReconciliationStatus.ofCell status
  .ok
    { id := id
      paymentReference := paymentReference
      paymentId := getD row "payment_id" .none
      internalAmount := getD row "internal_amount" .none
      internalCurrency := getD row "internal_currency" .none
      internalStatus := getD row "internal_status" .none
      internalCreatedAt := getD row "internal_created_at" .none
      clearingAmount := getD row "clearing_amount" .none
      clearingCurrency := getD row "clearing_currency" .none
      clearingReference := getD row "clearing_reference" .none
      clearingStatus := getD row "clearing_status" .none
      clearingSettledAt := getD row "clearing_settled_at" .none
      status := status
      discrepancyAmount := getD row "discrepancy_amount" .none
      notes := getD row "notes" .none
      reconciliationRunId := runId
      requiresInvestigation := (getD row "requires_investigation" (.bool false)).truthy }

end GlobalPayments.Recon

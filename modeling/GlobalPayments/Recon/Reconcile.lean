/-
# GlobalPayments.Recon.Reconcile — `_reconcile`, `_classify_record` and the derived columns.

The internal frame is joined with the clearing frame on the payment reference; then four columns are
assigned row by row: the status, the discrepancy, the investigation flag and the notes.
-/
import GlobalPayments.Recon.Loading

namespace GlobalPayments.Recon

open Frame

/-- `ReconciliationStatus`. -/
inductive ReconciliationStatus where
  | MATCHED | UNMATCHED | EXCEPTION
  deriving DecidableEq, Repr

/-- `ReconciliationStatus.value`. -/
def ReconciliationStatus.value : ReconciliationStatus → String
  | .MATCHED => "MATCHED"
  | .UNMATCHED => "UNMATCHED"
  | .EXCEPTION => "EXCEPTION"

theorem ReconciliationStatus.value_injective : Function.Injective ReconciliationStatus.value := by
  intro s s' h
  revert h
  cases s <;> cases s' <;> decide

/-! ## `_classify_record` -/

/-- `abs(float(x) - float(y)) > 0.005`. -/
def amountsDiffer (x y : Cell) : Except PyError Bool :=
  match x.toFloat, y.toFloat with
  | .ok a, .ok b => .ok ((a.sub b).abs.gt (.round (5 / 1000)))
  | .error e, _ => .error e
  | .ok _, .error e => .error e

/-- `_classify_record`. -/
def classifyRecord (row : Row Cell) : Except PyError ReconciliationStatus :=
  if (getD row "clearing_reference" .none).isna then .ok .UNMATCHED
  else
    let internalAmount := getD row "internal_amount" .none
    let clearingAmount := getD row "clearing_amount" .none
    let differ :=
      if internalAmount ≠ .none ∧ clearingAmount ≠ .none then
        amountsDiffer internalAmount clearingAmount
      else .ok false
    match differ with
    | .error e => .error e
    | .ok true => .ok .EXCEPTION
    | .ok false =>
        if (getD row "internal_currency" .none).differs (getD row "clearing_currency" .none) then
          .ok .EXCEPTION
        else .ok .MATCHED

/-! ## The other derived columns -/

/-- `_compute_discrepancy`; a missing or unreadable amount leaves it empty. -/
def computeDiscrepancy (row : Row Cell) : Except PyError Cell :=
  if getD row "status" .none ≠ .str ReconciliationStatus.EXCEPTION.value then .ok .none
  else
    match (getD row "internal_amount" (.int 0)).toFloat,
      (getD row "clearing_amount" (.int 0)).toFloat with
    | .ok a, .ok b => .ok (.float (a.sub b).abs)
    | .error .typeError, _ => .ok .none
    | .error .valueError, _ => .ok .none
    | .error e, _ => .error e
    | .ok _, .error .typeError => .ok .none
    | .ok _, .error .valueError => .ok .none
    | .ok _, .error e => .error e

/-- `_generate_notes`. -/
def generateNotes (row : Row Cell) : Cell :=
  if getD row "status" .none = .str ReconciliationStatus.MATCHED.value then .none
  else if getD row "status" .none = .str ReconciliationStatus.UNMATCHED.value then
    .str "No matching clearing record found. Check if payment is pending settlement."
  else
    .str ("Amount discrepancy: internal=" ++ (getD row "internal_amount" .none).toText ++
      ", clearing=" ++ (getD row "clearing_amount" .none).toText ++ ". Requires manual review.")

/-- The series that `apply` returns has one type: next to a float, `None` becomes NaN. -/
def seriesCell (column : List Cell) (cell : Cell) : Cell :=
  let isFloat : Cell → Bool := fun c => match c with | .float _ => true | _ => false
  if cell = .none ∧ column.any isFloat ∧ column.all (fun c => isFloat c || c = .none) then .nan
  else cell

/-! ## `_reconcile` -/

/-- A cell of a column of times. -/
def Cell.isTime : Cell → Bool
  | .timestamp _ => true
  | .nat => true
  | _ => false

/-- A column of times.  Without cells it is the one that `pd.to_datetime` made: a settlement file with
no rows has it, the frame for a missing file does not. -/
def timeColumn (clearing : Frame Cell) (label : String) : Bool :=
  if clearing.rows = [] then
    label = "clearing_settled_at" && "clearing_amount_raw" ∈ clearing.columns
  else clearing.rows.all fun r => (getD r label .none).isTime

/-- What a left join puts where a row has no match: NaT in a column of times, NaN in any other. -/
def missingCell (clearing : Frame Cell) (label : String) : Cell :=
  if timeColumn clearing label then .nat else .nan

theorem missingCell_ne_none (clearing : Frame Cell) (label : String) :
    missingCell clearing label ≠ .none := by
  unfold missingCell
  split <;> decide

/-- The join of the two frames. -/
def joined (internal clearing : Frame Cell) : Except PyError (Frame Cell) :=
  match mergeLeft "payment_reference" "_internal" "_clearing" (missingCell clearing) internal
    clearing with
  | .error (.keyError label) => .error (.keyError label)
  | .error .suffixClash => .error .mergeError
  | .ok merged => .ok merged

/-- The four columns assigned to the joined frame. -/
def classified (merged : Frame Cell) : Except PyError (Frame Cell) := do
  let merged ← merged.assign seriesCell "status" fun row =>
    (classifyRecord row).map fun status => .str status.value
  let merged ← merged.assign seriesCell "discrepancy_amount" computeDiscrepancy
  let merged ← merged.assign seriesCell "requires_investigation" fun row =>
    .ok (.bool (getD row "status" .none = .str ReconciliationStatus.EXCEPTION.value))
  merged.assign seriesCell "notes" fun row => .ok (generateNotes row)

/-- `_reconcile`. -/
def reconcile (internal clearing : Frame Cell) : Except PyError (Frame Cell) :=
  if internal.rows = [] ∨ internal.columns = [] then .ok internal
  else (joined internal clearing).bind classified

end GlobalPayments.Recon

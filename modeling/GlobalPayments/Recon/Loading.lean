/-
# GlobalPayments.Recon.Loading — the two tables of a reconciliation.

`_load_internal_payments` turns the rows of its query into a frame and adds the `internal_*`
columns; `_load_clearing_file` renames the columns of the settlement CSV and parses amounts and
times.  Which query rows there are and what `pd.read_csv` makes of the file come from outside; so does
`pd.to_datetime(…, errors='coerce')`.

`@retry` runs the body of `_load_clearing_file` again when it raises: a table it returns is a table
one attempt returned.
-/
import GlobalPayments.Recon.Cell

namespace GlobalPayments.Recon

open Frame

/-! ## `_load_internal_payments` -/

/-- A row of the query on `payments`. -/
structure PaymentRow where
  paymentReference : String
  paymentId : String
  amountMinorUnits : Int
  currency : String
  status : String
  clearingReference : Option String
  createdAt : String
  updatedAt : String
  deriving DecidableEq, Repr

/-- The column names of the query. -/
def queryColumns : List String :=
  ["payment_reference", "payment_id", "amount_minor_units", "currency", "status",
    "clearing_reference", "created_at", "updated_at"]

/-- A nullable text column. -/
def textCell : Option String → Cell
  | none => .none
  | some s => .str s

/-- The columns `_load_internal_payments` returns. -/
def internalColumns : List String :=
  queryColumns ++ ["internal_amount", "internal_currency", "internal_status", "internal_created_at"]

/-- A row of the internal frame: the query's cells and the four derived ones. -/
def internalRow (toDatetime : Cell → Cell) (p : PaymentRow) : Row Cell :=
  [("payment_reference", .str p.paymentReference), ("payment_id", .str p.paymentId),
    ("amount_minor_units", .int p.amountMinorUnits), ("currency", .str p.currency),
    ("status", .str p.status), ("clearing_reference", textCell p.clearingReference),
    ("created_at", .timestamp p.createdAt), ("updated_at", .timestamp p.updatedAt),
    ("internal_amount", .decimal (.divHundred p.amountMinorUnits)),
    ("internal_currency", .str p.currency), ("internal_status", .str p.status),
    ("internal_created_at", toDatetime (.timestamp p.createdAt))]

/-- `_load_internal_payments` on the rows its query returned. -/
def loadInternalPayments (toDatetime : Cell → Cell) (result : List PaymentRow) : Frame Cell :=
  if result = [] then
    .empty ["payment_reference", "payment_id", "amount_minor_units", "currency", "status",
      "clearing_reference", "created_at"]
  else
    { columns := internalColumns
      rows := result.map (internalRow toDatetime)
      aligned := by
        intro row hrow
        obtain ⟨p, -, rfl⟩ := List.mem_map.mp hrow
        rfl }

/-! ## `_load_clearing_file` -/

/-- The renaming of the CSV's columns. -/
def clearingName : String → String
  | "amount" => "clearing_amount_raw"
  | "currency" => "clearing_currency"
  | "reference" => "clearing_reference"
  | "status" => "clearing_status"
  | "settled_at" => "clearing_settled_at"
  | label => label

/-- `df[label]`: the column has to be there, once. -/
def requireColumn (df : Frame Cell) (label : String) : Except PyError Unit :=
  match df.columns.count label with
  | 0 => .error (.keyError label)
  | 1 => .ok ()
  | _ => .error .valueError

/-- `Decimal(str(x).strip())`; the constructor takes the blanks off once more. -/
def parseAmount (x : Cell) : Except PyError Cell :=
  match (PyDecimal.ofString x.toText).filter PyDecimal.representable with
  | some d => .ok (.decimal d)
  | none => .error .invalidOperation

/-- The frame returned when the file does not exist. -/
def noClearingFile : Frame Cell :=
  .empty ["payment_reference", "clearing_amount", "clearing_currency", "clearing_reference",
    "clearing_status", "clearing_settled_at"]

/-- One attempt of `_load_clearing_file`: `none` for the `NoSuchKey` of a missing file, else the
frame of `pd.read_csv`. -/
def loadClearingFile (toDatetime : Cell → Cell) (file : Option (Frame Cell)) :
    Except PyError (Frame Cell) :=
  match file with
  | none => .ok noClearingFile
  | some csv => do
      let renamed := csv.rename clearingName
      requireColumn renamed "clearing_amount_raw"
      let priced ← renamed.assign (fun _ cell => cell) "clearing_amount" fun row =>
        parseAmount (getD row "clearing_amount_raw" .none)
      requireColumn priced "clearing_settled_at"
      priced.assign (fun _ cell => cell) "clearing_settled_at" fun row =>
        .ok (toDatetime (getD row "clearing_settled_at" .none))

/-! ## A settlement file -/

/-- `pd.to_datetime` on times that are written as pandas prints them. -/
def asTimestamp : Cell → Cell
  | .str text => .timestamp text
  | .timestamp text => .timestamp text
  | _ => .nat

/-- What `pd.read_csv` makes of a settlement file without the network's own references, by payment
reference, amount and currency. -/
def settlementFile (lines : List (String × Cell × String)) : Frame Cell where
  columns := ["payment_reference", "amount", "currency", "status", "settled_at"]
  rows := lines.map fun (reference, amount, currency) =>
    [("payment_reference", .str reference), ("amount", amount), ("currency", .str currency),
      ("status", .str "SETTLED"), ("settled_at", .str "2024-03-15 23:00:00+00:00")]
  aligned := by
    intro row hrow
    obtain ⟨line, -, rfl⟩ := List.mem_map.mp hrow
    rfl

/-- A payment that was completed on 15 March 2024, within the hour. -/
def completedPayment (paymentReference paymentId : String) (amountMinorUnits : Int)
    (clearingReference : String) : PaymentRow where
  paymentReference := paymentReference
  paymentId := paymentId
  amountMinorUnits := amountMinorUnits
  currency := "GBP"
  status := "COMPLETED"
  clearingReference := some clearingReference
  createdAt := "2024-03-15 10:00:00+00:00"
  updatedAt := "2024-03-15 11:00:00+00:00"

/-- One of 100.00 and one of 25.00. -/
def samplePayments : List PaymentRow :=
  [completedPayment "PAY-20240315-000001-AB12" "00000000-0000-0000-0000-000000000007" 10000 "CLR-001",
    completedPayment "PAY-20240315-000002-CD34" "00000000-0000-0000-0000-000000000008" 2500 "CLR-002"]

/-- A settlement file for both, with the amounts it has for them. -/
def settledAt (first second : String) : Frame Cell :=
  settlementFile [("PAY-20240315-000001-AB12", .str first, "GBP"),
    ("PAY-20240315-000002-CD34", .str second, "GBP")]

end GlobalPayments.Recon

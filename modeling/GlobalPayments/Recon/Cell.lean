/-
# GlobalPayments.Recon.Cell — the values in a reconciliation data frame.

A cell holds what pandas puts there: a Python object, or one of the three marks for a missing value
(`None`, `NaN`, `NaT`).  The functions are the ones the reconciliation applies to a cell: `pd.isna`,
`float`, `str` and `!=`.
-/
import GlobalPayments.Library.Frame
import GlobalPayments.Library.PyDecimal

namespace GlobalPayments.Recon

/-- The exceptions the reconciliation can raise over its frames. -/
inductive PyError where
  | keyError (label : String)
  | typeError
  | valueError
  | overflowError
  | invalidOperation
  | mergeError
  deriving DecidableEq, Repr

/-- One cell.  A timestamp is kept as `str` prints it. -/
inductive Cell where
  | none
  | nat
  | bool (b : Bool)
  | str (s : String)
  | int (n : Int)
  | float (x : Binary64)
  | decimal (d : PyDecimal)
  | timestamp (text : String)
  deriving DecidableEq, Repr

namespace Cell

/-- The float NaN, which pandas uses for "missing". -/
def nan : Cell := .float .nan

/-- `pd.isna(x)`. -/
def isna : Cell → Bool
  | .none => true
  | .nat => true
  | .float .nan => true
  | .decimal (.nan _) => true
  | _ => false

/-- `float(x)`. -/
def toFloat : Cell → Except PyError Binary64
  | .none => .error .typeError
  | .nat => .error .typeError
  | .bool b => .ok (.finite (if b then 1 else 0))
  | .str s =>
      match PyFloat.ofString s with
      | some x => .ok x
      | Option.none => .error .valueError
  | .int n =>
      match Binary64.round n with
      | .infinity _ => .error .overflowError
      | x => .ok x
  | .float x => .ok x
  | .decimal d =>
      match d.toBinary64 with
      | some x => .ok x
      | Option.none => .error .valueError
  | .timestamp _ => .error .typeError

/-- `str(x)`. -/
def toText : Cell → String
  | .none => "None"
  | .nat => "NaT"
  | .bool b => if b then "True" else "False"
  | .str s => s
  | .int n => toString n
  | .float x => x.repr
  | .decimal d => d.toText
  | .timestamp text => text

/-- The number a numeric cell stands for. -/
def number : Cell → Option ℚ
  | .bool b => some (if b then 1 else 0)
  | .int n => some n
  | .float (.finite x) => some x
  | .decimal d => d.value
  | _ => Option.none

/-- `x != y`: numbers are compared by value, NaN and NaT differ from everything, and other objects
are compared as they are. -/
def differs (x y : Cell) : Bool :=
  match x.number, y.number with
  | some a, some b => a ≠ b
  | _, _ => x ≠ y || (x.isna && x ≠ .none)

end Cell

/-- `row.get(label, default)`. -/
def getD (row : Frame.Row Cell) (label : String) (default : Cell) : Cell :=
  (row.get label).getD default

end GlobalPayments.Recon

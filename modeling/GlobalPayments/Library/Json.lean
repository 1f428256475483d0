/-
# Json — JSON values as JavaScript reads them.

The value type of `JSON.parse`, and the three readings of a value that programs lean on without
saying so: its truthiness (`value || fallback`), strict equality with a string, and its text
(`String(value)`, `Array.prototype.join`), with the values that have none.  Blanks are those of
`String.prototype.trim`.
-/
import Mathlib.Data.String.Basic

/-- A value out of `JSON.parse`.  A number is kept as `String(n)` prints it. -/
inductive Json where
  | null
  | bool (b : Bool)
  | num (text : String)
  | str (s : String)
  | arr (items : List Json)
  | obj (fields : List (String × Json))

namespace Json

/-! ## Readings of a value -/

/-- Whether `value || fallback` keeps the value; `none` is `undefined`. -/
def truthy : Option Json → Bool
  | none => false
  | some .null => false
  | some (.bool b) => b
  | some (.num text) => text ≠ "0"
  | some (.str s) => s ≠ ""
  | some (.arr _) => true
  | some (.obj _) => true

/-- `value === s` for a string `s`. -/
def isStr (s : String) : Json → Bool
  | .str t => t = s
  | _ => false

mutual

/-- `String(value)`, of a value that is `convertible`. -/
def toText : Json → String
  | .null => "null"
  | .bool b => if b then "true" else "false"
  | .num text => text
  | .str s => s
  | .arr items => ",".intercalate (joinItems items)
  | .obj _ => "[object Object]"

/-- What `Array.prototype.join` makes of each item. -/
def joinItems : List Json → List String
  | [] => []
  | .null :: items => "" :: joinItems items
  | item :: items => item.toText :: joinItems items

end

mutual

/-- Whether `String(value)` returns: an object with a `toString` of its own shadows the function that
would be called by a value that cannot be, and the conversion is a `TypeError`. -/
def convertible : Json → Bool
  | .arr items => joinable items
  | .obj fields => fields.all fun field => field.1 ≠ "toString"
  | _ => true

/-- Whether `Array.prototype.join` returns. -/
def joinable : List Json → Bool
  | [] => true
  | item :: items => item.convertible && joinable items

end

/-! ## Texts -/

/-- White space and line ends, as `trim` and `parseInt` skip them. -/
def isBlank (c : Char) : Bool :=
  c.val ∈ [0x9, 0xa, 0xb, 0xc, 0xd, 0x20, 0xa0, 0x1680, 0x2028, 0x2029, 0x202f, 0x205f, 0x3000, 0xfeff] ||
    (0x2000 ≤ c.val && c.val ≤ 0x200a)

/-- `text.trim()`. -/
def trim (text : List Char) : List Char :=
  ((text.dropWhile isBlank).reverse.dropWhile isBlank).reverse

/-! ## Arrays -/

/-- The items of an array, none for anything else. -/
def arrayItems : Option Json → List Json
  | some (.arr items) => items
  | _ => []

theorem arrayItems_of_falsy {roles : Option Json} (h : truthy roles = false) :
    arrayItems roles = [] := by
  unfold arrayItems
  split
  · cases h
  · rfl

theorem isStr_iff {s : String} {value : Json} : value.isStr s = true ↔ value = .str s := by
  cases value <;> simp [isStr]

/-- An object without a key twice has each of its members under its key. -/
theorem lookup_of_mem {members : List (String × Json)} (hnodup : (members.map Prod.fst).Nodup)
    {member : String × Json} (h : member ∈ members) : members.lookup member.1 = some member.2 := by
  induction members with
  | nil => cases h
  | cons first members ih =>
      obtain ⟨hnew, hrest⟩ := List.nodup_cons.mp hnodup
      rcases List.mem_cons.mp h with rfl | hmem
      · exact List.lookup_cons_self
      · have hne : (member.1 == first.1) = false := by
          rw [beq_eq_false_iff_ne]
          rintro hkey
          exact hnew (hkey ▸ List.mem_map_of_mem hmem)
        rw [← Prod.eta first, List.lookup_cons, hne]
        exact ih hrest hmem

end Json

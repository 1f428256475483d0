/-
# PyJson — Python's `json.loads`.

The scanner reads a value at the front of a text and hands back what follows it.  It takes more than
JSON: `NaN` and the infinities, and lone surrogates in escapes.  Almost everything it does not take is
a `JSONDecodeError`; two kinds of text run into limits of the interpreter instead, and which comes
first is decided by the order of the text: containers nested too deep are a `RecursionError`, integers
of too many digits a plain `ValueError`.

The functions run on fuel, and `loads_ne_outOfFuel` says that `loads` gives them enough.  A number is
kept as it is written.  A lone surrogate, which no `Char` is, becomes a replacement character.
-/
import GlobalPayments.Library.Json
import Mathlib.Order.Basic

namespace PyJson

/-! ## Results -/

inductive ScanError where
  | jsonDecodeError
  | recursionError
  | valueError
  | outOfFuel
  deriving DecidableEq, Repr

/-! ## Blanks and literals -/

def isBlank (c : Char) : Bool := c = ' ' || c = '\t' || c = '\n' || c = '\r'

def skipBlanks (cs : List Char) : List Char := cs.dropWhile isBlank

/-- The constants, the three of Python's floats among them. -/
def literals : List (String × Json) :=
  [("null", .null), ("true", .bool true), ("false", .bool false), ("NaN", .num "NaN"),
    ("Infinity", .num "Infinity"), ("-Infinity", .num "-Infinity")]

/-- The constant at the front of a text. -/
def scanLiteral (cs : List Char) : Option (Json × List Char) :=
  literals.findSome? fun (name, value) =>
    if name.toList.isPrefixOf cs then some (value, cs.drop name.length) else none

/-! ## Strings -/

def hexDigit (c : Char) : Option Nat :=
  if c.isDigit then some (c.toNat - '0'.toNat)
  else if 'a' ≤ c ∧ c ≤ 'f' then some (c.toNat - 'a'.toNat + 10)
  else if 'A' ≤ c ∧ c ≤ 'F' then some (c.toNat - 'A'.toNat + 10)
  else none

/-- `\uXXXX`. -/
def hex4 (a b c d : Char) : Option Nat := do
  let a ← hexDigit a
  let b ← hexDigit b
  let c ← hexDigit c
  let d ← hexDigit d
  some (((a * 16 + b) * 16 + c) * 16 + d)

/-- The escapes of one character. -/
def escapes : List (Char × Nat) :=
  [('"', 0x22), ('\\', 0x5c), ('/', 0x2f), ('b', 0x8), ('f', 0xc), ('n', 0xa), ('r', 0xd), ('t', 0x9)]

/-- The code points of a string, up to its closing quote. -/
def scanString : List Char → Except ScanError (List Nat × List Char)
  | [] => .error .jsonDecodeError
  | '"' :: rest => .ok ([], rest)
  | '\\' :: 'u' :: a :: b :: c :: d :: rest =>
      match hex4 a b c d with
      | none => .error .jsonDecodeError
      | some n => (scanString rest).map (Prod.map (n :: ·) id)
  | '\\' :: e :: rest =>
      match escapes.lookup e with
      | none => .error .jsonDecodeError
      | some n => (scanString rest).map (Prod.map (n :: ·) id)
  | '\\' :: [] => .error .jsonDecodeError
  | c :: rest =>
      -- a control character has to be escaped
      if c.toNat < 0x20 then .error .jsonDecodeError
      else (scanString rest).map (Prod.map (c.toNat :: ·) id)

def isSurrogate (n : Nat) : Bool := 0xd800 ≤ n && n ≤ 0xdfff

def toChar (n : Nat) : Char := if isSurrogate n then '\ufffd' else Char.ofNat n

/-- A pair of surrogates is one character. -/
def joinSurrogates : List Nat → List Char
  | [] => []
  | [n] => [toChar n]
  | high :: low :: rest =>
      if 0xd800 ≤ high ∧ high ≤ 0xdbff ∧ 0xdc00 ≤ low ∧ low ≤ 0xdfff then
        Char.ofNat (0x10000 + (high - 0xd800) * 0x400 + (low - 0xdc00)) :: joinSurrogates rest
      else toChar high :: joinSurrogates (low :: rest)

def pyString (ns : List Nat) : String := String.ofList (joinSurrogates ns)

/-! ## Numbers -/

/-- `sys.get_int_max_str_digits()`. -/
def maxStrDigits : Nat := 4300

/-- The digits of the integer part. -/
def integerPart : List Char → Option (List Char × List Char)
  | '0' :: rest => some (['0'], rest)
  | c :: rest =>
      if c.isDigit then some (c :: rest.takeWhile Char.isDigit, rest.dropWhile Char.isDigit) else none
  | [] => none

/-- A point and digits. -/
def fractionPart : List Char → List Char × List Char
  | '.' :: c :: rest =>
      if c.isDigit then
        ('.' :: c :: rest.takeWhile Char.isDigit, rest.dropWhile Char.isDigit)
      else ([], '.' :: c :: rest)
  | cs => ([], cs)

/-- `e`, a sign and digits. -/
def exponentPart (cs : List Char) : List Char × List Char :=
  match cs with
  | e :: rest =>
      if e = 'e' ∨ e = 'E' then
        let (sign, digits) := match rest with
          | '+' :: digits => (['+'], digits)
          | '-' :: digits => (['-'], digits)
          | _ => ([], rest)
        if digits.takeWhile Char.isDigit = [] then ([], cs)
        else (e :: sign ++ digits.takeWhile Char.isDigit, digits.dropWhile Char.isDigit)
      else ([], cs)
  | [] => ([], [])

def scanNumber (cs : List Char) : Except ScanError (Json × List Char) :=
  let (sign, cs) := match cs with
    | '-' :: rest => (['-'], rest)
    | _ => ([], cs)
  match integerPart cs with
  | none => .error .jsonDecodeError
  | some (digits, rest) =>
      let (fraction, rest) := fractionPart rest
      let (exponent, rest) := exponentPart rest
      if fraction = [] ∧ exponent = [] ∧ maxStrDigits < digits.length then .error .valueError
      else .ok (.num (String.ofList (sign ++ digits ++ fraction ++ exponent)), rest)

/-! ## Values -/

/-- `d[key] = value`. -/
def setItem (d : List (String × Json)) (key : String) (value : Json) : List (String × Json) :=
  if d.any (·.1 = key) then d.map fun item => if item.1 = key then (key, value) else item
  else d ++ [(key, value)]

mutual

/-- The value at the front of a text; `depth` containers may still be entered. -/
def scanOnce : Nat → Nat → List Char → Except ScanError (Json × List Char)
  | 0, _, _ => .error .outOfFuel
  | fuel + 1, depth, cs =>
      match cs with
      | '"' :: rest => (scanString rest).map (Prod.map (fun ns => .str (pyString ns)) id)
      | '\x7b' :: rest =>
          match depth with
          | 0 => .error .recursionError
          | depth + 1 =>
              match skipBlanks rest with
              | '\x7d' :: rest => .ok (.obj [], rest)
              | rest => scanMembers fuel depth [] rest
      | '[' :: rest =>
          match depth with
          | 0 => .error .recursionError
          | depth + 1 =>
              match skipBlanks rest with
              | ']' :: rest => .ok (.arr [], rest)
              | rest => scanItems fuel depth [] rest
      | cs =>
          match scanLiteral cs with
          | some found => .ok found
          | none => scanNumber cs

/-- The members of an object from a key on. -/
def scanMembers : Nat → Nat → List (String × Json) → List Char → Except ScanError (Json × List Char)
  | 0, _, _, _ => .error .outOfFuel
  | fuel + 1, depth, members, cs =>
      match cs with
      | '"' :: rest => do
          let (key, rest) ← scanString rest
          match skipBlanks rest with
          | ':' :: rest => do
              let (value, rest) ← scanOnce fuel depth (skipBlanks rest)
              let members := setItem members (pyString key) value
              match skipBlanks rest with
              | '\x7d' :: rest => .ok (.obj members, rest)
              | ',' :: rest => scanMembers fuel depth members (skipBlanks rest)
              | _ => .error .jsonDecodeError
          | _ => .error .jsonDecodeError
      | _ => .error .jsonDecodeError

/-- The items of an array from one on. -/
def scanItems : Nat → Nat → List Json → List Char → Except ScanError (Json × List Char)
  | 0, _, _, _ => .error .outOfFuel
  | fuel + 1, depth, items, cs => do
      let (value, rest) ← scanOnce fuel depth cs
      match skipBlanks rest with
      | ']' :: rest => .ok (.arr (items ++ [value]), rest)
      | ',' :: rest => scanItems fuel depth (items ++ [value]) (skipBlanks rest)
      | _ => .error .jsonDecodeError

end

/-- `json.loads(text)`, where `recursionLimit` containers may be nested. -/
def loads (recursionLimit : Nat) (text : String) : Except ScanError Json :=
  match text.toList with
  | '\ufeff' :: _ => .error .jsonDecodeError
  | cs => do
      let (value, rest) ← scanOnce (2 * cs.length + 1) recursionLimit (skipBlanks cs)
      if skipBlanks rest = [] then .ok value else .error .jsonDecodeError

/-! ## Fuel -/

/-- A reader of a text of `n` characters leaves fewer, and does not run out of fuel. -/
def Proper {α : Type} (n : Nat) : Except ScanError (α × List Char) → Prop
  | .ok (_, rest) => rest.length < n
  | .error e => e ≠ .outOfFuel

theorem Proper.map {α β : Type} {n m : Nat} {x : Except ScanError (α × List Char)} (h : Proper n x)
    (hle : n ≤ m) (g : α → β) : Proper m (x.map (Prod.map g id)) := by
  cases x with
  | error e => exact h
  | ok found => exact lt_of_lt_of_le h hle

theorem Proper.mono {α : Type} {n m : Nat} {x : Except ScanError (α × List Char)} (h : Proper n x)
    (hle : n ≤ m) : Proper m x := by
  cases x with
  | error e => exact h
  | ok found => exact lt_of_lt_of_le h hle

/-- What comes after a proper reader has a shorter text to read. -/
theorem Proper.bind {α β : Type} {n m : Nat} {x : Except ScanError (α × List Char)}
    {f : α × List Char → Except ScanError (β × List Char)} (h : Proper n x)
    (hf : ∀ a rest, rest.length < n → Proper m (f (a, rest))) : Proper m (x >>= f) := by
  cases x with
  | error e => exact h
  | ok found => exact hf found.1 found.2 h

theorem skipBlanks_length (cs : List Char) : (skipBlanks cs).length ≤ cs.length :=
  (List.dropWhile_sublist _).length_le

theorem scanString_proper (cs : List Char) : Proper cs.length (scanString cs) := by
  fun_induction scanString cs with
  | case2 rest => exact Nat.lt_succ_self _
  | case4 a b c d rest n hhex ih => exact ih.map (by simp only [List.length_cons]; omega) _
  | case6 e rest hother n hlookup ih => exact ih.map (by simp only [List.length_cons]; omega) _
  | case9 c rest hquote hunicode hescape hend hcontrol ih => exact ih.map (Nat.le_succ _) _
  | _ => exact nofun

theorem scanLiteral_length {cs rest : List Char} {value : Json}
    (h : scanLiteral cs = some (value, rest)) : rest.length < cs.length := by
  obtain ⟨⟨name, literal⟩, hmem, hfound⟩ := List.exists_of_findSome?_eq_some h
  have hname : 0 < name.length := by
    simp only [literals, List.mem_cons, List.not_mem_nil, or_false] at hmem
    rcases hmem with h | h | h | h | h | h <;> obtain ⟨rfl, -⟩ := Prod.mk.inj h <;> decide
  dsimp only at hfound
  split at hfound
  · rename_i hprefix
    obtain ⟨tail, rfl⟩ := List.isPrefixOf_iff_prefix.mp hprefix
    obtain ⟨-, rfl⟩ := Prod.mk.inj (Option.some.inj hfound)
    rw [List.length_drop, List.length_append, String.length_toList]
    omega
  · cases hfound

theorem integerPart_length {cs digits rest : List Char} (h : integerPart cs = some (digits, rest)) :
    rest.length < cs.length := by
  unfold integerPart at h
  split at h
  · obtain ⟨-, rfl⟩ := Prod.mk.inj (Option.some.inj h)
    exact Nat.lt_succ_self _
  · split at h
    · obtain ⟨-, rfl⟩ := Prod.mk.inj (Option.some.inj h)
      exact Nat.lt_succ_of_le (List.dropWhile_sublist _).length_le
    · cases h
  · cases h

theorem fractionPart_length (cs : List Char) : (fractionPart cs).2.length ≤ cs.length := by
  unfold fractionPart
  split
  · rename_i c rest
    split
    · have hle : (rest.dropWhile Char.isDigit).length ≤ rest.length :=
        (List.dropWhile_sublist _).length_le
      simp only [List.length_cons]
      omega
    · exact le_refl _
  · exact le_refl _

theorem exponentPart_length (cs : List Char) : (exponentPart cs).2.length ≤ cs.length := by
  have hdrop : ∀ ds : List Char, (ds.dropWhile Char.isDigit).length ≤ ds.length :=
    fun ds => (List.dropWhile_sublist _).length_le
  unfold exponentPart
  split
  · rename_i e rest
    split
    · split
      rename_i sign digits hsign
      have hdigits : digits.length ≤ rest.length := by
        split at hsign
        · obtain ⟨-, rfl⟩ := Prod.mk.inj hsign
          exact Nat.le_succ _
        · obtain ⟨-, rfl⟩ := Prod.mk.inj hsign
          exact Nat.le_succ _
        · obtain ⟨-, rfl⟩ := Prod.mk.inj hsign
          exact le_refl _
      split
      · exact le_refl _
      · exact ((hdrop digits).trans hdigits).trans (Nat.le_succ _)
    · exact le_refl _
  · exact le_refl _

theorem scanNumber_proper (cs : List Char) : Proper cs.length (scanNumber cs) := by
  unfold scanNumber
  split
  rename_i sign body hsign
  have hbody : body.length ≤ cs.length := by
    split at hsign
    · obtain ⟨-, rfl⟩ := Prod.mk.inj hsign
      exact Nat.le_succ _
    · obtain ⟨-, rfl⟩ := Prod.mk.inj hsign
      exact le_refl _
  split
  · exact nofun
  · rename_i digits rest hinteger
    have hrest := integerPart_length hinteger
    have hfraction := fractionPart_length rest
    have hexponent := exponentPart_length (fractionPart rest).2
    dsimp only
    split
    · exact nofun
    · show (exponentPart (fractionPart rest).2).2.length < cs.length
      omega

/-- With this fuel the scanner reads every text that is not too long for it. -/
structure Suffices (fuel : Nat) : Prop where
  once : ∀ depth cs, 2 * cs.length < fuel → Proper cs.length (scanOnce fuel depth cs)
  members : ∀ depth members cs, 2 * cs.length + 1 < fuel →
    Proper cs.length (scanMembers fuel depth members cs)
  items : ∀ depth items cs, 2 * cs.length + 1 < fuel →
    Proper cs.length (scanItems fuel depth items cs)

section Step

variable {fuel : Nat} (h : Suffices fuel)

include h

theorem Suffices.scanOnce (depth : Nat) (cs : List Char) (hfuel : 2 * cs.length < fuel + 1) :
    Proper cs.length (scanOnce (fuel + 1) depth cs) := by
  unfold PyJson.scanOnce
  split
  · rename_i rest
    exact (scanString_proper rest).map (Nat.le_succ _) _
  · rename_i rest
    split
    · exact nofun
    · rename_i depth
      have hskip := skipBlanks_length rest
      split
      · rename_i tail hclose
        rw [hclose, List.length_cons] at hskip
        show tail.length < rest.length + 1
        omega
      · simp only [List.length_cons] at hfuel ⊢
        exact (h.members depth [] (skipBlanks rest) (by omega)).mono (by omega)
  · rename_i rest
    split
    · exact nofun
    · rename_i depth
      have hskip := skipBlanks_length rest
      split
      · rename_i tail hclose
        rw [hclose, List.length_cons] at hskip
        show tail.length < rest.length + 1
        omega
      · simp only [List.length_cons] at hfuel ⊢
        exact (h.items depth [] (skipBlanks rest) (by omega)).mono (by omega)
  · split
    · rename_i found hliteral
      exact @scanLiteral_length _ found.2 found.1 hliteral
    · exact scanNumber_proper _

theorem Suffices.scanMembers (depth : Nat) (members : List (String × Json)) (cs : List Char)
    (hfuel : 2 * cs.length + 1 < fuel + 1) :
    Proper cs.length (scanMembers (fuel + 1) depth members cs) := by
  unfold PyJson.scanMembers
  dsimp only
  split
  · rename_i rest
    simp only [List.length_cons] at hfuel ⊢
    refine (scanString_proper rest).bind fun key after hafter => ?_
    dsimp only
    have hskip := skipBlanks_length after
    split
    · rename_i rest' hcolon
      rw [hcolon, List.length_cons] at hskip
      have hvalue := skipBlanks_length rest'
      refine (h.once depth (skipBlanks rest') (by omega)).bind fun value after' hafter' => ?_
      dsimp only
      have hskip' := skipBlanks_length after'
      split
      · rename_i tail hclose
        rw [hclose, List.length_cons] at hskip'
        show tail.length < rest.length + 1
        omega
      · rename_i tail hcomma
        rw [hcomma, List.length_cons] at hskip'
        have hnext := skipBlanks_length tail
        exact (h.members depth _ (skipBlanks tail) (by omega)).mono (by omega)
      · exact nofun
    · exact nofun
  · exact nofun

theorem Suffices.scanItems (depth : Nat) (items : List Json) (cs : List Char)
    (hfuel : 2 * cs.length + 1 < fuel + 1) :
    Proper cs.length (scanItems (fuel + 1) depth items cs) := by
  unfold PyJson.scanItems
  refine (h.once depth cs (by omega)).bind fun value after hafter => ?_
  dsimp only
  have hskip := skipBlanks_length after
  split
  · rename_i tail hclose
    rw [hclose, List.length_cons] at hskip
    show tail.length < cs.length
    omega
  · rename_i tail hcomma
    rw [hcomma, List.length_cons] at hskip
    have hnext := skipBlanks_length tail
    exact (h.items depth (items ++ [value]) (skipBlanks tail) (by omega)).mono (by omega)
  · exact nofun

end Step

/-- **Twice the length of the text is fuel enough.** -/
theorem suffices_of_fuel (fuel : Nat) : Suffices fuel := by
  induction fuel with
  | zero => exact ⟨fun _ _ h => absurd h (by omega), fun _ _ _ h => absurd h (by omega),
      fun _ _ _ h => absurd h (by omega)⟩
  | succ fuel ih => exact ⟨ih.scanOnce, ih.scanMembers, ih.scanItems⟩

/-- **`loads` has fuel enough.** -/
theorem loads_ne_outOfFuel (recursionLimit : Nat) (text : String) :
    loads recursionLimit text ≠ .error .outOfFuel := by
  unfold loads
  generalize text.toList = cs
  split
  · exact nofun
  · have hskip := skipBlanks_length cs
    have hproper :=
      (suffices_of_fuel (2 * cs.length + 1)).once recursionLimit (skipBlanks cs) (by omega)
    cases hscan : scanOnce (2 * cs.length + 1) recursionLimit (skipBlanks cs) with
    | error e =>
        rw [hscan] at hproper
        exact fun h => hproper (Except.error.inj h)
    | ok found =>
        show (if skipBlanks found.2 = [] then Except.ok found.1
          else Except.error ScanError.jsonDecodeError) ≠ _
        split
        · exact nofun
        · exact nofun

end PyJson

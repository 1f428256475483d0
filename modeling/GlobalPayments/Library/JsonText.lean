/-
# JsonText — the text of a JSON value, and that it is read back.

`write` is the compact text that Jackson gives a value: no blanks, control characters, quotes and
backslashes escaped, everything else as it is.  A value `fits` the reader when its numbers are integers
of not too many digits, no object has a key twice, and its containers are not nested too deep.

`loads_write`: such a value is what `PyJson.loads` makes of its text.
-/
import GlobalPayments.Library.PyJson

namespace JsonText

open PyJson

/-! ## Writing -/

/-- The escape of a control character without a letter of its own. -/
def unicodeEscape (n : Nat) : List Char :=
  ['\\', 'u', '0', '0', Nat.digitChar (n / 16), Nat.digitChar (n % 16)]

/-- A character of a string. -/
def writeChar (c : Char) : List Char :=
  if c = '"' then ['\\', '"']
  else if c = '\\' then ['\\', '\\']
  else if c = '\x08' then ['\\', 'b']
  else if c = '\t' then ['\\', 't']
  else if c = '\n' then ['\\', 'n']
  else if c = '\x0c' then ['\\', 'f']
  else if c = '\r' then ['\\', 'r']
  else if c.toNat < 0x20 then unicodeEscape c.toNat
  else [c]

def writeString (s : String) : List Char := '"' :: s.toList.flatMap writeChar ++ ['"']

mutual

/-- The text of a value. -/
def write : Json → List Char
  | .null => "null".toList
  | .bool true => "true".toList
  | .bool false => "false".toList
  | .num text => text.toList
  | .str s => writeString s
  | .arr items => '[' :: writeItems items ++ [']']
  | .obj members => '\x7b' :: writeMembers members ++ ['\x7d']

def writeItems : List Json → List Char
  | [] => []
  | [item] => write item
  | item :: items => write item ++ ',' :: writeItems items

def writeMembers : List (String × Json) → List Char
  | [] => []
  | [(key, value)] => writeString key ++ ':' :: write value
  | (key, value) :: members => writeString key ++ ':' :: write value ++ ',' :: writeMembers members

end

/-! ## Values that fit -/

/-- Digits without a zero in front. -/
def isNatural (ds : List Char) : Bool :=
  match ds with
  | [] => false
  | ['0'] => true
  | d :: ds => d ≠ '0' && (d :: ds).all Char.isDigit && (d :: ds).length ≤ maxStrDigits

/-- An integer that the reader takes. -/
def isInteger (text : List Char) : Bool :=
  match text with
  | '-' :: ds => isNatural ds
  | ds => isNatural ds

mutual

/-- The reader can enter `depth` containers and read the numbers. -/
def fits : Nat → Json → Bool
  | _, .null => true
  | _, .bool _ => true
  | _, .num text => isInteger text.toList
  | _, .str _ => true
  | 0, .arr _ => false
  | depth + 1, .arr items => fitsAll depth items
  | 0, .obj _ => false
  | depth + 1, .obj members => decide (members.map Prod.fst).Nodup && fitsMembers depth members

def fitsAll : Nat → List Json → Bool
  | _, [] => true
  | depth, item :: items => fits depth item && fitsAll depth items

def fitsMembers : Nat → List (String × Json) → Bool
  | _, [] => true
  | depth, (_, value) :: members => fits depth value && fitsMembers depth members

end

theorem fitsMembers_iff {depth : Nat} {members : List (String × Json)} :
    fitsMembers depth members = true ↔ ∀ member ∈ members, fits depth member.2 = true := by
  induction members with
  | nil => simp [fitsMembers]
  | cons member members ih =>
      rw [fitsMembers, Bool.and_eq_true, ih, List.forall_mem_cons]

example : write (.obj [("a", .arr [.num "-1", .str "\"\n"])]) =
    "\x7b\"a\":[-1,\"\\\"\\n\"]\x7d".toList := by decide

/-! ## Strings -/

theorem hex4_unicodeEscape :
    ∀ n < 0x20, hex4 '0' '0' (Nat.digitChar (n / 16)) (Nat.digitChar (n % 16)) = some n := by
  decide

/-- The letter of an escape stands for its character. -/
theorem scanString_escape {e : Char} {n : Nat} (h : escapes.lookup e = some n) (tail : List Char) :
    scanString ('\\' :: e :: tail) = (scanString tail).map (Prod.map (n :: ·) id) := by
  have hletter : e ≠ 'u' := by
    rintro rfl
    rw [show escapes.lookup 'u' = none from by decide] at h
    cases h
  rw [scanString]
  · rw [h]
  · intro _ _ _ _ _ hu _
    exact hletter hu

/-- **One character is read back**, however it is written. -/
theorem scanString_writeChar (c : Char) (tail : List Char) :
    scanString (writeChar c ++ tail) = (scanString tail).map (Prod.map (c.toNat :: ·) id) := by
  unfold writeChar
  -- the letters of the table, the other control characters, and a character as it is
  split
  · subst_vars
    exact scanString_escape (by decide) tail
  split
  · subst_vars
    exact scanString_escape (by decide) tail
  split
  · subst_vars
    exact scanString_escape (by decide) tail
  split
  · subst_vars
    exact scanString_escape (by decide) tail
  split
  · subst_vars
    exact scanString_escape (by decide) tail
  split
  · subst_vars
    exact scanString_escape (by decide) tail
  split
  · subst_vars
    exact scanString_escape (by decide) tail
  split
  · rename_i hcontrol
    have hhex := hex4_unicodeEscape c.toNat hcontrol
    simp only [unicodeEscape, List.cons_append, List.nil_append, scanString, hhex]
  · rename_i hquote hslash _ _ _ _ _ hcontrol
    rw [List.singleton_append, scanString]
    · rw [if_neg hcontrol]
    all_goals simp_all

theorem scanString_flatMap (cs rest : List Char) :
    scanString (cs.flatMap writeChar ++ '"' :: rest) = .ok (cs.map Char.toNat, rest) := by
  induction cs with
  | nil => simp [scanString]
  | cons c cs ih =>
      rw [List.flatMap_cons, List.append_assoc, scanString_writeChar, ih]
      rfl

/-- No character is a surrogate. -/
theorem toNat_not_surrogate (c : Char) : c.toNat < 0xd800 ∨ 0xdfff < c.toNat := by
  have hvalid := c.valid
  simp only [UInt32.isValidChar, Nat.isValidChar] at hvalid
  show c.val.toNat < _ ∨ _ < c.val.toNat
  omega

theorem toChar_toNat (c : Char) : toChar c.toNat = c := by
  have hplain : isSurrogate c.toNat = false := by
    have h := toNat_not_surrogate c
    simp only [isSurrogate, Bool.and_eq_false_iff, decide_eq_false_iff_not]
    omega
  unfold toChar
  rw [hplain, if_neg Bool.false_ne_true, Char.ofNat_toNat]

theorem joinSurrogates_toNat : ∀ cs : List Char, joinSurrogates (cs.map Char.toNat) = cs
  | [] => rfl
  | [c] => by
      show [toChar c.toNat] = [c]
      rw [toChar_toNat]
  | c :: d :: cs => by
      have hhigh : ¬ (0xd800 ≤ c.toNat ∧ c.toNat ≤ 0xdbff ∧ 0xdc00 ≤ d.toNat ∧ d.toNat ≤ 0xdfff) := by
        have h := toNat_not_surrogate c
        omega
      have hrest := joinSurrogates_toNat (d :: cs)
      rw [List.map_cons] at hrest
      rw [List.map_cons, List.map_cons, joinSurrogates, if_neg hhigh, toChar_toNat, hrest]

/-- **A string is read back.** -/
theorem scanString_writeString (s : String) (rest : List Char) :
    ∃ ns, scanString ((writeString s).tail ++ rest) = .ok (ns, rest) ∧ pyString ns = s := by
  refine ⟨s.toList.map Char.toNat, ?_, ?_⟩
  · show scanString ((s.toList.flatMap writeChar ++ ['"']) ++ rest) = _
    rw [List.append_assoc]
    exact scanString_flatMap s.toList rest
  · rw [pyString, joinSurrogates_toNat, String.ofList_toList]

/-! ## Numbers -/

/-- What may follow a value inside a text. -/
def Stops (rest : List Char) : Prop := ∀ c ∈ rest.head?, c = ',' ∨ c = ']' ∨ c = '\x7d'

theorem stops_nil : Stops [] := fun _ h => nomatch h

theorem stops_cons {c : Char} (h : c = ',' ∨ c = ']' ∨ c = '\x7d') (rest : List Char) :
    Stops (c :: rest) := by
  intro d hd
  obtain rfl := Option.some.inj hd
  exact h

/-- No digit, no point and no exponent follows. -/
theorem Stops.head {c : Char} {rest : List Char} (h : Stops (c :: rest)) :
    c.isDigit = false ∧ c ≠ '.' ∧ c ≠ 'e' ∧ c ≠ 'E' := by
  rcases h c rfl with rfl | rfl | rfl <;> decide

theorem Stops.takeWhile {rest : List Char} (h : Stops rest) :
    rest.takeWhile Char.isDigit = [] ∧ rest.dropWhile Char.isDigit = rest := by
  cases rest with
  | nil => exact ⟨rfl, rfl⟩
  | cons c rest =>
      have hdigit := h.head.1
      simp [hdigit]

theorem Stops.fractionPart {rest : List Char} (h : Stops rest) : fractionPart rest = ([], rest) := by
  unfold PyJson.fractionPart
  split
  · exact absurd rfl h.head.2.1
  · rfl

theorem Stops.exponentPart {rest : List Char} (h : Stops rest) : exponentPart rest = ([], rest) := by
  cases rest with
  | nil => rfl
  | cons c rest =>
      obtain ⟨-, -, he, hE⟩ := h.head
      show (if c = 'e' ∨ c = 'E' then _ else _) = _
      rw [if_neg (not_or.mpr ⟨he, hE⟩)]

/-- The digits of a natural number end where they should. -/
theorem integerPart_of_isNatural {ds rest : List Char} (h : isNatural ds = true) (hrest : Stops rest) :
    integerPart (ds ++ rest) = some (ds, rest) ∧ ds.length ≤ maxStrDigits ∧
      ∃ d tail, ds = d :: tail ∧ d.isDigit = true := by
  unfold isNatural at h
  split at h
  · cases h
  · exact ⟨rfl, by decide, '0', [], rfl, by decide⟩
  · rename_i d ds hzero
    rw [Bool.and_eq_true, Bool.and_eq_true, decide_eq_true_eq, decide_eq_true_eq] at h
    obtain ⟨⟨hne, hall⟩, hlength⟩ := h
    rw [List.all_cons, Bool.and_eq_true] at hall
    obtain ⟨hdigit, hdigits⟩ := hall
    obtain ⟨htake, hdrop⟩ := hrest.takeWhile
    have hdigits' := List.all_eq_true.mp hdigits
    refine ⟨?_, hlength, d, ds, rfl, hdigit⟩
    rw [List.cons_append, integerPart]
    · rw [if_pos hdigit, List.takeWhile_append_of_pos hdigits', List.dropWhile_append_of_pos hdigits',
        htake, hdrop, List.append_nil]
    · exact hne

/-- **A number is read back**, with a sign or without one. -/
theorem scanNumber_signed {sign ds rest : List Char} (h : isNatural ds = true) (hrest : Stops rest)
    (hsign : sign = [] ∨ sign = ['-']) :
    scanNumber (sign ++ ds ++ rest) = .ok (.num (String.ofList (sign ++ ds)), rest) := by
  obtain ⟨hinteger, hlength, d, tail, rfl, hdigit⟩ := integerPart_of_isNatural h hrest
  have hminus : d ≠ '-' := by
    rintro rfl
    cases hdigit
  unfold scanNumber
  split
  rename_i sign' body heq
  have hparts : sign' = sign ∧ body = d :: tail ++ rest := by
    rcases hsign with rfl | rfl
    · split at heq
      · rename_i rest' hcons
        exact absurd (List.cons.inj hcons).1 hminus
      · obtain ⟨rfl, rfl⟩ := Prod.mk.inj heq
        exact ⟨rfl, rfl⟩
    · obtain ⟨rfl, rfl⟩ := Prod.mk.inj heq
      exact ⟨rfl, rfl⟩
  rw [hparts.1, hparts.2, hinteger]
  dsimp only
  rw [hrest.fractionPart]
  dsimp only
  rw [hrest.exponentPart]
  dsimp only
  rw [if_neg fun hlong => absurd hlong.2.2 (Nat.not_lt.mpr hlength), List.append_nil, List.append_nil]

/-- The text of an integer starts like one. -/
theorem integer_head {text : List Char} (h : isInteger text = true) :
    ∃ sign ds, text = sign ++ ds ∧ isNatural ds = true ∧ (sign = [] ∨ sign = ['-']) := by
  unfold isInteger at h
  split at h
  · exact ⟨['-'], _, rfl, h, Or.inr rfl⟩
  · exact ⟨[], _, rfl, h, Or.inl rfl⟩

/-- The text of an integer. -/
def integerText (n : Int) : String :=
  String.ofList ((if n < 0 then ['-'] else []) ++ Nat.toDigits 10 n.natAbs)

/-- Only zero starts with a zero. -/
theorem toDigits_head {n : Nat} (hn : 0 < n) :
    ∃ d tail, Nat.toDigits 10 n = d :: tail ∧ d ≠ '0' := by
  induction n using Nat.strongRecOn with
  | ind n ih =>
      rw [Nat.toDigits_eq_if (by decide)]
      split
      · rename_i hlt
        have hall : ∀ d < 10, 0 < d → Nat.digitChar d ≠ '0' := by decide
        exact ⟨_, [], rfl, hall n hlt hn⟩
      · rename_i hge
        obtain ⟨d, tail, hcons, hd⟩ := ih (n / 10) (by omega) (by omega)
        exact ⟨d, tail ++ [Nat.digitChar (n % 10)], by rw [hcons, List.cons_append], hd⟩

theorem isNatural_toDigits {n : Nat} (h : (Nat.toDigits 10 n).length ≤ maxStrDigits) :
    isNatural (Nat.toDigits 10 n) = true := by
  rcases Nat.eq_zero_or_pos n with rfl | hn
  · rfl
  · obtain ⟨d, tail, hcons, hd⟩ := toDigits_head hn
    have hall : (d :: tail).all Char.isDigit = true := by
      rw [← hcons, List.all_eq_true]
      exact fun c => Nat.isDigit_of_mem_toDigits (by decide) (by decide)
    rw [hcons] at h ⊢
    unfold isNatural
    split
    · contradiction
    · rfl
    · rename_i heq
      obtain ⟨rfl, rfl⟩ := List.cons.inj heq
      simp only [hall, hd, h, ne_eq, not_false_eq_true, decide_true, Bool.and_self]

theorem isInteger_integerText {n : Int} (h : (Nat.toDigits 10 n.natAbs).length ≤ maxStrDigits) :
    isInteger (integerText n).toList = true := by
  have hnatural := isNatural_toDigits h
  unfold integerText
  rw [String.toList_ofList]
  by_cases hneg : n < 0
  · rw [if_pos hneg]
    exact hnatural
  · rw [if_neg hneg, List.nil_append]
    obtain ⟨-, -, d, tail, hcons, hdigit⟩ := integerPart_of_isNatural hnatural stops_nil
    rw [hcons] at hnatural ⊢
    unfold isInteger
    split
    · rename_i hminus
      rw [(List.cons.inj hminus).1] at hdigit
      cases hdigit
    · exact hnatural

/-- Different integers have different texts. -/
theorem integerText_injective : Function.Injective integerText := by
  intro m n h
  have hlist := String.ofList_injective h
  have hdigit : ∀ k : Nat, '-' ∉ Nat.toDigits 10 k := fun k hmem =>
    absurd (Nat.isDigit_of_mem_toDigits (by decide) (by decide) hmem) (by decide)
  have hvalue : ∀ {k l : Nat}, Nat.toDigits 10 k = Nat.toDigits 10 l → k = l := by
    intro k l hkl
    rw [← Nat.ofDigitChars_ten_toDigits (n := k), hkl, Nat.ofDigitChars_ten_toDigits]
  by_cases hm : m < 0
  · by_cases hn : n < 0
    · rw [if_pos hm, if_pos hn] at hlist
      have habs := hvalue (List.cons.inj hlist).2
      omega
    · rw [if_pos hm, if_neg hn, List.nil_append] at hlist
      exact absurd (hlist ▸ List.mem_cons_self) (hdigit n.natAbs)
  · by_cases hn : n < 0
    · rw [if_neg hm, if_pos hn, List.nil_append] at hlist
      exact absurd (hlist ▸ List.mem_cons_self) (hdigit m.natAbs)
    · rw [if_neg hm, if_neg hn] at hlist
      have habs := hvalue hlist
      omega

/-! ## What a text starts with -/

/-- The reader knows by the first character what comes; none of them is a blank or closes anything. -/
theorem skipBlanks_of_head {c : Char} {cs : List Char} (h : isBlank c = false) :
    skipBlanks (c :: cs) = c :: cs := by
  unfold skipBlanks
  rw [List.dropWhile_cons_of_neg]
  rw [h]
  exact Bool.false_ne_true

/-- The first two characters of a constant are no digits. -/
theorem literals_no_digit : ∀ literal ∈ literals, ∀ k < 2,
    (literal.1.toList[k]?.any fun c => !c.isDigit) = true := by
  decide

/-- So a text with a digit there is no constant. -/
theorem scanLiteral_of_digit {cs : List Char} {d : Char} {k : Nat} (hk : k < 2)
    (hcs : cs[k]? = some d) (hdigit : d.isDigit = true) : scanLiteral cs = none := by
  unfold scanLiteral
  rw [List.findSome?_eq_none_iff]
  intro literal hliteral
  have hletter := literals_no_digit literal hliteral k hk
  obtain ⟨name, value⟩ := literal
  dsimp only at hletter ⊢
  rw [if_neg]
  intro hprefix
  obtain ⟨more, rfl⟩ := List.isPrefixOf_iff_prefix.mp hprefix
  cases hc : name.toList[k]? with
  | none =>
      rw [hc] at hletter
      cases hletter
  | some c =>
      have hlength : k < name.toList.length := (List.getElem?_eq_some_iff.mp hc).1
      rw [List.getElem?_append_left hlength, hc] at hcs
      obtain rfl := Option.some.inj hcs
      rw [hc] at hletter
      simp [hdigit] at hletter

/-- **A value reads back as a number**: the reader sees that it is no string, no container and no
constant. -/
theorem scanOnce_integer {text rest : List Char} (h : isInteger text = true) (hrest : Stops rest)
    (fuel depth : Nat) :
    scanOnce (fuel + 1) depth (text ++ rest) = .ok (.num (String.ofList text), rest) := by
  obtain ⟨sign, ds, rfl, hds, hsign⟩ := integer_head h
  obtain ⟨-, -, d, tail, hcons, hdigit⟩ := integerPart_of_isNatural hds stops_nil
  have hnumber := scanNumber_signed hds hrest hsign
  have hliteral : scanLiteral (sign ++ ds ++ rest) = none := by
    subst hcons
    rcases hsign with rfl | rfl
    · exact scanLiteral_of_digit (k := 0) (by omega) rfl hdigit
    · exact scanLiteral_of_digit (k := 1) (by omega) rfl hdigit
  have hhead : ∃ c cs, sign ++ ds ++ rest = c :: cs ∧ c ≠ '"' ∧ c ≠ '\x7b' ∧ c ≠ '[' := by
    subst hcons
    rcases hsign with rfl | rfl
    · refine ⟨d, tail ++ rest, rfl, ?_, ?_, ?_⟩ <;>
        (rintro rfl; cases hdigit)
    · exact ⟨'-', d :: tail ++ rest, rfl, by decide, by decide, by decide⟩
  obtain ⟨c, cs, hcs, hquote, hbrace, hbracket⟩ := hhead
  rw [hcs] at hliteral hnumber ⊢
  unfold scanOnce
  split
  · rename_i heq
    exact absurd (List.cons.inj heq).1 hquote
  · rename_i heq
    exact absurd (List.cons.inj heq).1 hbrace
  · rename_i heq
    exact absurd (List.cons.inj heq).1 hbracket
  · rw [hliteral]
    exact hnumber

/-- The first character of a value is no blank, closes nothing, and is no byte order mark. -/
theorem write_head {depth : Nat} {value : Json} (h : fits depth value = true) :
    ∃ c cs, write value = c :: cs ∧ isBlank c = false ∧ c ≠ ']' ∧ c ≠ '\ufeff' := by
  cases value with
  | null => exact ⟨'n', ['u', 'l', 'l'], by decide, by decide, by decide, by decide⟩
  | bool b =>
      cases b with
      | true => exact ⟨'t', ['r', 'u', 'e'], by decide, by decide, by decide, by decide⟩
      | false => exact ⟨'f', ['a', 'l', 's', 'e'], by decide, by decide, by decide, by decide⟩
  | num text =>
      have hinteger : isInteger text.toList = true := by simpa only [fits] using h
      obtain ⟨sign, ds, htext, hds, hsign⟩ := integer_head hinteger
      obtain ⟨-, -, d, tail, rfl, hdigit⟩ := integerPart_of_isNatural hds stops_nil
      rw [write, htext]
      rcases hsign with rfl | rfl
      · refine ⟨d, tail, rfl, ?_, ?_, ?_⟩
        · by_contra hblank
          rw [Bool.not_eq_false] at hblank
          simp only [isBlank, Bool.or_eq_true, decide_eq_true_eq] at hblank
          rcases hblank with ((rfl | rfl) | rfl) | rfl <;> cases hdigit
        · rintro rfl
          cases hdigit
        · rintro rfl
          cases hdigit
      · exact ⟨'-', d :: tail, rfl, by decide, by decide, by decide⟩
  | str s => exact ⟨'"', _, rfl, by decide, by decide, by decide⟩
  | arr items => exact ⟨'[', _, rfl, by decide, by decide, by decide⟩
  | obj members => exact ⟨'\x7b', _, rfl, by decide, by decide, by decide⟩

theorem skipBlanks_write {depth : Nat} {value : Json} (h : fits depth value = true)
    (rest : List Char) : skipBlanks (write value ++ rest) = write value ++ rest := by
  obtain ⟨c, cs, hwrite, hblank, -, -⟩ := write_head h
  rw [hwrite]
  exact skipBlanks_of_head hblank

theorem setItem_new {members : List (String × Json)} {key : String} (h : key ∉ members.map Prod.fst)
    (value : Json) : setItem members key value = members ++ [(key, value)] := by
  unfold setItem
  rw [if_neg]
  intro hany
  obtain ⟨member, hmember, hkey⟩ := List.any_eq_true.mp hany
  exact h (List.mem_map.mpr ⟨member, hmember, of_decide_eq_true hkey⟩)

/-- The text of a list starts with that of its first item. -/
theorem writeItems_cons (value : Json) (items : List Json) :
    ∃ more, writeItems (value :: items) = write value ++ more := by
  cases items with
  | nil => exact ⟨[], (List.append_nil _).symm⟩
  | cons item items => exact ⟨_, rfl⟩

theorem writeMembers_cons (key : String) (value : Json) (members : List (String × Json)) :
    ∃ more, writeMembers ((key, value) :: members) = '"' :: more := by
  cases members with
  | nil => exact ⟨_, rfl⟩
  | cons member members => exact ⟨_, rfl⟩

/-! ## Reading back -/

/-- An array is read from its first item on, unless it has none. -/
theorem scanOnce_bracket {fuel depth : Nat} {c : Char} {cs : List Char} (hblank : isBlank c = false)
    (hc : c ≠ ']') :
    scanOnce (fuel + 1) (depth + 1) ('[' :: c :: cs) = scanItems fuel depth [] (c :: cs) := by
  simp only [scanOnce, skipBlanks_of_head hblank]
  split
  · rename_i heq
    exact absurd (List.cons.inj heq).1 hc
  · rfl

theorem scanOnce_brace {fuel depth : Nat} {c : Char} {cs : List Char} (hblank : isBlank c = false)
    (hc : c ≠ '\x7d') :
    scanOnce (fuel + 1) (depth + 1) ('\x7b' :: c :: cs) = scanMembers fuel depth [] (c :: cs) := by
  simp only [scanOnce, skipBlanks_of_head hblank]
  split
  · rename_i heq
    exact absurd (List.cons.inj heq).1 hc
  · rfl

/-- With this fuel the reader reads back what is written, if it is not too long. -/
structure ReadsBack (fuel : Nat) : Prop where
  once : ∀ depth value rest, fits depth value = true → Stops rest →
    2 * (write value ++ rest).length < fuel →
      scanOnce fuel depth (write value ++ rest) = .ok (value, rest)
  items : ∀ depth items read rest, items ≠ [] → fitsAll depth items = true →
    2 * (writeItems items ++ ']' :: rest).length + 1 < fuel →
      scanItems fuel depth read (writeItems items ++ ']' :: rest) = .ok (.arr (read ++ items), rest)
  members : ∀ depth members read rest, members ≠ [] → fitsMembers depth members = true →
    ((read ++ members).map Prod.fst).Nodup →
    2 * (writeMembers members ++ '\x7d' :: rest).length + 1 < fuel →
      scanMembers fuel depth read (writeMembers members ++ '\x7d' :: rest) =
        .ok (.obj (read ++ members), rest)

section Step

variable {fuel : Nat} (h : ReadsBack fuel)

include h

theorem ReadsBack.scanOnce (depth : Nat) (value : Json) (rest : List Char)
    (hfits : fits depth value = true) (hrest : Stops rest)
    (hfuel : 2 * (write value ++ rest).length < fuel + 1) :
    PyJson.scanOnce (fuel + 1) depth (write value ++ rest) = .ok (value, rest) := by
  cases value with
  | null => rfl
  | bool b => cases b <;> rfl
  | num text =>
      have hinteger : isInteger text.toList = true := by simpa only [fits] using hfits
      have hread := scanOnce_integer hinteger hrest fuel depth
      rw [String.ofList_toList] at hread
      exact hread
  | str s =>
      obtain ⟨ns, hscan, hns⟩ := scanString_writeString s rest
      show (scanString ((writeString s).tail ++ rest)).map _ = _
      rw [hscan, ← hns]
      rfl
  | arr items =>
      cases depth with
      | zero => cases hfits
      | succ depth =>
          have hall : fitsAll depth items = true := by simpa only [fits] using hfits
          have htext : write (.arr items) ++ rest = '[' :: (writeItems items ++ ']' :: rest) := by
            simp [write]
          rw [htext] at hfuel ⊢
          simp only [List.length_cons] at hfuel
          cases items with
          | nil => rfl
          | cons item items =>
              have hread := h.items depth (item :: items) [] rest (List.cons_ne_nil _ _) hall (by omega)
              obtain ⟨more, hmore⟩ := writeItems_cons item items
              have hitem : fits depth item = true := by
                rw [fitsAll, Bool.and_eq_true] at hall
                exact hall.1
              obtain ⟨c, cs, hwrite, hblank, hc, -⟩ := write_head hitem
              rw [hmore, hwrite] at hread ⊢
              exact (scanOnce_bracket hblank hc).trans hread
  | obj members =>
      cases depth with
      | zero => cases hfits
      | succ depth =>
          rw [fits, Bool.and_eq_true, decide_eq_true_eq] at hfits
          have htext : write (.obj members) ++ rest =
              '\x7b' :: (writeMembers members ++ '\x7d' :: rest) := by
            simp [write]
          rw [htext] at hfuel ⊢
          simp only [List.length_cons] at hfuel
          cases members with
          | nil => rfl
          | cons member members =>
              have hread := h.members depth (member :: members) [] rest (List.cons_ne_nil _ _) hfits.2
                hfits.1 (by omega)
              obtain ⟨more, hmore⟩ := writeMembers_cons member.1 member.2 members
              rw [hmore] at hread ⊢
              exact (scanOnce_brace (by decide) (by decide)).trans hread

theorem ReadsBack.scanItems (depth : Nat) (items read : List Json) (rest : List Char)
    (hne : items ≠ []) (hfits : fitsAll depth items = true)
    (hfuel : 2 * (writeItems items ++ ']' :: rest).length + 1 < fuel + 1) :
    PyJson.scanItems (fuel + 1) depth read (writeItems items ++ ']' :: rest) =
      .ok (.arr (read ++ items), rest) := by
  cases items with
  | nil => exact absurd rfl hne
  | cons item items =>
      rw [fitsAll, Bool.and_eq_true] at hfits
      cases items with
      | nil =>
          have hitem := h.once depth item (']' :: rest) hfits.1 (stops_cons (by decide) rest) (by
            rw [writeItems] at hfuel
            omega)
          unfold PyJson.scanItems
          rw [writeItems, hitem]
          rfl
      | cons next items =>
          have htext : writeItems (item :: next :: items) ++ ']' :: rest =
              write item ++ ',' :: (writeItems (next :: items) ++ ']' :: rest) := by
            simp [writeItems]
          rw [htext] at hfuel ⊢
          simp only [List.length_append, List.length_cons] at hfuel
          have hitem := h.once depth item (',' :: (writeItems (next :: items) ++ ']' :: rest)) hfits.1
            (stops_cons (by decide) _) (by
              simp only [List.length_append, List.length_cons]
              omega)
          have hitems := h.items depth (next :: items) (read ++ [item]) rest (List.cons_ne_nil _ _)
            hfits.2 (by
              simp only [List.length_append, List.length_cons]
              omega)
          have hnext : fits depth next = true := by
            have hrest := hfits.2
            rw [fitsAll, Bool.and_eq_true] at hrest
            exact hrest.1
          obtain ⟨more, hmore⟩ := writeItems_cons next items
          have hskip : skipBlanks (writeItems (next :: items) ++ ']' :: rest) =
              writeItems (next :: items) ++ ']' :: rest := by
            rw [hmore, List.append_assoc]
            exact skipBlanks_write hnext _
          unfold PyJson.scanItems
          rw [hitem]
          show PyJson.scanItems fuel depth (read ++ [item])
            (skipBlanks (writeItems (next :: items) ++ ']' :: rest)) = _
          rw [hskip, hitems, List.append_assoc]
          rfl

/-- The last member of an object. -/
theorem ReadsBack.lastMember (depth : Nat) (key : String) (value : Json)
    (read : List (String × Json)) (rest : List Char) (hfits : fits depth value = true)
    (hnew : key ∉ read.map Prod.fst) (hfuel : 2 * (write value ++ '\x7d' :: rest).length < fuel) :
    PyJson.scanMembers (fuel + 1) depth read
        (writeString key ++ ':' :: (write value ++ '\x7d' :: rest)) =
      .ok (.obj (read ++ [(key, value)]), rest) := by
  obtain ⟨ns, hscan, hns⟩ := scanString_writeString key (':' :: (write value ++ '\x7d' :: rest))
  have hvalue := h.once depth value ('\x7d' :: rest) hfits (stops_cons (by decide) rest) hfuel
  have hcolon : ∀ cs, skipBlanks (':' :: cs) = ':' :: cs := fun _ => skipBlanks_of_head (by decide)
  have hclose : ∀ cs, skipBlanks ('\x7d' :: cs) = '\x7d' :: cs :=
    fun _ => skipBlanks_of_head (by decide)
  show PyJson.scanMembers (fuel + 1) depth read
    ('"' :: ((writeString key).tail ++ ':' :: (write value ++ '\x7d' :: rest))) = _
  simp only [PyJson.scanMembers, hscan, bind, Except.bind, hcolon, skipBlanks_write hfits, hvalue,
    hclose, hns, setItem_new hnew]

/-- A member with another one behind it. -/
theorem ReadsBack.nextMember (depth : Nat) (key : String) (value : Json)
    (read : List (String × Json)) (rest : List Char) (hfits : fits depth value = true)
    (hnew : key ∉ read.map Prod.fst) (hfuel : 2 * (write value ++ ',' :: rest).length < fuel) :
    PyJson.scanMembers (fuel + 1) depth read
        (writeString key ++ ':' :: (write value ++ ',' :: rest)) =
      PyJson.scanMembers fuel depth (read ++ [(key, value)]) (skipBlanks rest) := by
  obtain ⟨ns, hscan, hns⟩ := scanString_writeString key (':' :: (write value ++ ',' :: rest))
  have hvalue := h.once depth value (',' :: rest) hfits (stops_cons (by decide) rest) hfuel
  have hcolon : ∀ cs, skipBlanks (':' :: cs) = ':' :: cs := fun _ => skipBlanks_of_head (by decide)
  have hcomma : ∀ cs, skipBlanks (',' :: cs) = ',' :: cs := fun _ => skipBlanks_of_head (by decide)
  show PyJson.scanMembers (fuel + 1) depth read
    ('"' :: ((writeString key).tail ++ ':' :: (write value ++ ',' :: rest))) = _
  simp only [PyJson.scanMembers, hscan, bind, Except.bind, hcolon, skipBlanks_write hfits, hvalue,
    hcomma, hns, setItem_new hnew]

theorem ReadsBack.scanMembers (depth : Nat) (members read : List (String × Json)) (rest : List Char)
    (hne : members ≠ []) (hfits : fitsMembers depth members = true)
    (hkeys : ((read ++ members).map Prod.fst).Nodup)
    (hfuel : 2 * (writeMembers members ++ '\x7d' :: rest).length + 1 < fuel + 1) :
    PyJson.scanMembers (fuel + 1) depth read (writeMembers members ++ '\x7d' :: rest) =
      .ok (.obj (read ++ members), rest) := by
  cases members with
  | nil => exact absurd rfl hne
  | cons member members =>
      obtain ⟨key, value⟩ := member
      rw [fitsMembers, Bool.and_eq_true] at hfits
      have hnew : key ∉ read.map Prod.fst := by
        rw [List.map_append, List.nodup_append] at hkeys
        exact fun hmem => hkeys.2.2 key hmem key List.mem_cons_self rfl
      cases members with
      | nil =>
          have htext : writeMembers [(key, value)] ++ '\x7d' :: rest =
              writeString key ++ ':' :: (write value ++ '\x7d' :: rest) := by
            simp [writeMembers]
          rw [htext] at hfuel ⊢
          apply h.lastMember depth key value read rest hfits.1 hnew
          simp only [List.length_append, List.length_cons] at hfuel ⊢
          omega
      | cons next members =>
          have htext : writeMembers ((key, value) :: next :: members) ++ '\x7d' :: rest =
              writeString key ++ ':' :: (write value ++
                ',' :: (writeMembers (next :: members) ++ '\x7d' :: rest)) := by
            simp [writeMembers]
          rw [htext] at hfuel ⊢
          simp only [List.length_append, List.length_cons] at hfuel
          have hmember := h.nextMember depth key value read
            (writeMembers (next :: members) ++ '\x7d' :: rest) hfits.1 hnew (by
              simp only [List.length_append, List.length_cons]
              omega)
          have hmembers := h.members depth (next :: members) (read ++ [(key, value)]) rest
            (List.cons_ne_nil _ _) hfits.2 (by rwa [List.append_assoc]) (by
              simp only [List.length_append, List.length_cons]
              omega)
          obtain ⟨more, hmore⟩ := writeMembers_cons next.1 next.2 members
          have hskip : skipBlanks (writeMembers (next :: members) ++ '\x7d' :: rest) =
              writeMembers (next :: members) ++ '\x7d' :: rest := by
            rw [hmore]
            exact skipBlanks_of_head (by decide)
          rw [hmember, hskip, hmembers, List.append_assoc]
          rfl

end Step

/-- **Twice the length of a text is fuel enough to read it back.** -/
theorem readsBack (fuel : Nat) : ReadsBack fuel := by
  induction fuel with
  | zero =>
      refine ⟨fun _ _ _ _ _ hfuel => ?_, fun _ _ _ _ _ _ hfuel => ?_, fun _ _ _ _ _ _ _ hfuel => ?_⟩
      · omega
      · omega
      · omega
  | succ fuel ih => exact ⟨ih.scanOnce, ih.scanItems, ih.scanMembers⟩

/-- **What is written is read back.** -/
theorem loads_write {recursionLimit : Nat} {value : Json} (h : fits recursionLimit value = true) :
    loads recursionLimit (String.ofList (write value)) = .ok value := by
  have hread := (readsBack (2 * (write value).length + 1)).once recursionLimit value [] h stops_nil (by
    rw [List.append_nil]
    omega)
  rw [List.append_nil] at hread
  unfold loads
  rw [String.toList_ofList]
  split
  · rename_i hmark
    obtain ⟨c, cs, hwrite, -, -, hc⟩ := write_head h
    rw [hwrite] at hmark
    exact absurd (List.cons.inj hmark).1 hc
  · have hskip := skipBlanks_write h []
    rw [List.append_nil] at hskip
    rw [hskip, hread]
    rfl

end JsonText

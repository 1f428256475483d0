/-
# GlobalPayments.Consumer.Payloads — from the bytes of a message to its handling.

`_process_message` decodes the value of a message, parses the text, reads the `eventType` of what it
gets and looks a handler up under it.  Each of these can raise, with an exception of its own, and only
the parser's `JSONDecodeError` is caught.

`processed_iff` says which payloads are processed without an exception.  How deep the parser may
recurse is up to the interpreter: `recursionLimit` is a parameter.  Logging does not raise.
-/
import GlobalPayments.Consumer.PaymentEvents
import GlobalPayments.Library.PyJson

namespace GlobalPayments.Consumer

open Runs

/-! ## Decoding and parsing -/

/-- `msg.value().decode('utf-8')`. -/
def decodeValue : Option ByteArray → Except PyException String
  -- `None` has no `decode`
  | none => .error .attributeError
  | some bytes =>
      match String.fromUTF8? bytes with
      | none => .error .unicodeDecodeError
      | some text => .ok text

/-- What `json.loads` raises. -/
def loadsException : PyJson.ScanError → PyException
  | .jsonDecodeError => .jsonDecodeError
  | .recursionError => .other "RecursionError"
  | .valueError => .other "ValueError"
  -- never: `loads_ne_outOfFuel`
  | .outOfFuel => .other ""

/-- `json.loads(msg.value().decode('utf-8'))`. -/
def loadValue (recursionLimit : Nat) (value : Option ByteArray) : Except PyException Json := do
  let text ← decodeValue value
  (PyJson.loads recursionLimit text).mapError loadsException

/-- The message with this value. -/
def messageOf (recursionLimit : Nat) (value : Option ByteArray) : Message :=
  ⟨loadValue recursionLimit value⟩

/-! ## Which payloads are processed -/

/-- Lists and dicts. -/
def isContainer : Json → Bool
  | .arr _ => true
  | .obj _ => true
  | _ => false

/-- The payloads `_process_message` is prepared for: texts that are not JSON, and objects whose
`eventType`, where they have one, can be a dictionary key. -/
inductive Expected (recursionLimit : Nat) : Option ByteArray → Prop
  | malformed {bytes : ByteArray} {text : String} :
      String.fromUTF8? bytes = some text →
      PyJson.loads recursionLimit text = .error .jsonDecodeError →
      Expected recursionLimit (some bytes)
  | event {bytes : ByteArray} {text : String} {fields : List (String × Json)} :
      String.fromUTF8? bytes = some text →
      PyJson.loads recursionLimit text = .ok (.obj fields) →
      (∀ eventType ∈ fields.lookup "eventType", isContainer eventType = false) →
      Expected recursionLimit (some bytes)

/-- A handler is looked up under everything but a list or a dict. -/
theorem handlerOf_cases (eventType : Json) :
    isContainer eventType = false ∧ (∃ handled, handlerOf eventType = .ok handled) ∨
      isContainer eventType = true ∧ handlerOf eventType = .error .typeError := by
  cases eventType with
  | arr items => exact Or.inr ⟨rfl, rfl⟩
  | obj fields => exact Or.inr ⟨rfl, rfl⟩
  | str name =>
      refine Or.inl ⟨rfl, ?_⟩
      -- the three names with a handler, and any other text
      unfold handlerOf
      split
      · contradiction
      · contradiction
      · exact ⟨_, rfl⟩
      · exact ⟨_, rfl⟩
      · exact ⟨_, rfl⟩
      · exact ⟨_, rfl⟩
  | null => exact Or.inl ⟨rfl, _, rfl⟩
  | bool b => exact Or.inl ⟨rfl, _, rfl⟩
  | num text => exact Or.inl ⟨rfl, _, rfl⟩

section Payload

variable {recursionLimit : Nat} {bytes : ByteArray} {text : String}

/-- Once the text is there, the parser's result decides. -/
theorem loadValue_of_text (htext : String.fromUTF8? bytes = some text) :
    loadValue recursionLimit (some bytes) =
      (PyJson.loads recursionLimit text).mapError loadsException := by
  unfold loadValue decodeValue
  dsimp only
  rw [htext]
  rfl

/-- What becomes of a payload that is a text. -/
theorem processMessage_of_text (htext : String.fromUTF8? bytes = some text) :
    processMessage (messageOf recursionLimit (some bytes)) =
      match PyJson.loads recursionLimit text with
      | .error .jsonDecodeError => .ok .malformed
      | .error e => .error (loadsException e)
      | .ok (.obj fields) => handlerOf ((fields.lookup "eventType").getD .null)
      | .ok _ => .error .attributeError := by
  unfold processMessage messageOf
  rw [loadValue_of_text htext]
  cases PyJson.loads recursionLimit text with
  | error e => cases e <;> rfl
  | ok value => cases value <;> rfl

/-- A value that is no object has no `get`. -/
theorem processMessage_of_value {value : Json} (htext : String.fromUTF8? bytes = some text)
    (hloads : PyJson.loads recursionLimit text = .ok value) (hobj : ∀ fields, value ≠ .obj fields) :
    processMessage (messageOf recursionLimit (some bytes)) = .error .attributeError := by
  rw [processMessage_of_text htext, hloads]
  cases value with
  | obj fields => exact absurd rfl (hobj fields)
  | _ => rfl

/-- What `Expected` says of the bytes, it says of their text. -/
theorem expected_iff (htext : String.fromUTF8? bytes = some text) :
    Expected recursionLimit (some bytes) ↔
      PyJson.loads recursionLimit text = .error .jsonDecodeError ∨
        ∃ fields, PyJson.loads recursionLimit text = .ok (.obj fields) ∧
          ∀ eventType ∈ fields.lookup "eventType", isContainer eventType = false := by
  constructor
  · rintro (⟨hsome, hloads⟩ | ⟨hsome, hloads, hkey⟩)
    · obtain rfl := Option.some.inj (htext.symm.trans hsome)
      exact Or.inl hloads
    · obtain rfl := Option.some.inj (htext.symm.trans hsome)
      exact Or.inr ⟨_, hloads, hkey⟩
  · rintro (hloads | ⟨fields, hloads, hkey⟩)
    · exact .malformed htext hloads
    · exact .event htext hloads hkey

/-- An object without an `eventType` is like one with a null there. -/
theorem isContainer_getD (eventType : Option Json) :
    (∀ e ∈ eventType, isContainer e = false) ↔ isContainer (eventType.getD .null) = false := by
  cases eventType with
  | none => simp [isContainer]
  | some e => simp

/-- Bytes that are not UTF-8 cannot be decoded. -/
theorem processMessage_of_undecodable (hbytes : String.fromUTF8? bytes = none) :
    processMessage (messageOf recursionLimit (some bytes)) = .error .unicodeDecodeError := by
  unfold processMessage messageOf loadValue decodeValue
  dsimp only
  rw [hbytes]
  rfl

/-- **A payload is processed, or it raises.** -/
theorem processMessage_cases (recursionLimit : Nat) (value : Option ByteArray) :
    Expected recursionLimit value ∧
        (∃ handled, processMessage (messageOf recursionLimit value) = .ok handled) ∨
      ¬ Expected recursionLimit value ∧
        ∃ e, processMessage (messageOf recursionLimit value) = .error e := by
  cases value with
  | none => exact Or.inr ⟨nofun, _, rfl⟩
  | some bytes =>
      cases htext : String.fromUTF8? bytes with
      | none =>
          refine Or.inr ⟨?_, .unicodeDecodeError, processMessage_of_undecodable htext⟩
          rintro (⟨hsome, -⟩ | ⟨hsome, -, -⟩)
          · cases htext.symm.trans hsome
          · cases htext.symm.trans hsome
      | some text =>
          rw [expected_iff htext, processMessage_of_text htext]
          cases hloads : PyJson.loads recursionLimit text with
          | error e =>
              cases e with
              | jsonDecodeError => exact Or.inl ⟨Or.inl rfl, _, rfl⟩
              | outOfFuel => exact absurd hloads (PyJson.loads_ne_outOfFuel recursionLimit text)
              | recursionError => exact Or.inr ⟨by simp, _, rfl⟩
              | valueError => exact Or.inr ⟨by simp, _, rfl⟩
          | ok value =>
              cases value with
              | obj fields =>
                  rcases handlerOf_cases ((fields.lookup "eventType").getD .null) with
                    ⟨hfree, handled, hok⟩ | ⟨hcontainer, herror⟩
                  · have hkey := (isContainer_getD (fields.lookup "eventType")).mpr hfree
                    exact Or.inl ⟨Or.inr ⟨fields, rfl, hkey⟩, handled, hok⟩
                  · refine Or.inr ⟨?_, .typeError, herror⟩
                    rintro (h | ⟨fields', h, hfree⟩)
                    · cases h
                    · obtain rfl := Json.obj.inj (Except.ok.inj h)
                      rw [isContainer_getD, hcontainer] at hfree
                      cases hfree
              | _ => exact Or.inr ⟨by simp, .attributeError, rfl⟩

end Payload

/-- **Which payloads are processed without an exception**: texts that are not JSON, and objects whose
`eventType`, where they have one, is neither a list nor an object. -/
theorem processed_iff (recursionLimit : Nat) (value : Option ByteArray) :
    (∃ handled, processMessage (messageOf recursionLimit value) = .ok handled) ↔
      Expected recursionLimit value := by
  rcases processMessage_cases recursionLimit value with ⟨hexpected, hok⟩ | ⟨hunexpected, e, herror⟩
  · exact iff_of_true hok hexpected
  · refine iff_of_false ?_ hunexpected
    rintro ⟨handled, hok⟩
    cases herror.symm.trans hok

/-- In the poll loop every other payload counts as a failure: nothing is committed for it. -/
theorem process_unexpected {recursionLimit : Nat} {value : Option ByteArray}
    {s s' : PaymentEventConsumer} (hphase : s.phase = .processing (messageOf recursionLimit value))
    (hunexpected : ¬ Expected recursionLimit value) (hstep : step s (.process none) = some s') :
    s'.phase = .polling ∧ s'.subscription = s.subscription.settle true := by
  rcases processMessage_cases recursionLimit value with ⟨hexpected, -⟩ | ⟨-, e, herror⟩
  · exact absurd hexpected hunexpected
  · simp only [step, hphase, herror] at hstep
    obtain rfl := Option.some.inj hstep
    exact ⟨rfl, rfl⟩

/-! ## Payloads that raise -/

theorem fromUTF8?_toUTF8 (text : String) : String.fromUTF8? text.toUTF8 = some text := by
  unfold String.fromUTF8?
  exact dif_pos text.isValidUTF8

theorem loads_array : PyJson.loads 1000 "[]" = .ok (.arr []) := by
  have htext : "[]".toList = ['[', ']'] := rfl
  simp [PyJson.loads, htext, PyJson.scanOnce, PyJson.skipBlanks, PyJson.isBlank, bind, Except.bind]

theorem loads_null : PyJson.loads 1000 "null" = .ok .null := by
  have htext : "null".toList = ['n', 'u', 'l', 'l'] := rfl
  have hlength : "null".length = 4 := rfl
  simp [PyJson.loads, htext, PyJson.scanOnce, PyJson.skipBlanks, PyJson.isBlank, bind, Except.bind,
    PyJson.scanLiteral, PyJson.literals, hlength]

/-- `{"eventType": []}`. -/
def listEventType : String := "\x7b\"eventType\": []\x7d"

theorem loads_listEventType :
    PyJson.loads 1000 listEventType = .ok (.obj [("eventType", .arr [])]) := by
  have htext : listEventType.toList = ['\x7b', '"', 'e', 'v', 'e', 'n', 't', 'T', 'y', 'p', 'e', '"',
      ':', ' ', '[', ']', '\x7d'] := rfl
  have hkey : PyJson.pyString [101, 118, 101, 110, 116, 84, 121, 112, 101] = "eventType" := by
    decide
  simp [PyJson.loads, htext, PyJson.scanOnce, PyJson.scanMembers, PyJson.scanString,
    PyJson.skipBlanks, PyJson.isBlank, bind, Except.bind, PyJson.setItem, Except.map, hkey]

/-- A null value, an invalid byte, an array, a null and a list under `eventType` raise, with three
different exceptions; none is the one that is caught. -/
theorem payload_raises :
    (processMessage (messageOf 1000 none) = .error .attributeError ∧
      processMessage (messageOf 1000 (some ⟨#[0xff]⟩)) = .error .unicodeDecodeError ∧
      processMessage (messageOf 1000 (some "[]".toUTF8)) = .error .attributeError ∧
      processMessage (messageOf 1000 (some "null".toUTF8)) = .error .attributeError ∧
      processMessage (messageOf 1000 (some listEventType.toUTF8)) = .error .typeError) ∧
      ¬ ∀ (recursionLimit : Nat) (value : Option ByteArray),
        ∃ handled, processMessage (messageOf recursionLimit value) = .ok handled := by
  have hnull : processMessage (messageOf 1000 none) = .error .attributeError := rfl
  refine ⟨⟨hnull, ?_, ?_, ?_, ?_⟩, fun hall => ?_⟩
  · exact processMessage_of_undecodable (by decide +kernel)
  · exact processMessage_of_value (fromUTF8?_toUTF8 "[]") loads_array (fun _ => nofun)
  · exact processMessage_of_value (fromUTF8?_toUTF8 "null") loads_null (fun _ => nofun)
  · rw [processMessage_of_text (fromUTF8?_toUTF8 listEventType), loads_listEventType]
    rfl
  · obtain ⟨handled, hok⟩ := hall 1000 none
    cases hnull.symm.trans hok

end GlobalPayments.Consumer

/-
# GlobalPayments.Consumer.Events — the messages of payments-service, as the consumer reads them.

`publishPaymentEvent` sends a map of seven members, and `JsonSerializer` makes one JSON object of it,
in the order in which the map iterates.  `_process_message` decodes the bytes, parses the text and asks
the object for its members by their names.

`event_round_trip`: whatever that order is, the consumer finds every member as it was sent, routes the
event to the handler of its type, and different events never have the same bytes.
-/
import GlobalPayments.Consumer.Payloads
import GlobalPayments.Library.JsonText
import GlobalPayments.Payments.Identifiers
import GlobalPayments.Payments.Service

namespace GlobalPayments.Consumer

open BigDecimal (IsLong)
open Payments (Currency EventType Instant PaymentEvent PaymentStatus)

/-! ## The value of a message -/

/-- What the source leaves open: the text of an `Instant`, and how a `Map.of` iterates. -/
structure Serializer where
  instantText : Instant → String
  arrange : List (String × Json) → List (String × Json)
  arrange_perm : ∀ members, (arrange members).Perm members

/-- `java.util.Map.of("eventType", eventType, …)`. -/
def eventMembers (serializer : Serializer) (e : PaymentEvent) : List (String × Json) :=
  [("eventType", .str e.eventType.name),
    ("paymentId", .str (String.ofList e.paymentId.toText)),
    ("paymentReference", .str e.paymentReference),
    ("status", .str e.status.name),
    ("amount", .num (JsonText.integerText e.amount)),
    ("currency", .str e.currency.name),
    ("timestamp", .str (serializer.instantText e.timestamp))]

/-- `JsonSerializer.serialize`. -/
def payload (serializer : Serializer) (e : PaymentEvent) : ByteArray :=
  (String.ofList (JsonText.write (.obj (serializer.arrange (eventMembers serializer e))))).toUTF8

/-- The handler of an event type. -/
def handledBy : EventType → Handled
  | .PAYMENT_CREATED => .paymentCreated
  | .PAYMENT_STATUS_CHANGED => .statusChanged
  | .PAYMENT_RETRY => .paymentRetry

/-! ## Names -/

theorem eventTypeName_injective : Function.Injective EventType.name := by
  intro a b h
  cases a <;> cases b <;> first | rfl | exact absurd h (by decide)

theorem statusName_injective : Function.Injective PaymentStatus.name := by
  intro a b h
  cases a <;> cases b <;> first | rfl | exact absurd h (by decide)

theorem currencyName_injective : Function.Injective Currency.name := by
  intro a b h
  cases a <;> cases b <;> first | rfl | exact absurd h (by decide)

theorem handlerOf_name (t : EventType) : handlerOf (.str t.name) = .ok (handledBy t) := by
  cases t <;> rfl

/-! ## Reading it -/

section Reading

variable {serializer : Serializer} {e : PaymentEvent} {recursionLimit : Nat}

theorem keys_eventMembers (serializer : Serializer) (e : PaymentEvent) :
    (eventMembers serializer e).map Prod.fst =
      ["eventType", "paymentId", "paymentReference", "status", "amount", "currency",
        "timestamp"] := rfl

theorem nodup_arranged (serializer : Serializer) (e : PaymentEvent) :
    ((serializer.arrange (eventMembers serializer e)).map Prod.fst).Nodup := by
  rw [((serializer.arrange_perm _).map Prod.fst).nodup_iff, keys_eventMembers]
  decide

/-- A `long` has at most nineteen digits. -/
theorem isInteger_long {n : Int} (h : IsLong n) :
    JsonText.isInteger (JsonText.integerText n).toList = true := by
  apply JsonText.isInteger_integerText
  have hlt : n.natAbs < 10 ^ 19 := by
    obtain ⟨hmin, hmax⟩ := h
    unfold BigDecimal.longMin at hmin
    unfold BigDecimal.longMax at hmax
    omega
  have hlength := (Nat.length_toDigits_le_iff (by decide) (by decide)).mpr hlt
  exact Nat.le_trans hlength (by decide)

theorem fits_event (hlimit : 1 ≤ recursionLimit) (hlong : IsLong e.amount) :
    JsonText.fits recursionLimit (.obj (serializer.arrange (eventMembers serializer e))) = true := by
  obtain ⟨depth, rfl⟩ := Nat.exists_eq_add_of_le' hlimit
  have hmembers : ∀ member ∈ eventMembers serializer e, JsonText.fits depth member.2 = true := by
    simp [eventMembers, JsonText.fits, isInteger_long hlong]
  rw [JsonText.fits, Bool.and_eq_true, decide_eq_true_eq, JsonText.fitsMembers_iff]
  exact ⟨nodup_arranged serializer e, fun member hmember =>
    hmembers member ((serializer.arrange_perm _).subset hmember)⟩

/-- **What the consumer loads** is the map that was sent. -/
theorem loadValue_payload (hlimit : 1 ≤ recursionLimit) (hlong : IsLong e.amount) :
    loadValue recursionLimit (some (payload serializer e)) =
      .ok (.obj (serializer.arrange (eventMembers serializer e))) := by
  rw [payload, loadValue_of_text (fromUTF8?_toUTF8 _), JsonText.loads_write (fits_event hlimit hlong)]
  rfl

theorem lookup_arranged {member : String × Json} (h : member ∈ eventMembers serializer e) :
    (serializer.arrange (eventMembers serializer e)).lookup member.1 = some member.2 :=
  Json.lookup_of_mem (nodup_arranged serializer e) ((serializer.arrange_perm _).mem_iff.mpr h)

/-- **The event is handled by the handler of its type.** -/
theorem processMessage_payload (hlimit : 1 ≤ recursionLimit) (hlong : IsLong e.amount) :
    processMessage (messageOf recursionLimit (some (payload serializer e))) =
      .ok (handledBy e.eventType) := by
  have hmem : ("eventType", .str e.eventType.name) ∈ eventMembers serializer e :=
    List.mem_cons_self
  have htype := lookup_arranged hmem
  unfold processMessage messageOf
  rw [loadValue_payload hlimit hlong]
  dsimp only
  rw [htype, Option.getD_some, handlerOf_name]

/-- **Different events have different bytes.** -/
theorem payload_injective (htext : Function.Injective serializer.instantText)
    (hlong : IsLong e.amount) {e' : PaymentEvent} (hlong' : IsLong e'.amount)
    (h : payload serializer e = payload serializer e') : e = e' := by
  have hloaded : loadValue 1 (some (payload serializer e)) = _ :=
    loadValue_payload (Nat.le_refl 1) hlong
  rw [h, loadValue_payload (Nat.le_refl 1) hlong', Except.ok.injEq, Json.obj.injEq] at hloaded
  have hperm : (eventMembers serializer e).Perm (eventMembers serializer e') :=
    (serializer.arrange_perm _).symm.trans (hloaded ▸ serializer.arrange_perm _)
  -- each member of one map is the member of the other under the same name
  have hmem : ∀ member ∈ eventMembers serializer e, member ∈ eventMembers serializer e' :=
    fun member hmember => hperm.subset hmember
  obtain ⟨htype, hid, hreference, hstatus, hamount, hcurrency, htimestamp⟩ :
      e.eventType.name = e'.eventType.name ∧
        String.ofList e.paymentId.toText = String.ofList e'.paymentId.toText ∧
        e.paymentReference = e'.paymentReference ∧ e.status.name = e'.status.name ∧
        JsonText.integerText e.amount = JsonText.integerText e'.amount ∧
        e.currency.name = e'.currency.name ∧
        serializer.instantText e.timestamp = serializer.instantText e'.timestamp := by
    simpa [eventMembers] using hmem
  obtain ⟨eventType, paymentId, paymentReference, status, amount, currency, timestamp⟩ := e
  obtain ⟨eventType', paymentId', paymentReference', status', amount', currency', timestamp'⟩ := e'
  obtain rfl := eventTypeName_injective htype
  obtain rfl := Payments.toText_injective (String.ofList_injective hid)
  obtain rfl : paymentReference = paymentReference' := hreference
  obtain rfl := statusName_injective hstatus
  obtain rfl := JsonText.integerText_injective hamount
  obtain rfl := currencyName_injective hcurrency
  obtain rfl := htext htimestamp
  rfl

end Reading

/-- **An event arrives as it was sent.**  The consumer finds every member of the map under its name,
and nothing else; it routes the event to the handler of its type; and no other event has these
bytes. -/
theorem event_round_trip (serializer : Serializer)
    (htext : Function.Injective serializer.instantText) {recursionLimit : Nat}
    (hlimit : 1 ≤ recursionLimit) {e : PaymentEvent} (hlong : IsLong e.amount) :
    (∃ event, loadValue recursionLimit (some (payload serializer e)) = .ok (.obj event) ∧
      ∀ key value, event.lookup key = some value ↔ (key, value) ∈ eventMembers serializer e) ∧
    processMessage (messageOf recursionLimit (some (payload serializer e))) =
      .ok (handledBy e.eventType) ∧
    ∀ e', IsLong e'.amount → payload serializer e' = payload serializer e → e' = e := by
  refine ⟨⟨_, loadValue_payload hlimit hlong, fun key value => ⟨fun h => ?_, lookup_arranged⟩⟩,
    processMessage_payload hlimit hlong,
    fun e' hlong' h => payload_injective htext hlong' hlong h⟩
  obtain ⟨before, after, hsplit, -⟩ := List.lookup_eq_some_iff.mp h
  refine (serializer.arrange_perm _).subset ?_
  rw [hsplit]
  exact List.mem_append_right _ List.mem_cons_self

/-- A serializer whose maps iterate backwards; of the instants it knows the epoch's text. -/
def backwardSerializer : Serializer where
  instantText n := if n = 0 then "1970-01-01T00:00:00Z" else JsonText.integerText n
  arrange := List.reverse
  arrange_perm := List.reverse_perm

theorem backwardSerializer_injective : Function.Injective backwardSerializer.instantText := by
  have hletter : ∀ n, JsonText.integerText n ≠ "1970-01-01T00:00:00Z" := by
    intro n h
    have hlist := congrArg String.toList h
    unfold JsonText.integerText at hlist
    rw [String.toList_ofList] at hlist
    have hmem : 'T' ∈ (if n < 0 then ['-'] else []) ++ Nat.toDigits 10 n.natAbs := by
      rw [hlist]
      decide
    rcases List.mem_append.mp hmem with hsign | hdigit
    · split at hsign <;> simp at hsign
    · exact absurd (Nat.isDigit_of_mem_toDigits (by decide) (by decide) hdigit) (by decide)
  intro m n h
  simp only [backwardSerializer] at h
  by_cases hm : m = 0
  · by_cases hn : n = 0
    · rw [hm, hn]
    · rw [if_pos hm, if_neg hn] at h
      exact absurd h.symm (hletter n)
  · by_cases hn : n = 0
    · rw [if_neg hm, if_pos hn] at h
      exact absurd h (hletter m)
    · rw [if_neg hm, if_neg hn] at h
      exact JsonText.integerText_injective h

def sampleEvent : PaymentEvent where
  eventType := .PAYMENT_RETRY
  paymentId := 7
  paymentReference := "PAY-20240115-000001-\"\\"
  status := .PENDING
  amount := -100000
  currency := .GBP
  timestamp := 0

/-- A reference that has to be escaped, and an amount with a sign. -/
theorem event_round_trip_escaped :
    IsLong sampleEvent.amount ∧
    (∃ event, loadValue 1000 (some (payload backwardSerializer sampleEvent)) = .ok (.obj event) ∧
      event.lookup "paymentReference" = some (.str "PAY-20240115-000001-\"\\") ∧
      event.lookup "amount" = some (.num "-100000")) ∧
    processMessage (messageOf 1000 (some (payload backwardSerializer sampleEvent))) =
      .ok .paymentRetry := by
  have hlong : IsLong sampleEvent.amount := by decide
  obtain ⟨⟨event, hloaded, hmembers⟩, hprocessed, -⟩ :=
    event_round_trip backwardSerializer backwardSerializer_injective (show 1 ≤ 1000 by decide) hlong
  refine ⟨hlong, ⟨event, hloaded, (hmembers _ _).mpr ?_, (hmembers _ _).mpr ?_⟩, hprocessed⟩
  · simp [eventMembers, sampleEvent]
  · have hamount : JsonText.integerText sampleEvent.amount = "-100000" := by decide
    simp [eventMembers, hamount]

end GlobalPayments.Consumer

/-
# GlobalPayments.Gateway.Lookup — fetching a payment by the reference it was given.

payments-service writes the references and the gateway's route `GET /payments/ref/:reference` checks
them against a pattern of its own, with exactly eight digits for the day and exactly six for the
counter.  `%06d` only pads: from the millionth reference of a process on the counter takes seven
places, and the gateway refuses the reference it is asked for.

`reference_fetchable_iff` says for which calls of the generator the two agree.
-/
import GlobalPayments.Library.Pattern
import GlobalPayments.Gateway.Upstream
import GlobalPayments.Payments.Entity

namespace GlobalPayments.Gateway

open Payments Pattern

/-! ## The route -/

/-- The body of the 400 that `validate` answers with, its request id aside. -/
structure ValidationError where
  code : String
  message : String
  fieldErrors : List (String × String)
  deriving DecidableEq, Repr

/-- `/^PAY-\d{8}-\d{6}-[A-Z0-9]{4}$/`. -/
def referencePattern : Pattern :=
  literal "PAY-" ++ repeated 8 digit ++ literal "-" ++ repeated 6 digit ++ literal "-" ++
    repeated 4 upperAlphanumeric

/-- `param('reference').matches(…)`. -/
def acceptsReference (reference : String) : Bool := accepts referencePattern reference.toList

/-- The route up to its upstream call. -/
def lookUpReference (reference : String) : Except ValidationError Call :=
  if acceptsReference reference then .ok (.getPaymentByReference reference)
  else .error
    { code := "VALIDATION_ERROR"
      message := "Request validation failed"
      fieldErrors := [("reference", "Invalid payment reference format")] }

/-- A reference that can be stored in its column and is passed on by the gateway. -/
def Fetchable (reference : String) : Prop :=
  lookUpReference reference = .ok (.getPaymentByReference reference) ∧
    fits 30 (some reference) = true

theorem lookUpReference_ok_iff (reference : String) :
    lookUpReference reference = .ok (.getPaymentByReference reference) ↔
      acceptsReference reference = true := by
  unfold lookUpReference
  split
  · rename_i haccepted
    exact ⟨fun _ => haccepted, fun _ => rfl⟩
  · rename_i hrefused
    exact ⟨nofun, fun h => absurd h hrefused⟩

theorem length_referencePattern : referencePattern.length = 24 := by
  simp [referencePattern, literal, repeated]

/-! ## Generated references -/

theorem length_formatReference (date : LocalDate) (n : Nat) (u : UUID) :
    (formatReference date n u).length =
      date.format.length + (sixPlaces (longAfter n)).length + 10 := by
  unfold formatReference
  rw [String.length_ofList]
  simp only [List.length_append, List.length_singleton, String.length_toList,
    length_referenceSuffix]
  have hprefix : "PAY-".length = 4 := by decide
  omega

/-- A reference with a day of eight places and a counter of six is accepted when these are digits:
the rest of it always fits. -/
theorem acceptsReference_of_widths {date : LocalDate} {n : Nat} (u : UUID)
    (hdate : date.format.length = 8) (hcounter : (sixPlaces (longAfter n)).length = 6) :
    acceptsReference (formatReference date n u) = true ↔
      (∀ c ∈ date.format, c.isDigit = true) ∧ ∀ c ∈ sixPlaces (longAfter n), c.isDigit = true := by
  have hsuffix : accepts (repeated 4 upperAlphanumeric) (referenceSuffix u) = true := by
    refine accepts_repeated_iff.mpr ⟨length_referenceSuffix u, fun c hc => ?_⟩
    rw [upperAlphanumeric, Bool.or_eq_true]
    exact mem_referenceSuffix hc
  have hhyphen : accepts (literal "-") ['-'] = true := by
    simpa using accepts_literal_self "-"
  have hdigits : ∀ (k : Nat) (cs : List Char), cs.length = k →
      (accepts (repeated k digit) cs = true ↔ ∀ c ∈ cs, c.isDigit = true) := by
    intro k cs hlength
    rw [accepts_repeated_iff]
    exact ⟨fun h => h.2, fun h => ⟨hlength, h⟩⟩
  have hpay : accepts (literal "PAY-") "PAY-".toList = true := accepts_literal_self "PAY-"
  unfold acceptsReference formatReference referencePattern
  rw [String.toList_ofList]
  rw [accepts_append, accepts_append, accepts_append, accepts_append, accepts_append, hpay, hhyphen,
    hsuffix, Bool.true_and, Bool.and_true, Bool.and_true, Bool.and_true, Bool.and_eq_true,
    hdigits 8 _ hdate, hdigits 6 _ hcounter]
  all_goals simp [literal, repeated, hdate, hcounter]

/-- Which generated references the pattern accepts. -/
theorem acceptsReference_iff {date : LocalDate} (hdate : date.Valid) (n : Nat) (u : UUID) :
    acceptsReference (formatReference date n u) = true ↔
      n % 2 ^ 64 < 1000000 ∧ date.year ≤ 9999 := by
  obtain ⟨hwidth, hyear⟩ := LocalDate.length_format hdate
  have hcounter := length_sixPlaces (longAfter n)
  rw [← longAfter_lt_iff, ← sixPlaces_digits_iff, ← hyear]
  constructor
  · intro h
    -- the widths add up to the pattern's only when both are the least possible
    have hlength := length_of_accepts h
    rw [String.length_toList, length_formatReference] at hlength
    have hpattern : referencePattern.length = 24 := length_referencePattern
    have hsix : (sixPlaces (longAfter n)).length = 6 := by omega
    have height : date.format.length = 8 := by omega
    exact ⟨⟨hsix, ((acceptsReference_of_widths u height hsix).mp h).2⟩, height⟩
  · rintro ⟨⟨hsix, hdigits⟩, height⟩
    exact (acceptsReference_of_widths u height hsix).mpr
      ⟨fun _ => LocalDate.isDigit_of_mem_format height, hdigits⟩

/-- **Which references can be fetched.**  The reference of the `n`-th call of the generator is
accepted by the gateway and fits its column exactly when the counter it prints has at most six digits
and the year at most four. -/
theorem reference_fetchable_iff {n : Nat} (hn : 1 ≤ n) {date : LocalDate} (hdate : date.Valid)
    (u : UUID) :
    Fetchable (generate (n - 1) date u).1 ↔ n % 2 ^ 64 < 1000000 ∧ date.year ≤ 9999 := by
  have hcall : (generate (n - 1) date u).1 = formatReference date n u := by
    rw [generate, Nat.sub_add_cancel hn]
  rw [hcall, Fetchable, lookUpReference_ok_iff, ← acceptsReference_iff hdate n u]
  refine ⟨fun h => h.1, fun h => ⟨h, ?_⟩⟩
  have hlength := length_of_accepts h
  rw [String.length_toList] at hlength
  rw [fits, hlength]
  decide

/-- The forty-second reference of the day can be fetched. -/
theorem reference_fetchable_forty_two :
    Fetchable "PAY-20240315-000042-AB12" :=
  (@reference_fetchable_iff 42 (by decide) ⟨2024, 3, 15⟩ (by decide)
    0xab12000000000000000000000000cafe#128).mpr (by decide)

/-- The millionth cannot: its counter has seven digits. -/
theorem reference_unfetchable :
    (generate 999999 ⟨2024, 3, 15⟩ 0xab12000000000000000000000000cafe#128).1 =
        "PAY-20240315-1000000-AB12" ∧
      ¬ ∀ (n : Nat) (date : LocalDate) (u : UUID), 1 ≤ n → date.Valid →
        Fetchable (generate (n - 1) date u).1 := by
  have hreference : (generate 999999 ⟨2024, 3, 15⟩ 0xab12000000000000000000000000cafe#128).1 =
      "PAY-20240315-1000000-AB12" := by decide
  refine ⟨hreference, fun hall => ?_⟩
  have h := (hall 1000000 ⟨2024, 3, 15⟩ 0xab12000000000000000000000000cafe#128 (by decide)
    (by decide)).1
  rw [show 1000000 - 1 = 999999 from rfl, hreference, lookUpReference_ok_iff] at h
  exact absurd h (by decide)

end GlobalPayments.Gateway

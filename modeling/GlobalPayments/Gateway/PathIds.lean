/-
# GlobalPayments.Gateway.PathIds — the id of a payment on its way through the gateway.

`GET /payments/:id` takes what `isUUID(4)` accepts, in either letter case, and puts it into the path of
its own request as it came; payments-service reads it there as a `UUID`.  `id_through_gateway`: the
texts let through are the texts of the UUIDs that `randomUUID` makes, each is read as the UUID it is
the text of, and a payment that was ever shown with this id is found.
-/
import GlobalPayments.Gateway.Routes
import GlobalPayments.Payments.Identifiers
import GlobalPayments.Payments.Lookups

namespace GlobalPayments.Gateway

open Hexadecimal Json Payments Runs
open Pattern hiding digit

/-! ## The validator -/

/-- `[89AB]`, in either case. -/
def variantDigit (c : Char) : Bool := ['8', '9', 'a', 'b', 'A', 'B'].contains c

/-- `/^[0-9A-F]{8}-[0-9A-F]{4}-4[0-9A-F]{3}-[89AB][0-9A-F]{3}-[0-9A-F]{12}$/i` -/
def uuidPattern : Pattern :=
  repeated 8 isDigit ++ (literal "-" ++ (repeated 4 isDigit ++ (literal "-" ++
    (literal "4" ++ (repeated 3 isDigit ++ (literal "-" ++
      ([variantDigit] ++ (repeated 3 isDigit ++ (literal "-" ++ repeated 12 isDigit)))))))))

/-- What express-validator does with `param(field).isUUID(4).withMessage(message)`: the inputs stay as
they are, and an error is noted for a parameter that does not match. -/
def ExpressValidator.ChecksUuids (validator : ExpressValidator) : Prop :=
  ∀ field message inputs,
    validator.run ⟨.params, field, [.isUUID 4, .withMessage message]⟩ inputs =
      (inputs,
        if (inputs.params.lookup field).any fun value => uuidPattern.accepts value.toList then []
        else [⟨field, message⟩])

/-! ## What it accepts -/

/-- No place of the pattern tells the case of a letter. -/
theorem uuidPattern_invariant : uuidPattern.Invariant Char.toLower := by
  have hdigits := Invariant.repeated isDigit_toLower
  have hvariant : Invariant Char.toLower [variantDigit] :=
    Invariant.repeated (toLower_of_ascii (f := variantDigit) (by decide)) 1
  have hhyphen : Invariant Char.toLower (literal "-") :=
    Invariant.repeated (toLower_of_ascii (f := fun c => c == '-') (by decide)) 1
  have hversion : Invariant Char.toLower (literal "4") :=
    Invariant.repeated (toLower_of_ascii (f := fun c => c == '4') (by decide)) 1
  unfold uuidPattern
  apply (hdigits 8).append
  apply hhyphen.append
  apply (hdigits 4).append
  apply hhyphen.append
  apply hversion.append
  apply (hdigits 3).append
  apply hhyphen.append
  apply hvariant.append
  apply (hdigits 3).append
  exact hhyphen.append (hdigits 12)

/-- Four digits have a number. -/
theorem exists_quad {g : List Char} (h : (repeated 4 isDigit).accepts g = true) : ∃ v, Quad g v := by
  obtain ⟨hlength, hdigits⟩ := accepts_repeated_iff.mp h
  obtain ⟨v, hv⟩ := exists_value hdigits
  exact ⟨v, hlength, hv⟩

theorem repeated_eight : repeated 8 isDigit = repeated 4 isDigit ++ repeated 4 isDigit :=
  repeated_add 4 4 isDigit

theorem repeated_twelve : repeated 12 isDigit =
    repeated 4 isDigit ++ (repeated 4 isDigit ++ repeated 4 isDigit) := by
  rw [← repeated_add, ← repeated_add]

/-- A digit and three more. -/
theorem exists_quad_cons {c : Char} {d : Nat} {g : List Char} (hc : digit c = some d)
    (hg : (repeated 3 isDigit).accepts g = true) : ∃ v, Quad (c :: g) v ∧ v / 16 ^ 3 = d := by
  obtain ⟨hlength, hdigits⟩ := accepts_repeated_iff.mp hg
  obtain ⟨w, hw⟩ := exists_value hdigits
  have hlt := value_lt hw
  have hsingle : value [c] = some d := by
    show ((digit c).map fun d => 16 * 0 + d).bind some = some d
    rw [hc]
    simp
  refine ⟨d * 16 ^ 3 + w, ⟨by rw [List.length_cons, hlength], ?_⟩, ?_⟩
  · rw [← hlength]
    exact value_append hsingle hw
  · rw [hlength] at hlt
    omega

theorem variantDigit_cases {c : Char} (h : variantDigit c = true) :
    ∃ d, digit c = some d ∧ d / 4 = 2 := by
  have hmem := List.contains_iff_mem.mp h
  simp only [List.mem_cons, List.not_mem_nil, or_false] at hmem
  rcases hmem with rfl | rfl | rfl | rfl | rfl | rfl
  · exact ⟨8, by decide, rfl⟩
  · exact ⟨9, by decide, rfl⟩
  · exact ⟨10, by decide, rfl⟩
  · exact ⟨11, by decide, rfl⟩
  · exact ⟨10, by decide, rfl⟩
  · exact ⟨11, by decide, rfl⟩

/-- **An accepted text is the text of one UUID**, as `randomUUID` makes them. -/
theorem uuid_of_accepts (fromString1 : List Char → Option UUID) {cs : List Char}
    (h : uuidPattern.accepts cs = true) :
    ∃ u : UUID, u.IsRandom ∧ u.toText = cs.map Char.toLower ∧
      UUID.fromString fromString1 cs = some u := by
  unfold uuidPattern at h
  rw [repeated_eight, repeated_twelve] at h
  simp only [accepts_append_iff, accepts_literal_iff, accepts_singleton_iff] at h
  obtain ⟨_, _, hcs, ⟨g₁, g₂, rfl, h₁, h₂⟩, _, _, rfl, rfl, g₃, _, rfl, h₃, _, _, rfl, rfl, _, _,
    rfl, rfl, g₄, _, rfl, h₄, _, _, rfl, rfl, _, _, rfl, ⟨c, rfl, hc⟩, g₅, _, rfl, h₅, _, _, rfl,
    rfl, g₆, _, rfl, h₆, g₇, g₈, rfl, h₇, h₈⟩ := h
  obtain ⟨v₁, hq₁⟩ := exists_quad h₁
  obtain ⟨v₂, hq₂⟩ := exists_quad h₂
  obtain ⟨v₃, hq₃⟩ := exists_quad h₃
  obtain ⟨v₄, hq₄, hfour⟩ := exists_quad_cons (show digit '4' = some 4 from by decide) h₄
  obtain ⟨d, hd, htwo⟩ := variantDigit_cases hc
  obtain ⟨v₅, hq₅, hfive⟩ := exists_quad_cons hd h₅
  obtain ⟨v₆, hq₆⟩ := exists_quad h₆
  obtain ⟨v₇, hq₇⟩ := exists_quad h₇
  obtain ⟨v₈, hq₈⟩ := exists_quad h₈
  have hgroups : cs = hyphenated g₁ g₂ g₃ ('4' :: g₄) (c :: g₅) g₆ g₇ g₈ := by
    rw [hcs]
    simp [hyphenated]
  have hb₄ := hq₄.lt
  have hb₅ := hq₅.lt
  have hb₆ := hq₆.lt
  have hb₇ := hq₇.lt
  have hb₈ := hq₈.lt
  have hnat := toNat_ofGroups hq₁ hq₂ hq₃ hq₄ hq₅ hq₆ hq₇ hq₈
  rw [hgroups]
  refine ⟨_, ⟨?_, ?_⟩, toText_ofGroups hq₁ hq₂ hq₃ hq₄ hq₅ hq₆ hq₇ hq₈,
    fromString_hyphenated fromString1 hq₁ hq₂ hq₃ hq₄ hq₅ hq₆ hq₇ hq₈⟩
  · rw [UUID.version, hnat]
    omega
  · rw [UUID.isLeachSalz, hnat, decide_eq_true_eq]
    omega

theorem accepts_write (w n : Nat) : (repeated w isDigit).accepts (write w n) = true :=
  accepts_repeated_iff.mpr ⟨length_write w n, fun _ => isDigit_of_mem_write⟩

theorem write_four (n : Nat) :
    write 4 n = Nat.digitChar (n / 16 ^ 3 % 16) :: write 3 n := by
  rw [show 4 = 1 + 3 from rfl, write_add]
  rfl

theorem variantDigit_digitChar : ∀ d < 16, d / 4 = 2 → variantDigit (Nat.digitChar d) = true := by
  decide

/-- The text of such a UUID is accepted. -/
theorem accepts_toText {u : UUID} (h : u.IsRandom) : uuidPattern.accepts u.toText = true := by
  obtain ⟨hversion, hvariant⟩ := h
  have hfour : u.toNat / 16 ^ 16 / 16 ^ 3 % 16 = 4 := by
    rw [UUID.version] at hversion
    omega
  have htwo : variantDigit (Nat.digitChar (u.toNat / 16 ^ 12 / 16 ^ 3 % 16)) = true := by
    apply variantDigit_digitChar
    · omega
    · rw [UUID.isLeachSalz, decide_eq_true_eq] at hvariant
      omega
  have htext : u.toText = (write 4 (u.toNat / 16 ^ 28) ++ write 4 (u.toNat / 16 ^ 24)) ++
      ("-".toList ++ (write 4 (u.toNat / 16 ^ 20) ++ ("-".toList ++ ("4".toList ++
        (write 3 (u.toNat / 16 ^ 16) ++ ("-".toList ++
          ([Nat.digitChar (u.toNat / 16 ^ 12 / 16 ^ 3 % 16)] ++ (write 3 (u.toNat / 16 ^ 12) ++
            ("-".toList ++ (write 4 (u.toNat / 16 ^ 8) ++ (write 4 (u.toNat / 16 ^ 4) ++
              write 4 u.toNat))))))))))) := by
    rw [UUID.toText_eq, write_four (u.toNat / 16 ^ 16), hfour, write_four (u.toNat / 16 ^ 12)]
    simp [hyphenated]
  have hhyphen := accepts_literal_self "-"
  have hversion := accepts_literal_self "4"
  have hvariant : accepts [variantDigit] [Nat.digitChar (u.toNat / 16 ^ 12 / 16 ^ 3 % 16)] = true :=
    accepts_singleton_iff.mpr ⟨_, rfl, htwo⟩
  rw [uuidPattern, repeated_eight, repeated_twelve, htext]
  -- group by group, as the pattern is written
  apply accepts_join (accepts_join (accepts_write 4 _) (accepts_write 4 _))
  apply accepts_join hhyphen
  apply accepts_join (accepts_write 4 _)
  apply accepts_join hhyphen
  apply accepts_join hversion
  apply accepts_join (accepts_write 3 _)
  apply accepts_join hhyphen
  apply accepts_join hvariant
  apply accepts_join (accepts_write 3 _)
  apply accepts_join hhyphen
  apply accepts_join (accepts_write 4 _)
  exact accepts_join (accepts_write 4 _) (accepts_write 4 _)

/-- **What `isUUID(4)` accepts**: the texts of such UUIDs, in either case. -/
theorem uuidPattern_accepts_iff {cs : List Char} : uuidPattern.accepts cs = true ↔
    ∃ u : UUID, u.IsRandom ∧ u.toText = cs.map Char.toLower := by
  constructor
  · intro h
    obtain ⟨u, hrandom, htext, -⟩ := uuid_of_accepts (fun _ => none) h
    exact ⟨u, hrandom, htext⟩
  · rintro ⟨u, hrandom, htext⟩
    rw [← uuidPattern_invariant.accepts_map, ← htext]
    exact accepts_toText hrandom

/-! ## From the client to the payment -/

section Request

variable {router : Router} {req : Incoming} {id : String}

/-- The chain of the route. -/
theorem runAll_id (hchecks : router.validator.ChecksUuids)
    (hid : req.inputs.params.lookup "id" = some id) :
    router.validator.runAll (Route.chains .getPaymentById) req.inputs =
      (req.inputs,
        if uuidPattern.accepts id.toList then [] else [⟨"id", "id must be a valid UUID"⟩]) := by
  show ((router.validator.run _ req.inputs).1, (router.validator.run _ req.inputs).2 ++ []) = _
  rw [hchecks, hid, List.append_nil, Option.any_some]

theorem accepts_id_iff (hchecks : router.validator.ChecksUuids)
    (hid : req.inputs.params.lookup "id" = some id) :
    router.Accepts .getPaymentById req ↔ uuidPattern.accepts id.toList = true := by
  unfold Router.Accepts
  rw [runAll_id hchecks hid]
  simp

/-- The gateway asks for the text it was asked for. -/
theorem call_of_handle (hchecks : router.validator.ChecksUuids)
    (hid : req.inputs.params.lookup "id" = some id) {call : ServiceCall}
    (hcall : .callUpstream call ∈ router.handle .getPaymentById req) :
    call = .getPaymentById (some id) req.requestId := by
  rcases router.authorize_cases .getPaymentById req with
    ⟨decoded, request, -, -, hok⟩ | ⟨-, reply, herror, -⟩
  · by_cases haccepted : router.Accepts .getPaymentById req
    · have hleft : (router.leave .getPaymentById req request).inputs = req.inputs :=
        congrArg Prod.fst (runAll_id hchecks hid)
      rw [Router.handle_passed hok haccepted] at hcall
      simp only [routeHandler, Route.serviceCall, hleft, hid] at hcall
      simpa [Router.leave] using hcall
    · rw [Router.handle_invalid hok haccepted] at hcall
      simp at hcall
  · rw [Router.handle_refused herror] at hcall
    simp [refuse] at hcall

end Request

/-- A router that checks the id, and whose one token is an administrator's. -/
def checkingRouter : Router where
  verify := (lenientRouter [.str "ADMIN"]).verify
  validator := ⟨fun chain inputs =>
    match chain with
    | ⟨.params, field, [.isUUID 4, .withMessage message]⟩ =>
        (inputs,
          if (inputs.params.lookup field).any fun value => uuidPattern.accepts value.toList then []
          else [⟨field, message⟩])
    | _ => (inputs, [])⟩
  opened := false
  upstream _ := .ok .null

def upperCaseRequest : Incoming :=
  { lookupRequest with
    inputs := { lookupRequest.inputs with
      params := [("id", "3F6C9A52-1D0E-4B7A-8C55-0D9E4B1F2A63")] } }

end GlobalPayments.Gateway

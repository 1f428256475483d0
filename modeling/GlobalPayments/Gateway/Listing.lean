/-
# GlobalPayments.Gateway.Listing — the page and size of a list request, across both services.

The gateway checks page and size as texts and hands them on as JavaScript numbers; payments-service
reads each as a Java int and computes the offset of the page from them.  The gateway bounds the size on
both sides, the page only from below.

`list_served_iff` says which of the accepted requests payments-service can serve: those whose offset
fits an int.  A page that does not fit an int by itself is among the others.
-/
import GlobalPayments.Gateway.Amounts
import GlobalPayments.Payments.Pages

namespace GlobalPayments.Gateway

open Numeral Payments

/-! ## The validators -/

/-- `isInt({ min, max })`: `[-+]?[0-9]+`, and the bounds for the number JavaScript makes of the
text. -/
def isInt (min : Int) (max : Option Int) (text : String) : Bool :=
  let (negative, cs) := splitSign text.toList
  let value := Binary64.round (signed negative (Nat.ofDigitChars 10 cs 0))
  cs ≠ [] && cs.all Char.isDigit && (Binary64.finite min).le value &&
    match max with
    | none => true
    | some max => value.le (.finite max)

/-- The steps of the chains for page and size: the others check nothing. -/
def ChainStep.acceptsInt (text : String) : ChainStep → Bool
  | .isInt min max => Gateway.isInt min max text
  | _ => true

def ChainStep.isOptional : ChainStep → Bool
  | .optional => true
  | _ => false

/-- A chain for a query parameter that may be missing: `optional()` lets it, else it is read as
`''`. -/
def ValidationChain.acceptsInt (value : Option String) (chain : ValidationChain) : Bool :=
  match value with
  | none => chain.steps.any ChainStep.isOptional || chain.steps.all (ChainStep.acceptsInt "")
  | some text => chain.steps.all (ChainStep.acceptsInt text)

/-- The page and the size of a list request, as the query has them. -/
structure ListQuery where
  senderAccountId : String
  page : Option String
  size : Option String

def ListQuery.parameters (q : ListQuery) : List (String × Json) :=
  ("senderAccountId", .str q.senderAccountId) ::
    (q.page.map fun page => ("page", Json.str page)).toList ++
    (q.size.map fun size => ("size", Json.str size)).toList

/-- The list validators accept the page and the size. -/
def ListQuery.accepted (q : ListQuery) : Bool :=
  (getPaymentsChains.filter (·.field = "page")).all (ValidationChain.acceptsInt q.page) &&
    (getPaymentsChains.filter (·.field = "size")).all (ValidationChain.acceptsInt q.size)

/-! ## Upstream -/

/-- The int Spring makes of a number in the query. -/
def intParameter : Binary64 → Option Int
  | .finite x => if x.den = 1 ∧ -2 ^ 31 ≤ x.num ∧ x.num < 2 ^ 31 then some x.num else none
  | _ => none

/-- What payments-service answers a list call, where `answer` is what its query would return without
a page. -/
def listAnswer (answer : List Payment) (page size : Binary64) :
    Except JavaException PaymentPageResponse :=
  match intParameter page, intParameter size with
  | some page, some size => Payments.getPayments answer page size
  | _, _ => .error .methodArgumentTypeMismatch

/-- payments-service answers the call with a page. -/
def ServiceCall.Served (answer : List Payment) : ServiceCall → Prop
  | .getPayments _ page size _ => ∃ response, listAnswer answer page size = .ok response
  | _ => False

/-! ## The numbers -/

/-- The number a page or size is written as; the default where there is none. -/
def ListQuery.number (default : Int) : Option String → Int
  | none => default
  | some text =>
      let (negative, cs) := splitSign text.toList
      signed negative (Nat.ofDigitChars 10 cs 0)

theorem isInt_iff {min : Int} {max : Option Int} {text : String} (hmin : |min| < 2 ^ 53)
    (hmax : ∀ m ∈ max, |m| < 2 ^ 53) :
    isInt min max text = true ↔ (splitSign text.toList).2 ≠ [] ∧
      (∀ c ∈ (splitSign text.toList).2, c.isDigit = true) ∧
      min ≤ ListQuery.number 0 (some text) ∧
      ∀ m ∈ max, ListQuery.number 0 (some text) ≤ m := by
  unfold isInt ListQuery.number
  dsimp only
  rw [Bool.and_eq_true, Bool.and_eq_true, Bool.and_eq_true, List.all_eq_true, decide_eq_true_eq,
    Binary64.finite_le_round_iff hmin, and_assoc, and_assoc]
  refine and_congr_right fun _ => and_congr_right fun _ => and_congr_right fun _ => ?_
  cases max with
  | none => simp
  | some m =>
      show (Binary64.round _).le (.finite m) = true ↔ _
      rw [Binary64.round_le_finite_iff (hmax m rfl)]
      simp

/-- The digits of a text in base ten are its digits. -/
theorem foldl_places {place : Char → Nat} {cs : List Char}
    (hplace : ∀ c ∈ cs, place c = c.toNat - '0'.toNat) (n : Nat) :
    (cs.map place).foldl (fun n d => 10 * n + d) n = Nat.ofDigitChars 10 cs n := by
  induction cs generalizing n with
  | nil => rfl
  | cons c cs ih =>
      rw [List.forall_mem_cons] at hplace
      show (cs.map place).foldl _ (10 * n + place c) = _
      rw [ih hplace.2, hplace.1, Nat.ofDigitChars_cons]

theorem toNat_lt_of_isDigit {c : Char} (h : c.isDigit = true) : c.toNat - '0'.toNat < 10 := by
  rw [Char.isDigit_iff_toNat] at h
  change 48 ≤ c.toNat ∧ c.toNat ≤ 57 at h
  show c.toNat - 48 < 10
  omega

/-- `parseInt` reads a text of digits to its end. -/
theorem parseInt_of_digits {text : String} {negative : Bool} {cs : List Char}
    (hsplit : splitSign text.toList = (negative, cs)) (hne : cs ≠ [])
    (hdigits : ∀ c ∈ cs, c.isDigit = true) :
    parseInt text = .round (signed negative (Nat.ofDigitChars 10 cs 0)) := by
  have hblank : text.toList.dropWhile Json.isBlank = text.toList := by
    apply dropWhile_isBlank_of_mantissa (m := ⟨cs, []⟩)
    rw [hsplit]
    exact mantissa_whole hdigits
  have hread : ∀ place : Char → Nat, (∀ c, c.isDigit = true → place c = c.toNat - '0'.toNat) →
      (cs.map place).takeWhile (fun d => decide (d < 10)) = cs.map place ∧
        (cs.map place).foldl (fun n d => 10 * n + d) 0 = Nat.ofDigitChars 10 cs 0 := by
    intro place hplace
    refine ⟨?_, foldl_places (fun c hc => hplace c (hdigits c hc)) 0⟩
    rw [List.takeWhile_eq_self_iff]
    intro d hd
    obtain ⟨c, hc, rfl⟩ := List.mem_map.mp hd
    rw [hplace c (hdigits c hc)]
    exact decide_eq_true (toNat_lt_of_isDigit (hdigits c hc))
  -- there is no `x` among the digits: with these two simp takes the branch of base ten
  have hnotHex : ∀ rest, ¬ cs = '0' :: 'x' :: rest := by
    rintro rest rfl
    cases hdigits 'x' (by simp)
  have hnotHex' : ∀ rest, ¬ cs = '0' :: 'X' :: rest := by
    rintro rest rfl
    cases hdigits 'X' (by simp)
  have hempty : ∀ place : Char → Nat, (cs.map place).isEmpty = false := by
    intro place
    simpa using hne
  unfold parseInt
  rw [hblank]
  generalize hplace : (fun c : Char =>
      if c.isDigit = true then c.toNat - '0'.toNat
      else if 'a' ≤ c ∧ c ≤ 'f' then c.toNat - 'a'.toNat + 10
      else if 'A' ≤ c ∧ c ≤ 'F' then c.toNat - 'A'.toNat + 10 else 16) = place
  obtain ⟨hall, hfold⟩ := hread place (fun c hc => by rw [← hplace]; exact if_pos hc)
  unfold splitSign at hsplit
  generalize text.toList = l at hsplit ⊢
  split at hsplit
  · obtain ⟨rfl, rfl⟩ := Prod.mk.inj hsplit
    simp [hall, hfold, hempty, signed]
  · obtain ⟨rfl, rfl⟩ := Prod.mk.inj hsplit
    simp [hall, hfold, hempty, signed]
  · obtain ⟨rfl, rfl⟩ := Prod.mk.inj hsplit
    simp [hall, hfold, hempty, signed]

/-- A text the validator accepts is read as the number it writes. -/
theorem parseInt_of_isInt {min : Int} {max : Option Int} {text : String} (hmin : |min| < 2 ^ 53)
    (hmax : ∀ m ∈ max, |m| < 2 ^ 53) (h : isInt min max text = true) :
    parseInt text = .round (ListQuery.number 0 (some text)) := by
  obtain ⟨hne, hdigits, -⟩ := (isInt_iff hmin hmax).mp h
  exact parseInt_of_digits rfl hne hdigits

/-- Spring reads the ints, and nothing else. -/
theorem intParameter_round (n : Int) :
    intParameter (.round n) = if -2 ^ 31 ≤ n ∧ n < 2 ^ 31 then some n else none := by
  by_cases hn : |n| < 2 ^ 53
  · rw [Binary64.round_intCast hn]
    simp [intParameter]
  · have hnone : ∀ k : Int, -2 ^ 31 ≤ k → k < 2 ^ 31 → Binary64.round n ≠ .finite k := by
      intro k hlow hhigh heq
      rcases Binary64.round_far hn with ⟨-, hfar⟩ | ⟨-, hfar⟩
      · have hlt : ((k : ℚ) + 1) ≤ 2 ^ 31 := by exact_mod_cast hhigh
        have hle := (hfar (k + 1) (by linarith)).1
        rw [heq] at hle
        simp [Binary64.le, Binary64.gt] at hle
      · have hlt : -2 ^ 31 ≤ (k : ℚ) := by exact_mod_cast hlow
        have hle := (hfar (k - 1) (by linarith)).1
        rw [heq] at hle
        simp [Binary64.le, Binary64.gt] at hle
    have hrange : ¬ (-2 ^ 31 ≤ n ∧ n < 2 ^ 31) := by
      rintro ⟨hlow, hhigh⟩
      exact hn (abs_lt.mpr ⟨by omega, by omega⟩)
    rw [if_neg hrange]
    unfold intParameter
    split
    · rename_i x heq
      apply if_neg
      rintro ⟨hden, hlow, hhigh⟩
      apply hnone x.num hlow hhigh
      rw [heq, Rat.coe_int_num_of_den_eq_one hden]
    · rfl

/-! ## Accepted requests -/

/-- What the validators guarantee. -/
theorem ListQuery.accepted_iff (q : ListQuery) :
    q.accepted = true ↔ (∀ page ∈ q.page, isInt 0 none page = true) ∧
      ∀ size ∈ q.size, isInt 1 (some 100) size = true := by
  have hpage : getPaymentsChains.filter (·.field = "page") = [⟨.query, "page",
      [.optional, .isInt 0 none, .withMessage "page must be a non-negative integer"]⟩] := rfl
  have hsize : getPaymentsChains.filter (·.field = "size") = [⟨.query, "size",
      [.optional, .isInt 1 (some 100), .withMessage "size must be 1-100"]⟩] := rfl
  unfold ListQuery.accepted
  rw [hpage, hsize, Bool.and_eq_true]
  apply and_congr
  · cases q.page with
    | none => simp [ValidationChain.acceptsInt, ChainStep.isOptional]
    | some page => simp [ValidationChain.acceptsInt, ChainStep.acceptsInt]
  · cases q.size with
    | none => simp [ValidationChain.acceptsInt, ChainStep.isOptional]
    | some size => simp [ValidationChain.acceptsInt, ChainStep.acceptsInt]

/-- A parameter the validator accepts is handed on as the number it writes. -/
theorem parseIntValue_of_accepted {min default : Int} {max : Option Int} {value : Option String}
    (hmin : |min| < 2 ^ 53) (hmax : ∀ m ∈ max, |m| < 2 ^ 53) (hdefault : |default| < 2 ^ 53)
    (h : ∀ text ∈ value, isInt min max text = true) :
    parseIntValue (value.map Json.str) default = .ok (.round (ListQuery.number default value)) := by
  cases value with
  | none =>
      show Except.ok _ = Except.ok (Binary64.round default)
      rw [Binary64.round_intCast hdefault]
  | some text =>
      show Except.ok (parseInt text) = _
      rw [parseInt_of_isInt hmin hmax (h text rfl)]
      rfl

section Accepted

variable {q : ListQuery} (haccepted : q.accepted = true)

include haccepted

theorem ListQuery.page_nonneg : 0 ≤ number 0 q.page := by
  cases hq : q.page with
  | none => exact le_refl 0
  | some page =>
      have hpage := ((q.accepted_iff).mp haccepted).1 page hq
      exact ((isInt_iff (by decide) (by simp)).mp hpage).2.2.1

theorem ListQuery.size_bounds : 1 ≤ number 20 q.size ∧ number 20 q.size ≤ 100 := by
  cases hq : q.size with
  | none =>
      show (1 : Int) ≤ 20 ∧ (20 : Int) ≤ 100
      decide
  | some size =>
      have hsize := ((q.accepted_iff).mp haccepted).2 size hq
      obtain ⟨-, -, hlow, hhigh⟩ := (isInt_iff (by decide) (by simp)).mp hsize
      exact ⟨hlow, hhigh 100 rfl⟩

/-- The call the handler of an accepted list request makes. -/
theorem ListQuery.serviceCall (req : HttpRequest) (hreq : req.inputs.query = q.parameters) :
    Route.getPayments.serviceCall req = .ok (.getPayments (some (.str q.senderAccountId))
      (.round (number 0 q.page)) (.round (number 20 q.size)) req.requestId) := by
  obtain ⟨hpage, hsize⟩ := (q.accepted_iff).mp haccepted
  have hlookup : q.parameters.lookup "senderAccountId" = some (.str q.senderAccountId) ∧
      q.parameters.lookup "page" = q.page.map .str ∧
      q.parameters.lookup "size" = q.size.map .str := by
    unfold ListQuery.parameters
    cases q.page <;> cases q.size <;> exact ⟨rfl, rfl, rfl⟩
  show (parseIntValue (req.inputs.query.lookup "page") 0).bind _ = _
  rw [hreq, hlookup.1, hlookup.2.1, hlookup.2.2,
    parseIntValue_of_accepted (by decide) (by simp) (by decide) hpage]
  show (parseIntValue (q.size.map .str) 20).bind _ = _
  rw [parseIntValue_of_accepted (by decide) (by simp) (by decide) hsize]
  rfl

/-- **What payments-service answers an accepted list request.** -/
theorem listAnswer_of_accepted (answer : List Payment) :
    (∃ response,
        listAnswer answer (.round (ListQuery.number 0 q.page)) (.round (ListQuery.number 20 q.size)) =
          .ok response) ∧ ListQuery.number 0 q.page * min (ListQuery.number 20 q.size) 100 ≤ intMax ∨
      (∃ e,
        listAnswer answer (.round (ListQuery.number 0 q.page)) (.round (ListQuery.number 20 q.size)) =
          .error e ∧ e.handle.status = 500) ∧
        ¬ ListQuery.number 0 q.page * min (ListQuery.number 20 q.size) 100 ≤ intMax := by
  have hpage := ListQuery.page_nonneg haccepted
  obtain ⟨hlow, hhigh⟩ := ListQuery.size_bounds haccepted
  generalize ListQuery.number 0 q.page = page at hpage ⊢
  generalize ListQuery.number 20 q.size = size at hlow hhigh ⊢
  have hmax : (intMax : Int) = 2 ^ 31 - 1 := by decide
  have hcapped : min size 100 = size := min_eq_left hhigh
  unfold listAnswer
  rw [intParameter_round, intParameter_round, if_pos (c := -2 ^ 31 ≤ size ∧ _) (by omega), hcapped]
  by_cases hfits : page < 2 ^ 31
  · rw [if_pos (by omega)]
    show (∃ response, Payments.getPayments answer page size = _) ∧ _ ∨
      (∃ e, Payments.getPayments answer page size = _ ∧ _) ∧ _
    rw [getPayments_eq, if_neg (by omega), if_neg (by omega), hcapped]
    by_cases hoffset : page * size ≤ intMax
    · rw [if_neg (by omega)]
      exact Or.inl ⟨⟨_, rfl⟩, hoffset⟩
    · rw [if_pos (by omega)]
      exact Or.inr ⟨⟨_, rfl, rfl⟩, hoffset⟩
  · rw [if_neg (by omega)]
    have hproduct : page * 1 ≤ page * size := Int.mul_le_mul_of_nonneg_left hlow hpage
    refine Or.inr ⟨⟨.methodArgumentTypeMismatch, rfl, rfl⟩, ?_⟩
    omega

end Accepted

/-- **Which list requests payments-service can serve**, among those the gateway accepts: the offset of
the page has to fit an int. -/
theorem list_served_iff (q : ListQuery) (req : HttpRequest)
    (hreq : req.inputs.query = q.parameters) (haccepted : q.accepted = true)
    (answer : List Payment) :
    (∃ call, Route.getPayments.serviceCall req = .ok call ∧ call.Served answer) ↔
      ListQuery.number 0 q.page * min (ListQuery.number 20 q.size) 100 ≤ intMax := by
  rw [ListQuery.serviceCall haccepted req hreq]
  rcases listAnswer_of_accepted haccepted answer with ⟨⟨response, hok⟩, hfits⟩ | ⟨⟨e, herror, -⟩, hfits⟩
  · exact iff_of_true ⟨_, rfl, response, hok⟩ hfits
  · refine iff_of_false ?_ hfits
    rintro ⟨call, hcall, hserved⟩
    obtain rfl := Except.ok.inj hcall
    obtain ⟨response, hok⟩ := hserved
    rw [herror] at hok
    cases hok

/-- A list request with this query. -/
def ListQuery.request (q : ListQuery) : HttpRequest where
  headers := []
  inputs := ⟨.obj [], [], q.parameters, by simp⟩
  requestId := "req-1"

/-- The last page of twenty rows that can be asked for. -/
def lastPage : ListQuery := ⟨"a", some "107374182", none⟩

/-- Its offset is 2147483640, which fits an int, and it is served. -/
theorem list_served_last :
    lastPage.accepted = true ∧
      ListQuery.number 0 lastPage.page * min (ListQuery.number 20 lastPage.size) 100 = 2147483640 ∧
      ∃ call, Route.getPayments.serviceCall lastPage.request = .ok call ∧ call.Served [] := by
  have haccepted : lastPage.accepted = true := by decide +kernel
  have hoffset : ListQuery.number 0 lastPage.page * min (ListQuery.number 20 lastPage.size) 100 =
      2147483640 := by decide +kernel
  refine ⟨haccepted, hoffset, (list_served_iff lastPage lastPage.request rfl haccepted []).mpr ?_⟩
  rw [hoffset]
  decide

/-- A page that is no int. -/
def hugePage : ListQuery := ⟨"a", some "2147483648", some "1"⟩

/-- A page that is an int, whose offset is none. -/
def deepPage : ListQuery := ⟨"a", some "21474837", some "100"⟩

/-- The gateway accepts both and payments-service answers both with 500. -/
theorem list_not_served :
    (∀ q ∈ [hugePage, deepPage], q.accepted = true ∧
      ∃ page size e, Route.getPayments.serviceCall q.request =
          .ok (.getPayments (some (.str "a")) page size "req-1") ∧
        listAnswer [] page size = .error e ∧ e.handle.status = 500) ∧
      ¬ ∀ (q : ListQuery) (req : HttpRequest), req.inputs.query = q.parameters →
        q.accepted = true → ∀ answer : List Payment,
          ∃ call, Route.getPayments.serviceCall req = .ok call ∧ call.Served answer := by
  have hhuge : hugePage.accepted = true := by decide +kernel
  have hdeep : deepPage.accepted = true := by decide +kernel
  have hfailed : ∀ q : ListQuery, q.accepted = true →
      ¬ ListQuery.number 0 q.page * min (ListQuery.number 20 q.size) 100 ≤ intMax →
      ∃ page size e, Route.getPayments.serviceCall q.request =
          .ok (.getPayments (some (.str q.senderAccountId)) page size "req-1") ∧
        listAnswer [] page size = .error e ∧ e.handle.status = 500 := by
    intro q haccepted hfits
    rcases listAnswer_of_accepted haccepted [] with ⟨-, h⟩ | ⟨⟨e, herror, hstatus⟩, -⟩
    · exact absurd h hfits
    · exact ⟨_, _, e, ListQuery.serviceCall haccepted q.request rfl, herror, hstatus⟩
  have hhugeFailed := hfailed hugePage hhuge (by decide +kernel)
  refine ⟨?_, fun hall => ?_⟩
  · intro q hq
    rw [List.mem_cons, List.mem_singleton] at hq
    rcases hq with rfl | rfl
    · exact ⟨hhuge, hhugeFailed⟩
    · exact ⟨hdeep, hfailed deepPage hdeep (by decide +kernel)⟩
  · obtain ⟨page, size, e, hcall, herror, -⟩ := hhugeFailed
    obtain ⟨call, hsame, hserved⟩ := hall hugePage hugePage.request rfl hhuge []
    rw [hcall] at hsame
    obtain rfl := Except.ok.inj hsame
    obtain ⟨response, hok⟩ := hserved
    rw [herror] at hok
    cases hok

end GlobalPayments.Gateway

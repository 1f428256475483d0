/-
# GlobalPayments.Gateway.NumberAmounts — an amount that the client sends as a JSON number.

Such an amount does not stay text: `express.json()` makes a double of the literal, express-validator
reads the text of that double, axios writes it into the body for payments-service, and `JSON.parse`
and `res.json` make a double and a text again of the amount that payments-service answers with.

`number_amount_survives`: which literals the gateway accepts, what payments-service reads from them, and
that the amount of every later answer about the payment is shown as the text that was validated.
-/
import GlobalPayments.Gateway.Amounts
import GlobalPayments.Library.NumberText
import GlobalPayments.Payments.Lookups
import GlobalPayments.Payments.Writes

namespace GlobalPayments.Gateway

open Numeral Binary64

/-! ## Numbers in a body -/

/-- `JSON.parse` of a number literal, read as the decimal `literal`. -/
def parseNumber (literal : BigDecimal) : Binary64 := .round literal.value

/-- `JSON.stringify` of a number; there are no literals for the others. -/
def stringify : Binary64 → String
  | .finite q => toText (.finite q)
  | _ => "null"

example : stringify (parseNumber ⟨10010, 2⟩) = "100.1" := by decide +kernel

/-! ## Which numbers are accepted -/

/-- There is no letter in a decimal. -/
theorem letter_not_mem {cs : List Char} {m : Mantissa} (h : mantissa cs = (m, [])) :
    ∀ c ∈ cs, c.isDigit = true ∨ c = '.' := by
  have hparts := List.takeWhile_append_dropWhile (p := Char.isDigit) (l := cs)
  unfold mantissa at h
  split at h
  · rename_i rest heq
    have hrest : ∀ c ∈ rest, c.isDigit = true := List.dropWhile_eq_nil_iff.mp (Prod.mk.inj h).2
    rw [← hparts, heq]
    intro c hc
    rcases List.mem_append.mp hc with hwhole | hfraction
    · exact Or.inl (List.mem_takeWhile_imp hwhole)
    · rcases List.mem_cons.mp hfraction with rfl | hdigit
      · exact Or.inr rfl
      · exact Or.inl (hrest c hdigit)
  · have hnil : cs.dropWhile Char.isDigit = [] := (Prod.mk.inj h).2
    exact fun c hc => Or.inl (List.dropWhile_eq_nil_iff.mp hnil c hc)

/-- A number written with an exponent is no decimal. -/
theorem isDecimal_scientific (negative : Bool) (ds : List Char) (adjusted : Int) :
    isDecimal (String.ofList
      (if negative then '-' :: scientific 'e' ds adjusted else scientific 'e' ds adjusted)) = false := by
  by_contra h
  rw [Bool.not_eq_false] at h
  obtain ⟨m, hm, -⟩ := mantissa_of_isDecimal h
  have hletter := letter_not_mem hm 'e'
  rw [String.toList_ofList] at hletter
  have hmem : 'e' ∈ (splitSign
      (if negative then '-' :: scientific 'e' ds adjusted else scientific 'e' ds adjusted)).2 := by
    have htext : 'e' ∈ scientific 'e' ds adjusted := by
      unfold scientific
      exact List.mem_append_right _ List.mem_cons_self
    generalize scientific 'e' ds adjusted = text at htext
    cases negative with
    | true => exact htext
    | false =>
        show 'e' ∈ (splitSign text).2
        unfold splitSign
        split
        · rcases List.mem_cons.mp htext with h | hrest
          · exact absurd h (by decide)
          · exact hrest
        · rcases List.mem_cons.mp htext with h | hrest
          · exact absurd h (by decide)
          · exact hrest
        · exact htext
  rcases hletter hmem with hdigit | hpoint
  · exact absurd hdigit (by decide)
  · exact absurd hpoint (by decide)

/-- A number written plainly with at most two places is a decimal. -/
theorem isDecimal_plain {ds : List Char} (hds : ∀ c ∈ ds, c.isDigit = true) (hne : ds ≠ [])
    {point : Int} (hplaces : ds.length - point ≤ 2) :
    isDecimal (String.ofList (plain ds point)) = true := by
  obtain ⟨whole, fraction, hparts⟩ := plain_parts hds hne point
  obtain ⟨c, cs, hcons⟩ := List.exists_cons_of_ne_nil hparts.nonempty
  have hdigit := hparts.wholeDigits c (hcons ▸ List.mem_cons_self)
  have hlength := hparts.length_fraction
  have hnone : ¬ (String.ofList (plain ds point) = "" ∨ String.ofList (plain ds point) = "-" ∨
      String.ofList (plain ds point) = "+") := by
    rw [hparts.text_eq, hcons, List.cons_append, ← String.toList_inj, ← String.toList_inj,
      ← String.toList_inj, String.toList_ofList]
    rintro (h | h | h)
    · cases h
    · rw [(List.cons.inj h).1] at hdigit
      cases hdigit
    · rw [(List.cons.inj h).1] at hdigit
      cases hdigit
  unfold isDecimal
  rw [if_neg hnone, String.toList_ofList, hparts.splitSign]
  dsimp only
  rw [hparts.text_eq, List.dropWhile_append_of_pos hparts.wholeDigits]
  by_cases hnil : fraction = []
  · rw [hnil]
    rfl
  · rw [PyDecimal.pointed_of_ne_nil hnil, List.dropWhile_cons_of_neg (by decide)]
    have hpositive := List.length_pos_iff.mpr hnil
    show (fraction.all Char.isDigit &&
      (decide (fraction.length = 1) || decide (fraction.length = 2))) = true
    rw [Bool.and_eq_true, List.all_eq_true, Bool.or_eq_true, decide_eq_true_eq, decide_eq_true_eq]
    exact ⟨hparts.fractionDigits, by omega⟩

/-- The text of the double nearest to a number of hundredths is read as that number. -/
theorem ofString_hundredths {n : Nat} (hn : 1 ≤ n) (hmost : n ≤ 10 ^ 8) :
    ∃ q d, Binary64.round ((n : ℚ) / 100) = .finite q ∧ 0 < q ∧ q ≤ 1000000 ∧
      isDecimal (toText (.finite q)) = true ∧ BigDecimal.ofString (toText (.finite q)) = some d ∧
      0 ≤ d.scale ∧ d.scale ≤ 2 ∧ d.value = n / 100 := by
  have hle : (n : ℚ) / 100 ≤ ((1000000 : Int) : ℚ) := by
    have hcast : (n : ℚ) ≤ 10 ^ 8 := by exact_mod_cast hmost
    push_cast
    linarith
  have hrange : (n : ℚ) / 100 < 2 ^ 46 := hle.trans_lt (by norm_num)
  obtain ⟨q, hq, -, hbound⟩ := round_between (by decide) (by positivity) hle
  obtain ⟨htext, hne, hplaces, hvalue⟩ := toText_hundredths hn hrange hq
  have hread := BigDecimal.ofString_plain isDigit_textDigits hne (textPoint q) false
  simp only [Bool.false_eq_true, if_false] at hread
  refine ⟨q, _, hq, ?_, by exact_mod_cast hbound, ?_, by rw [htext, hread], Int.natCast_nonneg _, ?_,
    ?_⟩
  · exact lt_of_lt_of_le (by norm_num) (hundredth_le_of_round hn hrange hq)
  · rw [htext]
    exact isDecimal_plain isDigit_textDigits hne hplaces
  · show (((textDigits q).length - textPoint q).toNat : Int) ≤ 2
    omega
  · have hplain := BigDecimal.value_plain false (Nat.ofDigitChars 10 (textDigits q) 0)
      (textPoint q - (textDigits q).length)
    rw [neg_sub] at hplain
    rw [hplain, ← hvalue]
    rfl

/-- An accepted amount is a positive number of hundredths up to the limit. -/
theorem hundredths_of_accepted {text : String} (h : amountAccepted text = true) :
    ∃ (d : BigDecimal) (n : Nat), BigDecimal.ofString text = some d ∧ 1 ≤ n ∧ n ≤ 10 ^ 8 ∧
      d.value = n / 100 := by
  obtain ⟨hdecimal, habove, hatMost⟩ := (amountAccepted_iff text).mp h
  obtain ⟨d, hd, -, htwo, hparse⟩ := readers_agree hdecimal
  obtain ⟨n, hn⟩ := Payments.exists_hundredths htwo
  have hvalue : d.value = n / 100 := by
    rw [← hn, mul_div_cancel_right₀ _ (by norm_num)]
  rw [hparse, hvalue] at habove hatMost
  have hone := round_hundredths_gt_zero habove
  have hmost : (n : ℚ) / 100 ≤ (1000000 : Int) :=
    round_hundredths_le (by norm_num) (by exact_mod_cast hatMost)
  have hle : n ≤ 10 ^ 8 := by
    have hcast : (n : ℚ) ≤ 10 ^ 8 := by
      push_cast at hmost
      linarith
    exact_mod_cast hcast
  have hcast : ((n.toNat : Nat) : ℚ) = n := by
    exact_mod_cast Int.toNat_of_nonneg (by omega : 0 ≤ n)
  exact ⟨d, n.toNat, hd, by omega, by omega, by rw [hvalue, hcast]⟩

/-- What is accepted was written plainly, with digits. -/
theorem plain_of_accepted {q : ℚ} (hq : q ≠ 0) (h : amountAccepted (toText (.finite q)) = true) :
    textDigits q ≠ [] ∧ toText (.finite q) = String.ofList
      (if decide (q < 0) then '-' :: plain (textDigits q) (textPoint q)
        else plain (textDigits q) (textPoint q)) := by
  rw [toText_finite hq] at h ⊢
  by_cases hplain : -6 < textPoint q ∧ textPoint q ≤ 21
  · rw [if_pos hplain] at h ⊢
    refine ⟨fun hnil => ?_, by simp only [decide_eq_true_eq]⟩
    rw [plain_nothing hq hnil] at h
    split at h
    · exact absurd h (by decide +kernel)
    · exact absurd h (by decide +kernel)
  · rw [if_neg hplain] at h
    have hdecimal := ((amountAccepted_iff _).mp h).1
    have hscientific := isDecimal_scientific (decide (q < 0)) (textDigits q) (textPoint q - 1)
    simp only [decide_eq_true_eq] at hscientific
    rw [hscientific] at hdecimal
    cases hdecimal

/-- **Which doubles the gateway accepts**: those nearest to a positive number of hundredths up to the
limit. -/
theorem amountAccepted_toText_iff (x : Binary64) : amountAccepted x.toText = true ↔
    ∃ n : Nat, 1 ≤ n ∧ n ≤ 10 ^ 8 ∧ Binary64.round ((n : ℚ) / 100) = x := by
  constructor
  · intro h
    cases x with
    | nan => exact absurd h (by decide +kernel)
    | infinity negative => cases negative <;> exact absurd h (by decide +kernel)
    | finite q =>
        by_cases hq : q = 0
        · subst hq
          exact absurd h (by decide +kernel)
        · obtain ⟨hne, htext⟩ := plain_of_accepted hq h
          obtain ⟨d, n, hd, hn, hmost, hvalue⟩ := hundredths_of_accepted h
          have hread := BigDecimal.ofString_plain isDigit_textDigits hne (textPoint q)
            (decide (q < 0))
          have hplain := BigDecimal.value_plain (decide (q < 0))
            (Nat.ofDigitChars 10 (textDigits q) 0) (textPoint q - (textDigits q).length)
          rw [neg_sub] at hplain
          rw [htext, hread] at hd
          obtain rfl := Option.some.inj hd
          rw [hplain] at hvalue
          have hround := round_textDigits hne
          have hpositive : (0 : ℚ) < n / 100 := by
            have hcast : (1 : ℚ) ≤ n := by exact_mod_cast hn
            linarith
          -- a minus sign would make the accepted number negative
          have hsign : ¬ q < 0 := by
            intro hnegative
            rw [decide_eq_true hnegative] at hvalue
            rw [← hvalue] at hpositive
            have hminus : ((signed true (Nat.ofDigitChars 10 (textDigits q) 0) : Int) : ℚ) ≤ 0 := by
              simp [signed]
            exact absurd hpositive (not_lt.mpr (mul_nonpos_of_nonpos_of_nonneg hminus (by positivity)))
          rw [decide_eq_false hsign] at hvalue
          refine ⟨n, hn, hmost, ?_⟩
          rw [abs_of_nonneg (not_lt.mp hsign)] at hround
          rw [← hvalue, ← hround]
          rfl
  · rintro ⟨n, hn, hmost, rfl⟩
    obtain ⟨q, d, hq, hpositive, hle, hdecimal, hd, -, -, hvalue⟩ := ofString_hundredths hn hmost
    obtain ⟨d', hd', -, -, hparse⟩ := readers_agree hdecimal
    obtain rfl := Option.some.inj (hd.symm.trans hd')
    rw [hvalue, hq] at hparse
    rw [hq, amountAccepted_iff, hparse]
    refine ⟨hdecimal, decide_eq_true hpositive, ?_⟩
    show (!decide (1000000 < q)) = true
    rw [decide_eq_false (not_lt.mpr hle)]
    rfl

/-! ## The amount on its way back -/

open Payments in
/-- A number of hundredths in range is admitted by payments-service. -/
theorem amountAdmitted_hundredths {d : BigDecimal} {n : Nat} (hscale : 0 ≤ d.scale)
    (htwo : d.scale ≤ 2) (hn : 1 ≤ n) (hmost : n ≤ 10 ^ 8) (hvalue : d.value = n / 100) :
    amountAdmitted d = true := by
  have hleast : (1 : ℚ) ≤ n := by exact_mod_cast hn
  have hcast : (n : ℚ) ≤ 10 ^ 8 := by exact_mod_cast hmost
  have hmin : 1 / 100 ≤ d.value := by
    rw [hvalue]
    linarith
  have hmax : d.value ≤ 1000000 := by
    rw [hvalue]
    linarith
  unfold amountAdmitted decimalMin decimalMax
  rw [Bool.and_eq_true, Bool.and_eq_true, decide_eq_true_eq, decide_eq_true_eq]
  exact ⟨⟨hmin, hmax⟩, digits_of_bounds hscale htwo (by linarith) hmax⟩

/-- What the client is shown of an amount that payments-service answers with: its text, read as a
double and written again. -/
def shownAmount (amount : BigDecimal) : Option String :=
  (BigDecimal.ofString amount.toText).map fun literal => stringify (parseNumber literal)

/-- Only the number counts, not the zeros that it is written with. -/
theorem shownAmount_eq (amount : BigDecimal) :
    shownAmount amount = some (stringify (.round amount.value)) := by
  unfold shownAmount
  rw [BigDecimal.ofString_toText, Option.map_some]
  rfl

section Stored

open Payments Runs

variable {rows : List Payment} {trace : List Payments.Action} {s : Sys}

/-- A payment that was created with an amount is found with that amount, whatever happened since. -/
theorem getPaymentById_created (hrows : ValidRows rows)
    (hrun : run Payments.step (Sys.start rows) trace = some s) {x : Versioned.Write TxId Payment}
    (hx : x ∈ s.db.log) {request : CreatePaymentRequest}
    (hcall : s.callOf x = some (.createPayment request)) :
    ∃ response, getPaymentById s.db.table x.row.id = .ok response ∧
      response.amount.value = request.amount.value := by
  have hexplained := (Sys.Explained.start hrows).run hrun
  have hsound := hexplained.sound
  obtain ⟨q, hq, hid, hreach⟩ := hsound.db.consistent.stored_of_log hx
  have hterms := SameTerms.of_reflTransGen hreach
  refine ⟨toResponse q, ?_, ?_⟩
  · rw [← hterms.id]
    exact getPaymentById_of_mem hsound hq
  · show q.getAmountAsDecimal.value = request.amount.value
    rw [Payment.getAmountAsDecimal, hterms.amountMinorUnits, hterms.currency]
    rcases hexplained.log x hx with ⟨-, hstart⟩ | ⟨t, hwritten⟩
    · rw [hstart] at hcall
      cases hcall
    · rw [Sys.callOf, hwritten.writer, Option.bind_some] at hcall
      rw [hcall] at hwritten
      cases hwritten with
      | created hprepared =>
          obtain ⟨m, hm, rfl, -⟩ := preparePayment_ok hprepared
          exact value_amountAsDecimal_toMinorUnits hm

/-- **A number survives the gateway.**  A literal is accepted when a positive number of hundredths
up to the limit is nearest to it among the doubles' numbers; payments-service then reads that number
of hundredths and admits it, and whenever a payment created with it is looked up, in any run, the
client is shown the amount in the text that was validated. -/
theorem number_amount_survives (literal : BigDecimal) :
    (amountAccepted (parseNumber literal).toText = true ↔
        ∃ n : Nat, 1 ≤ n ∧ n ≤ 10 ^ 8 ∧ Binary64.round ((n : ℚ) / 100) = parseNumber literal) ∧
      ∀ n : Nat, 1 ≤ n → n ≤ 10 ^ 8 → Binary64.round ((n : ℚ) / 100) = parseNumber literal →
        ∃ amount, BigDecimal.ofString (stringify (parseNumber literal)) = some amount ∧
          amount.value = n / 100 ∧ amountAdmitted amount = true ∧
          ∀ (rows : List Payment) (trace : List Payments.Action) (s : Sys), ValidRows rows →
            run Payments.step (Sys.start rows) trace = some s →
            ∀ x ∈ s.db.log, ∀ request, s.callOf x = some (.createPayment request) →
              request.amount = amount →
              ∃ response, getPaymentById s.db.table x.row.id = .ok response ∧
                shownAmount response.amount = some (parseNumber literal).toText := by
  refine ⟨amountAccepted_toText_iff _, fun n hn hmost hnearest => ?_⟩
  obtain ⟨q, amount, hq, -, -, -, hread, hscale, htwo, hvalue⟩ := ofString_hundredths hn hmost
  rw [hq] at hnearest
  rw [← hnearest]
  refine ⟨amount, hread, hvalue, amountAdmitted_hundredths hscale htwo hn hmost hvalue, ?_⟩
  rintro rows trace s hrows hrun x hx request hcall rfl
  obtain ⟨response, hfound, hsame⟩ := getPaymentById_created hrows hrun hx hcall
  refine ⟨response, hfound, ?_⟩
  rw [shownAmount_eq, hsame, hvalue, hq]
  rfl

/-- A request for one hundred and a tenth, completed after it was created. -/
def tenthRequest : CreatePaymentRequest := { sampleRequest none with amount := ⟨1001, 1⟩ }

def completedTenth : List Payments.Action :=
  [.createPayment 0 0 tenthRequest, .persistAndPublish 0 (sampleSurroundings 7) true, .commit 0 1,
    .updateStatus 1 1 7 ⟨.COMPLETED, none, none⟩, .applyAndPublish 1 2 true, .commit 1 2]

/-- The literal 100.10 is validated, stored and shown as 100.1. -/
theorem number_amount_survives_tenth :
    amountAccepted (parseNumber ⟨10010, 2⟩).toText = true ∧
      ∃ s response, run Payments.step (Sys.start []) completedTenth = some s ∧
        getPaymentById s.db.table 7 = .ok response ∧ shownAmount response.amount = some "100.1" := by
  have hnearest : Binary64.round ((10010 : Nat) / 100) = parseNumber ⟨10010, 2⟩ := by decide +kernel
  obtain ⟨haccepted, hread⟩ := number_amount_survives ⟨10010, 2⟩
  refine ⟨haccepted.mpr ⟨10010, by decide, by decide, hnearest⟩, ?_⟩
  obtain ⟨amount, hamount, -, -, hshown⟩ := hread 10010 (by decide) (by decide) hnearest
  obtain ⟨s, hrun, hlog⟩ := Option.map_eq_some_iff.mp
    (show (run Payments.step (Sys.start []) completedTenth).map
        (fun s => s.db.log.head?.map fun x => (x.row.id, s.callOf x)) =
      some (some (7, some (.createPayment tenthRequest))) by decide +kernel)
  obtain ⟨x, hx, hfirst⟩ := Option.map_eq_some_iff.mp hlog
  obtain ⟨hid, hcall⟩ := Prod.mk.inj hfirst
  have htenth : BigDecimal.ofString (stringify (parseNumber ⟨10010, 2⟩)) = some ⟨1001, 1⟩ := by
    decide +kernel
  obtain ⟨response, hfound, htext⟩ := hshown [] completedTenth s .empty hrun x
    (List.mem_of_mem_head? hx) tenthRequest hcall (Option.some.inj (htenth.symm.trans hamount))
  have hwritten : (parseNumber ⟨10010, 2⟩).toText = "100.1" := by decide +kernel
  rw [hid] at hfound
  rw [hwritten] at htext
  exact ⟨s, response, hrun, hfound, htext⟩

end Stored

end GlobalPayments.Gateway

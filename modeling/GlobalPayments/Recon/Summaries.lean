/-
# GlobalPayments.Recon.Summaries — the summary of a date range.

`summary` adds up the figures of the COMPLETED run rows of at most 90 days.  The rows tally with the
records stored under their ids (`Sys.Tallied`), and no record belongs to two of them, so the
totals count the stored records of the range, each of them once.
-/
import GlobalPayments.Library.Rounding
import GlobalPayments.Recon.Listing
import GlobalPayments.Recon.Reports

namespace GlobalPayments.Recon

open Runs

/-! ## The endpoint -/

/-- The answer for a range with a COMPLETED run. -/
structure SummaryReport where
  fromDate : Day
  toDate : Day
  totalRuns : Nat
  totalRecords : Nat
  totalMatched : Nat
  totalUnmatched : Nat
  totalExceptions : Nat
  avgMatchRatePct : Binary64
  totalAmountGbp : String
  deriving DecidableEq

inductive SummaryReply where
  /-- Zeros only, with `avg_match_rate` for the rate and no amount. -/
  | noRuns (fromDate toDate : Day)
  | report (r : SummaryReport)
  deriving DecidableEq

/-- `date.fromisoformat(text) if text else default`; `none` is its `ValueError`. -/
def dateOr (fromisoformat : String → Option Day) (param : Option String) (default : Day) : Option Day :=
  match param with
  | none => some default
  | some text => if text = "" then some default else fromisoformat text

/-- The filters of the query. -/
def ReconciliationRun.within (fromDate toDate : Day) (r : ReconciliationRun) : Bool :=
  fromDate ≤ r.runDate && r.runDate ≤ toDate && r.status = .COMPLETED

/-- `round(part / total * 100, 2) if total else 0`. -/
def percentage (part total : Nat) : Binary64 :=
  if total = 0 then .finite 0
  else
    match Binary64.round (part / total) with
    | .finite ratio =>
        match Binary64.round (ratio * 100) with
        | .finite percent => .round (Binary64.roundHalfEven (percent * 100) / 100)
        | x => x
    | x => x

/-- `r.total_amount_gbp`. -/
def ReconciliationRun.storedAmount (r : ReconciliationRun) : Option PyDecimal :=
  numericColumn (.float r.totalAmountGbp)

/-- `str(sum(r.total_amount_gbp for r in runs if r.total_amount_gbp))`; `none` is an exception. -/
def amountText (runs : List ReconciliationRun) : Option String :=
  let amounts := (runs.filterMap ReconciliationRun.storedAmount).filter fun d => d.value ≠ some 0
  (PyDecimal.sum amounts).map PyDecimal.toText

section Endpoint

variable (fromisoformat : String → Option Day) (today : Day)
variable (arrange : List ReconciliationRun → List ReconciliationRun)

/-- `summary`; `none` is an exception that nobody catches.  `arrange` is the order in which the
database returns the rows. -/
def summary (db : ReportingDb) (fromParam toParam : Option String) :
    Option (Except ErrorReply SummaryReply) := do
  let toDate ← dateOr fromisoformat toParam today
  let fromDate ← dateOr fromisoformat fromParam (toDate - 30)
  if 90 < toDate - fromDate then
    some (.error ⟨400, "VALIDATION_ERROR", "Date range cannot exceed 90 days"⟩)
  else
    let runs := arrange (db.runs.filter (ReconciliationRun.within fromDate toDate))
    if runs = [] then some (.ok (.noRuns fromDate toDate))
    else do
      let totalRecords := (runs.map ReconciliationRun.totalRecords).sum
      let totalMatched := (runs.map ReconciliationRun.matchedCount).sum
      let totalAmountGbp ← amountText runs
      some (.ok (.report
        { fromDate := fromDate
          toDate := toDate
          totalRuns := runs.length
          totalRecords := totalRecords
          totalMatched := totalMatched
          totalUnmatched := (runs.map ReconciliationRun.unmatchedCount).sum
          totalExceptions := (runs.map ReconciliationRun.exceptionCount).sum
          avgMatchRatePct := percentage totalMatched totalRecords
          totalAmountGbp := totalAmountGbp }))

end Endpoint

/-! ## The figures -/

/-- **A rate is between 0 and 100**, whatever is rounded on the way. -/
theorem percentage_between {part total : Nat} (h : part ≤ total) :
    ∃ x, percentage part total = .finite x ∧ 0 ≤ x ∧ x ≤ 100 := by
  by_cases hzero : total = 0
  · exact ⟨0, if_pos hzero, le_refl 0, by norm_num⟩
  · have htotal : (0 : ℚ) < total := by exact_mod_cast Nat.pos_of_ne_zero hzero
    have hle : (part : ℚ) / total ≤ (1 : Int) := by
      rw [Int.cast_one, div_le_one htotal]
      exact_mod_cast h
    obtain ⟨ratio, hratio, hlow, hhigh⟩ :=
      Binary64.round_between (by norm_num) (div_nonneg (Nat.cast_nonneg part) htotal.le) hle
    obtain ⟨percent, hpercent, hlow', hhigh'⟩ :=
      Binary64.round_between (n := 100) (q := ratio * 100) (by norm_num) (by positivity) (by
        push_cast at hhigh ⊢
        linarith)
    -- the hundredths are those of a number between 0 and 100 as well
    have hcents : (0 : Int) ≤ Binary64.roundHalfEven (percent * 100) :=
      Binary64.le_roundHalfEven (by push_cast; positivity)
    have hcents' : Binary64.roundHalfEven (percent * 100) ≤ (10000 : Int) := by
      apply Binary64.roundHalfEven_le
      push_cast at hhigh' ⊢
      linarith
    have hcast : (0 : ℚ) ≤ Binary64.roundHalfEven (percent * 100) := by exact_mod_cast hcents
    have hcast' : (Binary64.roundHalfEven (percent * 100) : ℚ) ≤ 10000 := by exact_mod_cast hcents'
    obtain ⟨x, hx, hbelow, habove⟩ :=
      Binary64.round_between (n := 100) (q := Binary64.roundHalfEven (percent * 100) / 100)
        (by norm_num) (by positivity) (by
          push_cast
          linarith)
    refine ⟨x, ?_, hbelow, by exact_mod_cast habove⟩
    unfold percentage
    rw [if_neg hzero, hratio]
    dsimp only
    rw [hpercent]
    exact hx

section Fibres

variable {α κ : Type*} [DecidableEq κ]

/-- Counting under each of some distinct keys counts everything under one of them. -/
theorem sum_countP_keys {ids : List κ} (hnodup : ids.Nodup) (f : α → κ) (p : α → Bool) (l : List α) :
    (ids.map fun i => (l.filter fun x => f x = i).countP p).sum =
      l.countP fun x => p x && f x ∈ ids := by
  induction ids with
  | nil => simp
  | cons i ids ih =>
      obtain ⟨hnew, hrest⟩ := List.nodup_cons.mp hnodup
      rw [List.map_cons, List.sum_cons, ih hrest]
      clear ih
      induction l with
      | nil => rfl
      | cons x l ih =>
          rw [List.countP_cons, List.countP_cons, ← ih, List.filter_cons]
          by_cases hx : f x = i
          · rw [if_pos (decide_eq_true hx), List.countP_cons]
            have hfirst : f x ∉ ids := hx ▸ hnew
            simp [hx, hnew]
            omega
          · simp [hx]
            omega

end Fibres

/-! ## What is added up -/

/-- The record belongs to a run that the range covers. -/
def ReportingDb.covers (db : ReportingDb) (fromDate toDate : Day) (record : ReconciliationRecord) :
    Bool :=
  match db.findRun record.reconciliationRunId with
  | some run => run.within fromDate toDate
  | none => false

/-- The run rows of the range. -/
def ReportingDb.runsWithin (db : ReportingDb) (fromDate toDate : Day) : List ReconciliationRun :=
  db.runs.filter (ReconciliationRun.within fromDate toDate)

section Database

variable {db : ReportingDb} (hunique : (db.runs.map ReconciliationRun.id).Nodup)

include hunique

theorem covers_iff (fromDate toDate : Day) (record : ReconciliationRecord) :
    db.covers fromDate toDate record = true ↔
      record.reconciliationRunId ∈ (db.runsWithin fromDate toDate).map ReconciliationRun.id := by
  unfold ReportingDb.covers ReportingDb.runsWithin
  rw [List.mem_map]
  constructor
  · intro h
    split at h
    · rename_i run hrun
      exact ⟨run, List.mem_filter.mpr ⟨List.mem_of_find?_eq_some hrun, h⟩,
        by simpa using List.find?_some hrun⟩
    · cases h
  · rintro ⟨run, hrun, hid⟩
    obtain ⟨hmem, hwithin⟩ := List.mem_filter.mp hrun
    have hfind : db.findRun record.reconciliationRunId = some run := by
      rw [← hid]
      exact (Versioned.mem_iff_find_key hunique).mp hmem
    rw [hfind]
    exact hwithin

/-- **A total counts the covered records.** -/
theorem sum_figures {fromDate toDate : Day} {p : ReconciliationRecord → Bool}
    {figure : ReconciliationRun → Nat}
    (hfigure : ∀ run ∈ db.runsWithin fromDate toDate, figure run = (db.recordsOf run.id).countP p) :
    ((db.runsWithin fromDate toDate).map figure).sum =
      db.records.countP fun r => p r && db.covers fromDate toDate r := by
  have hids : ((db.runsWithin fromDate toDate).map ReconciliationRun.id).Nodup :=
    hunique.sublist (List.filter_sublist.map _)
  have hcounts := sum_countP_keys hids ReconciliationRecord.reconciliationRunId p db.records
  rw [List.map_map] at hcounts
  rw [List.map_congr_left hfigure]
  refine hcounts.trans (List.countP_congr fun r _ => ?_)
  rw [Bool.and_eq_true, Bool.and_eq_true, covers_iff hunique, decide_eq_true_eq]

end Database

/-- Distinct numbers of a range are no more than the range has. -/
theorem length_le_of_range {days : List Int} {first last : Int} (hnodup : days.Nodup)
    (hwithin : ∀ d ∈ days, first ≤ d ∧ d ≤ last) : days.length ≤ (last - first + 1).toNat := by
  have hsubset : days ⊆ (List.range (last - first + 1).toNat).map fun i : Nat => first + (i : Int) := by
    intro d hd
    obtain ⟨hlow, hhigh⟩ := hwithin d hd
    exact List.mem_map.mpr ⟨(d - first).toNat, List.mem_range.mpr (by omega), by omega⟩
  have hle := (List.subperm_of_subset hnodup hsubset).length_le
  rwa [List.length_map, List.length_range] at hle

/-- **What the totals of a report are**: the counts of the stored records of the COMPLETED runs in its
range. -/
structure SummaryReport.AddsUp (db : ReportingDb) (r : SummaryReport) : Prop where
  runs : r.totalRuns = (db.runsWithin r.fromDate r.toDate).length ∧ 0 < r.totalRuns ∧ r.totalRuns ≤ 91
  records : r.totalRecords = db.records.countP (db.covers r.fromDate r.toDate)
  matched : r.totalMatched =
    db.records.countP fun x => x.status = .MATCHED && db.covers r.fromDate r.toDate x
  unmatched : r.totalUnmatched =
    db.records.countP fun x => x.status = .UNMATCHED && db.covers r.fromDate r.toDate x
  exceptions : r.totalExceptions =
    db.records.countP fun x => x.status = .EXCEPTION && db.covers r.fromDate r.toDate x
  sum : r.totalMatched + r.totalUnmatched + r.totalExceptions = r.totalRecords
  rate : ∃ x, r.avgMatchRatePct = .finite x ∧ 0 ≤ x ∧ x ≤ 100
  /-- where the amounts of the runs are numbers, the amount is their sum -/
  amount : ∀ amounts, List.Forall₂ (fun run x => run.storedAmount.bind PyDecimal.value = some x)
    (db.runsWithin r.fromDate r.toDate) amounts →
      ∃ d : PyDecimal, r.totalAmountGbp = d.toText ∧ d.value = some amounts.sum

/-- What a reply says of the database. -/
def SummaryReply.AddsUp (db : ReportingDb) : SummaryReply → Prop
  | .noRuns fromDate toDate => db.runsWithin fromDate toDate = [] ∧
      ∀ record ∈ db.records, db.covers fromDate toDate record = false
  | .report r => r.AddsUp db

/-- The zeros that the sum leaves out do not count. -/
theorem amountText_value {runs : List ReconciliationRun} {amounts : List ℚ} {text : String}
    (h : List.Forall₂ (fun run x => run.storedAmount.bind PyDecimal.value = some x) runs amounts)
    (htext : amountText runs = some text) :
    ∃ d : PyDecimal, text = d.toText ∧ d.value = some amounts.sum := by
  have hsum : ∃ xs, List.Forall₂ (fun d x => PyDecimal.value d = some x)
      ((runs.filterMap ReconciliationRun.storedAmount).filter fun d => d.value ≠ some 0) xs ∧
        xs.sum = amounts.sum := by
    clear htext
    induction h with
    | nil => exact ⟨[], .nil, rfl⟩
    | @cons run x runs amounts hrun _ ih =>
        obtain ⟨xs, hxs, hsum⟩ := ih
        obtain ⟨d, hd, hvalue⟩ := Option.bind_eq_some_iff.mp hrun
        rw [List.filterMap_cons_some hd, List.filter_cons, List.sum_cons]
        by_cases hzero : x = 0
        · rw [if_neg (by simp [hvalue, hzero]), hzero, zero_add]
          exact ⟨xs, hxs, hsum⟩
        · rw [if_pos (by simp [hvalue, hzero])]
          exact ⟨x :: xs, .cons hvalue hxs, by rw [List.sum_cons, hsum]⟩
  obtain ⟨xs, hxs, hsum⟩ := hsum
  obtain ⟨d, hd, hvalue⟩ := PyDecimal.value_sum hxs
  unfold amountText at htext
  dsimp only at htext
  rw [hd, Option.map_some] at htext
  exact ⟨d, (Option.some.inj htext).symm, by rw [hvalue, hsum]⟩

/-- The report of some COMPLETED runs, in whatever order they come. -/
theorem addsUp_of_perm {s : Sys} (hs : s.Dated) (htallied : s.db.Tallied) {fromDate toDate : Day}
    {runs : List ReconciliationRun} (hperm : runs.Perm (s.db.runsWithin fromDate toDate))
    (hrange : toDate - fromDate ≤ 90) (hruns : runs ≠ []) {text : String}
    (htext : amountText runs = some text) :
    (SummaryReport.mk fromDate toDate runs.length (runs.map ReconciliationRun.totalRecords).sum
      (runs.map ReconciliationRun.matchedCount).sum (runs.map ReconciliationRun.unmatchedCount).sum
      (runs.map ReconciliationRun.exceptionCount).sum
      (percentage (runs.map ReconciliationRun.matchedCount).sum
        (runs.map ReconciliationRun.totalRecords).sum) text).AddsUp s.db := by
  have htallies : ∀ run ∈ s.db.runsWithin fromDate toDate, Tallies (s.db.recordsOf run.id) run := by
    intro run hrun
    obtain ⟨hmem, hwithin⟩ := List.mem_filter.mp hrun
    exact htallied run hmem (of_decide_eq_true (Bool.and_eq_true_iff.mp hwithin).2)
  have hsum : ∀ figure : ReconciliationRun → Nat, (runs.map figure).sum =
      ((s.db.runsWithin fromDate toDate).map figure).sum := fun figure => (hperm.map figure).sum_eq
  have hcounts : (runs.map ReconciliationRun.matchedCount).sum +
      (runs.map ReconciliationRun.unmatchedCount).sum +
      (runs.map ReconciliationRun.exceptionCount).sum =
        (runs.map ReconciliationRun.totalRecords).sum := by
    rw [hsum, hsum, hsum, hsum]
    have hall := fun run hrun => (htallies run hrun).sum
    generalize s.db.runsWithin fromDate toDate = covered at hall
    clear hsum htallies hperm
    induction covered with
    | nil => rfl
    | cons run covered ih =>
        have hfirst := hall run List.mem_cons_self
        have hrest := ih fun run hrun => hall run (List.mem_cons_of_mem _ hrun)
        simp only [List.map_cons, List.sum_cons]
        omega
  refine ⟨⟨hperm.length_eq, List.length_pos_iff.mpr hruns, ?_⟩, ?_, ?_, ?_, ?_, hcounts, ?_, ?_⟩
  · -- one run for each day
    have hdays : ((s.db.runsWithin fromDate toDate).map ReconciliationRun.runDate).Nodup :=
      (hs.stored.nodup hs.sound.unique).sublist (List.filter_sublist.map _)
    have hwithin : ∀ d ∈ (s.db.runsWithin fromDate toDate).map ReconciliationRun.runDate,
        fromDate ≤ d ∧ d ≤ toDate := by
      intro d hd
      obtain ⟨run, hrun, rfl⟩ := List.mem_map.mp hd
      have hwithin := (List.mem_filter.mp hrun).2
      simp only [ReconciliationRun.within, Bool.and_eq_true, decide_eq_true_eq] at hwithin
      exact hwithin.1
    have hspan : (toDate - fromDate + 1).toNat ≤ 91 :=
      Int.toNat_le.mpr (Int.add_le_add_right hrange 1)
    have hlength : runs.length = ((s.db.runsWithin fromDate toDate).map
        ReconciliationRun.runDate).length := hperm.length_eq.trans (List.length_map _).symm
    exact hlength.trans_le ((length_le_of_range hdays hwithin).trans hspan)
  · have hfigures := sum_figures hs.sound.unique (p := fun _ => true)
      fun run hrun => (htallies run hrun).total.trans (by simp)
    exact (hsum _).trans hfigures
  · exact (hsum _).trans (sum_figures hs.sound.unique fun run hrun => (htallies run hrun).matched)
  · exact (hsum _).trans (sum_figures hs.sound.unique fun run hrun => (htallies run hrun).unmatched)
  · exact (hsum _).trans (sum_figures hs.sound.unique fun run hrun => (htallies run hrun).exceptions)
  · apply percentage_between
    omega
  · intro amounts hamounts
    obtain ⟨amounts', hamounts', hsame⟩ := List.perm_comp_forall₂ hperm hamounts
    rw [← hsame.sum_eq]
    exact amountText_value hamounts' htext

/-- **The summary of a range adds up.**  In every reachable state, whatever calls are under way and
wherever others failed: the totals count the stored records of the COMPLETED runs in the range, each of
them once, the three statuses make up the total, and the rate is a number between 0 and 100. -/
theorem summary_adds_up {toDatetime : Cell → Cell} {db : ReportingDb} (hdb : db.Valid)
    (hdated : db.Dated) (htallied : db.Tallied) {trace : List Action} {s : Sys}
    (hrun : run (step toDatetime) (Sys.start db) trace = some s)
    {fromisoformat : String → Option Day} {today : Day}
    {arrange : List ReconciliationRun → List ReconciliationRun}
    (harrange : ∀ rows, (arrange rows).Perm rows) {fromParam toParam : Option String}
    {reply : SummaryReply}
    (hreply : summary fromisoformat today arrange s.db fromParam toParam = some (.ok reply)) :
    reply.AddsUp s.db := by
  have hs : s.Dated := run_invariant (fun _ _ _ hs hstep => hs.step hstep) (.start hdb hdated) hrun
  have hstored := (Sys.Tallied.run hdb htallied hrun).stored
  unfold summary at hreply
  obtain ⟨toDate, -, hreply⟩ := Option.bind_eq_some_iff.mp hreply
  obtain ⟨fromDate, -, hreply⟩ := Option.bind_eq_some_iff.mp hreply
  split at hreply
  · cases hreply
  rename_i hrange
  dsimp only at hreply
  have hperm : (arrange (s.db.runs.filter (ReconciliationRun.within fromDate toDate))).Perm
      (s.db.runsWithin fromDate toDate) := harrange _
  generalize arrange (s.db.runs.filter (ReconciliationRun.within fromDate toDate)) = runs
    at hreply hperm
  split at hreply
  · rename_i hnone
    obtain rfl := Except.ok.inj (Option.some.inj hreply)
    subst hnone
    have hempty := hperm.nil_eq.symm
    refine ⟨hempty, fun record _ => ?_⟩
    rw [← Bool.not_eq_true, covers_iff hs.sound.unique, hempty]
    exact List.not_mem_nil
  · rename_i hsome
    obtain ⟨text, htext, hreply⟩ := Option.bind_eq_some_iff.mp hreply
    obtain rfl := Except.ok.inj (Option.some.inj hreply)
    exact addsUp_of_perm hs hstored hperm (Int.not_lt.mp hrange) hsome htext

/-- The run of 2024-03-15 is COMPLETED, the one of the next day is still under way. -/
def completeTwo : List Action :=
  storeTwo ++ completing 0 ++ [.start 1 19798, .step 1 (.created 4)]

theorem summary_adds_up_two :
    ∃ s, run (step asTimestamp) (Sys.start ⟨[], []⟩) completeTwo = some s ∧ s.db.runs.length = 2 ∧
      summary (fun _ => none) 19800 id s.db none none = some (.ok (.report
        ⟨19770, 19800, 1, 2, 1, 0, 1, .finite 50, "125.00"⟩)) ∧
      (SummaryReply.report ⟨19770, 19800, 1, 2, 1, 0, 1, .finite 50, "125.00"⟩).AddsUp s.db := by
  obtain ⟨s, hrun, hlength, hreply⟩ : ∃ s ∈ run (step asTimestamp) (Sys.start ⟨[], []⟩) completeTwo,
      s.db.runs.length = 2 ∧ summary (fun _ => none) 19800 id s.db none none = some (.ok (.report
        ⟨19770, 19800, 1, 2, 1, 0, 1, .finite 50, "125.00"⟩)) := by
    decide +kernel
  have hempty : ∀ r ∈ ([] : List ReconciliationRun), False := fun _ => List.not_mem_nil
  exact ⟨s, hrun, hlength, hreply,
    summary_adds_up .empty (fun r hr => (hempty r hr).elim) (fun r hr => (hempty r hr).elim) hrun
      (fun rows => List.Perm.refl rows) hreply⟩

end GlobalPayments.Recon

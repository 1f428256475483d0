/-
# GlobalPayments.Recon.Retry — calling a failed reconciliation again.

A call inserts its run row before anything else, under an id that depends on the date alone, and no
call takes a row away: a date that has been tried once cannot be tried again, whatever became of the
first try.  `completes_iff` says so of every attempt whose steps would all succeed.
-/
import GlobalPayments.Recon.Handler
import GlobalPayments.Recon.Matching

namespace GlobalPayments.Recon

open Frame Runs
open Payments (UUID)

variable {toDatetime : Cell → Cell}

/-! ## One call on its own -/

/-- The statements of one call, over the database and the call alone. -/
def callStep (toDatetime : Cell → Cell) (p : ReportingDb × Worker) (outcome : Outcome) :
    Option (ReportingDb × Worker) :=
  advance toDatetime p.1 p.2 outcome

/-- A call that runs on its own runs in the system. -/
theorem run_of_call {outcomes : List Outcome} {db : ReportingDb} {worker worker' : Worker} {s : Sys}
    {w : WorkerId} (hworker : s.workers w = worker)
    (h : run (callStep toDatetime) (s.db, worker) outcomes = some (db, worker')) :
    ∃ t, run (step toDatetime) s (outcomes.map (.step w)) = some t ∧ t.db = db ∧
      t.workers w = worker' := by
  induction outcomes generalizing s worker with
  | nil =>
      obtain ⟨hdb, rfl⟩ := Prod.mk.inj (Option.some.inj h)
      exact ⟨s, rfl, hdb, hworker⟩
  | cons outcome outcomes ih =>
      obtain ⟨⟨db', worker''⟩, hadvance, hrest⟩ := (run_cons_eq_some _).mp h
      have hstep : step toDatetime s (.step w outcome) =
          some { db := db', workers := Function.update s.workers w worker'' } := by
        simp only [callStep] at hadvance
        simp only [step, hworker, hadvance]
      obtain ⟨t, ht, hdb, hlast⟩ :=
        ih (s := { db := db', workers := Function.update s.workers w worker'' })
          (Function.update_self ..) hrest
      exact ⟨t, (run_cons_eq_some _).mpr ⟨_, hstep, ht⟩, hdb, hlast⟩

/-! ## Attempts -/

/-- What a call for a date needs from outside, such that every statement succeeds. -/
structure Attempt (toDatetime : Cell → Cell) (date : Day) where
  rows : List PaymentRow
  file : Option (Frame Cell)
  clearing : Frame Cell
  results : Frame Cell
  ids : List UUID
  started : Int
  inserted : Int
  completed : Int
  loads : loadClearingFile toDatetime file = .ok clearing
  reconciles : reconcile (loadInternalPayments toDatetime rows) clearing = .ok results
  builds : List.Forall₂ (fun row id => ∃ record, toRecord id (runIdOf date) row = .ok record ∧
    record.notNull = true) results.rows ids
  summarises : "status" ∈ results.columns
  totals : ∃ total, totalAmount results = .ok total

/-- The outcomes of `_persist_results`; `pending` is the length of `records_to_insert`. -/
def persistOutcomes (now : Int) : List UUID → Nat → List Outcome
  | [], 0 => [.persisted]
  | [], _ + 1 => [.persisted, .inserted now, .committed, .persisted]
  | id :: ids, pending =>
      if batchSize ≤ pending + 1 then
        .built id :: .inserted now :: .committed :: persistOutcomes now ids 0
      else .built id :: persistOutcomes now ids (pending + 1)

variable {date : Day}

/-- The outcomes of a whole call. -/
def Attempt.outcomes (a : Attempt toDatetime date) : List Outcome :=
  [.created a.started, .queried a.rows, .downloaded a.file, .reconciled] ++
    (persistOutcomes a.inserted a.ids 0 ++
      [.summarised, .totalled a.completed, .committed, .uploaded, .reported])

/-- The steps of the call on a worker. -/
def Attempt.trace (a : Attempt toDatetime date) (w : WorkerId) : List Action :=
  .start w date :: a.outcomes.map (.step w)

/-- The attempt runs to its end on worker `w`, and leaves the date's run COMPLETED. -/
def Attempt.Completes (a : Attempt toDatetime date) (s : Sys) (w : WorkerId) : Prop :=
  ∃ t, run (step toDatetime) s (a.trace w) = some t ∧
    (∃ summary, (t.workers w).phase = .returned summary) ∧ t.db.Completed (runIdOf date)

/-! ## An attempt, statement by statement -/

section Call

variable {db : ReportingDb} {results : Frame Cell}

theorem isSome_findRun_commit {run : ReconciliationRun} {records : List ReconciliationRecord}
    (h : (db.findRun run.id).isSome) : ((db.commit run records).findRun run.id).isSome := by
  obtain ⟨stored, hstored⟩ := Option.isSome_iff_exists.mp h
  rw [findRun_commit_self hstored]
  rfl

/-- The commit of a batch. -/
theorem call_commits (worker : Worker) {rest : List (Row Cell)}
    {batch : List ReconciliationRecord} (now : Int)
    (hphase : worker.phase = .inserting results rest batch)
    (hnotNull : ∀ r ∈ batch, r.notNull = true) (hrow : (db.findRun worker.run.id).isSome) :
    ∃ db' worker', run (callStep toDatetime) (db, worker) [.inserted now, .committed] =
        some (db', worker') ∧
      worker'.phase = .building results rest [] ∧ worker'.run = worker.run ∧
      (db'.findRun worker.run.id).isSome := by
  have hall : batch.all ReconciliationRecord.notNull = true := List.all_eq_true.mpr hnotNull
  have hinserted : callStep toDatetime (db, worker) (.inserted now) = some (db,
      { worker with
        phase := .committingBatch results rest
        uncommitted := batch.map fun r => { r with reconciledAt := some now } }) := by
    simp only [callStep, advance, hphase, hall, if_true]
  refine ⟨_, _, (run_cons_eq_some _).mpr ⟨_, hinserted, rfl⟩, rfl, rfl, ?_⟩
  exact isSome_findRun_commit hrow

theorem call_ends_loop {worker : Worker} (hphase : worker.phase = .building results [] []) :
    callStep toDatetime (db, worker) .persisted =
      some (db, { worker with phase := .summarising results }) := by
  simp only [callStep, advance, hphase]

/-- **The batching loop ends** with nothing pending, whatever the number of rows. -/
theorem call_persists (now : Int) {run : ReconciliationRun} {rest : List (Row Cell)}
    {ids : List UUID}
    (hbuilds : List.Forall₂ (fun row id => ∃ record, toRecord id run.id row = .ok record ∧
      record.notNull = true) rest ids) :
    ∀ {db : ReportingDb} (worker : Worker) {batch : List ReconciliationRecord},
      worker.run = run → worker.phase = .building results rest batch →
      (∀ r ∈ batch, r.notNull = true) → (db.findRun run.id).isSome →
      ∃ db' worker', Runs.run (callStep toDatetime) (db, worker)
          (persistOutcomes now ids batch.length) = some (db', worker') ∧
        worker'.phase = .summarising results ∧ worker'.run = run ∧
        (db'.findRun run.id).isSome := by
  -- along the rows; `persistOutcomes` takes the same turns as the loop
  induction hbuilds with
  | nil =>
      rintro db worker batch rfl hphase hnotNull hrow
      cases batch with
      | nil =>
          exact ⟨db, _, (run_cons_eq_some _).mpr ⟨_, call_ends_loop hphase, rfl⟩, rfl, rfl, hrow⟩
      | cons r batch =>
          have hpersisted : callStep toDatetime (db, worker) .persisted =
              some (db, { worker with phase := .inserting results [] (r :: batch) }) := by
            simp only [callStep, advance, hphase]
          obtain ⟨db', worker', hcommits, hphase', hrun', hrow'⟩ := call_commits
            { worker with phase := .inserting results [] (r :: batch) } now rfl hnotNull hrow
          have hlast : Runs.run (callStep toDatetime) (db', worker') [.persisted] =
              some (db', { worker' with phase := .summarising results }) :=
            (run_cons_eq_some _).mpr ⟨_, call_ends_loop hphase', rfl⟩
          exact ⟨db', _, (run_cons_eq_some _).mpr ⟨_, hpersisted, run_append _ hcommits hlast⟩, rfl,
            hrun', hrow'⟩
  | @cons row id rest ids hrecord _ ih =>
      rintro db worker batch rfl hphase hnotNull hrow
      obtain ⟨record, hrecord, hvalid⟩ := hrecord
      have hbuilt : callStep toDatetime (db, worker) (.built id) = some (db,
          { worker with phase := nextRow results rest (batch ++ [record]) }) := by
        simp only [callStep, advance, hphase, hrecord]
      have hnotNull' : ∀ r ∈ batch ++ [record], r.notNull = true := by
        intro r hr
        rcases List.mem_append.mp hr with hr | hr
        · exact hnotNull r hr
        · rw [List.mem_singleton.mp hr]
          exact hvalid
      have hlength : (batch ++ [record]).length = batch.length + 1 := by simp
      unfold persistOutcomes
      unfold nextRow at hbuilt
      rw [hlength] at hbuilt
      by_cases hfull : batchSize ≤ batch.length + 1
      · rw [if_pos hfull] at hbuilt ⊢
        obtain ⟨db', worker', hcommits, hphase', hrun', hrow'⟩ := call_commits
          { worker with phase := .inserting results rest (batch ++ [record]) } now rfl hnotNull'
          hrow
        obtain ⟨db'', worker'', hrest, hend⟩ := ih worker' hrun' hphase' (by simp) hrow'
        exact ⟨db'', worker'', (run_cons_eq_some _).mpr ⟨_, hbuilt, run_append _ hcommits hrest⟩,
          hend⟩
      · rw [if_neg hfull] at hbuilt ⊢
        obtain ⟨db', worker', hrest, hend⟩ := ih
          { worker with phase := .building results rest (batch ++ [record]) } rfl rfl hnotNull' hrow
        rw [hlength] at hrest
        exact ⟨db', worker', (run_cons_eq_some _).mpr ⟨_, hbuilt, hrest⟩, hend⟩

/-- From the stored records to the end. -/
theorem call_closes (worker : Worker) (now : Int) (hphase : worker.phase = .summarising results)
    (hsummarises : "status" ∈ results.columns) (htotals : ∃ total, totalAmount results = .ok total)
    (hrow : (db.findRun worker.run.id).isSome) :
    ∃ db' worker', Runs.run (callStep toDatetime) (db, worker)
        [.summarised, .totalled now, .committed, .uploaded, .reported] = some (db', worker') ∧
      (∃ summary, worker'.phase = .returned summary) ∧ db'.Completed worker.run.id := by
  obtain ⟨total, htotal⟩ := htotals
  obtain ⟨stored, hstored⟩ := Option.isSome_iff_exists.mp hrow
  obtain ⟨run, hrun⟩ : ∃ run, summarise results worker.run = .ok run := by
    unfold summarise
    rw [if_pos hsummarises]
    exact ⟨_, rfl⟩
  have hid := (summarise_ok hrun).1
  have hfind : (db.commit (run.complete total now) []).findRun (run.complete total now).id =
      some (run.complete total now) := by
    refine findRun_commit_self (?_ : db.findRun run.id = some stored)
    rw [hid]
    exact hstored
  refine ⟨db.commit (run.complete total now) [],
    { worker with
      run := run.complete total now
      phase := .returned (summaryOf worker.targetDate results (run.complete total now)) },
    ?_, ⟨_, rfl⟩, run.complete total now, ?_, rfl⟩
  · simp [Runs.run, callStep, advance, hphase, hrun, htotal, hfind]
  · rw [← hid]
    exact hfind

/-- From the run row to the result. -/
theorem call_opens (a : Attempt toDatetime date) (worker : Worker)
    (hphase : worker.phase = .creating) (hnone : db.findRun worker.run.id = none) :
    ∃ db', run (callStep toDatetime) (db, worker)
        [.created a.started, .queried a.rows, .downloaded a.file, .reconciled] =
          some (db', { worker with
            run := worker.run.start a.started
            phase := .building a.results a.results.rows [] }) ∧
      (db'.findRun worker.run.id).isSome := by
  have hnew : db.findRun (worker.run.start a.started).id = none := hnone
  refine ⟨{ db with runs := db.runs ++ [worker.run.start a.started] }, ?_, ?_⟩
  · simp [run, callStep, advance, hphase, hnone, a.loads, a.reconciles]
  · exact Option.isSome_iff_exists.mpr ⟨_, findRun_append_self hnew⟩

end Call

/-! ## When an attempt completes -/

theorem Attempt.trace_eq (a : Attempt toDatetime date) (w : WorkerId) :
    ∃ rest, a.trace w = .start w date :: .step w (.created a.started) :: rest := by
  unfold Attempt.trace Attempt.outcomes
  rw [List.cons_append, List.map_cons]
  exact ⟨_, rfl⟩

/-- The first two steps of an attempt create its run row. -/
theorem Attempt.creates (a : Attempt toDatetime date) {s t : Sys} {w : WorkerId}
    (h : run (step toDatetime) s (a.trace w) = some t) : s.db.findRun (runIdOf date) = none := by
  obtain ⟨rest, htrace⟩ := a.trace_eq w
  rw [htrace] at h
  obtain ⟨u, hstart, hrest⟩ := (run_cons_eq_some _).mp h
  obtain ⟨v, hcreated, -⟩ := (run_cons_eq_some _).mp hrest
  rcases step_cases hstart with ⟨w', date', heq, hstarted⟩ | ⟨_, _, heq, -⟩
  · obtain ⟨rfl, rfl⟩ := Action.start.inj heq
    rcases step_cases hcreated with ⟨_, _, heq', -⟩ | ⟨w', outcome, heq', hstepped⟩
    · cases heq'
    · obtain ⟨rfl, rfl⟩ := Action.step.inj heq'
      have hadvances := hstepped.advances
      rw [hstarted.worker, hstarted.db] at hadvances
      generalize v.workers w = worker', v.db = db' at hadvances
      cases hadvances with
      | created _ _ hnone => exact hnone
  · cases heq

/-- **When a new call completes.**  An attempt whose steps all succeed on their own runs to its end and
leaves the run COMPLETED exactly when no run row of its date is stored. -/
theorem completes_iff (a : Attempt toDatetime date) {s : Sys} {w : WorkerId}
    (hidle : (s.workers w).phase = .idle) :
    a.Completes s w ↔ s.db.findRun (runIdOf date) = none := by
  constructor
  · rintro ⟨t, hrun, -⟩
    exact a.creates hrun
  · intro hnone
    have hstart : step toDatetime s (.start w date) = some { s with
        workers := Function.update s.workers w
          { targetDate := date, run := newRun date, phase := .creating } } := by
      simp only [step, hidle]
    obtain ⟨db₁, hopens, hrow₁⟩ := call_opens a
      { targetDate := date, run := newRun date, phase := .creating } rfl hnone
    have hbuilds : List.Forall₂ (fun row id => ∃ record,
        toRecord id ((newRun date).start a.started).id row = .ok record ∧ record.notNull = true)
        a.results.rows a.ids := a.builds
    obtain ⟨db₂, worker₂, hpersists, hphase₂, hrun₂, hrow₂⟩ := call_persists a.inserted hbuilds
      { targetDate := date
        run := (newRun date).start a.started
        phase := .building a.results a.results.rows [] } rfl rfl (by simp) hrow₁
    obtain ⟨db₃, worker₃, hcloses, hreturned, hcompleted⟩ := call_closes worker₂ a.completed
      hphase₂ a.summarises a.totals (by rw [hrun₂]; exact hrow₂)
    have hcall := run_append _ hopens (run_append _ hpersists hcloses)
    obtain ⟨t, ht, hdb, hworker⟩ := run_of_call (w := w) (s := { s with
      workers := Function.update s.workers w
        { targetDate := date, run := newRun date, phase := .creating } })
      (Function.update_self ..) hcall
    refine ⟨t, (run_cons_eq_some _).mpr ⟨_, hstart, ht⟩, ?_, ?_⟩
    · rw [hworker]
      exact hreturned
    · rw [hdb]
      rw [hrun₂] at hcompleted
      exact hcompleted

/-- The frame of a statement that returns. -/
def resultOf (result : Except PyError (Frame Cell)) : Frame Cell :=
  match result with
  | .ok results => results
  | .error _ => .empty []

theorem eq_resultOf {result : Except PyError (Frame Cell)} (h : result.toOption.isSome = true) :
    result = .ok (resultOf result) := by
  cases result with
  | ok results => rfl
  | error e => cases h

/-- Whether a row becomes a record that the insert accepts. -/
instance (id : UUID) (runId : String) (row : Row Cell) :
    Decidable (∃ record, toRecord id runId row = .ok record ∧ record.notNull = true) :=
  decidable_of_iff ((toRecord id runId row).toOption.any ReconciliationRecord.notNull = true) (by
    cases toRecord id runId row <;> simp [Except.toOption])

/-- Two payments, and a settlement file for them. -/
def sampleAttempt : Attempt asTimestamp 19797 where
  rows := samplePayments
  file := some (settledAt "100.00" "25.00")
  clearing := resultOf (loadClearingFile asTimestamp (some (settledAt "100.00" "25.00")))
  results := resultOf (reconcile (loadInternalPayments asTimestamp samplePayments)
    (resultOf (loadClearingFile asTimestamp (some (settledAt "100.00" "25.00")))))
  ids := [9, 10]
  started := 5
  inserted := 6
  completed := 7
  loads := eq_resultOf (by decide +kernel)
  reconciles := eq_resultOf (by decide +kernel)
  builds := by decide +kernel
  summarises := by decide +kernel
  totals := ⟨.finite 125, by decide +kernel⟩

/-- The first call for 2024-03-15. -/
theorem completes_first : sampleAttempt.Completes (Sys.start ⟨[], []⟩) 0 :=
  (completes_iff sampleAttempt rfl).mpr rfl

/-- Every call for the date is over and has failed, and the stored row says so. -/
structure Sys.AllFailed (s : Sys) (date : Day) : Prop where
  calls : ∀ w, (s.workers w).phase ≠ .idle → (s.workers w).targetDate = date →
    ∃ message, (s.workers w).phase = .raised message
  row : ∀ r, s.db.findRun (runIdOf date) = some r → r.status = .FAILED

/-- The settlement file of 2024-03-15 could not be read; when it can, the run is refused. -/
theorem retry_refused :
    ¬ ∀ (trace : List Action) (s : Sys) (w : WorkerId) (date : Day) (a : Attempt asTimestamp date),
      run (step asTimestamp) (Sys.start ⟨[], []⟩) trace = some s → s.AllFailed date →
      (s.workers w).phase = .idle → a.Completes s w := by
  intro hall
  have hrun : ∃ s, run (step asTimestamp) (Sys.start ⟨[], []⟩) [.start 0 19797,
        .step 0 (.created 1), .step 0 (.queried []), .step 0 (.raised false "RetryError"),
        .step 0 (.handled 2 "")] = some s ∧
      (∀ w, w ≠ 0 → (s.workers w).phase = .idle) ∧
      (s.workers 0).phase = .raised "RetryError" ∧
      (s.db.findRun (runIdOf 19797)).map (·.status) = some .FAILED := by
    refine ⟨_, rfl, fun w hw => ?_, rfl, by decide⟩
    simp [Function.update_of_ne hw, Sys.start]
  obtain ⟨s, hrun, hothers, hraised, hstatus⟩ := hrun
  have hfailed : s.AllFailed 19797 := by
    refine ⟨fun w hidle _ => ?_, fun r hr => ?_⟩
    · by_cases hw : w = 0
      · exact ⟨_, hw ▸ hraised⟩
      · exact absurd (hothers w hw) hidle
    · rw [hr] at hstatus
      exact Option.some.inj hstatus
  obtain ⟨t, hretry, -⟩ := hall _ s 1 19797 sampleAttempt hrun hfailed (hothers 1 (by decide))
  rw [sampleAttempt.creates hretry] at hstatus
  cases hstatus

end GlobalPayments.Recon

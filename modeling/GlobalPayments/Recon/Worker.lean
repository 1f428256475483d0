/-
# GlobalPayments.Recon.Worker — `run_daily_reconciliation`, step by step, on any number of workers.

A worker is one call: its target date, the `run` entity, where it stands, and its session.  The
method is cut at every statement that can raise.  After a failed statement, flush or commit the
session is `poisoned`: its transaction accepts nothing more until a `rollback()`, and the method has
none.  A commit that fails has committed nothing.

What comes from outside arrives with the step: query rows, the settlement file, random ids, clocks,
and the exception that strikes.  A step whose own computation raises is not enabled; then only
`raised` is, and `exited`, which may come at any moment: an exit of the process (`SystemExit`, as
gunicorn aborts a worker that takes too long) is no `Exception` and passes the `except` block by.

`advance` is executable; `Advances` says once, branch by branch, what it can do.
-/
import GlobalPayments.Recon.Records
import GlobalPayments.Library.Runs
import GlobalPayments.Library.Versioned
import Mathlib.Logic.Function.Basic

namespace GlobalPayments.Recon

open Frame
open Payments (UUID)

/-! ## Workers -/

abbrev WorkerId := Nat

/-- `BATCH_SIZE` of `_persist_results`. -/
def batchSize : Nat := 500

/-- Where a call stands. -/
inductive Phase where
  | idle
  /-- `db.session.add(run)` and its commit are next: still outside the `try`. -/
  | creating
  | loadingPayments
  | loadingClearing (internal : Frame Cell)
  | reconciling (internal clearing : Frame Cell)
  /-- The loop of `_persist_results`: the rows still to come and `records_to_insert`. -/
  | building (results : Frame Cell) (rest : List (Row Cell)) (batch : List ReconciliationRecord)
  /-- `bulk_save_objects` is next. -/
  | inserting (results : Frame Cell) (rest : List (Row Cell)) (batch : List ReconciliationRecord)
  /-- The commit of a batch is next. -/
  | committingBatch (results : Frame Cell) (rest : List (Row Cell))
  | summarising (results : Frame Cell)
  | totalling (results : Frame Cell)
  | committingSummary (results : Frame Cell)
  | uploading (results : Frame Cell)
  /-- The run is committed; `run.match_rate` has to read it back. -/
  | reporting (results : Frame Cell)
  /-- In the `except` block, with `str(exc)`. -/
  | handling (message : String)
  | returned (summary : Summary)
  | raised (message : String)
  /-- The run row could not be created: the exception left before the `try`. -/
  | refused (message : String)
  /-- The call left with an exception that is no `Exception`. -/
  | exited (message : String)
  /-- It left so before its run row was created. -/
  | abandoned (message : String)

/-- A call and its session.  `uncommitted` is what the open transaction has inserted. -/
structure Worker where
  targetDate : Day := 0
  run : ReconciliationRun := { id := "", runDate := 0 }
  phase : Phase := .idle
  uncommitted : List ReconciliationRecord := []
  poisoned : Bool := false

structure Sys where
  db : ReportingDb
  workers : WorkerId → Worker

/-- No call has been made yet. -/
def Sys.start (db : ReportingDb) : Sys where
  db := db
  workers := fun _ => {}

/-! ## Steps -/

/-- How a statement ends. -/
inductive Outcome where
  | created (now : Int)
  | queried (rows : List PaymentRow)
  | downloaded (file : Option (Frame Cell))
  | reconciled
  | built (id : UUID)
  | persisted
  | inserted (now : Int)
  | committed
  | summarised
  | totalled (now : Int)
  | uploaded
  | reported
  /-- The handler's commit; `refusal` is what a poisoned session answers. -/
  | handled (now : Int) (refusal : String)
  /-- An exception; `database` when a statement, a flush or a commit failed. -/
  | raised (database : Bool) (message : String)
  /-- `SystemExit` or `KeyboardInterrupt`. -/
  | exited (message : String)

/-- The exceptions a statement can end with.  A commit and a bulk insert fail in the database; the
upload catches its own. -/
def Phase.fails : Phase → Bool → Bool
  | .loadingPayments, _ => true
  | .loadingClearing _, database => !database
  | .reconciling _ _, database => !database
  | .building _ _ _, database => !database
  | .inserting _ _ _, database => database
  | .committingBatch _ _, database => database
  | .summarising _, database => !database
  | .totalling _, database => !database
  | .committingSummary _, database => database
  | .reporting _, _ => true
  | _, _ => false

def Phase.raises (phase : Phase) (database : Bool) : Prop := phase.fails database = true

instance (phase : Phase) (database : Bool) : Decidable (phase.raises database) :=
  inferInstanceAs (Decidable (phase.fails database = true))

/-- The call has its run row and is not over. -/
def Phase.underWay : Phase → Bool
  | .idle => false
  | .creating => false
  | .returned _ => false
  | .raised _ => false
  | .refused _ => false
  | .exited _ => false
  | .abandoned _ => false
  | _ => true

/-- Commit a session: the `run` entity is written over its row, the inserted records stay. -/
def ReportingDb.commit (db : ReportingDb) (run : ReconciliationRun)
    (records : List ReconciliationRecord) : ReportingDb where
  runs := Versioned.replaceRow ReconciliationRun.id run db.runs
  records := db.records ++ records

/-- After the commit of a batch, or at a row that does not fill it, the loop goes on. -/
def nextRow (results : Frame Cell) (rest : List (Row Cell)) (batch : List ReconciliationRecord) :
    Phase :=
  if batchSize ≤ batch.length then .inserting results rest batch else .building results rest batch

/-- The `run` entity as it is inserted. -/
def ReconciliationRun.start (run : ReconciliationRun) (now : Int) : ReconciliationRun :=
  { run with startedAt := some now }

/-- The `run` entity in the `except` block. -/
def ReconciliationRun.fail (run : ReconciliationRun) (message : String) (now : Int) :
    ReconciliationRun :=
  { run with status := .FAILED, errorMessage := some message, completedAt := some now }

/-- The `run` entity before the summary commit. -/
def ReconciliationRun.complete (run : ReconciliationRun) (total : Binary64) (now : Int) :
    ReconciliationRun :=
  { run with totalAmountGbp := total, status := .COMPLETED, completedAt := some now }

/-- `summary`, with the figures of the frame and the rate of the stored row. -/
def summaryOf (date : Day) (results : Frame Cell) (stored : ReconciliationRun) : Summary where
  runId := stored.id
  date := date
  total := results.rows.length
  matched := statusCount results .MATCHED
  unmatched := statusCount results .UNMATCHED
  exceptions := statusCount results .EXCEPTION
  matchRatePct := stored.matchRate
  status := .COMPLETED

/-- An exception strikes; what the open transaction holds is lost with it when the database fails. -/
def Worker.strike (worker : Worker) (database : Bool) (message : String) : Worker :=
  { worker with
    phase := .handling message
    poisoned := database
    uncommitted := if database then [] else worker.uncommitted }

/-- The process leaves the call: nothing catches the exit, and the session goes with what its
transaction holds. -/
def Worker.exit (worker : Worker) (message : String) : Worker :=
  { worker with phase := .exited message, uncommitted := [] }

/-- One statement of a call. -/
def advance (toDatetime : Cell → Cell) (db : ReportingDb) (worker : Worker) :
    Outcome → Option (ReportingDb × Worker)
  | .created now =>
      match worker.phase with
      | .creating =>
          -- the primary key: a second run of a day is refused
          if (db.findRun worker.run.id).isSome then none
          else some ({ db with runs := db.runs ++ [worker.run.start now] },
            { worker with run := worker.run.start now, phase := .loadingPayments })
      | _ => none
  | .queried rows =>
      match worker.phase with
      | .loadingPayments => some (db,
          { worker with phase := .loadingClearing (loadInternalPayments toDatetime rows) })
      | _ => none
  | .downloaded file =>
      match worker.phase with
      | .loadingClearing internal =>
          match loadClearingFile toDatetime file with
          | .ok clearing => some (db, { worker with phase := .reconciling internal clearing })
          | .error _ => none
      | _ => none
  | .reconciled =>
      match worker.phase with
      | .reconciling internal clearing =>
          match reconcile internal clearing with
          | .ok results => some (db, { worker with phase := .building results results.rows [] })
          | .error _ => none
      | _ => none
  | .built id =>
      match worker.phase with
      | .building results (row :: rest) batch =>
          match toRecord id worker.run.id row with
          | .ok record => some (db, { worker with phase := nextRow results rest (batch ++ [record]) })
          | .error _ => none
      | _ => none
  | .persisted =>
      match worker.phase with
      | .building results [] [] => some (db, { worker with phase := .summarising results })
      | .building results [] batch => some (db, { worker with phase := .inserting results [] batch })
      | _ => none
  | .inserted now =>
      match worker.phase with
      | .inserting results rest batch =>
          if batch.all ReconciliationRecord.notNull then some (db,
            { worker with
              phase := .committingBatch results rest
              uncommitted := batch.map fun r => { r with reconciledAt := some now } })
          else none
      | _ => none
  | .committed =>
      match worker.phase with
      | .committingBatch results rest => some (db.commit worker.run worker.uncommitted,
          { worker with phase := .building results rest [], uncommitted := [] })
      -- the last batch has been committed, so only the `run` entity is written
      | .committingSummary results => some (db.commit worker.run [],
          { worker with phase := .uploading results })
      | _ => none
  | .summarised =>
      match worker.phase with
      | .summarising results =>
          match summarise results worker.run with
          | .ok run => some (db, { worker with run := run, phase := .totalling results })
          | .error _ => none
      | _ => none
  | .totalled now =>
      match worker.phase with
      | .totalling results =>
          match totalAmount results with
          | .ok total => some (db,
              { worker with
                run := worker.run.complete total now
                phase := .committingSummary results })
          | .error _ => none
      | _ => none
  | .uploaded =>
      match worker.phase with
      | .uploading results => some (db, { worker with phase := .reporting results })
      | _ => none
  | .reported =>
      match worker.phase with
      | .reporting results =>
          match db.findRun worker.run.id with
          | some stored => some (db,
              { worker with phase := .returned (summaryOf worker.targetDate results stored) })
          | none => none
      | _ => none
  | .handled now refusal =>
      match worker.phase with
      | .handling message =>
          -- the block commits without a `rollback()` first
          if worker.poisoned then some (db, { worker with phase := .raised refusal })
          else some (db.commit (worker.run.fail message now) worker.uncommitted,
            { worker with
              run := worker.run.fail message now
              phase := .raised message
              uncommitted := [] })
      | _ => none
  | .raised database message =>
      match worker.phase with
      | .creating => some (db, { worker with phase := .refused message })
      | phase =>
          if phase.raises database then some (db, worker.strike database message) else none
  | .exited message =>
      match worker.phase with
      | .creating => some (db, { worker with phase := .abandoned message })
      | phase => if phase.underWay then some (db, worker.exit message) else none

/-- The steps of the system. -/
inductive Action where
  | start (w : WorkerId) (date : Day)
  | step (w : WorkerId) (outcome : Outcome)

/-- The worker that takes the step. -/
def Action.worker : Action → WorkerId
  | .start w _ => w
  | .step w _ => w

/-- The `run` entity a call constructs. -/
def newRun (date : Day) : ReconciliationRun where
  id := runIdOf date
  runDate := date

/-- One step of one worker. -/
def step (toDatetime : Cell → Cell) (s : Sys) : Action → Option Sys
  | .start w date =>
      match (s.workers w).phase with
      | .idle => some { s with
          workers := Function.update s.workers w
            { targetDate := date, run := newRun date, phase := .creating } }
      | _ => none
  | .step w outcome =>
      match advance toDatetime s.db (s.workers w) outcome with
      | some (db, worker) => some { db := db, workers := Function.update s.workers w worker }
      | none => none

/-! ## What a step can do -/

/-- `Advances toDatetime db worker outcome db' worker'`: a statement of the call `worker` ends with
`outcome` and takes the database from `db` to `db'`. -/
inductive Advances (toDatetime : Cell → Cell) (db : ReportingDb) (worker : Worker) :
    Outcome → ReportingDb → Worker → Prop
  | created (now : Int) : worker.phase = .creating → db.findRun worker.run.id = none →
      Advances toDatetime db worker (.created now)
        { db with runs := db.runs ++ [worker.run.start now] }
        { worker with run := worker.run.start now, phase := .loadingPayments }
  | queried (rows : List PaymentRow) : worker.phase = .loadingPayments →
      Advances toDatetime db worker (.queried rows) db
        { worker with phase := .loadingClearing (loadInternalPayments toDatetime rows) }
  | downloaded {internal clearing : Frame Cell} (file : Option (Frame Cell)) :
      worker.phase = .loadingClearing internal →
      loadClearingFile toDatetime file = .ok clearing →
      Advances toDatetime db worker (.downloaded file) db
        { worker with phase := .reconciling internal clearing }
  | reconciled {internal clearing results : Frame Cell} :
      worker.phase = .reconciling internal clearing →
      Recon.reconcile internal clearing = .ok results →
      Advances toDatetime db worker .reconciled db
        { worker with phase := .building results results.rows [] }
  | built {results : Frame Cell} {row : Row Cell} {rest : List (Row Cell)}
      {batch : List ReconciliationRecord} {record : ReconciliationRecord} (id : UUID) :
      worker.phase = .building results (row :: rest) batch →
      toRecord id worker.run.id row = .ok record →
      Advances toDatetime db worker (.built id) db
        { worker with phase := nextRow results rest (batch ++ [record]) }
  | persisted {results : Frame Cell} : worker.phase = .building results [] [] →
      Advances toDatetime db worker .persisted db { worker with phase := .summarising results }
  | remainder {results : Frame Cell} {batch : List ReconciliationRecord} :
      worker.phase = .building results [] batch →
      Advances toDatetime db worker .persisted db { worker with phase := .inserting results [] batch }
  | inserted {results : Frame Cell} {rest : List (Row Cell)} {batch : List ReconciliationRecord}
      (now : Int) : worker.phase = .inserting results rest batch →
      (∀ r ∈ batch, r.notNull = true) →
      Advances toDatetime db worker (.inserted now) db
        { worker with
          phase := .committingBatch results rest
          uncommitted := batch.map fun r => { r with reconciledAt := some now } }
  | committedBatch {results : Frame Cell} {rest : List (Row Cell)} :
      worker.phase = .committingBatch results rest →
      Advances toDatetime db worker .committed (db.commit worker.run worker.uncommitted)
        { worker with phase := .building results rest [], uncommitted := [] }
  | summarised {results : Frame Cell} {run : ReconciliationRun} :
      worker.phase = .summarising results → summarise results worker.run = .ok run →
      Advances toDatetime db worker .summarised db
        { worker with run := run, phase := .totalling results }
  | totalled {results : Frame Cell} {total : Binary64} (now : Int) :
      worker.phase = .totalling results → totalAmount results = .ok total →
      Advances toDatetime db worker (.totalled now) db
        { worker with run := worker.run.complete total now, phase := .committingSummary results }
  | committedSummary {results : Frame Cell} : worker.phase = .committingSummary results →
      Advances toDatetime db worker .committed (db.commit worker.run [])
        { worker with phase := .uploading results }
  | uploaded {results : Frame Cell} : worker.phase = .uploading results →
      Advances toDatetime db worker .uploaded db { worker with phase := .reporting results }
  | reported {results : Frame Cell} {stored : ReconciliationRun} :
      worker.phase = .reporting results → db.findRun worker.run.id = some stored →
      Advances toDatetime db worker .reported db
        { worker with phase := .returned (summaryOf worker.targetDate results stored) }
  | handled {message : String} (now : Int) (refusal : String) :
      worker.phase = .handling message → worker.poisoned = false →
      Advances toDatetime db worker (.handled now refusal)
        (db.commit (worker.run.fail message now) worker.uncommitted)
        { worker with
          run := worker.run.fail message now
          phase := .raised message
          uncommitted := [] }
  | handlerRefused {message : String} (now : Int) (refusal : String) :
      worker.phase = .handling message → worker.poisoned = true →
      Advances toDatetime db worker (.handled now refusal) db
        { worker with phase := .raised refusal }
  | refused (database : Bool) (message : String) : worker.phase = .creating →
      Advances toDatetime db worker (.raised database message) db
        { worker with phase := .refused message }
  | struck (database : Bool) (message : String) : worker.phase.raises database →
      Advances toDatetime db worker (.raised database message) db (worker.strike database message)
  | abandoned (message : String) : worker.phase = .creating →
      Advances toDatetime db worker (.exited message) db
        { worker with phase := .abandoned message }
  | exited (message : String) : worker.phase.underWay = true →
      Advances toDatetime db worker (.exited message) db (worker.exit message)

variable {toDatetime : Cell → Cell}

/-- **Every statement ends in one of these ways.** -/
theorem advance_cases {db db' : ReportingDb} {worker worker' : Worker} {outcome : Outcome}
    (h : advance toDatetime db worker outcome = some (db', worker')) :
    Advances toDatetime db worker outcome db' worker' := by
  cases outcome with
  | created now =>
      simp only [advance] at h
      split at h <;> try cases h
      rename_i hphase
      split at h <;> cases h
      rename_i hfree
      exact .created now hphase (by simpa using hfree)
  | queried rows =>
      simp only [advance] at h
      split at h <;> cases h
      exact .queried rows ‹_›
  | downloaded file =>
      simp only [advance] at h
      split at h <;> try cases h
      rename_i hphase
      split at h <;> cases h
      exact .downloaded file hphase ‹_›
  | reconciled =>
      simp only [advance] at h
      split at h <;> try cases h
      rename_i hphase
      split at h <;> cases h
      exact .reconciled hphase ‹_›
  | built id =>
      simp only [advance] at h
      split at h <;> try cases h
      rename_i hphase
      split at h <;> cases h
      exact .built id hphase ‹_›
  | persisted =>
      simp only [advance] at h
      split at h <;> cases h
      · exact .persisted ‹_›
      · exact .remainder ‹_›
  | inserted now =>
      simp only [advance] at h
      split at h <;> try cases h
      rename_i hphase
      split at h <;> cases h
      rename_i hnotNull
      exact .inserted now hphase (List.all_eq_true.mp hnotNull)
  | committed =>
      simp only [advance] at h
      split at h <;> cases h
      · exact .committedBatch ‹_›
      · exact .committedSummary ‹_›
  | summarised =>
      simp only [advance] at h
      split at h <;> try cases h
      rename_i hphase
      split at h <;> cases h
      exact .summarised hphase ‹_›
  | totalled now =>
      simp only [advance] at h
      split at h <;> try cases h
      rename_i hphase
      split at h <;> cases h
      exact .totalled now hphase ‹_›
  | uploaded =>
      simp only [advance] at h
      split at h <;> cases h
      exact .uploaded ‹_›
  | reported =>
      simp only [advance] at h
      split at h <;> try cases h
      rename_i hphase
      split at h <;> cases h
      exact .reported hphase ‹_›
  | handled now refusal =>
      simp only [advance] at h
      split at h <;> try cases h
      rename_i hphase
      split at h <;> cases h
      · exact .handlerRefused now refusal hphase ‹_›
      · rename_i hclean
        exact .handled now refusal hphase (by simpa using hclean)
  | raised database message =>
      simp only [advance] at h
      split at h
      · cases h
        exact .refused database message ‹_›
      · split at h <;> cases h
        exact .struck database message ‹_›
  | exited message =>
      simp only [advance] at h
      split at h
      · cases h
        exact .abandoned message ‹_›
      · split at h <;> cases h
        exact .exited message ‹_›

/-- A new call. -/
structure Started (s : Sys) (w : WorkerId) (date : Day) (s' : Sys) : Prop where
  idle : (s.workers w).phase = .idle
  db : s'.db = s.db
  worker : s'.workers w = { targetDate := date, run := newRun date, phase := .creating }
  others : ∀ w', w' ≠ w → s'.workers w' = s.workers w'

/-- A statement of one call. -/
structure Stepped (toDatetime : Cell → Cell) (s : Sys) (w : WorkerId) (outcome : Outcome)
    (s' : Sys) : Prop where
  advances : Advances toDatetime s.db (s.workers w) outcome s'.db (s'.workers w)
  others : ∀ w', w' ≠ w → s'.workers w' = s.workers w'

/-- **Every step is a new call or a statement of one call.** -/
theorem step_cases {s s' : Sys} {a : Action} (h : step toDatetime s a = some s') :
    (∃ w date, a = .start w date ∧ Started s w date s') ∨
      ∃ w outcome, a = .step w outcome ∧ Stepped toDatetime s w outcome s' := by
  cases a with
  | start w date =>
      simp only [step] at h
      split at h
      · rename_i hidle
        obtain rfl := (Option.some.inj h).symm
        exact Or.inl ⟨w, date, rfl, hidle, rfl, Function.update_self .., fun w' hw =>
          Function.update_of_ne hw ..⟩
      · cases h
  | step w outcome =>
      simp only [step] at h
      split at h
      · rename_i db worker hadvance
        obtain rfl := (Option.some.inj h).symm
        refine Or.inr ⟨w, outcome, rfl, ?_, fun w' hw => Function.update_of_ne hw ..⟩
        simp only [Function.update_self]
        exact advance_cases hadvance
      · cases h

/-! ## A call that goes through -/

/-- Up to the commit of its one batch. -/
def storing (w : WorkerId) (date : Day) (rows : List PaymentRow) (file : Frame Cell)
    (ids : List UUID) : List Action :=
  .start w date :: ([.created 1, .queried rows, .downloaded (some file), .reconciled] ++
    ids.map Outcome.built ++ [.persisted, .inserted 2, .committed] : List Outcome).map (.step w)

/-- From there to the commit of the summary. -/
def completing (w : WorkerId) : List Action :=
  ([.persisted, .summarised, .totalled 3, .committed] : List Outcome).map (.step w)

/-- And to its return. -/
def returning (w : WorkerId) : List Action :=
  ([.uploaded, .reported] : List Outcome).map (.step w)

end GlobalPayments.Recon

/-
# GlobalPayments.Recon.Finality — what a returned summary is worth.

A COMPLETED run is not final: while its call still reads the rate back, an exception turns it into a
FAILED one.  Once the call has returned it is.  The call takes no further step, and no other call writes
under its run id (`Stepped.untouched`), so every endpoint goes on answering for the run as it did when
the summary was returned, and with the summary's figures.
-/
import GlobalPayments.Recon.Listing
import GlobalPayments.Recon.Serving

namespace GlobalPayments.Recon

open Frame Runs

/-! ## The endpoints -/

/-- The answer of `get_run`: an entry of the list, and two more fields. -/
structure RunBody where
  entry : RunEntry
  totalAmountGbp : String
  errorMessage : Option String
  deriving DecidableEq

/-- `get_run`; `none` is the 404. -/
def getRun (isoformat : Int → String) (db : ReportingDb) (runId : String) : Option RunBody :=
  (db.findRun runId).map fun r =>
    { entry := runEntry isoformat r
      totalAmountGbp := columnText (.float r.totalAmountGbp)
      errorMessage := r.errorMessage }

/-- `trigger_reconciliation`, once its call has ended.  An exit ends the request as well, without a
reply. -/
def triggerReply : Phase → Option (Except ErrorReply Summary)
  | .returned summary => some (.ok summary)
  | .raised message => some (.error ⟨500, "RECONCILIATION_FAILED", message⟩)
  | .refused message => some (.error ⟨500, "RECONCILIATION_FAILED", message⟩)
  | _ => none

theorem returned_of_reply {phase : Phase} {summary : Summary}
    (h : triggerReply phase = some (.ok summary)) : phase = .returned summary := by
  unfold triggerReply at h
  split at h <;> cases h
  rfl

/-! ## The summary of a stored run -/

/-- The summary says of its run what the row and the records say. -/
structure Summary.Reports (summary : Summary) (run : ReconciliationRun)
    (records : List ReconciliationRecord) : Prop where
  runId : summary.runId = run.id
  date : summary.date = run.runDate
  completed : run.status = .COMPLETED
  total : summary.total = run.totalRecords
  matched : summary.matched = run.matchedCount
  unmatched : summary.unmatched = run.unmatchedCount
  exceptions : summary.exceptions = run.exceptionCount
  rate : summary.matchRatePct = run.matchRate
  tallies : Tallies records run

/-- A call that has returned has returned what is stored. -/
def Worker.Confirmed (row : Option ReconciliationRun) (records : List ReconciliationRecord)
    (worker : Worker) : Prop :=
  match worker.phase with
  | .returned summary => summary.runId = worker.run.id ∧ summary.date = worker.targetDate ∧
      ∃ run, row = some run ∧ summary.Reports run records
  | _ => True

/-- The invariant of the summaries. -/
structure Sys.Confirmed (s : Sys) : Prop where
  tallied : s.Tallied
  dated : s.Dated
  workers : ∀ w, (s.workers w).Confirmed (s.db.findRun (s.workers w).run.id)
    (s.db.recordsOf (s.workers w).run.id)

theorem confirmed_of_not_owns {worker : Worker} (h : ¬ worker.phase.owns)
    (row : Option ReconciliationRun) (records : List ReconciliationRecord) :
    worker.Confirmed row records := by
  unfold Worker.Confirmed
  generalize worker.phase = phase at h
  cases phase <;> first | exact True.intro | exact absurd True.intro h

section Advance

variable {toDatetime : Cell → Cell} {db db' : ReportingDb} {worker worker' : Worker}
variable {outcome : Outcome}

theorem confirmed_nextRow (results : Frame Cell) (rest : List (Row Cell))
    (batch : List ReconciliationRecord) (row : Option ReconciliationRun)
    (records : List ReconciliationRecord) :
    ({ worker with phase := nextRow results rest batch } : Worker).Confirmed row records := by
  unfold nextRow
  split <;> trivial

/-- **The summary of a call is that of its row**: the frame it is computed from is stored, row by
row. -/
theorem reports_summaryOf {results : Frame Cell} {stored : ReconciliationRun} {date : Day}
    {runId : String} {records : List ReconciliationRecord}
    (hfiled : List.Forall₂ (RecordOf runId) results.rows records)
    (hcompleted : stored.status = .COMPLETED) (hdate : stored.runDate = date)
    (htallies : Tallies records stored) : (summaryOf date results stored).Reports stored records where
  runId := rfl
  date := hdate.symm
  completed := hcompleted
  total := hfiled.length_eq.trans htallies.total.symm
  matched := (statusCount_eq hfiled _).trans htallies.matched.symm
  unmatched := (statusCount_eq hfiled _).trans htallies.unmatched.symm
  exceptions := (statusCount_eq hfiled _).trans htallies.exceptions.symm
  rate := rfl
  tallies := htallies

theorem Advances.confirmed (h : Advances toDatetime db worker outcome db' worker')
    (hworker : worker.Sound (db.findRun worker.run.id) (db.recordsOf worker.run.id))
    (hdated : worker.Dated (db.findRun worker.run.id)) (hstored : db.Tallied) :
    worker'.Confirmed (db'.findRun worker.run.id) (db'.recordsOf worker.run.id) := by
  cases h with
  | built => exact confirmed_nextRow _ _ _ _ _
  | @reported results stored hphase hfind =>
      have hfiled := hworker.filed
      simp only [Worker.Filed, hphase] at hfiled
      have hid : stored.id = worker.run.id := by simpa using List.find?_some hfind
      have hcompleted : stored.status = .COMPLETED :=
        hworker.rowStatus _ (by rw [hphase]; rfl) stored hfind
      have hdate : stored.runDate = worker.targetDate := by
        rw [hdated.row (by rw [hphase]; trivial) stored hfind, hdated.date (by simp [hphase])]
      have htallies := hstored stored (List.mem_of_find?_eq_some hfind) hcompleted
      rw [hid] at htallies
      exact ⟨hid, rfl, stored, hfind, reports_summaryOf hfiled hcompleted hdate htallies⟩
  | _ => trivial

/-- A call that has returned takes no further step. -/
theorem Advances.not_returned (h : Advances toDatetime db worker outcome db' worker')
    (summary : Summary) : worker.phase ≠ .returned summary := by
  cases h with
  | struck _ _ hraises =>
      rintro hreturned
      rw [hreturned] at hraises
      cases hraises
  | exited _ hunderWay =>
      rintro hreturned
      rw [hreturned] at hunderWay
      cases hunderWay
  | _ =>
      rw [‹worker.phase = _›]
      exact nofun

end Advance

/-! ## Every run -/

section Steps

variable {toDatetime : Cell → Cell} {s s' : Sys}

theorem Sys.Confirmed.start {db : ReportingDb} (hdb : db.Valid) (hdated : db.Dated)
    (htallied : db.Tallied) : (Sys.start db).Confirmed where
  tallied := ⟨.start hdb, htallied, fun _ => trivial⟩
  dated := .start hdb hdated
  workers _ := trivial

/-- **Every step keeps the summaries true.** -/
theorem Sys.Confirmed.step {a : Action} (h : s.Confirmed) (hstep : step toDatetime s a = some s') :
    s'.Confirmed := by
  refine ⟨h.tallied.step hstep, h.dated.step hstep, ?_⟩
  rcases step_cases hstep with ⟨w, date, -, hstarted⟩ | ⟨w, outcome, -, hstepped⟩
  · exact hstarted.forall_worker
      (P := fun _ db worker => worker.Confirmed (db.findRun worker.run.id) (db.recordsOf worker.run.id))
      trivial fun w' _ => h.workers w'
  · exact hstepped.forall_worker h.tallied.sound
      (P := fun _ row records worker => worker.Confirmed row records)
      (fun _ howns => confirmed_of_not_owns howns _ _)
      (hstepped.advances.confirmed (h.tallied.sound.workers w) (h.dated.workers w)
        h.tallied.stored)
      fun w' _ => h.workers w'

/-- Nothing is written any more under the id of a call that has returned. -/
def Sys.Settled (w : WorkerId) (summary : Summary) (row : Option ReconciliationRun)
    (records : List ReconciliationRecord) (s : Sys) : Prop :=
  s.Confirmed ∧ (s.workers w).phase = .returned summary ∧ s.db.findRun summary.runId = row ∧
    s.db.recordsOf summary.runId = records

theorem Sys.Settled.step {w : WorkerId} {summary : Summary} {row : Option ReconciliationRun}
    {records : List ReconciliationRecord} {a : Action} (h : s.Settled w summary row records)
    (hstep : Recon.step toDatetime s a = some s') : s'.Settled w summary row records := by
  obtain ⟨hconfirmed, hphase, hrow, hrecords⟩ := h
  have hid : summary.runId = (s.workers w).run.id := by
    have hworker := hconfirmed.workers w
    simp only [Worker.Confirmed, hphase] at hworker
    exact hworker.1
  refine ⟨hconfirmed.step hstep, ?_⟩
  rcases step_cases hstep with ⟨v, date, -, hstarted⟩ | ⟨v, outcome, -, hstepped⟩
  · have hne : w ≠ v := by
      rintro rfl
      rw [hstarted.idle] at hphase
      cases hphase
    rw [hstarted.others w hne, hstarted.db]
    exact ⟨hphase, hrow, hrecords⟩
  · have hne : w ≠ v := by
      rintro rfl
      exact hstepped.advances.not_returned summary hphase
    obtain ⟨hsameRow, hsameRecords⟩ :=
      hstepped.untouched hconfirmed.tallied.sound hne (by rw [hphase]; trivial)
    rw [hstepped.others w hne, hid, hsameRow, hsameRecords, ← hid]
    exact ⟨hphase, hrow, hrecords⟩

end Steps

/-! ## The answers about a returned run -/

/-- The answer of `get_run` has the figures of the summary. -/
structure RunBody.Confirms (isoformat : Int → String) (summary : Summary) (body : RunBody) : Prop where
  id : body.entry.id = summary.runId
  runDate : body.entry.runDate = isoformat (midnight summary.date)
  status : body.entry.status = .COMPLETED
  total : body.entry.totalRecords = summary.total
  matched : body.entry.matched = summary.matched
  unmatched : body.entry.unmatched = summary.unmatched
  exceptions : body.entry.exceptions = summary.exceptions
  rate : body.entry.matchRatePct = summary.matchRatePct

/-- What holds of a run in the state `u`, after its call has returned the summary in the state `s`. -/
structure Final (summary : Summary) (w : WorkerId) (s u : Sys) : Prop where
  /-- the run is confirmed, and its row is the one the call left -/
  run : ∀ isoformat, getRun isoformat u.db summary.runId = getRun isoformat s.db summary.runId ∧
    ∃ body, getRun isoformat u.db summary.runId = some body ∧ body.Confirms isoformat summary
  /-- whatever the records endpoint is asked about the run, it answers as it did -/
  records : ∀ isoformat arrange paginate status exceptionsOnly page perPage,
    getRunRecords isoformat arrange paginate u.db summary.runId status exceptionsOnly page perPage =
      getRunRecords isoformat arrange paginate s.db summary.runId status exceptionsOnly page perPage
  /-- and so does the exceptions report of the day -/
  exceptions : ∀ fromisoformat arrange text, fromisoformat text = some summary.date →
    exceptionsReport fromisoformat arrange u.db (some text) =
      exceptionsReport fromisoformat arrange s.db (some text)
  /-- the summary counts the stored records -/
  counted : summary.total = (u.db.recordsOf summary.runId).length ∧
    summary.matched + summary.unmatched + summary.exceptions = summary.total
  /-- no other call for the date has got past its run row, or ever will -/
  sole : ∀ w', (u.workers w').phase.owns → (u.workers w').targetDate = summary.date → w' = w

/-- **A returned summary is final.**  In every run of any number of calls, wherever they fail: from the
moment a trigger has answered with a summary, every endpoint answers for the run as it did then, and
with the summary's figures. -/
theorem returned_is_final {toDatetime : Cell → Cell} {db : ReportingDb} (hdb : db.Valid)
    (hdated : db.Dated) (htallied : db.Tallied) {before after : List Action} {s u : Sys}
    {w : WorkerId} {summary : Summary}
    (hbefore : run (step toDatetime) (Sys.start db) before = some s)
    (hreply : triggerReply (s.workers w).phase = some (.ok summary))
    (hafter : run (step toDatetime) s after = some u) : Final summary w s u := by
  have hreturned := returned_of_reply hreply
  have hs : s.Confirmed := run_invariant (fun _ _ _ hs hstep => hs.step hstep)
    (.start hdb hdated htallied) hbefore
  obtain ⟨hu, hphase, hrow, hrecords⟩ :=
    run_invariant (I := Sys.Settled w summary (s.db.findRun summary.runId)
      (s.db.recordsOf summary.runId)) (fun _ _ _ hs hstep => hs.step hstep)
      ⟨hs, hreturned, rfl, rfl⟩ hafter
  have hworker := hu.workers w
  simp only [Worker.Confirmed, hphase] at hworker
  obtain ⟨hid, hdate, row, hfind, hreports⟩ := hworker
  rw [← hid] at hfind hreports
  have hdatedId : summary.runId = runIdOf summary.date := by
    rw [hid, hdate, (hu.dated.workers w).id (by simp [hphase]),
      (hu.dated.workers w).date (by simp [hphase])]
  refine ⟨fun isoformat => ⟨?_, ?_⟩, ?_, ?_, ?_, fun w' howns hsame => ?_⟩
  · rw [getRun, getRun, hrow]
  · refine ⟨_, by rw [getRun, hfind, Option.map_some], ?_⟩
    exact ⟨hreports.runId.symm, congrArg (fun d => isoformat (midnight d)) hreports.date.symm,
      hreports.completed, hreports.total.symm, hreports.matched.symm, hreports.unmatched.symm,
      hreports.exceptions.symm, hreports.rate.symm⟩
  · intro isoformat arrange paginate status exceptionsOnly page perPage
    unfold getRunRecords
    rw [hrecords]
  · intro fromisoformat arrange text htext
    unfold exceptionsReport
    dsimp only
    rw [htext]
    dsimp only
    rw [← hdatedId, hrecords]
  · refine ⟨hreports.total.trans hreports.tallies.total, ?_⟩
    rw [hreports.matched, hreports.unmatched, hreports.exceptions, hreports.total]
    exact hreports.tallies.sum
  · -- both run ids are that of the date
    refine hu.tallied.sound.distinct w' w howns (by rw [hphase]; trivial) ?_
    have hne : (u.workers w').phase ≠ .idle := by
      rintro hidle
      rw [hidle] at howns
      exact howns
    rw [← hid, hdatedId, ← hsame, (hu.dated.workers w').id hne, (hu.dated.workers w').date hne]

/-- A call for 2024-03-15 returns; then the day is triggered again, and another one is reconciled. -/
def returnTwo : List Action := storeTwo ++ completing 0 ++ returning 0

def triggerAgain : List Action :=
  [.start 1 19797, .step 1 (.raised true "duplicate key value violates unique constraint"),
    .start 2 19798, .step 2 (.created 4), .step 2 (.queried []), .step 2 (.raised false "timeout")]

def returnedTwo : Sys :=
  (run (step asTimestamp) (Sys.start ⟨[], []⟩) returnTwo).get (by decide +kernel)

def triggeredAgain : Sys :=
  (run (step asTimestamp) returnedTwo triggerAgain).get (by decide +kernel)

/-- The second trigger is refused, and nothing about the run has changed. -/
theorem returned_is_final_retrigger :
    triggerReply (returnedTwo.workers 0).phase =
        some (.ok ⟨"RECON-20240315", 19797, 2, 1, 0, 1, .finite 50, .COMPLETED⟩) ∧
      triggerReply (triggeredAgain.workers 1).phase =
        some (.error ⟨500, "RECONCILIATION_FAILED", "duplicate key value violates unique constraint"⟩) ∧
      Final ⟨"RECON-20240315", 19797, 2, 1, 0, 1, .finite 50, .COMPLETED⟩ 0 returnedTwo
        triggeredAgain := by
  have hrun : run (step asTimestamp) (Sys.start ⟨[], []⟩) returnTwo = some returnedTwo := by
    rw [returnedTwo, Option.some_get]
  have hafter : run (step asTimestamp) returnedTwo triggerAgain = some triggeredAgain := by
    rw [triggeredAgain, Option.some_get]
  have hreply : triggerReply (returnedTwo.workers 0).phase =
      some (.ok ⟨"RECON-20240315", 19797, 2, 1, 0, 1, .finite 50, .COMPLETED⟩) := by
    decide +kernel
  have hempty : ∀ r ∈ ([] : List ReconciliationRun), False := fun _ => List.not_mem_nil
  refine ⟨hreply, by decide +kernel, ?_⟩
  exact returned_is_final .empty (fun r hr => (hempty r hr).elim) (fun r hr => (hempty r hr).elim)
    hrun hreply hafter

end GlobalPayments.Recon

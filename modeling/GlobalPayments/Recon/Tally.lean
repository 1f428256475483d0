/-
# GlobalPayments.Recon.Tally — the figures of a completed run.

The counts of a run are taken from the result frame, the records are stored by a loop of their own.
They agree because a call that computes its counts has stored the whole frame, in order
(`Worker.Filed`), and because nothing is written under its id between its summary and its commit.
-/
import GlobalPayments.Recon.Invariant

namespace GlobalPayments.Recon

open Frame Runs

/-- The figures of a run row are those of its records. -/
structure Tallies (records : List ReconciliationRecord) (run : ReconciliationRun) : Prop where
  total : run.totalRecords = records.length
  matched : run.matchedCount = records.countP fun r => r.status = .MATCHED
  unmatched : run.unmatchedCount = records.countP fun r => r.status = .UNMATCHED
  exceptions : run.exceptionCount = records.countP fun r => r.status = .EXCEPTION
  sum : run.matchedCount + run.unmatchedCount + run.exceptionCount = run.totalRecords

/-- Every COMPLETED run tallies with the records stored under its id. -/
def ReportingDb.Tallied (db : ReportingDb) : Prop :=
  ∀ run ∈ db.runs, run.status = .COMPLETED → Tallies (db.recordsOf run.id) run

/-! ## The frame and its records -/

/-- The frame has as many rows of a status as there are records of it. -/
theorem statusCount_eq {runId : String} {results : Frame Cell}
    {records : List ReconciliationRecord}
    (h : List.Forall₂ (RecordOf runId) results.rows records) (status : ReconciliationStatus) :
    statusCount results status = records.countP fun r => r.status = status := by
  have hcells : results.rows.map (Row.get · "status") =
      records.map fun r => some (Cell.str r.status.value) :=
    map_eq_of_forall₂ (h.imp fun _ _ hrow => hrow.status)
  have hcount := congrArg (List.countP fun cell => cell = some (.str status.value)) hcells
  rw [List.countP_map, List.countP_map] at hcount
  refine hcount.trans (List.countP_congr fun r _ => ?_)
  simpa using ReconciliationStatus.value_injective.eq_iff (a := r.status)

/-- There is no fourth status. -/
theorem countP_statuses (records : List ReconciliationRecord) :
    (records.countP fun r => r.status = .MATCHED) +
      (records.countP fun r => r.status = .UNMATCHED) +
      (records.countP fun r => r.status = .EXCEPTION) = records.length := by
  induction records with
  | nil => rfl
  | cons r records ih =>
      rw [List.countP_cons, List.countP_cons, List.countP_cons, List.length_cons]
      cases r.status <;> simp <;> omega

/-- A summary of a frame whose rows are all stored tallies. -/
theorem tallies_of_summarise {runId : String} {results : Frame Cell}
    {records : List ReconciliationRecord} {run run' : ReconciliationRun}
    (hfiled : List.Forall₂ (RecordOf runId) results.rows records)
    (h : summarise results run = .ok run') : Tallies records run' := by
  have hsum := countP_statuses records
  unfold summarise at h
  split at h
  · obtain rfl := Except.ok.inj h
    refine ⟨hfiled.length_eq, statusCount_eq hfiled _, statusCount_eq hfiled _,
      statusCount_eq hfiled _, ?_⟩
    show statusCount results _ + statusCount results _ + statusCount results _ = results.rows.length
    rw [statusCount_eq hfiled, statusCount_eq hfiled, statusCount_eq hfiled, hsum,
      hfiled.length_eq]
  · cases h

/-! ## One statement -/

/-- Between its summary and its commit a call has figures that tally. -/
def Worker.Tallied (records : List ReconciliationRecord) (worker : Worker) : Prop :=
  match worker.phase with
  | .totalling _ => Tallies records worker.run
  | .committingSummary _ => Tallies records worker.run
  | _ => True

/-- The invariant of the figures. -/
structure Sys.Tallied (s : Sys) : Prop where
  sound : s.Sound
  stored : s.db.Tallied
  workers : ∀ w, (s.workers w).Tallied (s.db.recordsOf (s.workers w).run.id)

theorem tallied_of_not_owns {worker : Worker} (h : ¬ worker.phase.owns)
    (records : List ReconciliationRecord) : worker.Tallied records := by
  unfold Worker.Tallied
  generalize worker.phase = phase at h
  cases phase <;> first | exact True.intro | exact absurd True.intro h

section Advance

variable {toDatetime : Cell → Cell} {db db' : ReportingDb} {worker worker' : Worker}
variable {outcome : Outcome}

theorem tallied_nextRow (results : Frame Cell) (rest : List (Row Cell))
    (batch records : List ReconciliationRecord) :
    ({ worker with phase := nextRow results rest batch } : Worker).Tallied records := by
  unfold nextRow
  split <;> trivial

theorem Advances.tallied (h : Advances toDatetime db worker outcome db' worker')
    (hworker : worker.Sound (db.findRun worker.run.id) (db.recordsOf worker.run.id))
    (htallied : worker.Tallied (db.recordsOf worker.run.id)) :
    worker'.Tallied (db'.recordsOf worker.run.id) := by
  cases h with
  | built => exact tallied_nextRow _ _ _ _
  | summarised hphase hrun =>
      have hfiled := hworker.filed
      simp only [Worker.Filed, hphase] at hfiled
      exact tallies_of_summarise hfiled hrun
  | totalled now hphase htotal =>
      simp only [Worker.Tallied, hphase] at htallied
      exact ⟨htallied.total, htallied.matched, htallied.unmatched, htallied.exceptions,
        htallied.sum⟩
  | _ => trivial

end Advance

/-! ## Every run -/

theorem Sys.Tallied.stepped {toDatetime : Cell → Cell} {s s' : Sys} {w : WorkerId}
    {outcome : Outcome} (h : s.Tallied) (hstepped : Stepped toDatetime s w outcome s') :
    s'.Tallied := by
  have hsound := h.sound.stepped hstepped
  have hadvances := hstepped.advances
  have hworker := h.sound.workers w
  refine ⟨hsound, ?_, ?_⟩
  · refine hstepped.forall_completed h.sound (P := Tallies) h.stored fun results hphase => ?_
    have htallied := h.workers w
    simp only [Worker.Tallied, hphase] at htallied
    exact htallied
  · exact hstepped.forall_worker h.sound (P := fun _ _ records worker => worker.Tallied records)
      (fun _ howns => tallied_of_not_owns howns _) (hadvances.tallied hworker (h.workers w))
      fun w' _ => h.workers w'

theorem Sys.Tallied.step {toDatetime : Cell → Cell} {s s' : Sys} {a : Action} (h : s.Tallied)
    (hstep : step toDatetime s a = some s') : s'.Tallied := by
  rcases step_cases hstep with ⟨w, date, -, hstarted⟩ | ⟨w, outcome, -, hstepped⟩
  · refine ⟨h.sound.started hstarted, hstarted.db ▸ h.stored, ?_⟩
    exact hstarted.forall_worker
      (P := fun _ db worker => worker.Tallied (db.recordsOf worker.run.id)) trivial
      fun w' _ => h.workers w'
  · exact h.stepped hstepped

/-- Every reachable state tallies. -/
theorem Sys.Tallied.run {toDatetime : Cell → Cell} {db : ReportingDb} (hdb : db.Valid)
    (htallied : db.Tallied) {trace : List Action} {s : Sys}
    (hrun : Runs.run (Recon.step toDatetime) (Sys.start db) trace = some s) : s.Tallied :=
  run_invariant (I := Sys.Tallied) (fun _ _ _ hs hstep => hs.step hstep)
    ⟨.start hdb, htallied, fun _ => trivial⟩ hrun

/-- **A completed run tallies with its records.**  In every reachable state, whatever calls have been
made and wherever they failed, the counts of a COMPLETED row are those of the records stored under
its id, and they add up to its total. -/
theorem completed_tallied {toDatetime : Cell → Cell} {db : ReportingDb} (hdb : db.Valid)
    (htallied : db.Tallied) {trace : List Action} {s : Sys}
    (hrun : run (step toDatetime) (Sys.start db) trace = some s) : s.db.Tallied :=
  (Sys.Tallied.run hdb htallied hrun).stored

/-- The call for 2024-03-15, over a settlement file that has one of the two amounts wrong. -/
def storeTwo : List Action :=
  storing 0 19797 samplePayments (settledAt "100.00" "20.00") [9, 10]

/-- One payment is matched and one is not: two records, and the row says so. -/
theorem completed_tallied_two :
    ∃ s, run (step asTimestamp) (Sys.start ⟨[], []⟩) (storeTwo ++ completing 0) = some s ∧
      s.db.runs.map (fun r => (r.status, r.totalRecords, r.matchedCount, r.exceptionCount)) =
        [(.COMPLETED, 2, 1, 1)] ∧
      s.db.records.map (·.status) = [.MATCHED, .EXCEPTION] ∧
      s.db.Tallied := by
  obtain ⟨s, hrun, hruns, hrecords⟩ : ∃ s ∈ run (step asTimestamp) (Sys.start ⟨[], []⟩)
        (storeTwo ++ completing 0),
      s.db.runs.map (fun r => (r.status, r.totalRecords, r.matchedCount, r.exceptionCount)) =
        [(.COMPLETED, 2, 1, 1)] ∧
      s.db.records.map (·.status) = [.MATCHED, .EXCEPTION] := by
    decide +kernel
  exact ⟨s, hrun, hruns, hrecords,
    completed_tallied .empty (fun _ h => absurd h List.not_mem_nil) hrun⟩

end GlobalPayments.Recon

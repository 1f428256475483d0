/-
# GlobalPayments.Recon.Handler — what the run row says when a call is over.

The `except` block marks the run FAILED with the session the exception came through.  It never rolls
back: after a failed statement the marking itself is refused, and the row stays RUNNING.  And the
`try` reaches beyond the summary commit: an exception while the rate is read back finds the row
COMPLETED.

And it catches an `Exception` only: when the process is told to exit, the call leaves as it stands.

`run_status_reported` says that these three are the only ways to leave a wrong status.
-/
import GlobalPayments.Recon.Invariant

namespace GlobalPayments.Recon

open Frame Runs

/-! ## What a finished call should leave -/

/-- The stored row of a finished call: COMPLETED when it returned, FAILED with the message when it
raised. -/
def Worker.Reported (row : Option ReconciliationRun) (worker : Worker) : Prop :=
  match worker.phase with
  | .returned _ => ∃ r, row = some r ∧ r.status = .COMPLETED
  | .raised message => ∃ r, row = some r ∧ r.status = .FAILED ∧ r.errorMessage = some message
  | .exited message => ∃ r, row = some r ∧ r.status = .FAILED ∧ r.errorMessage = some message
  | _ => True

def Sys.Reported (s : Sys) : Prop :=
  ∀ w, (s.workers w).Reported (s.db.findRun (s.workers w).run.id)

/-- A run is stored as COMPLETED. -/
def ReportingDb.Completed (db : ReportingDb) (id : String) : Prop :=
  ∃ r, db.findRun id = some r ∧ r.status = .COMPLETED

/-- The exceptions a call survives once it has its run row: an `Exception`, of no failed statement,
flush or commit, and before the summary commit. -/
def Survivable (s : Sys) : Action → Prop
  | .step w (.raised database _) => (s.workers w).phase.owns →
      database = false ∧ ∀ results, (s.workers w).phase ≠ .reporting results
  | .step w (.exited _) => ¬ (s.workers w).phase.owns
  | _ => True

/-! ## One statement -/

/-- The handler runs over a usable session and a RUNNING row. -/
def Worker.Recovering (row : Option ReconciliationRun) (worker : Worker) : Prop :=
  ∀ message, worker.phase = .handling message →
    worker.poisoned = false ∧ ∃ r, row = some r ∧ r.status = .RUNNING

section Advance

variable {toDatetime : Cell → Cell} {db db' : ReportingDb} {worker worker' : Worker}
variable {outcome : Outcome}

/-- Before the summary commit the row is RUNNING. -/
theorem Phase.raises.rowStatus {phase : Phase} (h : phase.raises false)
    (hreporting : ∀ results, phase ≠ .reporting results) : phase.rowStatus = some .RUNNING := by
  cases phase with
  | reporting results => exact absurd rfl (hreporting results)
  | _ => first | rfl | cases h

theorem Worker.Sound.row {row : Option ReconciliationRun} {records : List ReconciliationRecord}
    (h : worker.Sound row records) (howns : worker.phase.owns) {status : RunStatus}
    (hstatus : worker.phase.rowStatus = some status) : ∃ r, row = some r ∧ r.status = status := by
  obtain ⟨r, hr⟩ := Option.isSome_iff_exists.mp (h.owned howns)
  exact ⟨r, hr, h.rowStatus status hstatus r hr⟩

/-- A survivable exception leads to a handler that can do its work. -/
theorem Advances.to_recovering (h : Advances toDatetime db worker outcome db' worker')
    (hworker : worker.Sound (db.findRun worker.run.id) (db.recordsOf worker.run.id))
    (hsurvives : ∀ database message, outcome = .raised database message → worker.phase.owns →
      database = false ∧ ∀ results, worker.phase ≠ .reporting results) :
    worker'.Recovering (db'.findRun worker.run.id) := by
  intro message hhandling
  cases h with
  | built =>
      unfold Recon.nextRow at hhandling
      split at hhandling <;> cases hhandling
  | struck database message' hraises =>
      -- the session is usable, and the summary is not committed: the row is still RUNNING
      obtain ⟨rfl, hreporting⟩ := hsurvives database message' rfl hraises.owns
      exact ⟨rfl, hworker.row hraises.owns (hraises.rowStatus hreporting)⟩
  | _ => cases hhandling

/-- How a call ends that is not told to exit. -/
theorem Advances.to_reported (h : Advances toDatetime db worker outcome db' worker')
    (hworker : worker.Sound (db.findRun worker.run.id) (db.recordsOf worker.run.id))
    (hrecovering : worker.Recovering (db.findRun worker.run.id))
    (hsurvives : ∀ message, outcome = .exited message → ¬ worker.phase.owns) :
    worker'.Reported (db'.findRun worker.run.id) := by
  cases h with
  | built =>
      unfold Worker.Reported Recon.nextRow
      split
      · rename_i hphase
        split at hphase <;> cases hphase
      · rename_i hphase
        split at hphase <;> cases hphase
      · rename_i hphase
        split at hphase <;> cases hphase
      · trivial
  | reported hphase =>
      exact hworker.row (by rw [hphase]; trivial) (by rw [hphase]; rfl)
  | @handled message now refusal hphase _ =>
      obtain ⟨-, r, hr, -⟩ := hrecovering message hphase
      have hrow : db.findRun (worker.run.fail message now).id = some r := hr
      exact ⟨worker.run.fail message now, findRun_commit_self hrow, rfl, rfl⟩
  | @handlerRefused message now refusal hphase hpoisoned =>
      rw [(hrecovering message hphase).1] at hpoisoned
      cases hpoisoned
  | exited message hunderWay =>
      exact absurd (Phase.owns_of_underWay hunderWay) (hsurvives message rfl)
  | _ => trivial

/-- A COMPLETED row is not written again. -/
theorem Advances.completed_kept (h : Advances toDatetime db worker outcome db' worker')
    (hworker : worker.Sound (db.findRun worker.run.id) (db.recordsOf worker.run.id))
    (hrecovering : worker.Recovering (db.findRun worker.run.id)) {id : String}
    (hid : db.Completed id) : db'.Completed id := by
  obtain ⟨stored, hstored, hcompleted⟩ := hid
  by_cases heq : id = worker.run.id
  · subst heq
    -- the call's own row is COMPLETED, so it is past every write
    have hrunning : worker.phase.owns → worker.phase.rowStatus ≠ some .RUNNING := by
      intro howns hstatus
      obtain ⟨r, hr, hrun⟩ := hworker.row howns hstatus
      rw [hstored, Option.some.injEq] at hr
      rw [← hr, hcompleted] at hrun
      cases hrun
    cases h with
    | created _ _ hnone =>
        rw [hnone] at hstored
        cases hstored
    | committedBatch hphase =>
        exact absurd (by rw [hphase]; rfl) (hrunning (by rw [hphase]; trivial))
    | committedSummary hphase =>
        exact absurd (by rw [hphase]; rfl) (hrunning (by rw [hphase]; trivial))
    | @handled message _ _ hphase _ =>
        obtain ⟨-, r, hr, hrun⟩ := hrecovering message hphase
        rw [hstored, Option.some.injEq] at hr
        rw [← hr, hcompleted] at hrun
        cases hrun
    | _ => exact ⟨stored, hstored, hcompleted⟩
  · rw [← (h.sameBut hworker id heq).1] at hstored
    exact ⟨stored, hstored, hcompleted⟩

end Advance

/-! ## Every run of survivable steps -/

/-- The invariant of runs whose exceptions are all survivable. -/
structure Sys.Orderly (s : Sys) : Prop where
  sound : s.Sound
  recovering : ∀ w, (s.workers w).Recovering (s.db.findRun (s.workers w).run.id)
  reported : s.Reported

theorem recovering_of_not_owns (row : Option ReconciliationRun) (worker : Worker)
    (h : ¬ worker.phase.owns) : worker.Recovering row := by
  intro message hphase
  rw [hphase] at h
  exact absurd trivial h

theorem reported_of_not_owns (row : Option ReconciliationRun) (worker : Worker)
    (h : ¬ worker.phase.owns) : worker.Reported row := by
  unfold Worker.Reported
  generalize worker.phase = phase at h
  cases phase <;> first | exact True.intro | exact absurd True.intro h

theorem Sys.Orderly.start {db : ReportingDb} (h : db.Valid) : (Sys.start db).Orderly where
  sound := .start h
  recovering _ := recovering_of_not_owns _ _ fun h => h
  reported _ := trivial

/-- **Survivable steps keep it, and keep what is COMPLETED.** -/
theorem Sys.Orderly.step {toDatetime : Cell → Cell} {s s' : Sys} {a : Action} (h : s.Orderly)
    (hsurvives : Survivable s a) (hstep : step toDatetime s a = some s') :
    s'.Orderly ∧ ∀ id, s.db.Completed id → s'.db.Completed id := by
  have hsound := h.sound.step hstep
  rcases step_cases hstep with ⟨w, date, -, hstarted⟩ | ⟨w, outcome, rfl, hstepped⟩
  · refine ⟨⟨hsound, ?_, ?_⟩, fun id hid => hstarted.db ▸ hid⟩
    · exact hstarted.forall_worker
        (P := fun _ db worker => worker.Recovering (db.findRun worker.run.id))
        (recovering_of_not_owns _ _ fun h => h) fun w' _ => h.recovering w'
    · exact hstarted.forall_worker
        (P := fun _ db worker => worker.Reported (db.findRun worker.run.id))
        trivial fun w' _ => h.reported w'
  · have hworker := h.sound.workers w
    have hadvances := hstepped.advances
    refine ⟨⟨hsound, ?_, ?_⟩,
      fun id hid => hadvances.completed_kept hworker (h.recovering w) hid⟩
    · refine hstepped.forall_worker h.sound (P := fun _ row _ worker => worker.Recovering row)
        (fun _ howns => recovering_of_not_owns _ _ howns) (hadvances.to_recovering hworker ?_)
        fun w' _ => h.recovering w'
      rintro database message rfl howns
      exact hsurvives howns
    · refine hstepped.forall_worker h.sound (P := fun _ row _ worker => worker.Reported row)
        (fun _ howns => reported_of_not_owns _ _ howns)
        (hadvances.to_reported hworker (h.recovering w) ?_) fun w' _ => h.reported w'
      rintro message rfl
      exact hsurvives

theorem Sys.Orderly.run {toDatetime : Cell → Cell} {s t : Sys} {trace : List Action}
    (h : s.Orderly) (hrun : RunsUnder (Recon.step toDatetime) Survivable s trace t) :
    t.Orderly ∧ ∀ id, s.db.Completed id → t.db.Completed id := by
  refine hrun.invariant (I := fun u => u.Orderly ∧ ∀ id, s.db.Completed id → u.db.Completed id)
    (fun u a u' hu hsurvives hstep => ?_) ⟨h, fun _ hid => hid⟩
  obtain ⟨horderly, hkept⟩ := hu.1.step hsurvives hstep
  exact ⟨horderly, fun id hid => hkept id (hu.2 id hid)⟩

/-- **The run row tells how the call ended.**  In every run in which each exception that strikes a
call after its run row is committed is an `Exception`, leaves the session usable and comes before
the summary commit is through: a call that returned left its row COMPLETED, a call that raised left
it FAILED with the message it raised, and a COMPLETED row stays COMPLETED. -/
theorem run_status_reported {toDatetime : Cell → Cell} {db : ReportingDb} (hdb : db.Valid)
    {trace later : List Action} {t u : Sys}
    (hrun : RunsUnder (step toDatetime) Survivable (Sys.start db) trace t)
    (hlater : RunsUnder (step toDatetime) Survivable t later u) :
    t.Reported ∧ ∀ id, t.db.Completed id → u.db.Completed id := by
  obtain ⟨horderly, -⟩ := (Sys.Orderly.start hdb).run hrun
  exact ⟨horderly.reported, (horderly.run hlater).2⟩

/-- The settlement file of 2024-03-15 cannot be read: the run ends FAILED, and stays so while another
day's run starts. -/
theorem run_status_reported_unreadable_file :
    ∃ t u, RunsUnder (step id) Survivable (Sys.start ⟨[], []⟩)
        [.start 0 19797, .step 0 (.created 1), .step 0 (.queried []),
          .step 0 (.raised false "RetryError"), .step 0 (.handled 2 "")] t ∧
      RunsUnder (step id) Survivable t [.start 1 19798, .step 1 (.created 3)] u ∧
      (t.db.findRun "RECON-20240315").map (fun r => (r.status, r.errorMessage)) =
        some (.FAILED, some "RetryError") ∧
      t.Reported ∧ ∀ id, t.db.Completed id → u.db.Completed id := by
  have hrun : ∃ t u, RunsUnder (step id) Survivable (Sys.start ⟨[], []⟩)
        [.start 0 19797, .step 0 (.created 1), .step 0 (.queried []),
          .step 0 (.raised false "RetryError"), .step 0 (.handled 2 "")] t ∧
      RunsUnder (step id) Survivable t [.start 1 19798, .step 1 (.created 3)] u ∧
      (t.db.findRun "RECON-20240315").map (fun r => (r.status, r.errorMessage)) =
        some (.FAILED, some "RetryError") :=
    ⟨_, _, .cons trivial rfl (.cons trivial rfl (.cons trivial rfl
      (.cons (fun _ => ⟨rfl, nofun⟩) rfl (.cons trivial rfl (.nil _))))),
      .cons trivial rfl (.cons trivial rfl (.nil _)), by decide⟩
  obtain ⟨t, u, hrun, hlater, hstatus⟩ := hrun
  exact ⟨t, u, hrun, hlater, hstatus, run_status_reported .empty hrun hlater⟩

/-- The query for the payments fails in the database: the handler's commit is refused too, and the
row stays RUNNING.  Reading the rate back fails in the database: the call raises, and its row says
COMPLETED.  The process is told to exit while the settlement file is loaded: nothing marks the row. -/
theorem run_status_lost :
    (∃ t, run (step id) (Sys.start ⟨[], []⟩)
        [.start 0 19797, .step 0 (.created 1),
          .step 0 (.raised true "server closed the connection unexpectedly"),
          .step 0 (.handled 2 "current transaction is aborted")] = some t ∧
      (t.workers 0).phase = .raised "current transaction is aborted" ∧
      (t.db.findRun (t.workers 0).run.id).map (·.status) = some .RUNNING) ∧
    (∃ t, run (step id) (Sys.start ⟨[], []⟩)
        [.start 0 19797, .step 0 (.created 1), .step 0 (.queried []), .step 0 (.downloaded none),
          .step 0 .reconciled, .step 0 .persisted, .step 0 .summarised, .step 0 (.totalled 2),
          .step 0 .committed, .step 0 .uploaded,
          .step 0 (.raised true "server closed the connection unexpectedly"),
          .step 0 (.handled 3 "current transaction is aborted")] = some t ∧
      (t.workers 0).phase = .raised "current transaction is aborted" ∧
      (t.db.findRun (t.workers 0).run.id).map (·.status) = some .COMPLETED) ∧
    (∃ t, run (step id) (Sys.start ⟨[], []⟩)
        [.start 0 19797, .step 0 (.created 1), .step 0 (.queried []), .step 0 (.exited "1")] = some t ∧
      (t.workers 0).phase = .exited "1" ∧
      (t.db.findRun (t.workers 0).run.id).map (·.status) = some .RUNNING) ∧
    ¬ ∀ trace t, run (step id) (Sys.start ⟨[], []⟩) trace = some t → t.Reported := by
  have hrunning : ∃ t, run (step id) (Sys.start ⟨[], []⟩)
        [.start 0 19797, .step 0 (.created 1),
          .step 0 (.raised true "server closed the connection unexpectedly"),
          .step 0 (.handled 2 "current transaction is aborted")] = some t ∧
      (t.workers 0).phase = .raised "current transaction is aborted" ∧
      (t.db.findRun (t.workers 0).run.id).map (·.status) = some .RUNNING :=
    ⟨_, rfl, rfl, by decide⟩
  refine ⟨hrunning, ⟨_, rfl, rfl, by decide⟩, ⟨_, rfl, rfl, by decide⟩, fun hall => ?_⟩
  obtain ⟨t, hrun, hphase, hstatus⟩ := hrunning
  have hreported := hall _ t hrun 0
  unfold Worker.Reported at hreported
  rw [hphase] at hreported
  obtain ⟨r, hr, hfailed, -⟩ := hreported
  rw [hr, Option.map_some, hfailed] at hstatus
  cases hstatus

end GlobalPayments.Recon

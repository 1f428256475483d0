/-
# GlobalPayments.Recon.Invariant — what holds in every reachable state of the reporting database.

Two calls for one date race for one primary key: only one of them gets past its first commit, and from
then on the run row and every record with its id are that call's own (`Sys.Sound.distinct`).  So a
worker's progress can be read off the database (`Worker.Progress`): while the batching loop runs, the
stored records and the pending ones are, in order, the records of the rows it has gone through.
-/
import GlobalPayments.Recon.Worker

namespace GlobalPayments.Recon

open Frame Runs

/-! ## Reading the tables -/

section Tables

variable {db : ReportingDb} {run : ReconciliationRun} {records : List ReconciliationRecord}

theorem findRun_append_self (h : db.findRun run.id = none) :
    ({ db with runs := db.runs ++ [run] } : ReportingDb).findRun run.id = some run := by
  simp only [ReportingDb.findRun] at h ⊢
  rw [List.find?_append, h]
  simp

theorem findRun_append_of_ne {id : String} (h : id ≠ run.id) :
    ({ db with runs := db.runs ++ [run] } : ReportingDb).findRun id = db.findRun id := by
  simp only [ReportingDb.findRun]
  rw [List.find?_append]
  simp [Ne.symm h]

theorem findRun_commit_self {stored : ReconciliationRun} (h : db.findRun run.id = some stored) :
    (db.commit run records).findRun run.id = some run :=
  Versioned.find_replaceRow_self h

theorem findRun_commit_of_ne {id : String} (h : id ≠ run.id) :
    (db.commit run records).findRun id = db.findRun id :=
  Versioned.find_replaceRow_of_ne h

theorem recordsOf_commit (id : String) :
    (db.commit run records).recordsOf id =
      db.recordsOf id ++ records.filter fun r => r.reconciliationRunId = id := by
  simp only [ReportingDb.recordsOf, ReportingDb.commit, List.filter_append]

theorem recordsOf_commit_self {id : String} (h : ∀ r ∈ records, r.reconciliationRunId = id) :
    (db.commit run records).recordsOf id = db.recordsOf id ++ records := by
  rw [recordsOf_commit, List.filter_eq_self.mpr (by simpa using h)]

theorem recordsOf_commit_of_ne {id : String} (h : ∀ r ∈ records, r.reconciliationRunId ≠ id) :
    (db.commit run records).recordsOf id = db.recordsOf id := by
  rw [recordsOf_commit, List.filter_eq_nil_iff.mpr (by simpa using h), List.append_nil]

end Tables

/-- **Frame.**  Two databases that differ in one run only. -/
def SameBut (id : String) (db db' : ReportingDb) : Prop :=
  ∀ id', id' ≠ id → db'.findRun id' = db.findRun id' ∧ db'.recordsOf id' = db.recordsOf id'

theorem SameBut.refl (id : String) (db : ReportingDb) : SameBut id db db := fun _ _ => ⟨rfl, rfl⟩

theorem SameBut.commit {db : ReportingDb} {run : ReconciliationRun}
    {records : List ReconciliationRecord} (h : ∀ r ∈ records, r.reconciliationRunId = run.id) :
    SameBut run.id db (db.commit run records) := by
  intro id hid
  refine ⟨findRun_commit_of_ne hid, recordsOf_commit_of_ne fun r hr => ?_⟩
  rw [h r hr]
  exact Ne.symm hid

/-! ## The progress of a call -/

/-- The record of a row, whatever its random id and the time of its insertion. -/
def RecordOf (runId : String) (row : Row Cell) (record : ReconciliationRecord) : Prop :=
  ∃ id, toRecord id runId row = .ok { record with reconciledAt := none }

/-- What a record says of its row. -/
theorem toRecord_ok {id : Payments.UUID} {runId : String} {row : Row Cell}
    {record : ReconciliationRecord} (h : toRecord id runId row = .ok record) :
    row.get "payment_reference" = some record.paymentReference ∧
      row.get "status" = some (.str record.status.value) ∧
      getD row "internal_status" .none = record.internalStatus ∧
      record.reconciliationRunId = runId ∧ record.reconciledAt = none := by
  unfold toRecord at h
  obtain ⟨reference, hreference, h⟩ := bind_eq_ok.mp h
  obtain ⟨cell, hcell, h⟩ := bind_eq_ok.mp h
  obtain ⟨status, hstatus, h⟩ := bind_eq_ok.mp h
  obtain rfl := Except.ok.inj h
  rw [item_ok hcell, ReconciliationStatus.ofCell_ok hstatus]
  exact ⟨item_ok hreference, rfl, rfl, rfl, rfl⟩

section RecordOf

variable {run : String} {row : Row Cell} {record : ReconciliationRecord}

theorem RecordOf.runId (h : RecordOf run row record) : record.reconciliationRunId = run := by
  obtain ⟨id, h⟩ := h
  obtain ⟨-, -, -, hrun, -⟩ := toRecord_ok h
  exact hrun

theorem RecordOf.reference (h : RecordOf run row record) :
    row.get "payment_reference" = some record.paymentReference := by
  obtain ⟨id, h⟩ := h
  obtain ⟨hreference, -⟩ := toRecord_ok h
  exact hreference

theorem RecordOf.status (h : RecordOf run row record) :
    row.get "status" = some (.str record.status.value) := by
  obtain ⟨id, h⟩ := h
  obtain ⟨-, hstatus, -⟩ := toRecord_ok h
  exact hstatus

theorem RecordOf.internalStatus (h : RecordOf run row record) :
    getD row "internal_status" .none = record.internalStatus := by
  obtain ⟨id, h⟩ := h
  obtain ⟨-, -, hinternal, -⟩ := toRecord_ok h
  exact hinternal

theorem RecordOf.of_toRecord {id : Payments.UUID} (h : toRecord id run row = .ok record) :
    RecordOf run row record := by
  obtain ⟨-, -, -, -, hstamp⟩ := toRecord_ok h
  refine ⟨id, ?_⟩
  rw [h, ← hstamp]

end RecordOf

/-- The insertion time is no part of what a record says about its row. -/
theorem forall₂_stamped {runId : String} {done : List (Row Cell)}
    {records batch : List ReconciliationRecord} (now : Int)
    (h : List.Forall₂ (RecordOf runId) done (records ++ batch)) :
    List.Forall₂ (RecordOf runId) done
      (records ++ batch.map fun r => { r with reconciledAt := some now }) := by
  have hrecords := List.forall₂_take_append done records batch h
  have hbatch := List.forall₂_drop_append done records batch h
  rw [← List.take_append_drop records.length done]
  exact List.rel_append hrecords
    (List.forall₂_map_right_iff.mpr (hbatch.imp fun _ _ hrecord => hrecord))

/-- The call has created its run row. -/
def Phase.owns : Phase → Prop
  | .idle => False
  | .creating => False
  | .refused _ => False
  | .abandoned _ => False
  | _ => True

/-- The status of the stored run row, by where the call stands. -/
def Phase.rowStatus : Phase → Option RunStatus
  | .idle => none
  | .creating => none
  | .uploading _ => some .COMPLETED
  | .reporting _ => some .COMPLETED
  | .returned _ => some .COMPLETED
  | .handling _ => none
  | .raised _ => none
  | .refused _ => none
  | .exited _ => none
  | .abandoned _ => none
  | _ => some .RUNNING

/-- The status of the `run` entity in the session. -/
def Phase.entityStatus : Phase → Option RunStatus
  | .creating => some .RUNNING
  | .committingSummary _ => some .COMPLETED
  | phase => phase.rowStatus

/-- What is stored of the result, by where the call stands: the rows the loop has gone through are, in
order, the stored records of the run and the pending ones. -/
def Worker.Filed (records : List ReconciliationRecord) (worker : Worker) : Prop :=
  match worker.phase with
  | .loadingPayments => records = []
  | .loadingClearing _ => records = []
  | .reconciling _ _ => records = []
  | .building results rest batch => ∃ done, results.rows = done ++ rest ∧
      List.Forall₂ (RecordOf worker.run.id) done (records ++ batch)
  | .inserting results rest batch => ∃ done, results.rows = done ++ rest ∧
      List.Forall₂ (RecordOf worker.run.id) done (records ++ batch)
  | .committingBatch results rest => ∃ done, results.rows = done ++ rest ∧
      List.Forall₂ (RecordOf worker.run.id) done (records ++ worker.uncommitted)
  | .summarising results => List.Forall₂ (RecordOf worker.run.id) results.rows records
  | .totalling results => List.Forall₂ (RecordOf worker.run.id) results.rows records
  | .committingSummary results => List.Forall₂ (RecordOf worker.run.id) results.rows records
  | .uploading results => List.Forall₂ (RecordOf worker.run.id) results.rows records
  | .reporting results => List.Forall₂ (RecordOf worker.run.id) results.rows records
  | _ => True

/-- **The invariant of a call**, over the run row and the records stored under its run id. -/
structure Worker.Sound (row : Option ReconciliationRun) (records : List ReconciliationRecord)
    (worker : Worker) : Prop where
  owned : worker.phase.owns → row.isSome
  rowStatus : ∀ status, worker.phase.rowStatus = some status → ∀ r ∈ row, r.status = status
  entityStatus : ∀ status, worker.phase.entityStatus = some status → worker.run.status = status
  uncommitted : (∀ results rest, worker.phase ≠ .committingBatch results rest) →
    worker.uncommitted = []
  filed : worker.Filed records

/-- **The invariant of the system.** -/
structure Sys.Sound (s : Sys) : Prop where
  unique : (s.db.runs.map ReconciliationRun.id).Nodup
  referenced : ∀ r ∈ s.db.records, (s.db.findRun r.reconciliationRunId).isSome
  distinct : ∀ w w', (s.workers w).phase.owns → (s.workers w').phase.owns →
    (s.workers w).run.id = (s.workers w').run.id → w = w'
  workers : ∀ w, (s.workers w).Sound (s.db.findRun (s.workers w).run.id)
    (s.db.recordsOf (s.workers w).run.id)
  notNull : ∀ r ∈ s.db.records, r.notNull = true
  inserted : ∀ w, ∀ r ∈ (s.workers w).uncommitted, r.notNull = true

/-! ## One statement of a call -/

section Advance

variable {toDatetime : Cell → Cell} {db db' : ReportingDb} {worker worker' : Worker}
variable {outcome : Outcome}

theorem summarise_ok {results : Frame Cell} {run run' : ReconciliationRun}
    (h : summarise results run = .ok run') : run'.id = run.id ∧ run'.status = run.status := by
  unfold summarise at h
  split at h
  · obtain rfl := Except.ok.inj h
    exact ⟨rfl, rfl⟩
  · cases h

theorem Advances.runId (h : Advances toDatetime db worker outcome db' worker') :
    worker'.run.id = worker.run.id := by
  cases h with
  | summarised _ hrun => exact (summarise_ok hrun).1
  | _ => rfl

theorem Advances.targetDate (h : Advances toDatetime db worker outcome db' worker') :
    worker'.targetDate = worker.targetDate := by
  cases h <;> rfl

theorem nextRow_owns (results : Frame Cell) (rest : List (Row Cell))
    (batch : List ReconciliationRecord) : (nextRow results rest batch).owns := by
  unfold nextRow
  split <;> trivial

theorem Phase.raises.owns {phase : Phase} {database : Bool} (h : phase.raises database) :
    phase.owns := by
  cases phase <;> first | exact True.intro | cases h

theorem Phase.owns_of_underWay {phase : Phase} (h : phase.underWay = true) : phase.owns := by
  cases phase <;> first | exact True.intro | cases h

/-- A commit fails in the database or not at all. -/
theorem Phase.raises.not_committingBatch {phase : Phase} (h : phase.raises false)
    (results : Frame Cell) (rest : List (Row Cell)) : phase ≠ .committingBatch results rest := by
  rintro rfl
  cases h

/-- A call is idle only before it starts. -/
theorem Advances.not_idle (h : Advances toDatetime db worker outcome db' worker') :
    worker.phase ≠ .idle := by
  intro hidle
  cases h with
  | struck database message hraises =>
      rw [hidle] at hraises
      cases hraises
  | exited message hunderWay =>
      rw [hidle] at hunderWay
      cases hunderWay
  | _ => rw [‹worker.phase = _›] at hidle; cases hidle

/-- A call that has its run row keeps it. -/
theorem Advances.owns (h : Advances toDatetime db worker outcome db' worker')
    (howns : worker.phase.owns) : worker'.phase.owns := by
  cases h with
  | built => exact nextRow_owns _ _ _
  | created _ hphase => rw [hphase] at howns; cases howns
  | refused _ _ hphase => rw [hphase] at howns; cases howns
  | abandoned _ hphase => rw [hphase] at howns; cases howns
  | _ => trivial

/-- The records a call commits carry its run id. -/
theorem Worker.Sound.uncommitted_runId {row : Option ReconciliationRun}
    {records : List ReconciliationRecord} (h : worker.Sound row records) :
    ∀ r ∈ worker.uncommitted, r.reconciliationRunId = worker.run.id := by
  intro r hr
  have hfiled := h.filed
  unfold Worker.Filed at hfiled
  split at hfiled
  case h_6 =>
    obtain ⟨done, -, hdone⟩ := hfiled
    obtain ⟨_, -, hrow⟩ := exists_of_mem_right hdone (List.mem_append_right _ hr)
    exact hrow.runId
  all_goals
    rw [h.uncommitted (by simp_all)] at hr
    cases hr

/-- **A statement touches only the run of its call.** -/
theorem Advances.sameBut (h : Advances toDatetime db worker outcome db' worker')
    (hworker : worker.Sound (db.findRun worker.run.id) (db.recordsOf worker.run.id)) :
    SameBut worker.run.id db db' := by
  cases h with
  | created => exact fun id hid => ⟨findRun_append_of_ne hid, rfl⟩
  | committedBatch => exact .commit hworker.uncommitted_runId
  | committedSummary => exact .commit (by simp)
  | @handled message now =>
      show SameBut (worker.run.fail message now).id db _
      exact .commit hworker.uncommitted_runId
  | _ => exact .refl _ _

theorem filed_nextRow {records batch : List ReconciliationRecord} {results : Frame Cell}
    {rest : List (Row Cell)} (h : ∃ done, results.rows = done ++ rest ∧
      List.Forall₂ (RecordOf worker.run.id) done (records ++ batch)) :
    ({ worker with phase := nextRow results rest batch } : Worker).Filed records := by
  unfold nextRow
  split
  · exact h
  · exact h

theorem rowStatus_nextRow (results : Frame Cell) (rest : List (Row Cell))
    (batch : List ReconciliationRecord) :
    (nextRow results rest batch).rowStatus = some .RUNNING ∧
      (nextRow results rest batch).entityStatus = some .RUNNING := by
  unfold nextRow
  split <;> exact ⟨rfl, rfl⟩

/-- A run row is never taken away. -/
theorem Advances.findRun_isSome (h : Advances toDatetime db worker outcome db' worker')
    {id : String} (hid : (db.findRun id).isSome) : (db'.findRun id).isSome := by
  have hcommit : ∀ run records, ((db.commit run records).findRun id).isSome := by
    intro run records
    by_cases heq : id = run.id
    · obtain ⟨stored, hstored⟩ := Option.isSome_iff_exists.mp hid
      rw [heq] at hstored ⊢
      rw [findRun_commit_self hstored]
      rfl
    · rw [findRun_commit_of_ne heq]
      exact hid
  cases h with
  | created now hphase hnone =>
      have hne : id ≠ (worker.run.start now).id := by
        rintro rfl
        rw [show db.findRun (worker.run.start now).id = none from hnone] at hid
        cases hid
      rw [findRun_append_of_ne hne]
      exact hid
  | committedBatch => exact hcommit _ _
  | committedSummary => exact hcommit _ _
  | handled => exact hcommit _ _
  | _ => exact hid

/-- From its first commit on a call has a run row. -/
theorem Advances.owned (h : Advances toDatetime db worker outcome db' worker')
    (hworker : worker.Sound (db.findRun worker.run.id) (db.recordsOf worker.run.id))
    (howns : worker'.phase.owns) : (db'.findRun worker.run.id).isSome := by
  by_cases hbefore : worker.phase.owns
  · exact h.findRun_isSome (hworker.owned hbefore)
  · cases h with
    | created now hphase hnone =>
        have hfind : db.findRun (worker.run.start now).id = none := hnone
        exact Option.isSome_iff_exists.mpr ⟨_, findRun_append_self hfind⟩
    | refused => exact howns.elim
    | struck _ _ hraises => exact absurd hraises.owns hbefore
    | abandoned => exact howns.elim
    | exited _ hunderWay => exact absurd (Phase.owns_of_underWay hunderWay) hbefore
    | _ => exact absurd (by rw [‹worker.phase = _›]; trivial) hbefore

/-- The entity has its new status before the summary commit, and its first one before that. -/
theorem Advances.entityStatus (h : Advances toDatetime db worker outcome db' worker')
    (hworker : worker.Sound (db.findRun worker.run.id) (db.recordsOf worker.run.id))
    {status : RunStatus} (hstatus : worker'.phase.entityStatus = some status) :
    worker'.run.status = status := by
  cases h with
  | @built results row rest batch record id hphase =>
      rw [(rowStatus_nextRow results rest (batch ++ [record])).2] at hstatus
      exact hworker.entityStatus status (by rw [hphase]; exact hstatus)
  | summarised hphase hrun =>
      have hkept := hworker.entityStatus status (by rw [hphase]; exact hstatus)
      exact (summarise_ok hrun).2.trans hkept
  | totalled => exact Option.some.inj hstatus
  | handled => cases hstatus
  | handlerRefused => cases hstatus
  | refused => cases hstatus
  | struck => cases hstatus
  | abandoned => cases hstatus
  | exited => cases hstatus
  | _ => exact hworker.entityStatus status (by rw [‹worker.phase = _›]; exact hstatus)

/-- The stored row has the status of the entity that was committed last. -/
theorem Advances.rowStatus (h : Advances toDatetime db worker outcome db' worker')
    (hworker : worker.Sound (db.findRun worker.run.id) (db.recordsOf worker.run.id))
    {status : RunStatus} (hstatus : worker'.phase.rowStatus = some status) :
    ∀ r ∈ db'.findRun worker.run.id, r.status = status := by
  have hcommit : worker.phase.owns → worker.phase.entityStatus = some status →
      ∀ records, ∀ r ∈ (db.commit worker.run records).findRun worker.run.id,
        r.status = status := by
    intro howns hentity records r hr
    obtain ⟨stored, hstored⟩ := Option.isSome_iff_exists.mp (hworker.owned howns)
    obtain rfl := Option.some.inj ((findRun_commit_self hstored).symm.trans hr)
    exact hworker.entityStatus status hentity
  cases h with
  | created now hphase hnone =>
      intro r hr
      have hfind : db.findRun (worker.run.start now).id = none := hnone
      obtain rfl := Option.some.inj ((findRun_append_self hfind).symm.trans hr)
      exact hworker.entityStatus status (by rw [hphase]; exact hstatus)
  | @built results row rest batch record id hphase =>
      rw [(rowStatus_nextRow results rest (batch ++ [record])).1] at hstatus
      exact hworker.rowStatus status (by rw [hphase]; exact hstatus)
  | committedBatch hphase =>
      exact hcommit (by rw [hphase]; trivial) (by rw [hphase]; exact hstatus) _
  | committedSummary hphase =>
      exact hcommit (by rw [hphase]; trivial) (by rw [hphase]; exact hstatus) _
  | handled => cases hstatus
  | handlerRefused => cases hstatus
  | refused => cases hstatus
  | struck => cases hstatus
  | abandoned => cases hstatus
  | exited => cases hstatus
  | _ => exact hworker.rowStatus status (by rw [‹worker.phase = _›]; exact hstatus)

/-- Only between an insert and its commit a call has something to commit. -/
theorem Advances.uncommitted (h : Advances toDatetime db worker outcome db' worker')
    (hworker : worker.Sound (db.findRun worker.run.id) (db.recordsOf worker.run.id))
    (hbatch : ∀ results rest, worker'.phase ≠ .committingBatch results rest) :
    worker'.uncommitted = [] := by
  cases h with
  | inserted now => exact absurd rfl (hbatch _ _)
  | committedBatch => rfl
  | handled => rfl
  | exited => rfl
  -- a failed statement takes the uncommitted records with it; any other exception finds none
  | struck database message hraises =>
      cases database with
      | true => rfl
      | false => exact hworker.uncommitted hraises.not_committingBatch
  | _ => exact hworker.uncommitted (by simp [‹worker.phase = _›])

/-- **The batching loop loses and repeats nothing.**  `hfree`: no record has an id that no run row
has. -/
theorem Advances.filed (h : Advances toDatetime db worker outcome db' worker')
    (hfree : db.findRun worker.run.id = none → db.recordsOf worker.run.id = [])
    (hworker : worker.Sound (db.findRun worker.run.id) (db.recordsOf worker.run.id)) :
    worker'.Filed (db'.recordsOf worker.run.id) := by
  have hfiled := hworker.filed
  cases h with
  | created now hphase hnone => exact hfree hnone
  | reconciled hphase =>
      simp only [Worker.Filed, hphase] at hfiled
      refine ⟨[], rfl, ?_⟩
      rw [hfiled]
      exact .nil
  | @built results row rest batch record id hphase hrecord =>
      simp only [Worker.Filed, hphase] at hfiled
      obtain ⟨done, hrows, hdone⟩ := hfiled
      -- the row moves from `rest` to `done`, its record to the end of the batch
      refine filed_nextRow ⟨done ++ [row], ?_, ?_⟩
      · rw [hrows, List.append_assoc]
        rfl
      · rw [← List.append_assoc]
        exact List.rel_append hdone (.cons (.of_toRecord hrecord) .nil)
  | persisted hphase =>
      simp only [Worker.Filed, hphase] at hfiled
      obtain ⟨done, hrows, hdone⟩ := hfiled
      rw [List.append_nil] at hrows hdone
      rw [← hrows] at hdone
      exact hdone
  | inserted now hphase _ =>
      simp only [Worker.Filed, hphase] at hfiled
      obtain ⟨done, hrows, hdone⟩ := hfiled
      exact ⟨done, hrows, forall₂_stamped now hdone⟩
  | committedBatch hphase =>
      -- the batch moves from the session to the table; the list of both together stays the same
      rw [recordsOf_commit_self hworker.uncommitted_runId]
      simp only [Worker.Filed, hphase] at hfiled
      simpa only [Worker.Filed, List.append_nil] using hfiled
  | @summarised results run hphase hrun =>
      simp only [Worker.Filed, hphase] at hfiled
      show List.Forall₂ (RecordOf run.id) results.rows _
      rw [(summarise_ok hrun).1]
      exact hfiled
  | committedSummary hphase =>
      rw [recordsOf_commit_self (by simp), List.append_nil]
      simp only [Worker.Filed, hphase] at hfiled
      exact hfiled
  | reported => trivial
  | handled => trivial
  | handlerRefused => trivial
  | refused => trivial
  | struck => trivial
  | abandoned => trivial
  | exited => trivial
  | _ =>
      simp only [Worker.Filed, ‹worker.phase = _›] at hfiled
      exact hfiled

/-- **A call's own statement keeps its invariant.** -/
theorem Worker.Sound.advance (hadvance : Advances toDatetime db worker outcome db' worker')
    (hfree : db.findRun worker.run.id = none → db.recordsOf worker.run.id = [])
    (h : worker.Sound (db.findRun worker.run.id) (db.recordsOf worker.run.id)) :
    worker'.Sound (db'.findRun worker.run.id) (db'.recordsOf worker.run.id) where
  owned := hadvance.owned h
  rowStatus _ := hadvance.rowStatus h
  entityStatus _ := hadvance.entityStatus h
  uncommitted := hadvance.uncommitted h
  filed := hadvance.filed hfree h

/-- Only a call that has its row, or finds none under its id, writes. -/
theorem Advances.owner_or_free (h : Advances toDatetime db worker outcome db' worker') :
    worker.phase.owns ∨ db.findRun worker.run.id = none ∨
      (db' = db ∧ ¬ worker'.phase.owns) := by
  cases h with
  | created _ _ hnone => exact Or.inr (Or.inl hnone)
  | refused => exact Or.inr (Or.inr ⟨rfl, fun h => h⟩)
  | struck _ _ hraises => exact Or.inl hraises.owns
  | abandoned => exact Or.inr (Or.inr ⟨rfl, fun h => h⟩)
  | exited _ hunderWay => exact Or.inl (Phase.owns_of_underWay hunderWay)
  | _ => exact Or.inl (by rw [‹worker.phase = _›]; trivial)

theorem Advances.unique (h : Advances toDatetime db worker outcome db' worker')
    (hunique : (db.runs.map ReconciliationRun.id).Nodup) :
    (db'.runs.map ReconciliationRun.id).Nodup := by
  have hcommit : ∀ run records, ((db.commit run records).runs.map ReconciliationRun.id).Nodup := by
    intro run records
    show ((Versioned.replaceRow ReconciliationRun.id run db.runs).map ReconciliationRun.id).Nodup
    rw [Versioned.map_key_replaceRow]
    exact hunique
  cases h with
  | created now hphase hnone =>
      have hnew : ∀ r ∈ db.runs, r.id ≠ worker.run.id := by
        simpa [ReportingDb.findRun] using hnone
      rw [List.map_append, List.nodup_append]
      refine ⟨hunique, by simp, ?_⟩
      intro a ha b hb
      obtain ⟨r, hr, rfl⟩ := List.mem_map.mp ha
      obtain rfl := List.mem_singleton.mp hb
      exact hnew r hr
  | committedBatch => exact hcommit _ _
  | committedSummary => exact hcommit _ _
  | handled => exact hcommit _ _
  | _ => exact hunique

/-- What is new among the records is what the call had inserted. -/
theorem Advances.records (h : Advances toDatetime db worker outcome db' worker') :
    ∀ r ∈ db'.records, r ∈ db.records ∨ (r ∈ worker.uncommitted ∧ worker.phase.owns) := by
  intro r hr
  cases h with
  | committedBatch hphase =>
      refine (List.mem_append.mp hr).imp_right fun hr => ⟨hr, ?_⟩
      rw [hphase]
      trivial
  | committedSummary =>
      exact Or.inl (by simpa [ReportingDb.commit] using hr)
  | handled _ _ hphase =>
      refine (List.mem_append.mp hr).imp_right fun hr => ⟨hr, ?_⟩
      rw [hphase]
      trivial
  | _ => exact Or.inl hr

/-- A bulk insert checks the `NOT NULL` columns. -/
theorem Advances.inserted_notNull (h : Advances toDatetime db worker outcome db' worker')
    (hinserted : ∀ r ∈ worker.uncommitted, r.notNull = true) :
    ∀ r ∈ worker'.uncommitted, r.notNull = true := by
  intro r hr
  cases h with
  | inserted now _ hnotNull =>
      obtain ⟨record, hrecord, rfl⟩ := List.mem_map.mp hr
      exact hnotNull record hrecord
  | committedBatch => cases hr
  | handled => cases hr
  | exited => cases hr
  | struck database =>
      cases database with
      | true => cases hr
      | false => exact hinserted r hr
  | _ => exact hinserted r hr

end Advance

/-! ## Every run keeps it -/

/-- A reporting database as the service leaves it between calls: run ids are unique, every record has
its run, and no `NOT NULL` column is empty. -/
structure ReportingDb.Valid (db : ReportingDb) : Prop where
  unique : (db.runs.map ReconciliationRun.id).Nodup
  referenced : ∀ r ∈ db.records, (db.findRun r.reconciliationRunId).isSome
  notNull : ∀ r ∈ db.records, r.notNull = true

theorem ReportingDb.Valid.empty : ReportingDb.Valid ⟨[], []⟩ :=
  ⟨List.nodup_nil, by simp, by simp⟩

theorem rowStatus_of_not_owns {phase : Phase} (h : ¬ phase.owns) : phase.rowStatus = none := by
  cases phase <;> first | rfl | exact absurd trivial h

theorem filed_of_not_owns {worker : Worker} (h : ¬ worker.phase.owns)
    (records : List ReconciliationRecord) : worker.Filed records := by
  unfold Worker.Filed
  generalize worker.phase = phase at h
  cases phase <;> first | exact True.intro | exact absurd True.intro h

/-- A call that has no run row knows nothing about the database. -/
theorem Worker.Sound.of_not_owns {row row' : Option ReconciliationRun}
    {records records' : List ReconciliationRecord} {worker : Worker}
    (h : worker.Sound row records) (howns : ¬ worker.phase.owns) : worker.Sound row' records' where
  owned howned := absurd howned howns
  rowStatus status hstatus := by
    rw [rowStatus_of_not_owns howns] at hstatus
    cases hstatus
  entityStatus := h.entityStatus
  uncommitted := h.uncommitted
  filed := filed_of_not_owns howns records'

theorem Sys.Sound.start {db : ReportingDb} (h : db.Valid) : (Sys.start db).Sound where
  unique := h.unique
  referenced := h.referenced
  distinct _ _ howns := howns.elim
  workers _ := ⟨fun h => h.elim, nofun, nofun, fun _ => rfl, trivial⟩
  notNull := h.notNull
  inserted _ _ hr := absurd hr List.not_mem_nil

/-- No record has an id that no run row has. -/
theorem Sys.Sound.recordsOf_eq_nil {s : Sys} (h : s.Sound) {id : String}
    (hnone : s.db.findRun id = none) : s.db.recordsOf id = [] := by
  refine List.filter_eq_nil_iff.mpr fun r hr heq => ?_
  have hsome := h.referenced r hr
  rw [of_decide_eq_true heq, hnone] at hsome
  cases hsome

/-- **The rule of a new call.**  What a new call has, and every other call had, every call has. -/
theorem Started.forall_worker {s s' : Sys} {w : WorkerId} {date : Day}
    (hstarted : Started s w date s') {P : WorkerId → ReportingDb → Worker → Prop}
    (hself : P w s.db { targetDate := date, run := newRun date, phase := .creating })
    (hs : ∀ w', w' ≠ w → P w' s.db (s.workers w')) : ∀ w', P w' s'.db (s'.workers w') := by
  intro w'
  rw [hstarted.db]
  by_cases hw : w' = w
  · rw [hw, hstarted.worker]
    exact hself
  · rw [hstarted.others w' hw]
    exact hs w' hw

theorem Sys.Sound.started {s s' : Sys} {w : WorkerId} {date : Day} (h : s.Sound)
    (hstarted : Started s w date s') : s'.Sound := by
  have hne : ∀ v, (s'.workers v).phase.owns → v ≠ w := by
    rintro v hv rfl
    rw [hstarted.worker] at hv
    exact hv
  refine ⟨hstarted.db ▸ h.unique, hstarted.db ▸ h.referenced, fun w₁ w₂ h₁ h₂ hid => ?_, ?_,
    hstarted.db ▸ h.notNull, ?_⟩
  · have hw₁ := hstarted.others w₁ (hne w₁ h₁)
    have hw₂ := hstarted.others w₂ (hne w₂ h₂)
    rw [hw₁] at h₁ hid
    rw [hw₂] at h₂ hid
    exact h.distinct w₁ w₂ h₁ h₂ hid
  · refine hstarted.forall_worker (P := fun _ db worker =>
      worker.Sound (db.findRun worker.run.id) (db.recordsOf worker.run.id)) ?_
      fun w' _ => h.workers w'
    exact ⟨fun h => h.elim, nofun, fun _ hstatus => Option.some.inj hstatus, fun _ => rfl, trivial⟩
  · exact hstarted.forall_worker (P := fun _ _ worker => ∀ r ∈ worker.uncommitted, r.notNull = true)
      (fun _ hr => absurd hr List.not_mem_nil) fun w' _ => h.inserted w'

/-- Another call's run is not the one a statement writes. -/
theorem Stepped.other_run {toDatetime : Cell → Cell} {s s' : Sys} {w w' : WorkerId}
    {outcome : Outcome} (hstepped : Stepped toDatetime s w outcome s') (h : s.Sound) (hw : w' ≠ w)
    (howns : (s.workers w').phase.owns) :
    (s.workers w').run.id ≠ (s.workers w).run.id ∨
      (s'.db = s.db ∧ ¬ (s'.workers w).phase.owns) := by
  rcases hstepped.advances.owner_or_free with howner | hnone | hsame
  · exact Or.inl fun heq => hw (h.distinct w' w howns howner heq)
  · refine Or.inl fun heq => ?_
    have hsome := (h.workers w').owned howns
    rw [heq, hnone] at hsome
    cases hsome
  · exact Or.inr hsame

/-- **Frame.**  A statement leaves the run row and the records of every other call alone. -/
theorem Stepped.untouched {toDatetime : Cell → Cell} {s s' : Sys} {w w' : WorkerId}
    {outcome : Outcome} (hstepped : Stepped toDatetime s w outcome s') (h : s.Sound) (hw : w' ≠ w)
    (howns : (s.workers w').phase.owns) :
    s'.db.findRun (s.workers w').run.id = s.db.findRun (s.workers w').run.id ∧
      s'.db.recordsOf (s.workers w').run.id = s.db.recordsOf (s.workers w').run.id := by
  rcases hstepped.other_run h hw howns with hne | ⟨hsame, -⟩
  · exact hstepped.advances.sameBut (h.workers w) _ hne
  · rw [hsame]
    exact ⟨rfl, rfl⟩

/-- **The rule of a statement.**  What the call has after its statement, and every other call had over
its run row and its records, every call has; a call without a run row has it over any. -/
theorem Stepped.forall_worker {toDatetime : Cell → Cell} {s s' : Sys} {w : WorkerId}
    {outcome : Outcome} (hstepped : Stepped toDatetime s w outcome s') (h : s.Sound)
    {P : WorkerId → Option ReconciliationRun → List ReconciliationRecord → Worker → Prop}
    (hfree : ∀ {w' row row' records records' worker}, P w' row records worker →
      ¬ worker.phase.owns → P w' row' records' worker)
    (hself : P w (s'.db.findRun (s.workers w).run.id) (s'.db.recordsOf (s.workers w).run.id)
      (s'.workers w))
    (hs : ∀ w', w' ≠ w → P w' (s.db.findRun (s.workers w').run.id)
      (s.db.recordsOf (s.workers w').run.id) (s.workers w')) :
    ∀ w', P w' (s'.db.findRun (s'.workers w').run.id) (s'.db.recordsOf (s'.workers w').run.id)
      (s'.workers w') := by
  intro w'
  by_cases hw : w' = w
  · rw [hw, hstepped.advances.runId]
    exact hself
  · rw [hstepped.others w' hw]
    by_cases howns : (s.workers w').phase.owns
    · obtain ⟨hrow, hrecords⟩ := hstepped.untouched h hw howns
      rw [hrow, hrecords]
      exact hs w' hw
    · exact hfree (hs w' hw) howns

theorem Sys.Sound.stepped {toDatetime : Cell → Cell} {s s' : Sys} {w : WorkerId}
    {outcome : Outcome} (h : s.Sound) (hstepped : Stepped toDatetime s w outcome s') :
    s'.Sound := by
  have hadvances := hstepped.advances
  have hid := hadvances.runId
  -- no call that owns its run shares it with the one that took the step
  have hclash : ∀ w', w' ≠ w → (s'.workers w').phase.owns → (s'.workers w).phase.owns →
      (s'.workers w').run.id ≠ (s'.workers w).run.id := by
    intro w' hw howns' howns
    rw [hstepped.others w' hw] at howns' ⊢
    rw [hid]
    exact (hstepped.other_run h hw howns').resolve_right fun hsame => hsame.2 howns
  refine ⟨hadvances.unique h.unique, fun r hr => ?_, fun w₁ w₂ h₁ h₂ heq => ?_, ?_,
    fun r hr => ?_, ?_⟩
  · rcases hadvances.records r hr with hold | ⟨hnew, howns⟩
    · exact hadvances.findRun_isSome (h.referenced r hold)
    · rw [(h.workers w).uncommitted_runId r hnew]
      exact hadvances.findRun_isSome ((h.workers w).owned howns)
  · by_cases hw₁ : w₁ = w
    · by_cases hw₂ : w₂ = w
      · rw [hw₁, hw₂]
      · subst hw₁
        exact absurd heq.symm (hclash w₂ hw₂ h₂ h₁)
    · by_cases hw₂ : w₂ = w
      · subst hw₂
        exact absurd heq (hclash w₁ hw₁ h₁ h₂)
      · rw [hstepped.others w₁ hw₁] at h₁ heq
        rw [hstepped.others w₂ hw₂] at h₂ heq
        exact h.distinct w₁ w₂ h₁ h₂ heq
  · exact hstepped.forall_worker h (P := fun _ row records worker => worker.Sound row records)
      (fun hsound howns => hsound.of_not_owns howns)
      (.advance hadvances h.recordsOf_eq_nil (h.workers w)) fun w' _ => h.workers w'
  · rcases hadvances.records r hr with hold | ⟨hnew, -⟩
    · exact h.notNull r hold
    · exact h.inserted w r hnew
  · exact hstepped.forall_worker h
      (P := fun _ _ _ worker => ∀ r ∈ worker.uncommitted, r.notNull = true)
      (fun hinserted _ => hinserted) (hadvances.inserted_notNull (h.inserted w))
      fun w' _ => h.inserted w'

/-- **Every step keeps the invariant.** -/
theorem Sys.Sound.step {toDatetime : Cell → Cell} {s s' : Sys} {a : Action} (h : s.Sound)
    (hstep : step toDatetime s a = some s') : s'.Sound := by
  rcases step_cases hstep with ⟨w, date, -, hstarted⟩ | ⟨w, outcome, -, hstepped⟩
  · exact h.started hstarted
  · exact h.stepped hstepped

/-- **Every reachable state satisfies the invariant.** -/
theorem Sys.Sound.run {toDatetime : Cell → Cell} {s t : Sys} {trace : List Action} (h : s.Sound)
    (hrun : run (Recon.step toDatetime) s trace = some t) : t.Sound :=
  run_invariant (fun _ _ _ hs hstep => hs.step hstep) h hrun

/-! ## Completed runs -/

/-- **The only row a statement completes is its call's own, at its summary commit.** -/
theorem Advances.completed {toDatetime : Cell → Cell} {db db' : ReportingDb}
    {worker worker' : Worker} {outcome : Outcome}
    (h : Advances toDatetime db worker outcome db' worker')
    (hworker : worker.Sound (db.findRun worker.run.id) (db.recordsOf worker.run.id))
    {run : ReconciliationRun} (hrow : db'.findRun worker.run.id = some run)
    (hcompleted : run.status = .COMPLETED) :
    db'.recordsOf worker.run.id = db.recordsOf worker.run.id ∧
      (db.findRun worker.run.id = some run ∨
        run = worker.run ∧ ∃ results, worker.phase = .committingSummary results) := by
  have hstored : worker.phase.owns → ∃ stored, db.findRun worker.run.id = some stored :=
    fun howns => Option.isSome_iff_exists.mp (hworker.owned howns)
  cases h with
  | created now hphase hnone =>
      have hnew : db.findRun (worker.run.start now).id = none := hnone
      obtain rfl := Option.some.inj ((findRun_append_self hnew).symm.trans hrow)
      -- a new row is RUNNING
      have hrunning : worker.run.status = .RUNNING := hworker.entityStatus _ (by rw [hphase]; rfl)
      change worker.run.status = _ at hcompleted
      rw [hrunning] at hcompleted
      cases hcompleted
  | committedBatch hphase =>
      obtain ⟨stored, hfind⟩ := hstored (by rw [hphase]; trivial)
      obtain rfl := Option.some.inj ((findRun_commit_self hfind).symm.trans hrow)
      have hrunning : worker.run.status = .RUNNING := hworker.entityStatus _ (by rw [hphase]; rfl)
      rw [hrunning] at hcompleted
      cases hcompleted
  | committedSummary hphase =>
      obtain ⟨stored, hfind⟩ := hstored (by rw [hphase]; trivial)
      obtain rfl := Option.some.inj ((findRun_commit_self hfind).symm.trans hrow)
      rw [recordsOf_commit_self (by simp), List.append_nil]
      exact ⟨rfl, Or.inr ⟨rfl, _, hphase⟩⟩
  | @handled message now _ hphase _ =>
      obtain ⟨stored, hfind⟩ := hstored (by rw [hphase]; trivial)
      have hfail : db.findRun (worker.run.fail message now).id = some stored := hfind
      obtain rfl := Option.some.inj ((findRun_commit_self hfail).symm.trans hrow)
      cases hcompleted
  | _ => exact ⟨rfl, Or.inl hrow⟩

/-- **The rule of completed runs.**  What every COMPLETED row has over its records it keeps, if a call
that is about to complete its own has it. -/
theorem Stepped.forall_completed {toDatetime : Cell → Cell} {s s' : Sys} {w : WorkerId}
    {outcome : Outcome} (hstepped : Stepped toDatetime s w outcome s') (h : s.Sound)
    {P : List ReconciliationRecord → ReconciliationRun → Prop}
    (hstored : ∀ run ∈ s.db.runs, run.status = .COMPLETED → P (s.db.recordsOf run.id) run)
    (hself : ∀ results, (s.workers w).phase = .committingSummary results →
      P (s.db.recordsOf (s.workers w).run.id) (s.workers w).run) :
    ∀ run ∈ s'.db.runs, run.status = .COMPLETED → P (s'.db.recordsOf run.id) run := by
  intro run hrun hcompleted
  have hfind : s'.db.findRun run.id = some run :=
    (Versioned.mem_iff_find_key (h.stepped hstepped).unique).mp hrun
  have hmem : s.db.findRun run.id = some run → run ∈ s.db.runs := List.mem_of_find?_eq_some
  by_cases hid : run.id = (s.workers w).run.id
  · rw [hid] at hfind ⊢
    obtain ⟨hsame, hold | ⟨rfl, results, hphase⟩⟩ :=
      hstepped.advances.completed (h.workers w) hfind hcompleted
    · rw [hsame, ← hid]
      exact hstored run (hmem (hid ▸ hold)) hcompleted
    · rw [hsame]
      exact hself results hphase
  · obtain ⟨hrow, hrecords⟩ := hstepped.advances.sameBut (h.workers w) run.id hid
    rw [hrecords]
    exact hstored run (hmem (hrow ▸ hfind)) hcompleted

end GlobalPayments.Recon

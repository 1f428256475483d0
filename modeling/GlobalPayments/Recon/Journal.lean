/-
# GlobalPayments.Recon.Journal — which records a call leaves, wherever it stops.

A journal notes two things of a call as it goes: the frame its `_reconcile` returned and the number of
batches it has committed.  From these alone the stored records of its run are known
(`Worker.Recorded.stored`): one for each of the first `500 * batches` rows of the result, in order.
They are the same after an exception, and no other call adds to them.
-/
import GlobalPayments.Recon.Tally

namespace GlobalPayments.Recon

open Frame Runs

/-! ## The journal of a call -/

structure Journal where
  result : Option (Frame Cell) := none
  batches : Nat := 0

/-- The rows of the result; there are none before `_reconcile` has returned. -/
def Journal.rows (j : Journal) : List (Row Cell) :=
  match j.result with
  | some results => results.rows
  | none => []

/-- The entry that a statement makes. -/
def Journal.note (phase : Phase) (outcome : Outcome) (j : Journal) : Journal :=
  match outcome, phase with
  | .reconciled, .reconciling internal clearing =>
      match reconcile internal clearing with
      | .ok results => { j with result := some results }
      | .error _ => j
  | .committed, .committingBatch _ _ => { j with batches := j.batches + 1 }
  | _, _ => j

/-- The journals of all calls. -/
def observe (s : Sys) (a : Action) (js : WorkerId → Journal) : WorkerId → Journal :=
  match a with
  | .start _ _ => js
  | .step w outcome => Function.update js w ((js w).note (s.workers w).phase outcome)

/-- The journals after a trace from a database on which no call has been made. -/
def journals (toDatetime : Cell → Cell) (db : ReportingDb) (trace : List Action) :
    WorkerId → Journal :=
  history (step toDatetime) observe (Sys.start db) trace fun _ => {}

/-! ## The pace of the loop -/

/-- The rows of the result behind the last commit are the pending ones and those still to come. -/
def Journal.Pending (j : Journal) (results : Frame Cell) (rest : List (Row Cell))
    (batch : List ReconciliationRecord) : Prop :=
  j.result = some results ∧ batch.length + rest.length = results.rows.length - batchSize * j.batches

/-- A batch that is committed is full, or the last one. -/
def Filled (rest : List (Row Cell)) (batch : List ReconciliationRecord) : Prop :=
  batch.length = batchSize ∨ (batch.length ≤ batchSize ∧ rest = [])

/-- Where the loop stands, in terms of the journal. -/
def Worker.Paced (j : Journal) (worker : Worker) : Prop :=
  match worker.phase with
  | .idle => j = {}
  | .creating => j = {}
  | .loadingPayments => j = {}
  | .loadingClearing _ => j = {}
  | .reconciling _ _ => j = {}
  | .building results rest batch => j.Pending results rest batch ∧ batch.length < batchSize
  | .inserting results rest batch => j.Pending results rest batch ∧ Filled rest batch
  | .committingBatch results rest => j.Pending results rest worker.uncommitted ∧
      Filled rest worker.uncommitted
  | _ => True

/-- **The invariant of a call and its journal.** -/
structure Worker.Recorded (j : Journal) (records : List ReconciliationRecord) (worker : Worker) :
    Prop where
  dated : worker.phase ≠ .idle → worker.run.id = runIdOf worker.targetDate
  paced : worker.Paced j
  stored : worker.phase.owns →
    List.Forall₂ (RecordOf worker.run.id) (j.rows.take (batchSize * j.batches)) records

/-- What is left behind a cut tells where the cut is. -/
theorem take_eq_of_rest {α : Type*} {rows done rest : List α} {k : Nat} (h : rows = done ++ rest)
    (hrest : rest.length = rows.length - k) : rows.take k = done := by
  have hlength : rows.length = done.length + rest.length := by rw [h, List.length_append]
  by_cases hk : k ≤ rows.length
  · rw [h, List.take_left' (by omega)]
  · have hnil : rest = [] := List.length_eq_zero_iff.mp (by omega)
    rw [List.take_of_length_le (by omega), h, hnil, List.append_nil]

section Advance

variable {toDatetime : Cell → Cell} {db db' : ReportingDb} {worker worker' : Worker}
variable {outcome : Outcome} {j : Journal}

theorem Journal.note_reconciled {internal clearing results : Frame Cell}
    (h : Recon.reconcile internal clearing = .ok results) :
    j.note (.reconciling internal clearing) .reconciled = { j with result := some results } := by
  simp only [Journal.note, h]

/-- A row that is built goes to the batch; a batch that is then full goes to the insert. -/
theorem Journal.Pending.nextRow {results : Frame Cell} {row : Row Cell} {rest : List (Row Cell)}
    {batch : List ReconciliationRecord} (h : j.Pending results (row :: rest) batch)
    (hroom : batch.length < batchSize) (record : ReconciliationRecord) :
    ({ worker with phase := Recon.nextRow results rest (batch ++ [record]) } : Worker).Paced j := by
  have hpending : j.Pending results rest (batch ++ [record]) := by
    refine ⟨h.1, ?_⟩
    rw [← h.2, List.length_append, List.length_singleton, List.length_cons]
    omega
  have hlength : (batch ++ [record]).length = batch.length + 1 := by simp
  unfold Recon.nextRow
  split
  · exact ⟨hpending, Or.inl (by omega)⟩
  · exact ⟨hpending, by omega⟩

/-- After the commit of a batch the next one starts behind it. -/
theorem Journal.Pending.committed {results : Frame Cell} {rest : List (Row Cell)}
    {batch : List ReconciliationRecord} (h : j.Pending results rest batch)
    (hfilled : Filled rest batch) :
    rest.length = results.rows.length - batchSize * (j.batches + 1) := by
  obtain ⟨-, hlength⟩ := h
  rw [Nat.mul_add, Nat.mul_one]
  rcases hfilled with hfull | ⟨hlast, hnil⟩
  · omega
  · rw [hnil, List.length_nil] at hlength ⊢
    omega

theorem Advances.paced (h : Advances toDatetime db worker outcome db' worker')
    (hpaced : worker.Paced j) : worker'.Paced (j.note worker.phase outcome) := by
  cases h with
  | created _ hphase => simpa only [Worker.Paced, Journal.note, hphase] using hpaced
  | queried _ hphase => simpa only [Worker.Paced, Journal.note, hphase] using hpaced
  | downloaded _ hphase _ => simpa only [Worker.Paced, Journal.note, hphase] using hpaced
  | reconciled hphase hreconcile =>
      simp only [Worker.Paced, hphase] at hpaced
      rw [hphase, Journal.note_reconciled hreconcile, hpaced]
      exact ⟨⟨rfl, by simp⟩, by decide⟩
  | built id hphase _ =>
      simp only [Worker.Paced, hphase] at hpaced
      exact hpaced.1.nextRow hpaced.2 _
  | remainder hphase =>
      simp only [Worker.Paced, hphase] at hpaced
      exact ⟨hpaced.1, Or.inr ⟨hpaced.2.le, rfl⟩⟩
  | inserted now hphase _ =>
      simp only [Worker.Paced, hphase] at hpaced
      simpa only [Worker.Paced, Journal.note, Journal.Pending, Filled, List.length_map] using hpaced
  | committedBatch hphase =>
      simp only [Worker.Paced, hphase] at hpaced
      have hrest := hpaced.1.committed hpaced.2
      rw [hphase]
      exact ⟨⟨hpaced.1.1, by rw [List.length_nil, Nat.zero_add]; exact hrest⟩, by decide⟩
  | _ => trivial

theorem Journal.note_raised (phase : Phase) (database : Bool) (message : String) :
    j.note phase (.raised database message) = j := by
  cases phase <;> rfl

theorem Journal.note_exited (phase : Phase) (message : String) :
    j.note phase (.exited message) = j := by
  cases phase <;> rfl

/-- What is stored, and what was noted, before a call has its run row. -/
theorem Worker.Paced.rows_eq_nil (h : worker.Paced j) (hcreating : worker.phase = .creating) :
    j.rows = [] := by
  simp only [Worker.Paced, hcreating] at h
  rw [h]
  rfl

theorem Advances.stored (h : Advances toDatetime db worker outcome db' worker')
    (hfree : db.findRun worker.run.id = none → db.recordsOf worker.run.id = [])
    (hworker : worker.Sound (db.findRun worker.run.id) (db.recordsOf worker.run.id))
    (hrecorded : worker.Recorded j (db.recordsOf worker.run.id)) (howns : worker'.phase.owns) :
    List.Forall₂ (RecordOf worker.run.id)
      ((j.note worker.phase outcome).rows.take
        (batchSize * (j.note worker.phase outcome).batches)) (db'.recordsOf worker.run.id) := by
  -- only a batch commit moves the cut, and only `_reconcile` sets the rows
  have hsame : worker.phase.owns →
      db'.recordsOf worker.run.id = db.recordsOf worker.run.id →
      j.note worker.phase outcome = j → List.Forall₂ (RecordOf worker.run.id)
        ((j.note worker.phase outcome).rows.take
          (batchSize * (j.note worker.phase outcome).batches)) (db'.recordsOf worker.run.id) := by
    intro howns hrecords hnote
    rw [hrecords, hnote]
    exact hrecorded.stored howns
  have hpaced := hrecorded.paced
  cases h with
  | created now hphase hnone =>
      have hrecords : db.recordsOf worker.run.id = [] := hfree hnone
      show List.Forall₂ _ _ (db.recordsOf worker.run.id)
      rw [hrecords, hphase, show j.note .creating (.created now) = j from rfl,
        hpaced.rows_eq_nil hphase, List.take_nil]
      exact .nil
  | reconciled hphase hreconcile =>
      have hstored := hrecorded.stored (by rw [hphase]; trivial)
      simp only [Worker.Paced, hphase] at hpaced
      rw [hphase, Journal.note_reconciled hreconcile]
      rw [hpaced] at hstored ⊢
      exact hstored
  | @committedBatch results rest hphase =>
      have hfiled := hworker.filed
      simp only [Worker.Filed, hphase] at hfiled
      simp only [Worker.Paced, hphase] at hpaced
      obtain ⟨done, hrows, hdone⟩ := hfiled
      have hresult : (j.note worker.phase .committed).rows = results.rows := by
        rw [hphase]
        simp only [Journal.note, Journal.rows, hpaced.1.1]
      have hbatches : (j.note worker.phase .committed).batches = j.batches + 1 := by
        rw [hphase]
        rfl
      rw [hresult, hbatches, take_eq_of_rest hrows (hpaced.1.committed hpaced.2),
        recordsOf_commit_self hworker.uncommitted_runId]
      exact hdone
  | committedSummary hphase =>
      refine hsame (by rw [hphase]; trivial) ?_ (by rw [hphase]; rfl)
      rw [recordsOf_commit_self (by simp), List.append_nil]
  | handled now refusal hphase _ =>
      refine hsame (by rw [hphase]; trivial) ?_ (by rw [hphase]; rfl)
      rw [hworker.uncommitted (by simp [hphase]), recordsOf_commit_self (by simp), List.append_nil]
  | refused => exact howns.elim
  | struck database message hraises => exact hsame hraises.owns rfl (Journal.note_raised _ _ _)
  | abandoned => exact howns.elim
  | exited message hunderWay =>
      exact hsame (Phase.owns_of_underWay hunderWay) rfl (Journal.note_exited _ _)
  | _ => exact hsame (by rw [‹worker.phase = _›]; trivial) rfl (by rw [‹worker.phase = _›]; rfl)

/-- A call that has no run row has written nothing. -/
theorem Advances.db_eq_of_not_owns (h : Advances toDatetime db worker outcome db' worker')
    (hnot : ¬ worker'.phase.owns) : db' = db := by
  cases h with
  | refused => rfl
  | abandoned => rfl
  | built => rfl
  | _ => exact absurd trivial hnot

theorem Advances.recorded (h : Advances toDatetime db worker outcome db' worker')
    (hfree : db.findRun worker.run.id = none → db.recordsOf worker.run.id = [])
    (hworker : worker.Sound (db.findRun worker.run.id) (db.recordsOf worker.run.id))
    (hrecorded : worker.Recorded j (db.recordsOf worker.run.id)) :
    worker'.Recorded (j.note worker.phase outcome) (db'.recordsOf worker.run.id) where
  dated _ := by
    rw [h.runId, h.targetDate]
    exact hrecorded.dated h.not_idle
  paced := h.paced hrecorded.paced
  stored howns := by
    rw [h.runId]
    exact h.stored hfree hworker hrecorded howns

end Advance

/-! ## Every run -/

/-- The invariant of the calls, their journals and the database they started from. -/
structure Sys.Recorded (db : ReportingDb) (s : Sys) (js : WorkerId → Journal) : Prop where
  sound : s.Sound
  workers : ∀ w, (s.workers w).Recorded (js w) (s.db.recordsOf (s.workers w).run.id)
  foreign : ∀ id, (∀ w, (s.workers w).phase.owns → (s.workers w).run.id ≠ id) →
    s.db.recordsOf id = db.recordsOf id

/-- What a call without a run row has recorded does not depend on the database. -/
theorem Worker.Recorded.of_not_owns {j : Journal} {records records' : List ReconciliationRecord}
    {worker : Worker} (h : worker.Recorded j records) (howns : ¬ worker.phase.owns) :
    worker.Recorded j records' where
  dated := h.dated
  paced := h.paced
  stored howned := absurd howned howns

theorem Sys.Recorded.start {db : ReportingDb} (h : db.Valid) :
    Sys.Recorded db (Sys.start db) fun _ => {} where
  sound := .start h
  workers _ := ⟨fun h => absurd rfl h, rfl, fun h => h.elim⟩
  foreign _ _ := rfl

theorem Sys.Recorded.started {db : ReportingDb} {s s' : Sys} {js : WorkerId → Journal}
    {w : WorkerId} {date : Day} (h : s.Recorded db js) (hstarted : Started s w date s') :
    s'.Recorded db js := by
  refine ⟨h.sound.started hstarted, ?_, fun id hid => ?_⟩
  · refine hstarted.forall_worker (P := fun w' db worker =>
      worker.Recorded (js w') (db.recordsOf worker.run.id)) ?_ fun w' _ => h.workers w'
    have hempty : js w = {} := by
      have hpaced := (h.workers w).paced
      simpa only [Worker.Paced, hstarted.idle] using hpaced
    rw [hempty]
    exact ⟨fun _ => rfl, rfl, fun h => h.elim⟩
  · rw [hstarted.db]
    refine h.foreign id fun w' howns => ?_
    by_cases hw : w' = w
    · rw [hw, hstarted.idle] at howns
      exact howns.elim
    · have hid' := hid w'
      rw [hstarted.others w' hw] at hid'
      exact hid' howns

theorem Sys.Recorded.stepped {toDatetime : Cell → Cell} {db : ReportingDb} {s s' : Sys}
    {js : WorkerId → Journal} {w : WorkerId} {outcome : Outcome} (h : s.Recorded db js)
    (hstepped : Stepped toDatetime s w outcome s') :
    s'.Recorded db (observe s (.step w outcome) js) := by
  have hadvances := hstepped.advances
  have hworker := h.sound.workers w
  refine ⟨h.sound.stepped hstepped, ?_, fun id hid => ?_⟩
  · refine hstepped.forall_worker h.sound (P := fun w' _ records worker =>
      worker.Recorded (observe s (.step w outcome) js w') records)
      (fun hrecorded howns => hrecorded.of_not_owns howns) ?_ fun w' hw => ?_
    · rw [observe, Function.update_self]
      exact hadvances.recorded h.sound.recordsOf_eq_nil hworker (h.workers w)
    · rw [observe, Function.update_of_ne hw]
      exact h.workers w'
  · have hbefore : s.db.recordsOf id = db.recordsOf id := by
      refine h.foreign id fun w' howns => ?_
      have hid' := hid w'
      by_cases hw : w' = w
      · subst hw
        rw [hadvances.runId] at hid'
        exact hid' (hadvances.owns howns)
      · rw [hstepped.others w' hw] at hid'
        exact hid' howns
    rw [← hbefore]
    by_cases hself : id = (s.workers w).run.id
    -- the call would own the run it writes to
    · have hnot : ¬ (s'.workers w).phase.owns :=
        fun howns => hid w howns (hadvances.runId.trans hself.symm)
      rw [hadvances.db_eq_of_not_owns hnot]
    · exact (hadvances.sameBut hworker id hself).2

theorem Sys.Recorded.step {toDatetime : Cell → Cell} {db : ReportingDb} {s s' : Sys}
    {js : WorkerId → Journal} {a : Action} (h : s.Recorded db js)
    (hstep : step toDatetime s a = some s') : s'.Recorded db (observe s a js) := by
  rcases step_cases hstep with ⟨w, date, rfl, hstarted⟩ | ⟨w, outcome, rfl, hstepped⟩
  · exact h.started hstarted
  · exact h.stepped hstepped

/-- **Every reachable state is in line with its journals.** -/
theorem recorded_run {toDatetime : Cell → Cell} {db : ReportingDb} (hdb : db.Valid)
    {trace : List Action} {s : Sys}
    (hrun : run (step toDatetime) (Sys.start db) trace = some s) :
    s.Recorded db (journals toDatetime db trace) :=
  run_history observe (I := Sys.Recorded db) (fun _ _ _ _ hs hstep => hs.step hstep)
    (.start hdb) hrun

/-- What one call for each date means for the stored records. -/
structure Sys.SingleCalls (db : ReportingDb) (s : Sys) (js : WorkerId → Journal) : Prop where
  /-- one call for a date gets past the creation of its run row -/
  single : ∀ w w', (s.workers w).phase.owns → (s.workers w').phase.owns →
    (s.workers w).targetDate = (s.workers w').targetDate → w = w'
  /-- the records under its run id are those of the first rows of its result, each of them once -/
  stored : ∀ w, (s.workers w).phase.owns → ∃ done, done <+: (js w).rows ∧
    List.Forall₂ (RecordOf (s.workers w).run.id) done (s.db.recordsOf (s.workers w).run.id)
  /-- under any other run id nothing has been stored -/
  foreign : ∀ id, (∀ w, (s.workers w).phase.owns → (s.workers w).run.id ≠ id) →
    s.db.recordsOf id = db.recordsOf id

/-- **One call for each date**, in every interleaving of any number of calls, wherever they fail. -/
theorem single_calls {toDatetime : Cell → Cell} {db : ReportingDb} (hdb : db.Valid)
    {trace : List Action} {s : Sys}
    (hrun : run (step toDatetime) (Sys.start db) trace = some s) :
    s.SingleCalls db (journals toDatetime db trace) := by
  have hrecorded := recorded_run hdb hrun
  have hdated : ∀ w, (s.workers w).phase.owns →
      (s.workers w).run.id = runIdOf (s.workers w).targetDate := by
    intro w howns
    refine (hrecorded.workers w).dated fun hidle => ?_
    rw [hidle] at howns
    exact howns
  refine ⟨fun w w' howns howns' hdate => ?_, fun w howns => ?_, hrecorded.foreign⟩
  · refine hrecorded.sound.distinct w w' howns howns' ?_
    rw [hdated w howns, hdated w' howns', hdate]
  · exact ⟨_, List.take_prefix _ _, (hrecorded.workers w).stored howns⟩

/-- The message of a call that raised, and whether it had created its run row. -/
def Phase.failure : Phase → Option (Bool × String)
  | .raised message => some (true, message)
  | .refused message => some (false, message)
  | _ => none

theorem Phase.failure_raised_iff {phase : Phase} {message : String} :
    phase.failure = some (true, message) ↔ phase = .raised message := by
  cases phase <;> simp [Phase.failure]

theorem Phase.failure_refused_iff {phase : Phase} {message : String} :
    phase.failure = some (false, message) ↔ phase = .refused message := by
  cases phase <;> simp [Phase.failure]

instance (phase : Phase) (message : String) : Decidable (phase = .raised message) :=
  decidable_of_iff _ Phase.failure_raised_iff

instance (phase : Phase) (message : String) : Decidable (phase = .refused message) :=
  decidable_of_iff _ Phase.failure_refused_iff

/-- Two triggers for 2024-03-15 race for the run row. -/
def racing : List Action :=
  .start 1 19797 :: storeTwo ++
    [.step 1 (.raised true "duplicate key value violates unique constraint")]

/-- The second is refused, and the records are the first one's. -/
theorem single_calls_race :
    ∃ s, run (step asTimestamp) (Sys.start ⟨[], []⟩) racing = some s ∧
      (s.workers 1).phase = .refused "duplicate key value violates unique constraint" ∧
      (s.db.recordsOf "RECON-20240315").map (·.paymentReference) =
        [.str "PAY-20240315-000001-AB12", .str "PAY-20240315-000002-CD34"] ∧
      s.SingleCalls ⟨[], []⟩ (journals asTimestamp ⟨[], []⟩ racing) := by
  obtain ⟨s, hrun, hrefused, hrecords⟩ : ∃ s ∈ run (step asTimestamp) (Sys.start ⟨[], []⟩) racing,
      (s.workers 1).phase = .refused "duplicate key value violates unique constraint" ∧
      (s.db.recordsOf "RECON-20240315").map (·.paymentReference) =
        [.str "PAY-20240315-000001-AB12", .str "PAY-20240315-000002-CD34"] := by
    decide +kernel
  exact ⟨s, hrun, hrefused, hrecords, single_calls .empty hrun⟩

/-- **What a failed call leaves.**  However large its result, and wherever it raised: one record for
each row of the batches it had committed, in order, and nothing of the batch that was open. -/
theorem raised_leaves_batches {toDatetime : Cell → Cell} {db : ReportingDb} (hdb : db.Valid)
    {trace : List Action} {s : Sys}
    (hrun : run (step toDatetime) (Sys.start db) trace = some s) {w : WorkerId} {message : String}
    (hraised : (s.workers w).phase = .raised message ∨ (s.workers w).phase = .exited message) :
    List.Forall₂ (RecordOf (s.workers w).run.id)
      ((journals toDatetime db trace w).rows.take
        (batchSize * (journals toDatetime db trace w).batches))
      (s.db.recordsOf (s.workers w).run.id) :=
  ((recorded_run hdb hrun).workers w).stored (by
    rcases hraised with hraised | hexited
    · rw [hraised]
      trivial
    · rw [hexited]
      trivial)

/-- Two records are committed, then the commit of the summary fails. -/
def loseSummary : List Action :=
  storeTwo ++ [.step 0 .persisted, .step 0 .summarised, .step 0 (.totalled 3),
    .step 0 (.raised true "server closed the connection unexpectedly"),
    .step 0 (.handled 4 "Can't reconnect until invalid transaction is rolled back.")]

/-- The one batch stays behind, with both of its records. -/
theorem raised_leaves_batches_two :
    ∃ s, run (step asTimestamp) (Sys.start ⟨[], []⟩) loseSummary = some s ∧
      (journals asTimestamp ⟨[], []⟩ loseSummary 0).batches = 1 ∧
      (s.db.recordsOf (s.workers 0).run.id).map (·.paymentReference) =
        [.str "PAY-20240315-000001-AB12", .str "PAY-20240315-000002-CD34"] ∧
      List.Forall₂ (RecordOf (s.workers 0).run.id)
        ((journals asTimestamp ⟨[], []⟩ loseSummary 0).rows.take
          (batchSize * (journals asTimestamp ⟨[], []⟩ loseSummary 0).batches))
        (s.db.recordsOf (s.workers 0).run.id) := by
  obtain ⟨s, hrun, hraised, hrecords⟩ :
      ∃ s ∈ run (step asTimestamp) (Sys.start ⟨[], []⟩) loseSummary,
      (s.workers 0).phase = .raised "Can't reconnect until invalid transaction is rolled back." ∧
      (s.db.recordsOf (s.workers 0).run.id).map (·.paymentReference) =
        [.str "PAY-20240315-000001-AB12", .str "PAY-20240315-000002-CD34"] := by
    decide +kernel
  exact ⟨s, hrun, by decide +kernel, hrecords, raised_leaves_batches .empty hrun (Or.inl hraised)⟩

/-- A call that raised after its run row was created has left records. -/
theorem raised_leaves_records :
    ¬ ∀ (trace : List Action) (s : Sys) (w : WorkerId) (message : String),
      run (step asTimestamp) (Sys.start ⟨[], []⟩) trace = some s →
      (s.workers w).phase = .raised message →
      s.db.recordsOf (s.workers w).run.id = [] := by
  intro hall
  obtain ⟨s, hrun, hraised, hlength⟩ :
      ∃ s ∈ run (step asTimestamp) (Sys.start ⟨[], []⟩) loseSummary,
      (s.workers 0).phase = .raised "Can't reconnect until invalid transaction is rolled back." ∧
      (s.db.recordsOf (s.workers 0).run.id).length = 2 := by
    decide +kernel
  rw [hall _ s 0 _ hrun hraised] at hlength
  cases hlength

end GlobalPayments.Recon

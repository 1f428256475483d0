/-
# GlobalPayments.Recon.Coverage — which completed payments reach a reconciliation record.

A payment is selected by the run of its creation date, by the status it has when that run reads the
payments; no other run looks at it again.  A payment that completes later, by the next clearing cycle
or after a retry, is in no run.

`completed_covered` says that this is the only way out: in every history in which payments complete
before the run of their creation date reads them, each one has its record.
-/
import GlobalPayments.Payments.Lifecycle
import GlobalPayments.Recon.Matching
import GlobalPayments.Recon.Schedule

namespace GlobalPayments.Recon

open Frame Runs
open Payments (Payment ValidRows)

/-! ## A payment row through the pipeline -/

/-- Some row is about the payment and calls it COMPLETED, unless the column of its status is gone. -/
def Carries (rows : List (Row Cell)) (reference : String) : Prop :=
  ∃ row ∈ rows, row.get "payment_reference" = some (.str reference) ∧
    (row.get "internal_status" = some (.str "COMPLETED") ∨ row.get "internal_status" = none)

/-- `_reconcile` keeps every payment it was given, with its status. -/
theorem reconcile_carries {toDatetime : Cell → Cell} {payments : List PaymentRow}
    {clearing results : Frame Cell}
    (h : reconcile (loadInternalPayments toDatetime payments) clearing = .ok results)
    {p : PaymentRow} (hp : p ∈ payments) (hstatus : p.status = "COMPLETED") :
    Carries results.rows p.paymentReference := by
  have hne := List.ne_nil_of_mem hp
  rw [reconcile_of_ne_nil hne] at h
  obtain ⟨merged, hjoined, hclassified⟩ := bind_eq_ok.mp h
  obtain ⟨hcolumns, hrows⟩ := loadInternalPayments_of_ne_nil toDatetime hne
  have hrow : internalRow toDatetime p ∈ (loadInternalPayments toDatetime payments).rows := by
    rw [hrows]
    exact List.mem_map_of_mem hp
  obtain ⟨m, hm, hfrom⟩ := exists_joined (joined_ok hjoined) hrow
  obtain ⟨row, hmem, hderived⟩ := exists_of_mem_left (classified_rows hclassified) hm
  have hlabels : (internalRow toDatetime p).map Prod.fst = internalColumns := rfl
  refine ⟨row, hmem, ?_, ?_⟩
  · rw [hderived.kept _ (by decide),
      hfrom.get_key (by rw [hlabels]; decide) (append_ne (by decide) (by decide))]
    rfl
  · rw [hderived.kept _ (by decide), hfrom.get_eq (hlabels.trans hcolumns.symm)
      (by rw [hcolumns]; decide) (by decide) (append_ne (by decide) (by decide))
      (append_ne (by decide) (by decide))]
    split
    · exact Or.inr rfl
    · left
      rw [← hstatus]
      rfl

/-- A record that reconciles a completed payment. -/
def ReconciledAs (records : List ReconciliationRecord) (reference : String) : Prop :=
  ∃ r ∈ records, r.paymentReference = .str reference ∧ r.internalStatus = .str "COMPLETED"

/-- What is stored of a result that carries a payment: its record, since a row without the status
could not have been inserted. -/
theorem Carries.reconciled {runId : String} {rows : List (Row Cell)}
    {records : List ReconciliationRecord} {reference : String} (h : Carries rows reference)
    (hfiled : List.Forall₂ (RecordOf runId) rows records)
    (hnotNull : ∀ r ∈ records, r.notNull = true) : ReconciledAs records reference := by
  obtain ⟨row, hrow, hreference, hstatus⟩ := h
  obtain ⟨record, hrecord, hbuilt⟩ := exists_of_mem_left hfiled hrow
  have hchecked := hnotNull record hrecord
  have hcell := hbuilt.internalStatus
  refine ⟨record, hrecord, ?_, ?_⟩
  · rw [← Option.some.injEq, ← hbuilt.reference, hreference]
  -- without the column the record would have no status, and the insert would have been refused
  · rcases hstatus with hstatus | hnone
    · rw [← hcell, getD, hstatus]
      rfl
    · rw [getD, hnone] at hcell
      simp [ReconciliationRecord.notNull, ← hcell] at hchecked

/-! ## What a call holds of a payment -/

/-- The call has read the payments, and has not failed since. -/
def Phase.loaded : Phase → Prop
  | .idle => False
  | .creating => False
  | .loadingPayments => False
  | .handling _ => False
  | .raised _ => False
  | .refused _ => False
  | .exited _ => False
  | .abandoned _ => False
  | _ => True

/-- The frame `_load_internal_payments` made of rows with this completed payment. -/
def LoadedWith (toDatetime : Cell → Cell) (internal : Frame Cell) (reference : String) : Prop :=
  ∃ rows, internal = loadInternalPayments toDatetime rows ∧
    ∃ p ∈ rows, p.paymentReference = reference ∧ p.status = "COMPLETED"

/-- The call is on its way to a record of the payment as COMPLETED, or has stored one. -/
def Worker.Covers (toDatetime : Cell → Cell) (records : List ReconciliationRecord)
    (reference : String) (worker : Worker) : Prop :=
  match worker.phase with
  | .loadingClearing internal => LoadedWith toDatetime internal reference
  | .reconciling internal _ => LoadedWith toDatetime internal reference
  | .building results _ _ => Carries results.rows reference
  | .inserting results _ _ => Carries results.rows reference
  | .committingBatch results _ => Carries results.rows reference
  | .summarising results => Carries results.rows reference
  | .totalling results => Carries results.rows reference
  | .committingSummary results => Carries results.rows reference
  | .uploading results => Carries results.rows reference
  | .reporting results => Carries results.rows reference
  | .returned _ => ReconciledAs records reference
  | _ => True

section Advance

variable {toDatetime : Cell → Cell} {db db' : ReportingDb} {worker worker' : Worker}
variable {outcome : Outcome}

theorem Phase.loaded.owns {phase : Phase} (h : phase.loaded) : phase.owns := by
  cases phase <;> first | exact True.intro | cases h

/-- A call loads by its query, and only so. -/
theorem Advances.loaded (h : Advances toDatetime db worker outcome db' worker')
    (hloaded : worker'.phase.loaded) :
    worker.phase.loaded ∨ ∃ rows, outcome = .queried rows := by
  cases h with
  | queried rows => exact Or.inr ⟨rows, rfl⟩
  | created => cases hloaded
  | handled => cases hloaded
  | handlerRefused => cases hloaded
  | refused => cases hloaded
  | struck => cases hloaded
  | abandoned => cases hloaded
  | exited => cases hloaded
  | _ => exact Or.inl (by rw [‹worker.phase = _›]; trivial)

theorem covers_nextRow {records batch : List ReconciliationRecord} {reference : String}
    {results : Frame Cell} {rest : List (Row Cell)} (h : Carries results.rows reference) :
    ({ worker with phase := nextRow results rest batch } : Worker).Covers toDatetime records
      reference := by
  unfold nextRow
  split
  · exact h
  · exact h

/-- **A call that has a payment on its way brings it home.** -/
theorem Advances.covers (h : Advances toDatetime db worker outcome db' worker')
    (hworker : worker.Sound (db.findRun worker.run.id) (db.recordsOf worker.run.id))
    (hnotNull : ∀ r ∈ db.records, r.notNull = true) (hloaded : worker.phase.loaded)
    {reference : String}
    (hcovers : worker.Covers toDatetime (db.recordsOf worker.run.id) reference) :
    worker'.Covers toDatetime (db'.recordsOf worker.run.id) reference := by
  cases h with
  | created _ hphase => rw [hphase] at hloaded; cases hloaded
  | queried _ hphase => rw [hphase] at hloaded; cases hloaded
  | refused _ _ hphase => rw [hphase] at hloaded; cases hloaded
  | abandoned _ hphase => rw [hphase] at hloaded; cases hloaded
  | reconciled hphase hreconcile =>
      simp only [Worker.Covers, hphase] at hcovers
      obtain ⟨rows, rfl, p, hp, rfl, hstatus⟩ := hcovers
      exact reconcile_carries hreconcile hp hstatus
  | built _ hphase =>
      simp only [Worker.Covers, hphase] at hcovers
      exact covers_nextRow hcovers
  | @reported results _ hphase =>
      simp only [Worker.Covers, hphase] at hcovers
      have hfiled := hworker.filed
      simp only [Worker.Filed, hphase] at hfiled
      exact hcovers.reconciled hfiled fun r hr => hnotNull r (List.mem_of_mem_filter hr)
  | handled => trivial
  | handlerRefused => trivial
  | struck => trivial
  | exited => trivial
  | _ =>
      simp only [Worker.Covers, ‹worker.phase = _›] at hcovers
      exact hcovers

end Advance

/-! ## The world -/

namespace World

/-- The run of a date has been executed: a call for it has returned. -/
def Executed (s : World) (d : Day) : Prop :=
  ∃ w, (s.recon.workers w).targetDate = d ∧ ∃ summary, (s.recon.workers w).phase = .returned summary

/-- **No completed payment escapes.**  Every payment that was committed as COMPLETED, and whose
creation date's run has been executed, has a record as COMPLETED once the runs of all dates up to its
completion are done. -/
def Covered (s : World) : Prop :=
  ∀ x ∈ s.payments.db.log, x.row.status = .COMPLETED → s.Executed (dayOf x.row.createdAt) →
    (∀ d, dayOf x.row.createdAt ≤ d → d ≤ dayOf x.row.updatedAt → s.Executed d) →
    ReconciledAs s.recon.db.records x.row.paymentReference

/-- The row is COMPLETED, and the one stored for the payment was not. -/
def TakesIntoCompleted (s : World) (row : Payment) : Prop :=
  row.status = .COMPLETED ∧ ∀ p ∈ s.payments.db.table, p.id = row.id → p.status ≠ .COMPLETED

/-- A payment becomes COMPLETED before the run of its creation date has read the payments. -/
def Timely (s : World) : Action → Prop
  | .payments (.commit t now) =>
      (∃ db, Payments.flush t now (s.payments.txs t).context s.payments.db = .ok db) →
      ∀ x ∈ (s.payments.txs t).context.writes t now, s.TakesIntoCompleted x.row →
        ∀ w, (s.recon.workers w).targetDate = dayOf x.row.createdAt →
          ¬ (s.recon.workers w).phase.loaded
  | _ => True

/-- The invariant of timely runs. -/
structure Tracked (toDatetime : Cell → Cell) (s : World) : Prop where
  payments : s.payments.Sound
  recon : s.recon.Sound
  covers : ∀ x ∈ s.payments.db.log, x.row.status = .COMPLETED →
    ∀ w, (s.recon.workers w).targetDate = dayOf x.row.createdAt →
      (s.recon.workers w).phase.loaded →
      (s.recon.workers w).Covers toDatetime (s.recon.db.recordsOf (s.recon.workers w).run.id)
        x.row.paymentReference

section Steps

variable {toDatetime : Cell → Cell} {s s' : World}

/-- Only its own steps touch the reporting database. -/
theorem recon_sound_step {a : Action} (h : s.recon.Sound)
    (hstep : World.step toDatetime s a = some s') : s'.recon.Sound := by
  rcases step_cases hstep with ⟨now, -, rfl⟩ | ⟨b, payments, -, -, rfl⟩ | ⟨b, recon, -, -, hb, rfl⟩
  · exact h
  · exact h
  · exact h.step hb

theorem Tracked.start {clock : Payments.Instant} {rows : List Payment} {db : ReportingDb}
    (hrows : ValidRows rows) (hdb : db.Valid) : (World.start clock rows db).Tracked toDatetime where
  payments := .start hrows
  recon := .start hdb
  covers _ _ _ _ _ hloaded := hloaded.elim

/-- Two committed versions of a payment tell the same reference and day. -/
theorem same_of_logged {ledger : Payments.Database} (h : ledger.Sound) {p p' : Payment}
    (hp : ledger.Logged p) (hp' : ledger.Logged p') (hid : p.id = p'.id) :
    p.paymentReference = p'.paymentReference ∧ p.createdAt = p'.createdAt := by
  obtain ⟨q, hq, hterms⟩ := h.stored_of_logged hp
  obtain ⟨q', hq', hterms'⟩ := h.stored_of_logged hp'
  obtain rfl : q = q' :=
    h.consistent.eq_of_key hq hq' (hterms.id.trans (hid.trans hterms'.id.symm))
  exact ⟨hterms.paymentReference.symm.trans hterms'.paymentReference,
    hterms.createdAt.symm.trans hterms'.createdAt⟩

/-- A payment becomes COMPLETED while no call has loaded its day.  A COMPLETED row that replaces
another is covered by the calls that cover the other. -/
theorem Tracked.payments_step (h : s.Tracked toDatetime) {a : Payments.Action}
    {payments : Payments.Sys} (htimely : s.Timely (.payments a))
    (hstep : Payments.step s.payments a = some payments) :
    ({ s with payments := payments } : World).Tracked toDatetime := by
  have hpayments := h.payments.step hstep
  refine ⟨hpayments, h.recon, fun x hx hcompleted w hdate hloaded => ?_⟩
  obtain ⟨tx, srv, db, events, hstepped⟩ := Payments.step_cases hstep
  change x ∈ payments.db.log at hx
  rw [hstepped.db_eq] at hx
  rcases hstepped.moves.db_cases with rfl | ⟨t, now, response, rfl, -, hflush, -⟩
  · exact h.covers x hx hcompleted w hdate hloaded
  · rw [Payments.flush_log hflush] at hx
    rcases List.mem_append.mp hx with hold | hnew
    · exact h.covers x hold hcompleted w hdate hloaded
    · by_cases hinto : s.TakesIntoCompleted x.row
      · exact absurd hloaded (htimely ⟨db, hflush⟩ x hnew hinto w hdate)
      · obtain ⟨p, hp, hid, hstored⟩ : ∃ p ∈ s.payments.db.table, p.id = x.row.id ∧
            p.status = .COMPLETED := by
          simpa [TakesIntoCompleted, hcompleted] using hinto
        obtain ⟨y, hy, rfl⟩ := h.payments.db.logged hp
        have hlog : payments.db.log = s.payments.db.log ++ (s.payments.txs t).context.writes t now := by
          rw [hstepped.db_eq, Payments.flush_log hflush]
          rfl
        obtain ⟨hreference, hcreated⟩ := same_of_logged hpayments.db
          ⟨y, hlog ▸ List.mem_append_left _ hy, rfl⟩ ⟨x, hlog ▸ List.mem_append_right _ hnew, rfl⟩ hid
        rw [← hreference]
        exact h.covers y hy hstored w (hdate.trans (congrArg dayOf hcreated.symm)) hloaded

/-- The query finds every payment of its day that has completed. -/
theorem Tracked.queried (h : s.Tracked toDatetime) {w : WorkerId} {rows : List PaymentRow}
    (hpermits : s.Permits (.recon (.step w (.queried rows))))
    {x : Versioned.Write Payments.TxId Payment}
    (hx : x ∈ s.payments.db.log) (hcompleted : x.row.status = .COMPLETED)
    (hdate : (s.recon.workers w).targetDate = dayOf x.row.createdAt) :
    LoadedWith toDatetime (loadInternalPayments toDatetime rows) x.row.paymentReference := by
  obtain ⟨p, hp, -, hreach⟩ := h.payments.db.consistent.stored_of_log hx
  have hterms := Payments.SameTerms.of_reflTransGen hreach
  -- no payment leaves COMPLETED
  have hstatus : p.status = .COMPLETED :=
    (Payments.status_of_final hreach (Or.inl hcompleted)).trans hcompleted
  refine ⟨rows, rfl, queryRow p, ?_, hterms.paymentReference, by rw [queryRow, hstatus]; rfl⟩
  rw [hpermits rows rfl]
  exact mem_queryPayments hp (Or.inl hstatus) (by rw [hterms.createdAt, hdate])

theorem Tracked.recon_step (h : s.Tracked toDatetime) {a : Recon.Action} {recon : Sys}
    (hpermits : s.Permits (.recon a)) (hstep : Recon.step toDatetime s.recon a = some recon) :
    ({ s with recon := recon } : World).Tracked toDatetime := by
  refine ⟨h.payments, h.recon.step hstep, fun x hx hcompleted => ?_⟩
  rcases Recon.step_cases hstep with ⟨w, date, rfl, hstarted⟩ | ⟨w, outcome, rfl, hstepped⟩
  · exact hstarted.forall_worker (P := fun _ db worker =>
      worker.targetDate = dayOf x.row.createdAt → worker.phase.loaded →
        worker.Covers toDatetime (db.recordsOf worker.run.id) x.row.paymentReference)
      (fun _ hloaded => hloaded.elim) fun w' _ => h.covers x hx hcompleted w'
  · have hadvances := hstepped.advances
    refine hstepped.forall_worker h.recon (P := fun _ _ records worker =>
      worker.targetDate = dayOf x.row.createdAt → worker.phase.loaded →
        worker.Covers toDatetime records x.row.paymentReference)
      (fun _ howns _ hloaded => absurd hloaded.owns howns) (fun hdate hloaded => ?_)
      fun w' _ => h.covers x hx hcompleted w'
    rw [hadvances.targetDate] at hdate
    rcases hadvances.loaded hloaded with hbefore | ⟨rows, rfl⟩
    · exact hadvances.covers (h.recon.workers w) h.recon.notNull hbefore
        (h.covers x hx hcompleted w hdate hbefore)
    · have hfound := h.queried hpermits hx hcompleted hdate
      generalize recon.workers w = worker, recon.db = db at hadvances
      cases hadvances with
      | queried _ _ => exact hfound

theorem Tracked.step (h : s.Tracked toDatetime) {a : World.Action} (htimely : s.Timely a)
    (hstep : World.step toDatetime s a = some s') : s'.Tracked toDatetime := by
  rcases step_cases hstep with ⟨now, rfl, rfl⟩ | ⟨b, payments, rfl, hb, rfl⟩ |
    ⟨b, recon, rfl, hpermits, hb, rfl⟩
  · exact ⟨h.payments, h.recon, h.covers⟩
  · exact h.payments_step htimely hb
  · exact h.recon_step hpermits hb

end Steps

/-- What is tracked is covered. -/
theorem Tracked.covered {toDatetime : Cell → Cell} {s : World} (h : s.Tracked toDatetime) :
    s.Covered := by
  intro x hx hcompleted hexecuted _
  obtain ⟨w, hdate, summary, hreturned⟩ := hexecuted
  have hcovers := h.covers x hx hcompleted w hdate (by rw [hreturned]; trivial)
  simp only [Worker.Covers, hreturned] at hcovers
  obtain ⟨r, hr, hrecord⟩ := hcovers
  exact ⟨r, List.mem_of_mem_filter hr, hrecord⟩

/-- **Timely payments are all reconciled.**  In every history in which each payment becomes COMPLETED
before the run of its creation date reads the payments, no completed payment escapes. -/
theorem completed_covered {toDatetime : Cell → Cell} {clock : Payments.Instant}
    {rows : List Payment} {db : ReportingDb} (hrows : ValidRows rows) (hdb : db.Valid)
    {trace : List Action} {s : World}
    (hrun : RunsUnder (World.step toDatetime) Timely (World.start clock rows db) trace s) :
    s.Covered :=
  (hrun.invariant (I := fun s : World => s.Tracked toDatetime)
    (fun _ _ _ hs htimely hstep => hs.step htimely hstep) (.start hrows hdb)).covered

/-! ## Two payments of 15 March 2024 -/

/-- Created at 10:05, and settled at 11:00. -/
def secondPayment : Payment :=
  { samplePayment with
    id := 8
    paymentReference := "PAY-20240315-000002-CD34"
    amountMinorUnits := 2500
    status := .COMPLETED
    clearingReference := some "CLR-002"
    createdAt := 1710497100000
    updatedAt := 1710500400000 }

/-- The clearing network reports the first one settled at `now`. -/
def settle (t : Payments.TxId) (now : Payments.Instant) : List Action :=
  [.payments (.updateStatus t 0 7 ⟨.COMPLETED, some "CLR-001", none⟩),
    .payments (.applyAndPublish t now true), .payments (.commit t now)]

/-- The run of a date that finds nothing, without a settlement file. -/
def emptyRun (w : WorkerId) (date : Day) : List Action :=
  ([.start w date, .step w (.created 0), .step w (.queried []), .step w (.downloaded none),
    .step w .reconciled, .step w .persisted, .step w .summarised, .step w (.totalled 0),
    .step w .committed, .step w .uploaded, .step w .reported] : List Recon.Action).map .recon

/-- Settled on the day it was created, and reported so again after that day's run. -/
def settledTwice : List Action :=
  settle 0 1710500400000 ++ .tick 1710549000000 ::
    (storing 0 19797
        [queryRow { samplePayment with
          status := .COMPLETED, clearingReference := some "CLR-001", updatedAt := 1710500400000 },
          queryRow secondPayment]
        (settledAt "100.00" "25.00") [9, 10] ++ completing 0 ++ returning 0).map .recon ++
    settle 1 1710549000000

/-- What there is to evaluate of a timely step: no run has been created, or the commit completes no
payment that was not COMPLETED. -/
def timely (s : World) : Action → Bool
  | .payments (.commit t now) =>
      s.recon.db.runs = [] || ((s.payments.txs t).context.writes t now).all fun x =>
        s.payments.db.table.any fun p => p.id = x.row.id && p.status = .COMPLETED
  | _ => true

theorem timely_of_eq_true {s : World} {a : Action} (hs : s.recon.Sound) (h : s.timely a = true) :
    s.Timely a := by
  unfold Timely
  split
  · intro _ x hx hinto w _ hloaded
    rcases Bool.or_eq_true_iff.mp h with hnone | hcompleted
    · have howned := (hs.workers w).owned hloaded.owns
      rw [ReportingDb.findRun, of_decide_eq_true hnone] at howned
      cases howned
    · obtain ⟨p, hp, hstored⟩ := List.any_eq_true.mp (List.all_eq_true.mp hcompleted x hx)
      simp only [Bool.and_eq_true, decide_eq_true_eq] at hstored
      exact hinto.2 p hp hstored.1 hstored.2
  · trivial

instance (phase : Phase) : Decidable (∃ summary, phase = .returned summary) :=
  match phase with
  | .returned summary => isTrue ⟨summary, rfl⟩
  | .idle | .creating | .loadingPayments | .loadingClearing _ | .reconciling _ _ | .building _ _ _
  | .inserting _ _ _ | .committingBatch _ _ | .summarising _ | .totalling _ | .committingSummary _
  | .uploading _ | .reporting _ | .handling _ | .raised _ | .refused _ | .exited _ | .abandoned _ =>
      isFalse fun ⟨_, h⟩ => by cases h

/-- Both payments have their records, and the second report changes nothing about that. -/
theorem completed_covered_twice :
    ∃ s, RunsUnder (World.step asTimestamp) Timely
        (World.start 1710500400000 [samplePayment, secondPayment] ⟨[], []⟩) settledTwice s ∧
      s.recon.db.records.map (fun r => (r.paymentReference, r.internalStatus, r.status)) =
        [(.str "PAY-20240315-000001-AB12", .str "COMPLETED", .MATCHED),
          (.str "PAY-20240315-000002-CD34", .str "COMPLETED", .MATCHED)] ∧
      s.Executed 19797 ∧ s.Covered := by
  obtain ⟨s, hchecked, hrecords, hdate, hreturned⟩ :
      ∃ s ∈ runChecked (World.step asTimestamp) timely
        (World.start 1710500400000 [samplePayment, secondPayment] ⟨[], []⟩) settledTwice,
      s.recon.db.records.map (fun r => (r.paymentReference, r.internalStatus, r.status)) =
        [(.str "PAY-20240315-000001-AB12", .str "COMPLETED", .MATCHED),
          (.str "PAY-20240315-000002-CD34", .str "COMPLETED", .MATCHED)] ∧
      (s.recon.workers 0).targetDate = 19797 ∧
      ∃ summary, (s.recon.workers 0).phase = .returned summary := by
    decide +kernel
  have hrun : RunsUnder (World.step asTimestamp) Timely
      (World.start 1710500400000 [samplePayment, secondPayment] ⟨[], []⟩) settledTwice s :=
    (RunsUnder.of_runChecked hchecked).imp (I := fun s => s.recon.Sound)
      (fun _ _ _ hs hstep => recon_sound_step hs hstep) (fun _ _ hs hc => timely_of_eq_true hs hc)
      (.start .empty)
  exact ⟨s, hrun, hrecords, ⟨0, hdate, hreturned⟩,
    completed_covered ⟨by decide, List.pairwise_pair.mpr (by decide)⟩ .empty hrun⟩

/-- Settled after midnight, in the next clearing cycle, it is in no run: that of its creation date
saw it PROCESSING, and that of the next day selects by the creation date. -/
theorem completed_escapes :
    ¬ ∀ (trace : List Action) (s : World),
      run (World.step id) (World.start 1710500400000 [samplePayment] ⟨[], []⟩) trace = some s →
      s.Covered := by
  intro hall
  have hrun : ∃ s, run (World.step id) (World.start 1710500400000 [samplePayment] ⟨[], []⟩)
        (.tick 1710549000000 :: emptyRun 0 19797 ++ settle 0 1710549000000 ++
          .tick 1710635400000 :: emptyRun 1 19798) = some s ∧
      s.Executed 19797 ∧ s.Executed 19798 ∧ s.recon.db.records = [] ∧
      ∃ x ∈ s.payments.db.log, x.row.status = .COMPLETED ∧ dayOf x.row.createdAt = 19797 ∧
        dayOf x.row.updatedAt = 19798 :=
    ⟨_, rfl, ⟨0, rfl, _, rfl⟩, ⟨1, rfl, _, rfl⟩, rfl, _, List.mem_cons_of_mem _ List.mem_cons_self,
      rfl, by decide, by decide⟩
  obtain ⟨s, hrun, hfirst, hsecond, hrecords, x, hx, hcompleted, hcreated, hupdated⟩ := hrun
  have hdone : ∀ d : Int, dayOf x.row.createdAt ≤ d → d ≤ dayOf x.row.updatedAt →
      s.Executed d := by
    intro d hfrom hto
    have hlower : (19797 : Int) ≤ d := hcreated ▸ hfrom
    have hupper : d ≤ (19798 : Int) := hupdated ▸ hto
    obtain rfl | rfl : d = 19797 ∨ d = 19798 := by omega
    · exact hfirst
    · exact hsecond
  obtain ⟨r, hr, -⟩ := hall _ s hrun x hx hcompleted (by rw [hcreated]; exact hfirst) hdone
  rw [hrecords] at hr
  cases hr

end World

end GlobalPayments.Recon

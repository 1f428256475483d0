/-
# GlobalPayments.Payments.Serial — the service refines one that runs its calls one at a time.

`Job.execute` is a call run alone: it reads the table, does its work and flushes, and nobody comes in
between.  The service interleaves its transactions at READ COMMITTED, with no lock and no re-read:
what keeps it serializable is the version check on the rows a call changes and the unique constraint
on the key it looked for.  A call that writes has its point at its commit; a call that ends in its
read, or has nothing to write, has it at the read.

The one read that neither mechanism covers is the retry job's query: a payment could fail and become
retryable behind it.  It cannot, as long as no commit is stamped before the cutoff of a job under way
(`CutoffsPast`): the flush stamps the row, and the query leaves rows stamped since the cutoff alone.
-/
import GlobalPayments.Library.Linearization
import GlobalPayments.Payments.Counters
import GlobalPayments.Payments.Events

namespace GlobalPayments.Payments

open Runs Versioned Linearization

/-! ## A call run alone -/

/-- A call with what it reads from outside — the generator's counter, its surroundings and the clock
at its commit — and the response it returned. -/
structure Job where
  tx : TxId
  call : Call
  sequence : Nat
  env : Surroundings
  now : Instant
  response : Option PaymentResponse
  deriving DecidableEq, Repr

/-- The whole call on one and the same table: the table it leaves and what it returns. -/
def Job.execute (job : Job) (db : Database) :
    Except ServiceException (Database × Option PaymentResponse) :=
  match job.call with
  | .createPayment request =>
      match request.idempotencyKey.bind fun key => findByIdempotencyKey key db.table with
      | some payment => .ok (db, some (toResponse payment))
      | none => do
          let (payment, _) ← preparePayment request job.sequence job.env
          let db' ← flush job.tx job.now { inserted := [payment] } db
          return (db', some (toResponse payment))
  | .updateStatus id request => do
      let payment ← loadForUpdate db.table id request
      let db' ← flush job.tx job.now { managed := [(payment, applyStatus request payment)] } db
      return (db', some (toResponse (applyStatus request payment)))
  | .retryFailedPayments cutoffTime => do
      let payments := findRetryablePayments cutoffTime db.table
      let db' ← flush job.tx job.now
        { managed := payments.map fun p => (p, requeuePayment p) } db
      return (db', none)

/-- The call's transaction has returned what the job says. -/
def Job.Completed (s : Sys) (job : Job) : Prop :=
  (s.txs job.tx).phase = .ended (.returned job.response) ∧ (s.txs job.tx).call = some job.call

/-- The call has had its point: it has ended, or it has nothing to write and only has to end. -/
def Tx.Linearized (tx : Tx) : Prop :=
  match tx.phase with
  | .updating payment request => applyStatus request payment = payment
  | .flushing _ => tx.context.inserted = [] ∧ ∀ m ∈ tx.context.managed, m.2 = m.1
  | .ended _ => True
  | _ => False

/-- What the service shows of its calls. -/
def serviceView : View Sys Database TxId Job where
  store := Sys.db
  settled s t := (s.txs t).Linearized
  owner := Job.tx
  completed := Job.Completed
  exec job db db' := job.execute db = .ok (db', job.response)

/-- No commit is stamped before the cutoff of a retry job: the clocks of the servers differ by less
than the job's backoff. -/
def CutoffsPast (s : Sys) : Action → Prop
  | .commit _ now => ∀ t cutoffTime, (s.txs t).call = some (.retryFailedPayments cutoffTime) →
      cutoffTime ≤ now
  | _ => True

/-! ## What a flush shows of the table it ran on -/

section Flush

variable {t : TxId} {now : Instant} {db db' : Database}

/-- An insertion that went through found its key unused. -/
theorem flush_inserted_unused {p : Payment} {key : String}
    (h : flush t now { inserted := [p] } db = .ok db') (hkey : p.idempotencyKey = some key) :
    findByIdempotencyKey key db.table = none := by
  obtain ⟨db₁, hinserted, -⟩ := flush_ok h
  obtain ⟨db₂, hinsert, -⟩ := Runs.foldlM_cons_eq_ok.mp hinserted
  obtain ⟨-, hfree, -⟩ := flushInsert_ok hinsert
  refine List.find?_eq_none.mpr fun r hr => ?_
  have hdiffers := (Payment.collides_eq_false.mp (hfree r hr)).2
  rw [hkey] at hdiffers
  simpa using hdiffers rfl

/-- An update that went through replaced the version it had read. -/
theorem flushUpdate_read {m : Payment × Payment} (h : flushUpdate t now db m = .ok db')
    (hchanged : m.2 ≠ m.1) : ∃ r ∈ db.table, r.id = m.1.id ∧ r.version = m.1.version := by
  rcases flushUpdate_ok h with ⟨hsame, -⟩ | ⟨-, hupdate⟩
  · exact absurd hsame hchanged
  · exact (Store.update_cases hupdate).1

/-- What the other updates of a flush leave of a row. -/
theorem flushUpdate_keeps {m : Payment × Payment} {r : Payment}
    (h : flushUpdate t now db m = .ok db') (hterms : m.2.id = m.1.id) (hr : r ∈ db'.table)
    (hid : r.id ≠ m.1.id) : r ∈ db.table := by
  rcases flushUpdate_ok h with ⟨-, rfl⟩ | ⟨-, hupdate⟩
  · exact hr
  · obtain ⟨-, rfl⟩ := Store.update_cases hupdate
    obtain ⟨r', hr', heq⟩ := List.mem_map.mp hr
    split at heq
    · subst heq
      exact absurd hterms hid
    · exact heq ▸ hr'

/-- **A flush that went through replaced the versions it had read**, all of them as they stood before
it: no payment is loaded twice. -/
theorem flushUpdates_read {managed : List (Payment × Payment)}
    (h : managed.foldlM (flushUpdate t now) db = .ok db')
    (hids : (managed.map fun m => m.1.id).Nodup) (hterms : ∀ m ∈ managed, m.2.id = m.1.id) :
    ∀ m ∈ managed, m.2 ≠ m.1 → ∃ r ∈ db.table, r.id = m.1.id ∧ r.version = m.1.version := by
  induction managed generalizing db with
  | nil => exact fun m hm => absurd hm List.not_mem_nil
  | cons n ns ih =>
      obtain ⟨db₁, hn, hns⟩ := Runs.foldlM_cons_eq_ok.mp h
      simp only [List.map_cons, List.nodup_cons, List.mem_map, not_exists, not_and] at hids
      intro m hm hchanged
      rcases List.mem_cons.mp hm with rfl | hm
      · exact flushUpdate_read hn hchanged
      · obtain ⟨r, hr, hid, hversion⟩ :=
          ih hns hids.2 (fun m hm => hterms m (List.mem_cons_of_mem n hm)) m hm hchanged
        refine ⟨r, flushUpdate_keeps hn (hterms n List.mem_cons_self) hr ?_, hid, hversion⟩
        rw [hid]
        exact hids.1 m hm

/-- The rows a flush of updates read are the stored ones. -/
theorem flushed_current {context : PersistenceContext} (hdb : db.Sound)
    (hcontext : context.Sound db) (hsimple : context.Simple) (hinserted : context.inserted = [])
    (h : flush t now context db = .ok db') {m : Payment × Payment} (hm : m ∈ context.managed)
    (hchanged : m.2 ≠ m.1) : m.1 ∈ db.table := by
  obtain ⟨db₁, hnone, hmanaged⟩ := flush_ok h
  rw [hinserted] at hnone
  obtain rfl : db = db₁ := by simpa [pure, Except.pure] using hnone
  obtain ⟨r, hr, hid, hversion⟩ :=
    flushUpdates_read hmanaged hsimple.managed hsimple.terms m hm hchanged
  obtain ⟨x, hx, hrow⟩ := (hcontext.managed m hm).1
  rw [← hrow] at hid hversion ⊢
  exact hdb.consistent.loaded_current hx hr hid hversion ▸ hr

theorem findById_of_mem (hdb : db.Sound) {p : Payment} (hp : p ∈ db.table) :
    findById p.id db.table = some p :=
  (mem_iff_find_key hdb.consistent.unique).mp hp

/-- A flush without a changed entity leaves the database as it is. -/
theorem flush_unchanged {context : PersistenceContext} (hinserted : context.inserted = [])
    (hmanaged : ∀ m ∈ context.managed, m.2 = m.1) : flush t now context db = .ok db := by
  unfold flush
  rw [hinserted]
  show context.managed.foldlM (flushUpdate t now) db = .ok db
  generalize context.managed = managed at hmanaged
  induction managed with
  | nil => rfl
  | cons m ms ih =>
      refine Runs.foldlM_cons_eq_ok.mpr ⟨db, if_pos (hmanaged m List.mem_cons_self), ih ?_⟩
      exact fun n hn => hmanaged n (List.mem_cons_of_mem m hn)

end Flush

/-! ## The retry job's query -/

section Query

variable {t : TxId} {now cutoffTime : Instant} {db db' : Database}

/-- A row the query leaves out, in the place of one it may select. -/
theorem filter_replaceRow_sublist {q : Payment → Bool} {row : Payment} (hrow : q row = false)
    (table : List Payment) :
    ((replaceRow Payment.id row table).filter q).Sublist (table.filter q) := by
  induction table with
  | nil => exact .slnil
  | cons r table ih =>
      show (((if r.id = row.id then row else r) :: replaceRow Payment.id row table).filter q).Sublist _
      by_cases hid : r.id = row.id
      · rw [if_pos hid, List.filter_cons_of_neg (by simp [hrow])]
        exact ih.trans ((List.sublist_cons_self r table).filter q)
      · rw [if_neg hid]
        by_cases hr : q r = true
        · rw [List.filter_cons_of_pos hr, List.filter_cons_of_pos hr]
          exact ih.cons_cons r
        · rw [List.filter_cons_of_neg hr, List.filter_cons_of_neg hr]
          exact ih

/-- Fewer rows, in the same order, sort to fewer rows in the same order. -/
theorem insertionSort_sublist {rows rows' : List Payment} (h : rows.Sublist rows') :
    (rows.insertionSort fun a b => a.createdAt ≤ b.createdAt).Sublist
      (rows'.insertionSort fun a b => a.createdAt ≤ b.createdAt) := by
  have htrans : IsTrans Payment fun a b => a.createdAt ≤ b.createdAt :=
    ⟨fun _ _ _ => Int.le_trans⟩
  have htotal : Std.Total fun a b : Payment => a.createdAt ≤ b.createdAt :=
    ⟨fun a b => Int.le_total a.createdAt b.createdAt⟩
  induction h with
  | slnil => exact .slnil
  | cons a _ ih => exact ih.trans (List.sublist_orderedInsert _ _)
  | cons_cons a _ ih =>
      exact List.Sublist.orderedInsert_sublist a ih (List.pairwise_insertionSort _ _)

/-- One statement of a flush stamped at or after the cutoff makes nothing retryable. -/
theorem findRetryablePayments_insert {p : Payment} (h : flushInsert t db p = .ok db')
    (hp : p.status = .PENDING) :
    findRetryablePayments cutoffTime db'.table = findRetryablePayments cutoffTime db.table := by
  obtain ⟨-, rfl⟩ := Store.insert_cases (flushInsert_ok h).2.2
  simp [findRetryablePayments, List.filter_append, hp]

theorem findRetryablePayments_update {m : Payment × Payment}
    (h : flushUpdate t now db m = .ok db') (hcutoff : cutoffTime ≤ now) :
    (findRetryablePayments cutoffTime db'.table).Sublist
      (findRetryablePayments cutoffTime db.table) := by
  rcases flushUpdate_ok h with ⟨-, rfl⟩ | ⟨-, hupdate⟩
  · exact List.Sublist.refl _
  · obtain ⟨-, rfl⟩ := Store.update_cases hupdate
    refine insertionSort_sublist (filter_replaceRow_sublist ?_ db.table)
    have hstamped : ¬ (nextRow m.1 m.2 now).updatedAt < cutoffTime := by
      show ¬ now < cutoffTime
      exact Int.not_lt.mpr hcutoff
    simp [hstamped]

/-- **No payment becomes retryable behind a query** by a flush stamped at or after its cutoff. -/
theorem findRetryablePayments_flush {context : PersistenceContext} (hcontext : context.Sound db)
    (h : flush t now context db = .ok db') (hcutoff : cutoffTime ≤ now) :
    (findRetryablePayments cutoffTime db'.table).Sublist
      (findRetryablePayments cutoffTime db.table) := by
  obtain ⟨db₁, hinserted, hmanaged⟩ := flush_ok h
  have hkept : findRetryablePayments cutoffTime db₁.table =
      findRetryablePayments cutoffTime db.table ∧ ∀ p ∈ ([] : List Payment), p.status = .PENDING :=
    Runs.foldlM_invariant
      (I := fun (d : Database) (ps : List Payment) => findRetryablePayments cutoffTime d.table =
        findRetryablePayments cutoffTime db.table ∧ ∀ p ∈ ps, p.status = .PENDING)
      (fun d p ps d' hd hp =>
        ⟨(findRetryablePayments_insert hp (hd.2 p List.mem_cons_self)).trans hd.1,
          fun q hq => hd.2 q (List.mem_cons_of_mem p hq)⟩)
      ⟨rfl, hcontext.inserted⟩ hinserted
  rw [← hkept.1]
  exact Runs.foldlM_invariant
    (I := fun d _ => (findRetryablePayments cutoffTime d.table).Sublist
      (findRetryablePayments cutoffTime db₁.table))
    (fun d m _ d' hd hm => (findRetryablePayments_update hm hcutoff).trans hd)
    (List.Sublist.refl _) hmanaged

end Query

/-! ## What a transaction still knows at its commit -/

/-- The payments a retry job has selected, re-queued already or still to be. -/
def Tx.selected (tx : Tx) (todo : List Payment) : List Payment :=
  tx.context.managed.map Prod.fst ++ todo

/-- The retry job's selection: retryable when it was made, and by now everything that still is. -/
def Tx.SelectionCurrent (db : Database) (tx : Tx) : Prop :=
  ∀ cutoffTime todo, tx.call = some (.retryFailedPayments cutoffTime) → tx.phase = .requeuing todo →
    (∀ p ∈ tx.selected todo, p.status = .FAILED ∧ p.retryCount < 3 ∧ p.updatedAt < cutoffTime) ∧
      (findRetryablePayments cutoffTime db.table).Sublist (tx.selected todo)

/-- The invariant of the run: the service's own, and the currency of every selection. -/
structure Sys.Serializable (s : Sys) : Prop where
  sound : s.Sound
  current : ∀ t, (s.txs t).SelectionCurrent s.db

theorem Tx.SelectionCurrent.of_phase {db : Database} {tx : Tx}
    (h : ∀ todo, tx.phase ≠ .requeuing todo) : tx.SelectionCurrent db :=
  fun _ todo _ hphase => absurd hphase (h todo)

/-- A transaction's own move keeps its selection. -/
theorem Tx.SelectionCurrent.move {db db' : Database} {a : Action} {tx tx' : Tx} {srv srv' : Server}
    {events : List PaymentEvent} (h : tx.SelectionCurrent db)
    (hmoves : Moves db a tx srv tx' srv' db' events) : tx'.SelectionCurrent db' := by
  cases hmoves with
  | @retrySelected _ _ selectedCutoff =>
      intro cutoffTime todo hcall hphase
      obtain rfl := Call.retryFailedPayments.inj (Option.some.inj hcall)
      obtain rfl := Phase.requeuing.inj hphase
      exact ⟨fun p hp => (mem_findRetryablePayments.mp hp).2, List.Sublist.refl _⟩
  | @requeued _ _ _ _ _ payment rest hphase =>
      intro cutoffTime todo hcall hphase'
      obtain rfl := Phase.requeuing.inj hphase'
      have hselected : (tx.requeued payment rest).selected rest = tx.selected (payment :: rest) := by
        simp [Tx.selected, Tx.requeued]
      rw [hselected]
      exact h cutoffTime _ hcall hphase
  | _ =>
      refine .of_phase fun todo hphase => ?_
      cases hphase

theorem Sys.Serializable.start {rows : List Payment} (h : ValidRows rows) :
    (Sys.start rows).Serializable :=
  ⟨.start h, fun _ => .of_phase fun _ => nofun⟩

/-- **Every step stamped past the cutoffs keeps the invariant.** -/
theorem Sys.Serializable.step {s s' : Sys} {a : Action} (hs : s.Serializable)
    (hclock : CutoffsPast s a) (hstep : step s a = some s') : s'.Serializable := by
  refine ⟨hs.sound.step hstep, ?_⟩
  obtain ⟨tx, srv, db, events, h⟩ := step_cases hstep
  rw [h.db_eq]
  intro t
  by_cases ht : t = a.tx
  · subst ht
    rw [h.tx_self]
    exact (hs.current a.tx).move h.moves
  · rw [h.tx_other ht]
    intro cutoffTime todo hcall hphase
    obtain ⟨heligible, hcurrent⟩ := hs.current t cutoffTime todo hcall hphase
    refine ⟨heligible, List.Sublist.trans ?_ hcurrent⟩
    rcases h.moves.db_cases with rfl | ⟨t', now, response, rfl, -, hflush, -⟩
    · exact List.Sublist.refl _
    · exact findRetryablePayments_flush (hs.sound.txs t').context hflush (hclock t cutoffTime hcall)

/-! ## A commit executes the whole call -/

section Executes

variable {s : Sys} {t : TxId} {now : Instant} {db' : Database}

theorem loadForUpdate_of_current {table : List Payment} {request : UpdateStatusRequest} {p : Payment}
    (hfound : findById p.id table = some p) (haccepts : Accepts p.status request.newStatus) :
    loadForUpdate table p.id request = .ok p := by
  have hguard : validateStatusTransition p.status request.newStatus = .ok () := haccepts
  simp only [loadForUpdate, hfound, hguard]

/-- A create call that commits would have missed its key in the table it is committed to. -/
theorem createPayment_executes {request : CreatePaymentRequest} {sequence sequence' : Nat}
    {env : Surroundings} {payment : Payment}
    (hprepared : preparePayment request sequence env = .ok (payment, sequence'))
    (hflush : flush t now { inserted := [payment] } s.db = .ok db') :
    Job.execute ⟨t, .createPayment request, sequence, env, now, some (toResponse payment)⟩ s.db =
      .ok (db', some (toResponse payment)) := by
  obtain ⟨m, -, hpayment, -⟩ := preparePayment_ok hprepared
  have hmissed : (request.idempotencyKey.bind fun key => findByIdempotencyKey key s.db.table) =
      none := by
    refine Option.bind_eq_none_iff.mpr fun key hkey => flush_inserted_unused hflush ?_
    rw [hpayment]
    exact hkey
  simp only [Job.execute, hmissed]
  exact Runs.bind_eq_ok.mpr ⟨_, hprepared, Runs.bind_eq_ok.mpr ⟨db', hflush, rfl⟩⟩

/-- An update that commits a change would have loaded the same row from the table it is committed to:
the version check saw it. -/
theorem updateStatus_executes (hs : s.Sound) {request : UpdateStatusRequest} {payment : Payment}
    {sequence : Nat} {env : Surroundings}
    (hcontext : (s.txs t).context = { managed := [(payment, applyStatus request payment)] })
    (hchanged : applyStatus request payment ≠ payment)
    (hflush : flush t now (s.txs t).context s.db = .ok db') :
    Job.execute ⟨t, .updateStatus payment.id request, sequence, env, now,
      some (toResponse (applyStatus request payment))⟩ s.db =
        .ok (db', some (toResponse (applyStatus request payment))) := by
  have hsound := (hs.txs t).context
  rw [hcontext] at hsound hflush
  have hstored : payment ∈ s.db.table :=
    flushed_current hs.db hsound
      ⟨by simp, by simp, fun m hm => by obtain rfl := List.mem_singleton.mp hm; rfl⟩ rfl hflush
      (List.mem_singleton_self _) hchanged
  have haccepts : Accepts payment.status request.newStatus :=
    (hsound.managed _ (List.mem_singleton_self _)).2.accepted
  have hloaded := loadForUpdate_of_current (findById_of_mem hs.db hstored) haccepts
  exact Runs.bind_eq_ok.mpr ⟨payment, hloaded, Runs.bind_eq_ok.mpr ⟨db', hflush, rfl⟩⟩

/-- **The retry job's selection is the query's answer at its commit**: everything it selected is still
there, by the version check, and nothing has become retryable since. -/
theorem findRetryablePayments_at_commit (hs : s.Serializable) {cutoffTime : Instant} {i : ServerId}
    {selected : List Payment} (hnodup : (selected.map Payment.id).Nodup)
    (htx : s.txs t = ⟨some (.retryFailedPayments cutoffTime), i, .requeuing [],
      { managed := selected.map fun p => (p, requeuePayment p) }⟩)
    (hflush : flush t now (s.txs t).context s.db = .ok db') :
    findRetryablePayments cutoffTime s.db.table = selected := by
  have hsound := (hs.sound.txs t).context
  have hready : ReadyToCommit (s.txs t).phase none := by
    rw [htx]
    exact .requeued
  have hsimple := (hs.sound.shaped t).simple hready
  have hselection := hs.current t cutoffTime [] (by rw [htx]) (by rw [htx])
  have hselected : (s.txs t).selected [] = selected := by
    rw [htx]
    simp [Tx.selected, List.map_map, Function.comp_def]
  rw [hselected] at hselection
  obtain ⟨heligible, hcurrent⟩ := hselection
  have hstored : ∀ p ∈ selected, p ∈ s.db.table := by
    intro p hp
    refine flushed_current (m := (p, requeuePayment p)) hs.sound.db hsound hsimple ?_ hflush ?_ ?_
    · rw [htx]
    · rw [htx]
      exact List.mem_map_of_mem hp
    · intro hsame
      have hstatus := congrArg Payment.status hsame
      rw [(heligible p hp).1] at hstatus
      cases hstatus
  refine hcurrent.eq_of_length_le ?_
  refine (List.subperm_of_subset (List.Nodup.of_map _ hnodup) fun p hp => ?_).length_le
  exact mem_findRetryablePayments.mpr ⟨hstored p hp, heligible p hp⟩

/-- **A commit that has something to write executes its whole call** on the table it is committed
to. -/
theorem Sys.Serializable.commit_executes (hs : s.Serializable) {response : Option PaymentResponse}
    (hready : ReadyToCommit (s.txs t).phase response) (hfresh : ¬ (s.txs t).Linearized)
    (hflush : flush t now (s.txs t).context s.db = .ok db') :
    ∃ job : Job, job.tx = t ∧ (s.txs t).call = some job.call ∧ job.response = response ∧
      job.execute s.db = .ok (db', response) := by
  have hshaped := hs.sound.shaped t
  generalize htx : s.txs t = tx at hshaped hready hfresh
  cases hshaped with
  | idle => cases hready
  | persisting => cases hready
  | updating => cases hready
  | ended => cases hready
  | @inserted request i sequence sequence' env payment hprepared =>
      cases hready
      rw [htx] at hflush
      exact ⟨_, rfl, rfl, rfl, createPayment_executes hprepared hflush⟩
  | @updated id request i payment hid =>
      cases hready
      subst hid
      -- an update draws no reference, so the sequence and the surroundings it is given do not matter
      refine ⟨⟨t, _, 0, sampleSurroundings 0, now, _⟩, rfl, rfl, rfl,
        updateStatus_executes hs.sound (by rw [htx]) (fun hsame => hfresh ?_) hflush⟩
      refine ⟨rfl, fun m hm => ?_⟩
      obtain rfl := List.mem_singleton.mp hm
      exact hsame
  | @requeuing cutoffTime i selected todo hnodup =>
      cases hready
      rw [List.append_nil] at hnodup
      have hquery := findRetryablePayments_at_commit hs hnodup htx hflush
      rw [htx] at hflush
      refine ⟨⟨t, .retryFailedPayments cutoffTime, 0, sampleSurroundings 0, now, none⟩, rfl, rfl, rfl,
        ?_⟩
      simp only [Job.execute, hquery]
      exact Runs.bind_eq_ok.mpr ⟨db', hflush, rfl⟩

end Executes

/-! ## Every step is silent or one call's point -/

/-- What the call returns, if it returns. -/
def Tx.Promises (answer : Option PaymentResponse) (tx : Tx) : Prop :=
  match tx.phase with
  | .updating payment request => answer = some (toResponse (applyStatus request payment))
  | .flushing response => answer = response
  | .ended (.returned response) => answer = response
  | .ended (.raised _) => True
  | _ => False

theorem Tx.Promises.move {answer : Option PaymentResponse} {db db' : Database} {a : Action}
    {tx tx' : Tx} {srv srv' : Server} {events : List PaymentEvent} (h : tx.Promises answer)
    (hmoves : Moves db a tx srv tx' srv' db' events) : tx'.Promises answer := by
  unfold Tx.Promises at h
  cases hmoves with
  | statusApplied hphase =>
      rw [hphase] at h
      exact h
  | committed hready =>
      generalize tx.phase = phase at hready h
      cases hready with
      | flushing response => exact h
      | requeued => exact h.elim
  | conversionRaised => trivial
  | refused => trivial
  | aborted => trivial
  | replayed hphase => rw [hphase] at h; exact h.elim
  | missed hphase => rw [hphase] at h; exact h.elim
  | persisted hphase => rw [hphase] at h; exact h.elim
  | updateRefused hphase => rw [hphase] at h; exact h.elim
  | updateLoaded hphase => rw [hphase] at h; exact h.elim
  | retrySelected hphase => rw [hphase] at h; exact h.elim
  | requeued hphase => rw [hphase] at h; exact h.elim

section Points

variable {s s' u : Sys} {a : Action} {as : List Action} {tx : Tx} {srv : Server} {db : Database}
variable {events : List PaymentEvent} {C : Sys → Action → Prop}

/-- A call that has ended stays as it is. -/
theorem ended_stays {t : TxId} {outcome : Outcome} (h : (s.txs t).phase = .ended outcome)
    (hrun : RunsUnder step C s as u) : u.txs t = s.txs t := by
  refine hrun.invariant (I := fun v => v.txs t = s.txs t) (fun v b v' hv _ hstep => ?_) rfl
  obtain ⟨tx, srv, db, events, hstepped⟩ := step_cases hstep
  rw [← hv]
  refine hstepped.tx_other fun ht => ?_
  subst ht
  rw [← hv] at h
  exact hstepped.moves.not_ended _ h

/-- A call keeps its promise. -/
theorem promise_kept {t : TxId} {call : Call} {answer : Option PaymentResponse} (hs : s.Sound)
    (hcall : (s.txs t).call = some call) (hpromise : (s.txs t).Promises answer)
    (hrun : RunsUnder step C s as u) :
    (u.txs t).call = some call ∧ (u.txs t).Promises answer := by
  refine (hrun.invariant (I := fun v => v.Sound ∧ (v.txs t).call = some call ∧
    (v.txs t).Promises answer) (fun v b v' hv _ hstep => ?_) ⟨hs, hcall, hpromise⟩).2
  obtain ⟨hvs, hvcall, hvpromise⟩ := hv
  obtain ⟨tx, srv, db, events, hstepped⟩ := step_cases hstep
  refine ⟨hvs.step hstep, ?_, ?_⟩
  · rw [hstepped.call (hvs.shaped t) (by rw [hvcall]; nofun), hvcall]
  · by_cases ht : t = b.tx
    · subst ht
      rw [hstepped.tx_self]
      exact hvpromise.move hstepped.moves
    · rw [hstepped.tx_other ht]
      exact hvpromise

theorem Tx.linearized_of_ended {outcome : Outcome} (h : tx.phase = .ended outcome) :
    tx.Linearized := by
  unfold Tx.Linearized
  rw [h]
  trivial

/-- A step at which its call neither has its point nor had lost it before. -/
theorem Stepped.silent (h : Stepped s a s' tx srv db events)
    (hself : tx.Linearized ↔ (s.txs a.tx).Linearized) (hdb : db = s.db) :
    Takes step CutoffsPast serviceView s s' := by
  refine .silent (fun t => ?_) (h.db_eq.trans hdb)
  show (s'.txs t).Linearized ↔ (s.txs t).Linearized
  by_cases ht : t = a.tx
  · subst ht
    rw [h.tx_self]
    exact hself
  · rw [h.tx_other ht]

/-- The calls settled after a point are those settled before it, and the one whose point it is. -/
theorem Stepped.linearized_iff (h : Stepped s a s' tx srv db events) (hself : tx.Linearized)
    (t : TxId) : (s'.txs t).Linearized ↔ t = a.tx ∨ (s.txs t).Linearized := by
  by_cases ht : t = a.tx
  · subst ht
    rw [h.tx_self]
    exact ⟨fun _ => Or.inl rfl, fun _ => hself⟩
  · rw [h.tx_other ht]
    exact ⟨Or.inr, fun hor => hor.resolve_left ht⟩

/-- A call that ends with an exception has left the table alone. -/
theorem Stepped.raised (h : Stepped s a s' tx srv db events) {e : ServiceException}
    (hended : tx.phase = .ended (.raised e)) (hdb : db = s.db) :
    Takes step CutoffsPast serviceView s s' := by
  have hself := Tx.linearized_of_ended hended
  by_cases hfresh : (s.txs a.tx).Linearized
  · exact h.silent ⟨fun _ => hfresh, fun _ => hself⟩ hdb
  · refine .point a.tx hfresh (h.linearized_iff hself) fun as u hrun => Or.inr ⟨?_, ?_⟩
    · intro job hjob howner
      have hreturned : (u.txs a.tx).phase = .ended (.returned job.response) := howner ▸ hjob.1
      rw [ended_stays (by rw [h.tx_self]; exact hended) hrun, h.tx_self, hended] at hreturned
      cases hreturned
    · exact h.db_eq.trans hdb

/-- A call that returns here, and whose whole execution is this step. -/
theorem Stepped.returned (h : Stepped s a s' tx srv db events) {job : Job}
    (hfresh : ¬ (s.txs a.tx).Linearized) (howner : job.tx = a.tx)
    (hended : tx.phase = .ended (.returned job.response)) (hcall : tx.call = some job.call)
    (hexec : job.execute s.db = .ok (db, job.response)) :
    Takes step CutoffsPast serviceView s s' := by
  refine .point a.tx hfresh (h.linearized_iff (Tx.linearized_of_ended hended)) fun as u hrun =>
    Or.inl ⟨job, howner, ?_, ?_⟩
  · show (u.txs job.tx).phase = _ ∧ (u.txs job.tx).call = _
    rw [howner, ended_stays (by rw [h.tx_self]; exact hended) hrun, h.tx_self]
    exact ⟨hended, hcall⟩
  · show job.execute s.db = .ok (s'.db, job.response)
    rw [h.db_eq]
    exact hexec

/-- An update that leaves its payment as it is has its point at the load. -/
theorem Stepped.unchanged {t : TxId} {i : ServerId} {id : UUID} {request : UpdateStatusRequest}
    {payment : Payment} (hs' : s'.Sound)
    (h : Stepped s (.updateStatus t i id request) s'
      ⟨some (.updateStatus id request), i, .updating payment request, {}⟩ srv s.db [])
    (hfresh : ¬ (s.txs t).Linearized) (hloaded : loadForUpdate s.db.table id request = .ok payment)
    (hsame : applyStatus request payment = payment) :
    Takes step CutoffsPast serviceView s s' := by
  have hself : Tx.Linearized ⟨some (.updateStatus id request), i, .updating payment request, {}⟩ :=
    hsame
  refine .point t hfresh (h.linearized_iff hself) fun as u hrun => ?_
  have hpromised : (s'.txs t).Promises (some (toResponse (applyStatus request payment))) := by
    rw [show s'.txs t = _ from h.tx_self]
    exact rfl
  have hcalled : (s'.txs t).call = some (.updateStatus id request) := congrArg Tx.call h.tx_self
  obtain ⟨hcall, hpromise⟩ := promise_kept hs' hcalled hpromised hrun
  -- the call may still be aborted: then it has no place in the order
  by_cases hreturned : ∃ response, (u.txs t).phase = .ended (.returned response)
  · obtain ⟨response, hended⟩ := hreturned
    obtain rfl : some (toResponse (applyStatus request payment)) = response := by
      unfold Tx.Promises at hpromise
      rw [hended] at hpromise
      exact hpromise
    refine Or.inl ⟨⟨t, .updateStatus id request, 0, sampleSurroundings 0, 0, _⟩, rfl,
      ⟨hended, hcall⟩, ?_⟩
    show Job.execute _ s.db = .ok (s'.db, _)
    rw [h.db_eq]
    refine Runs.bind_eq_ok.mpr ⟨payment, hloaded, Runs.bind_eq_ok.mpr ⟨s.db, ?_, rfl⟩⟩
    refine flush_unchanged rfl fun m hm => ?_
    obtain rfl := List.mem_singleton.mp hm
    exact hsame
  · refine Or.inr ⟨fun job hjob howner => hreturned ⟨job.response, ?_⟩, h.db_eq⟩
    rw [show t = job.tx from howner.symm]
    exact hjob.1

/-- **Every step is silent or one call's point.** -/
theorem Stepped.takes (hs : s.Serializable) (hs' : s'.Sound) (h : Stepped s a s' tx srv db events) :
    Takes step CutoffsPast serviceView s s' := by
  have hmoves := h.moves
  generalize hbefore : s.txs a.tx = before at hmoves
  cases hmoves with
  | @replayed t i request _ _ key payment hidle hkey hfound =>
      have howns : Job.tx ⟨t, .createPayment request, 0, sampleSurroundings 0, 0,
        some (toResponse payment)⟩ = t := rfl
      refine h.returned ?_ howns rfl rfl ?_
      · rw [hbefore, Tx.Linearized, hidle]
        exact not_false
      · simp only [Job.execute, hkey, Option.bind_some, hfound]
  | missed hidle =>
      refine h.silent ?_ rfl
      rw [hbefore, Tx.Linearized, Tx.Linearized, hidle]
  | conversionRaised => exact h.raised rfl rfl
  | persisted hphase =>
      refine h.silent ?_ rfl
      rw [hbefore, Tx.Linearized, Tx.Linearized, hphase]
      exact ⟨fun hwritten => absurd hwritten.1 (List.cons_ne_nil _ _), False.elim⟩
  | updateRefused => exact h.raised rfl rfl
  | @updateLoaded t i id request _ _ payment hidle hloaded =>
      have hfresh : ¬ (s.txs t).Linearized := by
        rw [show s.txs t = before from hbefore, Tx.Linearized, hidle]
        exact not_false
      by_cases hsame : applyStatus request payment = payment
      · exact h.unchanged hs' hfresh hloaded hsame
      · refine h.silent ⟨fun hself => absurd hself hsame, fun hself => ?_⟩ rfl
        exact absurd hself hfresh
  | @statusApplied t _ _ _ _ payment request hphase =>
      refine h.silent ?_ rfl
      rw [hbefore, Tx.Linearized, Tx.Linearized, hphase]
      exact ⟨fun hwritten => hwritten.2 _ (List.mem_singleton_self _),
        fun hsame => ⟨rfl, fun m hm => List.mem_singleton.mp hm ▸ hsame⟩⟩
  | retrySelected hidle =>
      refine h.silent ?_ rfl
      rw [hbefore, Tx.Linearized, Tx.Linearized, hidle]
  | requeued hphase =>
      refine h.silent ?_ rfl
      rw [hbefore, Tx.Linearized, Tx.Linearized, hphase]
      exact Iff.rfl
  | @committed t now _ _ response _ hready hflush =>
      have hbefore' : s.txs t = before := hbefore
      by_cases hfresh : before.Linearized
      -- nothing to write: the point was the load, and the commit leaves the table as it is
      · refine h.silent ?_ ?_
        · rw [hbefore]
          exact ⟨fun _ => hfresh, fun _ => trivial⟩
        · have hnothing : before.context.inserted = [] ∧ ∀ m ∈ before.context.managed, m.2 = m.1 := by
            unfold Tx.Linearized at hfresh
            generalize before.phase = phase at hready hfresh
            cases hready with
            | flushing => exact hfresh
            | requeued => exact hfresh.elim
          rw [flush_unchanged hnothing.1 hnothing.2] at hflush
          exact (Except.ok.inj hflush).symm
      · rw [← hbefore'] at hready hfresh hflush
        obtain ⟨job, howner, hcall, hresponse, hexec⟩ := hs.commit_executes hready hfresh hflush
        subst hresponse
        refine h.returned hfresh howner rfl ?_ hexec
        rw [← hbefore']
        exact hcall
  | refused => exact h.raised rfl rfl
  | aborted => exact h.raised rfl rfl

end Points

/-! ## Serializability -/

/-- **A serial order of a run** of the service: one job for each call that returned, with its
response; run alone one after another, they make the table; they keep to real time; and the table of
every state on the way is made by the first of them. -/
structure SerialOrder (rows : List Payment) (trace : List Action) (s : Sys) (jobs : List Job) :
    Prop where
  executes : Serial serviceView.exec (Store.start rows) jobs s.db
  once : (jobs.map Job.tx).Nodup
  returned : ∀ t response, (s.txs t).phase = .ended (.returned response) ↔
    ∃ job ∈ jobs, job.tx = t ∧ job.response = response
  calls : ∀ job ∈ jobs, (s.txs job.tx).call = some job.call
  /-- a call that had ended before another began comes before it -/
  realTime : ∀ pre post m, trace = pre ++ post → run step (Sys.start rows) pre = some m →
    ∀ j ∈ jobs, ∀ j' ∈ jobs, (∃ outcome, (m.txs j.tx).phase = .ended outcome) →
      (m.txs j'.tx).phase = .idle → List.Sublist [j, j'] jobs
  tables : ∀ pre post m, trace = pre ++ post → run step (Sys.start rows) pre = some m →
    ∃ before, before <+: jobs ∧ Serial serviceView.exec (Store.start rows) before m.db

/-- The step takes its time from the right side of `bound`. -/
def Action.respects (bound : Instant) : Action → Bool
  | .retryFailedPayments _ _ cutoffTime => cutoffTime ≤ bound
  | .commit _ now => bound ≤ now
  | _ => true

/-- Where one instant separates the cutoffs from the commits, no commit is stamped before a cutoff. -/
theorem cutoffsPast_of_bound {bound : Instant} {rows : List Payment} {trace : List Action} {s : Sys}
    (h : ∀ a ∈ trace, a.respects bound = true) (hrun : run step (Sys.start rows) trace = some s) :
    RunsUnder step CutoffsPast (Sys.start rows) trace s := by
  suffices hall : ∀ s₀, (∀ t cutoffTime, (s₀.txs t).call = some (.retryFailedPayments cutoffTime) →
      cutoffTime ≤ bound) → run step s₀ trace = some s → RunsUnder step CutoffsPast s₀ trace s from
    hall _ (fun t cutoffTime hcall => by cases hcall) hrun
  clear hrun
  induction trace with
  | nil =>
      intro s₀ _ hrun
      obtain rfl : s₀ = s := by simpa using hrun
      exact .nil s₀
  | cons a trace ih =>
      intro s₀ hcalls hrun
      obtain ⟨s₁, ha, hrest⟩ := (run_cons_eq_some step).mp hrun
      have hrespects := h a List.mem_cons_self
      refine .cons ?_ ha (ih (fun b hb => h b (List.mem_cons_of_mem a hb)) s₁ ?_ hrest)
      · cases a with
        | commit t now =>
            exact fun t' cutoffTime hcall =>
              Int.le_trans (hcalls t' cutoffTime hcall) (of_decide_eq_true hrespects)
        | _ => trivial
      · intro t cutoffTime hcall
        obtain ⟨tx, srv, db, events, hstepped⟩ := step_cases ha
        by_cases ht : t = a.tx
        · subst ht
          rw [hstepped.tx_self] at hcall
          have hmoves := hstepped.moves
          generalize hbefore : s₀.txs a.tx = before at hmoves
          have hold : before.call = some (.retryFailedPayments cutoffTime) → cutoffTime ≤ bound := by
            rw [← hbefore]
            exact hcalls a.tx cutoffTime
          cases hmoves with
          | retrySelected =>
              obtain rfl := Call.retryFailedPayments.inj (Option.some.inj hcall)
              exact of_decide_eq_true hrespects
          | replayed => cases hcall
          | missed => cases hcall
          | updateRefused => cases hcall
          | updateLoaded => cases hcall
          | _ => exact hold hcall
        · rw [hstepped.tx_other ht] at hcall
          exact hcalls t cutoffTime hcall

/-- A payment that failed before the day began. -/
def failedRow : Payment :=
  { buildPayment (sampleRequest none) 100000 "PAY-20240114-000001-AB12" (sampleSurroundings 3) with
    status := .FAILED }

/-- Two creates race for one key and a third call replays it; meanwhile the failed payment is loaded
for an update that changes nothing, and is re-queued before that update ends. -/
def busyDay : List Action :=
  [.createPayment 0 0 (sampleRequest (some "order-1")),
    .createPayment 1 1 (sampleRequest (some "order-1")),
    .persistAndPublish 1 (sampleSurroundings 8) true,
    .persistAndPublish 0 (sampleSurroundings 7) true, .retryFailedPayments 4 1 5, .commit 0 10,
    .commit 1 10, .createPayment 2 1 (sampleRequest (some "order-1")),
    .updateStatus 3 0 3 ⟨.FAILED, none, none⟩, .requeueAndPublish 4 11 true, .commit 4 11,
    .applyAndPublish 3 12 true, .commit 3 12]

end GlobalPayments.Payments

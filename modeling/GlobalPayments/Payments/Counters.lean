/-
# GlobalPayments.Payments.Counters — the Micrometer counters against the committed payments.

`payments.created.total`, `payments.completed.total` and `payments.failed.total` are incremented in
the method bodies, before the commit, and an `updateStatus` call increments them by the status it is
asked for, whatever the status was before.  A counter is therefore a sum over the transactions: what
each of them has counted.  What was really committed is a sum over the same transactions, of never
more; `counters_agree_iff` says when no transaction has counted more than it committed.
-/
import GlobalPayments.Payments.Lifecycle
import GlobalPayments.Payments.Writes
import Mathlib.Algebra.BigOperators.Group.Finset.Piecewise
import Mathlib.Algebra.Order.BigOperators.Group.Finset

namespace GlobalPayments.Payments

open Runs Versioned

/-! ## The counters, and what they are called after -/

/-- The three counters of the service. -/
inductive Counter where
  | created | completed | failed
  deriving DecidableEq, Repr

/-- The value of a counter on one server. -/
def Server.value (server : Server) : Counter → Nat
  | .created => server.created
  | .completed => server.completed
  | .failed => server.failed

/-- The write moved its payment into `status` from another one. -/
def enters (status : PaymentStatus) (x : Write TxId Payment) : Bool :=
  x.row.status = status && x.read.any (fun p => p.status ≠ status)

/-- The payments that were ever committed in `status`. -/
def Database.everIn (db : Database) (status : PaymentStatus) : List Payment :=
  db.table.filter fun p => status ∈ db.committedStatuses p.id

/-- What the counters of server `i` should say. -/
structure CountersAgree (s : Sys) (i : ServerId) : Prop where
  /-- the stored payments -/
  created : (s.servers i).created = s.db.table.length
  /-- the payments committed into COMPLETED, each once -/
  completed : (s.servers i).completed = (s.db.everIn .COMPLETED).length
  /-- the committed transitions from another status into FAILED -/
  failed : (s.servers i).failed = s.db.log.countP (enters .FAILED)

/-! ## What one transaction counts, and what it commits -/

/-- What a transaction has added to a counter. -/
def Tx.counted (tx : Tx) : Counter → Nat
  | .created => tx.context.inserted.length
  | .completed => tx.context.managed.countP fun m => m.2.status = .COMPLETED
  | .failed => tx.context.managed.countP fun m => m.2.status = .FAILED

/-- The payments of a flush that move into `status` from another one. -/
def PersistenceContext.entering (context : PersistenceContext) (status : PaymentStatus) : Nat :=
  context.managed.countP fun m => m.2.status = status && m.1.status ≠ status

/-- What a transaction has committed of it. -/
def Tx.earned (tx : Tx) (counter : Counter) : Nat :=
  match tx.phase, counter with
  | .ended (.returned _), .created => tx.context.inserted.length
  | .ended (.returned _), .completed => tx.context.entering .COMPLETED
  | .ended (.returned _), .failed => tx.context.entering .FAILED
  | _, _ => 0

/-- What is committed, as far as a counter goes. -/
def Database.events (db : Database) : Counter → Nat
  | .created => db.table.length
  | .completed => db.log.countP (enters .COMPLETED)
  | .failed => db.log.countP (enters .FAILED)

theorem Tx.earned_le (tx : Tx) (counter : Counter) : tx.earned counter ≤ tx.counted counter := by
  have hentering : ∀ status, tx.context.entering status ≤
      tx.context.managed.countP fun m => m.2.status = status := by
    intro status
    apply List.countP_mono_left
    intro m _ hm
    exact (Bool.and_eq_true_iff.mp hm).1
  unfold Tx.earned
  split
  · exact Nat.le_refl _
  · exact hentering .COMPLETED
  · exact hentering .FAILED
  · exact Nat.zero_le _

/-! ## What a flush commits -/

section Flush

variable {t : TxId} {now : Instant} {db db' : Database} {context : PersistenceContext}

theorem flush_length (h : flush t now context db = .ok db') :
    db'.table.length = db.table.length + context.inserted.length := by
  obtain ⟨db₁, hinserted, hmanaged⟩ := flush_ok h
  have hinsert := foldlM_invariant
    (I := fun d ps => d.table.length + ps.length = db.table.length + context.inserted.length)
    (fun d p ps d' hd hp => by
      obtain ⟨-, rfl⟩ := Store.insert_cases (flushInsert_ok hp).2.2
      simp only [List.length_append, List.length_cons, List.length_nil] at hd ⊢
      omega) rfl hinserted
  have hupdate := foldlM_invariant (I := fun d _ => d.table.length = db₁.table.length)
    (fun d m _ d' hd hm => by
      rcases flushUpdate_ok hm with ⟨-, rfl⟩ | ⟨-, hupdate⟩
      · exact hd
      · obtain ⟨-, rfl⟩ := Store.update_cases hupdate
        rw [← hd]
        exact List.length_map _) rfl hmanaged
  simp only [List.length_nil, Nat.add_zero] at hinsert
  rw [hupdate, hinsert]

theorem countP_enters_writes (status : PaymentStatus) :
    (context.writes t now).countP (enters status) = context.entering status := by
  have hinserted : (context.inserted.map fun p => (⟨some t, none, p⟩ : Write TxId Payment)).countP
      (enters status) = 0 := by
    rw [List.countP_eq_zero]
    intro x hx
    obtain ⟨p, -, rfl⟩ := List.mem_map.mp hx
    simp [enters]
  rw [PersistenceContext.writes, List.countP_append, hinserted, Nat.zero_add, List.countP_map,
    List.countP_filter, PersistenceContext.entering]
  refine List.countP_congr fun m _ => ?_
  -- an entity that changes its status is dirty
  have hstatus : (nextRow m.1 m.2 now).status = m.2.status := rfl
  simp only [Function.comp_apply, enters, hstatus, Option.any_some, Bool.and_eq_true,
    decide_eq_true_eq]
  constructor
  · exact fun h => h.1
  · rintro ⟨hnew, hold⟩
    refine ⟨⟨hnew, hold⟩, fun hsame => hold ?_⟩
    rw [← hsame]
    exact hnew

/-- **A flush commits what its transaction earns.** -/
theorem events_flush (h : flush t now context db = .ok db') (tx : Tx)
    (response : Option PaymentResponse) (htx : tx.context = context) (counter : Counter) :
    db'.events counter = db.events counter + (tx.finish (.returned response)).earned counter := by
  subst htx
  cases counter with
  | created => exact flush_length h
  | completed =>
      simp only [Database.events, flush_log h, List.countP_append, countP_enters_writes]
      rfl
  | failed =>
      simp only [Database.events, flush_log h, List.countP_append, countP_enters_writes]
      rfl

end Flush

/-! ## What one step counts and commits -/

/-- The action starts its call on server `i`, if it starts one. -/
def Action.OnServer (i : ServerId) : Action → Prop
  | .createPayment _ j _ => j = i
  | .updateStatus _ j _ _ => j = i
  | .retryFailedPayments _ j _ => j = i
  | _ => True

section Moves

variable {db db' : Database} {a : Action} {tx tx' : Tx} {srv srv' : Server}
variable {events : List PaymentEvent}

theorem counted_of_empty {tx : Tx} (h : tx.context = {}) (counter : Counter) :
    tx.counted counter = 0 := by
  unfold Tx.counted
  rw [h]
  cases counter <;> rfl

theorem Tx.Shaped.counted_of_idle (h : tx.Shaped) (hidle : tx.phase = .idle) (counter : Counter) :
    tx.counted counter = 0 := by
  cases h with
  | idle => exact counted_of_empty rfl counter
  | _ => cases hidle

theorem value_countStatus (srv : Server) (newStatus : PaymentStatus) (counter : Counter) :
    (srv.countStatus newStatus).value counter = srv.value counter +
      match counter with
      | .created => 0
      | .completed => if newStatus = .COMPLETED then 1 else 0
      | .failed => if newStatus = .FAILED then 1 else 0 := by
  cases counter <;> cases newStatus <;> rfl

/-- **A step adds to a counter what its transaction has counted.** -/
theorem Moves.counted (hshaped : tx.Shaped) (h : Moves db a tx srv tx' srv' db' events)
    (counter : Counter) :
    srv'.value counter + tx.counted counter = srv.value counter + tx'.counted counter := by
  have hstart : tx.phase = .idle → tx'.context = {} → srv' = srv →
      srv'.value counter + tx.counted counter = srv.value counter + tx'.counted counter := by
    intro hidle hempty hsrv
    rw [hshaped.counted_of_idle hidle, counted_of_empty hempty, hsrv]
  cases h with
  | replayed hidle => exact hstart hidle rfl rfl
  | missed hidle => exact hstart hidle rfl rfl
  | conversionRaised => rfl
  | persisted hphase =>
      cases hshaped with
      | persisting => cases counter <;> rfl
      | _ => cases hphase
  | updateRefused hidle => exact hstart hidle rfl rfl
  | updateLoaded hidle => exact hstart hidle rfl rfl
  | @statusApplied _ _ _ _ _ payment request hphase =>
      cases hshaped with
      | updating =>
          rw [value_countStatus]
          cases counter with
          | created => rfl
          | completed =>
              by_cases hnew : request.newStatus = .COMPLETED <;>
                simp [Tx.counted, Tx.statusApplied, applyStatus, hnew]
          | failed =>
              by_cases hnew : request.newStatus = .FAILED <;>
                simp [Tx.counted, Tx.statusApplied, applyStatus, hnew]
      | _ => cases hphase
  | retrySelected hidle => exact hstart hidle rfl rfl
  -- a re-queued payment is PENDING: no counter is about it
  | requeued => cases counter <;> simp [Tx.counted, Tx.requeued, requeuePayment]
  | committed => rfl
  | refused => rfl
  | aborted => rfl

theorem earned_of_not_returned {tx : Tx} (h : ∀ response, tx.phase ≠ .ended (.returned response))
    (counter : Counter) : tx.earned counter = 0 := by
  unfold Tx.earned
  split
  · exact absurd ‹_› (h _)
  · exact absurd ‹_› (h _)
  · exact absurd ‹_› (h _)
  · rfl

theorem earned_of_empty {tx : Tx} (h : tx.context = {}) (counter : Counter) :
    tx.earned counter = 0 := by
  have hle := tx.earned_le counter
  rw [counted_of_empty h] at hle
  exact Nat.le_zero.mp hle

theorem Moves.not_ended (h : Moves db a tx srv tx' srv' db' events) (outcome : Outcome) :
    tx.phase ≠ .ended outcome := by
  intro hended
  cases h with
  | committed hready => rw [hended] at hready; cases hready
  | refused hready => rw [hended] at hready; cases hready
  | aborted _ hrunning => exact hrunning outcome hended
  | _ => simp_all

/-- **A step commits what its transaction earns.** -/
theorem Moves.earned (h : Moves db a tx srv tx' srv' db' events) (counter : Counter) :
    db'.events counter + tx.earned counter = db.events counter + tx'.earned counter := by
  rw [earned_of_not_returned fun response => h.not_ended (.returned response)]
  have hopen : (∀ response, tx'.phase ≠ .ended (.returned response)) → db' = db →
      db'.events counter + 0 = db.events counter + tx'.earned counter := by
    intro hphase hdb
    rw [earned_of_not_returned hphase, hdb]
  have hempty : tx'.context = {} → db' = db →
      db'.events counter + 0 = db.events counter + tx'.earned counter := by
    intro hcontext hdb
    rw [earned_of_empty hcontext, hdb]
  cases h with
  | replayed => exact hempty rfl rfl
  | missed => exact hempty rfl rfl
  | conversionRaised => exact hopen (fun _ => nofun) rfl
  | persisted => exact hopen (fun _ => nofun) rfl
  | updateRefused => exact hempty rfl rfl
  | updateLoaded => exact hempty rfl rfl
  | statusApplied => exact hopen (fun _ => nofun) rfl
  | retrySelected => exact hempty rfl rfl
  | requeued => exact hopen (fun _ => nofun) rfl
  | committed _ hflush => exact events_flush hflush _ _ rfl counter
  | refused => exact hopen (fun _ => nofun) rfl
  | aborted => exact hopen (fun _ => nofun) rfl

/-- The process that serves a call goes on serving it. -/
theorem Moves.server {i : ServerId} (h : Moves db a tx srv tx' srv' db' events)
    (ha : a.OnServer i) (htx : tx.phase ≠ .idle → tx.server = i) : tx'.server = i := by
  cases h with
  | replayed => exact ha
  | missed => exact ha
  | conversionRaised hphase => exact htx (by rw [hphase]; nofun)
  | persisted hphase => exact htx (by rw [hphase]; nofun)
  | updateRefused => exact ha
  | updateLoaded => exact ha
  | statusApplied hphase => exact htx (by rw [hphase]; nofun)
  | retrySelected => exact ha
  | requeued hphase => exact htx (by rw [hphase]; nofun)
  | committed hready => exact htx hready.ne_idle
  | refused hready => exact htx hready.ne_idle
  | aborted hidle => exact htx hidle

end Moves

/-! ## One process, from an empty table -/

/-- **The counters and the events are sums over the transactions** `T` of one process `i`. -/
structure Sys.Balanced (T : Finset TxId) (i : ServerId) (s : Sys) : Prop where
  explained : s.Explained []
  server : ∀ t, (s.txs t).phase ≠ .idle → (s.txs t).server = i
  outside : ∀ t, t ∉ T → (s.txs t).phase = .idle
  counted : ∀ counter, (s.servers i).value counter = ∑ t ∈ T, (s.txs t).counted counter
  earned : ∀ counter, s.db.events counter = ∑ t ∈ T, (s.txs t).earned counter

section Runs

variable {T : Finset TxId} {i : ServerId} {s s' : Sys} {a : Action}

/-- Replacing one transaction changes a sum by its own summand. -/
theorem sum_update {t : TxId} (ht : t ∈ T) (txs : TxId → Tx) (tx : Tx) (f : Tx → Nat) :
    ∑ u ∈ T, f (Function.update txs t tx u) + f (txs t) = ∑ u ∈ T, f (txs u) + f tx := by
  have hupdate : ∀ u, f (Function.update txs t tx u) =
      Function.update (fun u => f (txs u)) t (f tx) u := fun u =>
    Function.apply_update (fun _ => f) txs t tx u
  simp only [hupdate]
  rw [Finset.sum_update_of_mem ht, ← Finset.add_sum_erase T (fun u => f (txs u)) ht,
    Finset.sdiff_singleton_eq_erase]
  omega

theorem Sys.Balanced.start (T : Finset TxId) (i : ServerId) : (Sys.start []).Balanced T i where
  explained := .start .empty
  server _ hphase := absurd rfl hphase
  outside _ _ := rfl
  counted counter := by
    rw [Finset.sum_eq_zero fun t _ => counted_of_empty rfl counter]
    cases counter <;> rfl
  earned counter := by
    rw [Finset.sum_eq_zero fun t _ => earned_of_empty rfl counter]
    cases counter <;> rfl

theorem Sys.Balanced.step (h : s.Balanced T i) (ha : a.tx ∈ T ∧ a.OnServer i)
    (hstep : step s a = some s') : s'.Balanced T i := by
  obtain ⟨tx, srv, db, events, hstepped⟩ := step_cases hstep
  have hserver : tx.server = i := hstepped.moves.server ha.2 (h.server a.tx)
  refine ⟨h.explained.step hstep, ?_, ?_, fun counter => ?_, fun counter => ?_⟩
  · exact hstepped.forall_tx (P := fun _ _ tx => tx.phase ≠ .idle → tx.server = i)
      (fun _ _ ht => ht) (fun _ _ => hserver) h.server
  · intro t ht
    rw [hstepped.tx_other fun heq : t = a.tx => ht (heq ▸ ha.1)]
    exact h.outside t ht
  · have hmove := hstepped.moves.counted (h.explained.sound.shaped a.tx) counter
    have hsum := sum_update ha.1 s.txs tx fun tx => tx.counted counter
    have hbefore := h.counted counter
    rw [hstepped.txs_eq, hstepped.servers_eq, hserver, Function.update_self]
    rw [hserver] at hmove
    omega
  · have hmove := hstepped.moves.earned counter
    have hsum := sum_update ha.1 s.txs tx fun tx => tx.earned counter
    have hbefore := h.earned counter
    rw [hstepped.txs_eq, hstepped.db_eq]
    omega

/-- **Counters and events agree when every transaction has committed what it counted.** -/
theorem Sys.Balanced.agree_iff (h : s.Balanced T i) :
    (∀ counter, (s.servers i).value counter = s.db.events counter) ↔
      ∀ t counter, (s.txs t).counted counter = (s.txs t).earned counter := by
  have hsum : ∀ counter, (s.servers i).value counter = s.db.events counter ↔
      ∀ t ∈ T, (s.txs t).earned counter = (s.txs t).counted counter := by
    intro counter
    rw [h.counted, h.earned, eq_comm]
    exact Finset.sum_eq_sum_iff_of_le fun t _ => (s.txs t).earned_le counter
  constructor
  · intro hagree t counter
    by_cases ht : t ∈ T
    · exact ((hsum counter).mp (hagree counter) t ht).symm
    · have hidle := h.outside t ht
      rw [(h.explained.sound.shaped t).counted_of_idle hidle,
        earned_of_not_returned (by rw [hidle]; exact fun _ => nofun)]
  · intro hall counter
    exact (hsum counter).mpr fun t _ => (hall t counter).symm

end Runs

/-! ## COMPLETED is entered once -/

/-- The payments that were ever COMPLETED are as many as the writes that completed one. -/
theorem Sys.Explained.everIn_completed {s : Sys} (hs : s.Explained []) :
    (s.db.everIn .COMPLETED).length = s.db.log.countP (enters .COMPLETED) := by
  have hconsistent := hs.sound.db.consistent
  have hstored : s.db.everIn .COMPLETED = s.db.table.filter fun p => p.status = .COMPLETED := by
    refine List.filter_congr fun p hp => decide_eq_decide.mpr ⟨fun hmem => ?_, fun hstatus => ?_⟩
    · obtain ⟨q, hq, hstatus⟩ := hs.sound.db.stored_of_final hmem (Or.inl rfl)
      rw [show findById p.id s.db.table = some p from (mem_iff_find_key hconsistent.unique).mp hp] at hq
      obtain rfl := Option.some.inj hq
      exact hstatus
    · have hcurrent := hconsistent.current p.id
      rw [(mem_iff_find_key hconsistent.unique).mp hp] at hcurrent
      obtain ⟨x, hx, hrow⟩ := Option.map_eq_some_iff.mp hcurrent.symm
      exact List.mem_map.mpr ⟨x, List.mem_of_getLast? hx, by rw [hrow]; exact hstatus⟩
  rw [hstored, ← List.countP_eq_length_filter]
  refine hconsistent.countP_log fun r hr => ?_
  -- one for a COMPLETED row, zero for any other: raised by the write that completes, kept by the rest
  obtain ⟨x, hx, hread, -, hcount⟩ := hconsistent.counts
    (f := fun p => if p.status = .COMPLETED then 1 else 0) (p := enters .COMPLETED)
    (fun x _ hread => by simp [enters, hread])
    (fun x hx p hread => by
      obtain ⟨-, -, -, -, -, hevolves⟩ := hconsistent.predecessor hx hread
      by_cases hold : p.status = .COMPLETED
      · have hnew : x.row.status = .COMPLETED := by
          rw [hevolves.accepted.of_final (Or.inl hold), hold]
        simp [enters, hread, hold, hnew]
      · simp [enters, hread, hold]) hr
  have hzero : x.row.status = .PENDING := by
    rcases hs.inserted hx hread with ⟨hrow, -⟩ | ⟨-, -, hpending, -⟩
    · cases hrow
    · exact hpending
  simp only [hzero, reduceCtorEq, if_false, Int.zero_add] at hcount
  by_cases hstatus : r.status = .COMPLETED
  · simp only [hstatus, if_true, decide_true] at hcount ⊢
    omega
  · simp only [hstatus, if_false, decide_false, Bool.false_eq_true] at hcount ⊢
    omega

/-- **What the counters should say are the events they are called after.** -/
theorem Sys.Balanced.countersAgree_iff {T : Finset TxId} {i : ServerId} {s : Sys}
    (h : s.Balanced T i) :
    CountersAgree s i ↔ ∀ t counter, (s.txs t).counted counter = (s.txs t).earned counter := by
  rw [← h.agree_iff]
  have hcompleted := h.explained.everIn_completed
  constructor
  · intro hagree counter
    cases counter with
    | created => exact hagree.created
    | completed => exact hagree.completed.trans hcompleted
    | failed => exact hagree.failed
  · intro hall
    exact ⟨hall .created, (hall .completed).trans hcompleted.symm, hall .failed⟩

/-! ## The exact condition -/

/-- The call is between its increment and its commit. -/
def Tx.Pending (tx : Tx) : Prop :=
  (∀ outcome, tx.phase ≠ .ended outcome) ∧ ∃ counter, tx.counted counter ≠ 0

/-- The step of a transaction over `db` ends no call that has counted more than it commits: a call
that rolls back, because its flush is refused or because it is aborted, has counted nothing; a call
that commits has completed or failed no payment that was so before. -/
def Action.CountsRight (db : Database) (tx : Tx) : Action → Prop
  | .commit t now =>
      match flush t now tx.context db with
      | .ok _ => ∀ m ∈ tx.context.managed,
          m.2.status = .COMPLETED ∨ m.2.status = .FAILED → m.1.status ≠ m.2.status
      | .error _ => ∀ counter, tx.counted counter = 0
  | .abort _ => ∀ counter, tx.counted counter = 0
  | _ => True

def CountsRight (s : Sys) (a : Action) : Prop := a.CountsRight s.db (s.txs a.tx)

/-- If the call has ended, it has committed what it counted. -/
def Tx.Settled (tx : Tx) : Prop :=
  ∀ outcome, tx.phase = .ended outcome → ∀ counter, tx.counted counter = tx.earned counter

section Exact

variable {db db' : Database} {a : Action} {tx tx' : Tx} {srv srv' : Server}
variable {events : List PaymentEvent}

theorem countP_eq_iff {α : Type*} {p q : α → Bool} {l : List α} :
    l.countP p = l.countP (fun x => p x && q x) ↔ ∀ x ∈ l, p x = true → q x = true := by
  constructor
  · intro hcount x hx hp
    by_contra hq
    have hsplit := List.countP_eq_countP_filter_add l p q
    rw [List.countP_filter, List.countP_filter, ← hcount, Nat.left_eq_add, List.countP_eq_zero]
      at hsplit
    exact hsplit x hx (by simp [hp, hq])
  · intro hall
    refine List.countP_congr fun x hx => ?_
    rw [Bool.and_eq_true]
    exact ⟨fun hp => ⟨hp, hall x hx hp⟩, fun h => h.1⟩

theorem Tx.Settled.of_empty (h : tx.context = {}) : tx.Settled := by
  intro outcome _ counter
  rw [counted_of_empty h, earned_of_empty h]

theorem Tx.Settled.of_open (h : ∀ outcome, tx.phase ≠ .ended outcome) : tx.Settled :=
  fun outcome hphase => absurd hphase (h outcome)

theorem settled_raised_iff (tx : Tx) (e : ServiceException) :
    (tx.finish (.raised e)).Settled ↔ ∀ counter, tx.counted counter = 0 := by
  have hearned : ∀ counter, (tx.finish (.raised e)).earned counter = 0 :=
    earned_of_not_returned fun _ => nofun
  constructor
  · intro hsettled counter
    rw [← hearned counter]
    exact hsettled _ rfl counter
  · intro hzero outcome _ counter
    rw [hearned counter]
    exact hzero counter

theorem settled_returned_iff (tx : Tx) (response : Option PaymentResponse) :
    (tx.finish (.returned response)).Settled ↔ ∀ m ∈ tx.context.managed,
      m.2.status = .COMPLETED ∨ m.2.status = .FAILED → m.1.status ≠ m.2.status := by
  have hmoved : ∀ status, (∀ m ∈ tx.context.managed, decide (m.2.status = status) = true →
      decide (m.1.status ≠ status) = true) ↔
        ∀ m ∈ tx.context.managed, m.2.status = status → m.1.status ≠ m.2.status := by
    intro status
    refine forall₂_congr fun m _ => ?_
    rw [decide_eq_true_eq, decide_eq_true_eq]
    exact ⟨fun h hstatus => by rw [hstatus]; exact h hstatus,
      fun h hstatus => by rw [← hstatus]; exact h hstatus⟩
  have hcounter : ∀ status, (tx.context.managed.countP (fun m => m.2.status = status) =
      tx.context.entering status) ↔
        ∀ m ∈ tx.context.managed, m.2.status = status → m.1.status ≠ m.2.status := fun status =>
    countP_eq_iff.trans (hmoved status)
  constructor
  · rintro hsettled m hm (hcompleted | hfailed)
    · exact (hcounter .COMPLETED).mp (hsettled _ rfl .completed) m hm hcompleted
    · exact (hcounter .FAILED).mp (hsettled _ rfl .failed) m hm hfailed
  · intro hmanaged outcome _ counter
    cases counter with
    | created => rfl
    | completed => exact (hcounter .COMPLETED).mpr fun m hm h => hmanaged m hm (Or.inl h)
    | failed => exact (hcounter .FAILED).mpr fun m hm h => hmanaged m hm (Or.inr h)

/-- **What a step needs to leave its transaction settled.** -/
theorem Moves.settled_iff (hshaped : tx.Shaped) (h : Moves db a tx srv tx' srv' db' events) :
    tx'.Settled ↔ a.CountsRight db tx := by
  cases h with
  | replayed => exact iff_of_true (.of_empty rfl) trivial
  | missed => exact iff_of_true (.of_empty rfl) trivial
  | conversionRaised hphase =>
      refine iff_of_true (.of_empty ?_) trivial
      cases hshaped with
      | persisting => rfl
      | _ => cases hphase
  | persisted => exact iff_of_true (.of_open fun _ => nofun) trivial
  | updateRefused => exact iff_of_true (.of_empty rfl) trivial
  | updateLoaded => exact iff_of_true (.of_empty rfl) trivial
  | statusApplied => exact iff_of_true (.of_open fun _ => nofun) trivial
  | retrySelected => exact iff_of_true (.of_empty rfl) trivial
  | requeued => exact iff_of_true (.of_open fun _ => nofun) trivial
  | committed _ hflush =>
      simp only [Action.CountsRight, hflush]
      exact settled_returned_iff tx _
  | refused _ hrefused =>
      simp only [Action.CountsRight, hrefused]
      exact settled_raised_iff tx _
  | aborted => exact settled_raised_iff tx _

end Exact

/-- **When the counters are right.**  After a run of one process from an empty table they agree with
what is stored exactly when no call stands between its increment and its commit, and every step of the
run counted right. -/
theorem counters_agree_iff {i : ServerId} {trace : List Action} {s : Sys}
    (hone : ∀ a ∈ trace, a.OnServer i) (hrun : run step (Sys.start []) trace = some s) :
    CountersAgree s i ↔
      (∀ t, ¬ (s.txs t).Pending) ∧ RunsUnder step CountsRight (Sys.start []) trace s := by
  have hbalanced : s.Balanced (trace.map Action.tx).toFinset i := by
    have hunder := RunsUnder.of_forall (P := fun a => a.tx ∈ (trace.map Action.tx).toFinset ∧
      a.OnServer i) (fun a ha => ⟨List.mem_toFinset.mpr (List.mem_map_of_mem ha), hone a ha⟩) hrun
    exact hunder.invariant (fun _ _ _ hs ha hstep => hs.step ha hstep) (.start _ i)
  have hexact : RunsUnder step CountsRight (Sys.start []) trace s ↔ ∀ t, (s.txs t).Settled := by
    refine RunsUnder.iff_of_exact (I := Sys.Sound) (J := fun s => ∀ t, (s.txs t).Settled)
      (fun _ _ _ hs hstep => hs.step hstep) ?_ (.start .empty) (fun t => .of_empty rfl) hrun
    intro s a s' hs hstep
    obtain ⟨tx, srv, db, events, h⟩ := step_cases hstep
    have hiff := h.moves.settled_iff (hs.shaped a.tx)
    constructor
    · intro hsettled
      refine ⟨fun t => ?_, ?_⟩
      · by_cases ht : t = a.tx
        · rw [ht]
          exact .of_open h.moves.not_ended
        · rw [← h.tx_other ht]
          exact hsettled t
      · rw [CountsRight, ← hiff, ← h.tx_self]
        exact hsettled a.tx
    · rintro ⟨hsettled, hright⟩ t
      by_cases ht : t = a.tx
      · rw [ht, h.tx_self]
        exact hiff.mpr hright
      · rw [h.tx_other ht]
        exact hsettled t
  rw [hexact, hbalanced.countersAgree_iff]
  constructor
  · intro hall
    refine ⟨?_, fun t _ _ => hall t⟩
    rintro t ⟨hopen, counter, hcounted⟩
    refine hcounted ?_
    rw [hall t counter]
    exact earned_of_not_returned (fun response => hopen _) counter
  · rintro ⟨hpending, hsettled⟩ t counter
    by_cases hended : ∃ outcome, (s.txs t).phase = .ended outcome
    · obtain ⟨outcome, hphase⟩ := hended
      exact hsettled t outcome hphase counter
    · have hopen : ∀ outcome, (s.txs t).phase ≠ .ended outcome := fun outcome hphase =>
        hended ⟨outcome, hphase⟩
      rw [earned_of_not_returned fun response => hopen _]
      by_contra hcounted
      exact hpending t ⟨hopen, counter, hcounted⟩

/-- A payment is created. -/
def createOne : List Action :=
  [.createPayment 0 0 (sampleRequest none), .persistAndPublish 0 (sampleSurroundings 7) true,
    .commit 0 1]

/-- An update to COMPLETED is delivered to the payment. -/
def deliverCompleted (t : TxId) (now : Instant) : List Action :=
  [.updateStatus t 0 7 ⟨.COMPLETED, none, none⟩, .applyAndPublish t now true, .commit t now]

/-- Delivered once, the update is counted once, and the counters say what is stored. -/
theorem counters_agree_once :
    (∀ a ∈ createOne ++ deliverCompleted 1 2, a.OnServer 0) ∧
      ∃ s, run step (Sys.start []) (createOne ++ deliverCompleted 1 2) = some s ∧
        ((s.servers 0).created, (s.servers 0).completed, (s.servers 0).failed) = (1, 1, 0) ∧
        CountersAgree s 0 ∧ (∀ t, ¬ (s.txs t).Pending) ∧
        RunsUnder step CountsRight (Sys.start []) (createOne ++ deliverCompleted 1 2) s := by
  have hone : ∀ a ∈ createOne ++ deliverCompleted 1 2, a.OnServer 0 := by
    simp [createOne, deliverCompleted, Action.OnServer]
  obtain ⟨s, hrun, hcounts⟩ := Option.map_eq_some_iff.mp
    (show (run step (Sys.start []) (createOne ++ deliverCompleted 1 2)).map
        (fun s => (((s.servers 0).created, (s.servers 0).completed, (s.servers 0).failed),
          (s.db.table.length, (s.db.everIn .COMPLETED).length, s.db.log.countP (enters .FAILED)))) =
      some ((1, 1, 0), (1, 1, 0)) by decide)
  obtain ⟨hcounters, hstored⟩ := Prod.mk.inj hcounts
  have hsame := hcounters.trans hstored.symm
  simp only [Prod.mk.injEq] at hsame
  have hagree : CountersAgree s 0 := ⟨hsame.1, hsame.2.1, hsame.2.2⟩
  exact ⟨hone, s, hrun, hcounters, hagree, (counters_agree_iff hone hrun).mp hagree⟩

/-- Delivered twice, it is counted twice: the guard lets the second one through as a no-op. -/
theorem counters_count_redelivery :
    (run step (Sys.start []) (createOne ++ deliverCompleted 1 2 ++ deliverCompleted 2 3)).map
        (fun s => ((s.servers 0).completed, (s.db.everIn .COMPLETED).length)) = some (2, 1) ∧
      ¬ ∀ (i : ServerId) (trace : List Action) (s : Sys), (∀ a ∈ trace, a.OnServer i) →
        run step (Sys.start []) trace = some s → CountersAgree s i := by
  have htrace : (run step (Sys.start [])
      (createOne ++ deliverCompleted 1 2 ++ deliverCompleted 2 3)).map
        (fun s => ((s.servers 0).completed, (s.db.everIn .COMPLETED).length)) = some (2, 1) := by
    decide
  refine ⟨htrace, fun hall => ?_⟩
  obtain ⟨s, hrun, hcounts⟩ := Option.map_eq_some_iff.mp htrace
  obtain ⟨hcompleted, hever⟩ := Prod.mk.inj hcounts
  have hagree := (hall 0 _ s (by simp [createOne, deliverCompleted, Action.OnServer]) hrun).completed
  rw [hcompleted, hever] at hagree
  cases hagree

end GlobalPayments.Payments

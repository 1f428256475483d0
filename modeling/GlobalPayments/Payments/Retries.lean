/-
# GlobalPayments.Payments.Retries — the retry budget of a failed payment.

A payment may be re-queued three times.  The limit stands in the query of the retry job, the increment
in its loop, and several schedulers run both without talking to each other: `retries_counted` says
that the version check alone keeps the count right in every interleaving, so the table's
`ck_retry_count` is never what refuses a commit.

The job is not the only way from FAILED back to PENDING: the guard of `updateStatus` lets the same edge
through and nothing counts it there.  `returns_counted_iff` says when the count is still the number of
returns.
-/
import GlobalPayments.Payments.Writes

namespace GlobalPayments.Payments

open Runs Versioned

/-! ## What is counted -/

/-- The write was made by a run of the retry job. -/
def Sys.byRetryJob (s : Sys) (x : Write TxId Payment) : Bool :=
  match s.callOf x with
  | some (.retryFailedPayments _) => true
  | _ => false

/-- The committed re-queues of payment `id` by the retry job, oldest first. -/
def Sys.requeues (s : Sys) (id : UUID) : List (Write TxId Payment) :=
  (s.db.history Payment.id id).filter s.byRetryJob

/-- How often payment `id` went from FAILED back to PENDING. -/
def Database.returnsToPending (db : Database) (id : UUID) : Nat :=
  (db.history Payment.id id).countP (takes .FAILED .PENDING)

/-- The retry count of payment `id` before the run; a payment that is not there yet has none. -/
def initialRetryCount (rows : List Payment) (id : UUID) : Int :=
  ((findById id rows).map (·.retryCount)).getD 0

/-- `ck_retry_count`. -/
def RetriesInRange (p : Payment) : Prop := 0 ≤ p.retryCount ∧ p.retryCount ≤ 3

/-! ## What one write does to the count -/

section Log

variable {rows : List Payment} {s : Sys} {x : Write TxId Payment}

/-- The retry job inserts nothing, and what is inserted was never retried. -/
theorem Sys.Explained.insertion (hs : s.Explained rows) (hx : x ∈ s.db.log) (hread : x.read = none) :
    s.byRetryJob x = false ∧
      ((x.row ∈ rows ∧ x = ⟨none, none, x.row⟩) ∨ (x.row.retryCount = 0 ∧ x.writer.isSome)) := by
  rcases hs.inserted hx hread with hstart | ⟨hwriter, ⟨request, hcall⟩, -, hzero⟩
  · refine ⟨?_, Or.inl hstart⟩
    rw [Sys.byRetryJob, Sys.callOf, hstart.2]
    rfl
  · refine ⟨?_, Or.inr ⟨hzero, hwriter⟩⟩
    rw [Sys.byRetryJob, hcall]

/-- **An update keeps the retry count, unless the retry job made it.**  The job raises the count by
one, from below three, and takes the payment from FAILED to PENDING. -/
theorem Sys.Explained.update (hs : s.Explained rows) (hx : x ∈ s.db.log) {p : Payment}
    (hread : x.read = some p) :
    (s.byRetryJob x = false ∧ x.row.retryCount = p.retryCount ∧
        ∃ request, s.callOf x = some (.updateStatus x.row.id request)) ∨
      (s.byRetryJob x = true ∧ x.row.retryCount = p.retryCount + 1 ∧ p.retryCount < 3 ∧
        takes .FAILED .PENDING x = true) := by
  rcases hs.updated hx hread with ⟨request, hcall, -, hkept⟩ |
    ⟨cutoffTime, hcall, hfailed, hbelow, hpending, hraised⟩
  · refine Or.inl ⟨?_, hkept, request, hcall⟩
    rw [Sys.byRetryJob, hcall]
  · refine Or.inr ⟨?_, hraised, hbelow, takes_iff.mpr ⟨⟨p, hread, hfailed⟩, hpending⟩⟩
    rw [Sys.byRetryJob, hcall]

/-- A re-queue takes the payment from FAILED to PENDING. -/
theorem Sys.Explained.requeue (hs : s.Explained rows) {id : UUID} (hx : x ∈ s.requeues id) :
    takes .FAILED .PENDING x = true := by
  obtain ⟨hx, hjob⟩ := List.mem_filter.mp hx
  have hlog := (List.mem_filter.mp hx).1
  cases hread : x.read with
  | none =>
      rw [(hs.insertion hlog hread).1] at hjob
      cases hjob
  | some p =>
      rcases hs.update hlog hread with ⟨hnot, -, -⟩ | ⟨-, -, -, htakes⟩
      · rw [hnot] at hjob
        cases hjob
      · exact htakes

/-- Every committed row satisfies the check. -/
theorem Sys.Explained.inRange (hs : s.Explained rows) (hrange : ∀ p ∈ rows, RetriesInRange p) :
    ∀ x ∈ s.db.log, RetriesInRange x.row := by
  refine hs.sound.db.consistent.log_induction ?_ ?_
  · intro x hx hread
    rcases (hs.insertion hx hread).2 with ⟨hrow, -⟩ | ⟨hzero, -⟩
    · exact hrange _ hrow
    · rw [RetriesInRange, hzero]
      omega
  · intro x hx y _ hread hy
    unfold RetriesInRange at hy ⊢
    rcases hs.update hx hread with ⟨-, hkept, -⟩ | ⟨-, hraised, hbelow, -⟩
    · rw [hkept]
      exact hy
    · rw [hraised]
      omega

/-- A payment starts its count where the starting table has it. -/
theorem Sys.Explained.initial (hs : s.Explained rows) (hrows : ValidRows rows)
    (hbegins : (Store.start rows : Database).log <+: s.db.log) (hx : x ∈ s.db.log)
    (hread : x.read = none) : x.row.retryCount = initialRetryCount rows x.row.id := by
  unfold initialRetryCount
  rcases (hs.insertion hx hread).2 with ⟨hrow, -⟩ | ⟨hzero, hwriter⟩
  · rw [show findById x.row.id rows = some x.row from (mem_iff_find_key hrows.ids).mp hrow]
    rfl
  · cases hfind : findById x.row.id rows with
    | none => exact hzero
    | some p =>
        -- a payment of the starting table is inserted by nobody, and only once
        obtain ⟨hp, hid⟩ := findById_some hfind
        have hstart : (⟨none, none, p⟩ : Write TxId Payment) ∈ s.db.log :=
          hbegins.subset (List.mem_map.mpr ⟨p, hp, rfl⟩)
        have heq := hs.sound.db.consistent.insertion_unique hx hstart hread rfl hid.symm
        rw [heq] at hwriter
        cases hwriter

/-- **The count of a stored payment is the number of its re-queues.** -/
theorem Sys.Explained.counted (hs : s.Explained rows) (hrows : ValidRows rows)
    (hbegins : (Store.start rows : Database).log <+: s.db.log) {p : Payment} (hp : p ∈ s.db.table) :
    p.retryCount = initialRetryCount rows p.id + (s.requeues p.id).length := by
  obtain ⟨x, hx, hread, hid, hcount⟩ := hs.sound.db.consistent.counts (f := Payment.retryCount)
    (p := s.byRetryJob) (fun x hx hread => (hs.insertion hx hread).1)
    (fun x hx q hread => by
      rcases hs.update hx hread with ⟨hmarked, hkept, -⟩ | ⟨hmarked, hraised, -⟩
      · simp [hmarked, hkept]
      · simp [hmarked, hraised]) hp
  rw [hcount, hs.initial hrows hbegins hx hread, hid, List.countP_eq_length_filter]
  rfl

end Log

/-! ## The budget under the retry job -/

/-- **What the retry job keeps**, in one state. -/
structure RetriesCounted (rows : List Payment) (s : Sys) : Prop where
  /-- every stored count satisfies `ck_retry_count` -/
  inRange : ∀ p ∈ s.db.table, RetriesInRange p
  /-- no write lowers a count -/
  rising : ∀ id, (s.db.history Payment.id id).Pairwise fun a b => a.row.retryCount ≤ b.row.retryCount
  /-- a count is the number of committed re-queues -/
  counted : ∀ p ∈ s.db.table,
    p.retryCount = initialRetryCount rows p.id + (s.requeues p.id).length
  /-- a re-queue had read a FAILED row -/
  failed : ∀ id, ∀ x ∈ s.requeues id, ∃ p, x.read = some p ∧ p.status = .FAILED
  /-- no two re-queues had read the same row: each failure is re-queued at most once -/
  once : ∀ id, (s.requeues id).Pairwise fun a b => a.read ≠ b.read
  /-- no transaction, wherever it stands, has a row to flush that the constraint would refuse -/
  admitted : ∀ t now, ∀ x ∈ (s.txs t).context.writes t now, RetriesInRange x.row

/-- What a transaction has to flush keeps to the range when the rows it read do. -/
theorem Sys.Explained.admitted {rows : List Payment} {s : Sys} (hs : s.Explained rows)
    (hrange : ∀ p ∈ rows, RetriesInRange p) {t : TxId} {now : Instant} {x : Write TxId Payment}
    (hx : x ∈ (s.txs t).context.writes t now) : RetriesInRange x.row := by
  have hlogged : ∀ p, x.read = some p → RetriesInRange p := by
    intro p hread
    simp only [PersistenceContext.writes, List.mem_append, List.mem_map] at hx
    rcases hx with ⟨q, -, rfl⟩ | ⟨m, hm, rfl⟩
    · cases hread
    · obtain rfl := Option.some.inj hread
      obtain ⟨y, hy, hrow⟩ := ((hs.sound.txs t).context.managed m (List.mem_filter.mp hm).1).1
      rw [← hrow]
      exact hs.inRange hrange y hy
  have hwritten := (hs.txs t).written now x hx
  generalize (s.txs t).call = call at hwritten
  cases hwritten with
  | created hprepared =>
      obtain ⟨m, -, rfl, -⟩ := preparePayment_ok hprepared
      show 0 ≤ (0 : Int) ∧ (0 : Int) ≤ 3
      omega
  | @statusSet id request payment now =>
      show RetriesInRange payment
      exact hlogged payment rfl
  | @requeued cutoffTime payment now hfailed hcount =>
      have hlow := (hlogged _ rfl).1
      show 0 ≤ payment.retryCount + 1 ∧ payment.retryCount + 1 ≤ 3
      omega

/-- **The retry job keeps its budget**, whatever it interleaves with: from a valid table whose counts
are in range, after any number of calls on any number of servers. -/
theorem retries_counted {rows : List Payment} (hrows : ValidRows rows)
    (hrange : ∀ p ∈ rows, RetriesInRange p) {trace : List Action} {s : Sys}
    (hrun : run step (Sys.start rows) trace = some s) : RetriesCounted rows s := by
  have hs : s.Explained rows := (Sys.Explained.start hrows).run hrun
  have hconsistent := hs.sound.db.consistent
  have hbegins := log_isPrefix hrun
  have hrequeues : ∀ id, ∀ x ∈ s.requeues id, ∃ p, x.read = some p ∧ p.status = .FAILED := by
    intro id x hx
    exact (takes_iff.mp (hs.requeue hx)).1
  refine ⟨fun p hp => ?_, fun id => ?_, fun p hp => hs.counted hrows hbegins hp, hrequeues,
    fun id => ?_, fun t now x hx => hs.admitted hrange hx⟩
  · obtain ⟨x, hx, rfl⟩ := hconsistent.logged hp
    exact hs.inRange hrange x hx
  · refine hconsistent.rises (f := Payment.retryCount) (fun x hx p hread => ?_) id
    rcases hs.update hx hread with ⟨-, hkept, -⟩ | ⟨-, hraised, -⟩
    · rw [hkept]
    · omega
  · have hreads := (hconsistent.reads_nodup id).sublist
      (List.filter_sublist (p := s.byRetryJob) (l := s.db.history Payment.id id))
    refine hreads.imp_of_mem fun {a b} _ hb hab heq => ?_
    obtain ⟨p, hread, -⟩ := hrequeues id b hb
    exact hab p hread (heq.trans hread)

/-- A payment fails, and two instances of the job find it. -/
def requeueRace : List Action :=
  [.createPayment 0 0 (sampleRequest none), .persistAndPublish 0 (sampleSurroundings 7) true,
    .commit 0 1, .updateStatus 1 0 7 ⟨.FAILED, none, none⟩, .applyAndPublish 1 2 true, .commit 1 2,
    .retryFailedPayments 2 0 10, .retryFailedPayments 3 1 10, .requeueAndPublish 2 10 true,
    .requeueAndPublish 3 10 true, .commit 2 11, .commit 3 11]

/-- Two instances of the job pick up the same failure: the second commit is refused, and the count is
one. -/
theorem retries_counted_race :
    ∃ s, run step (Sys.start []) requeueRace = some s ∧
      (s.txs 3).phase = .ended (.raised .optimisticLockingFailure) ∧ (s.requeues 7).length = 1 ∧
      RetriesCounted [] s := by
  obtain ⟨s, hrun, houtcome⟩ := Option.map_eq_some_iff.mp
    (show (run step (Sys.start []) requeueRace).map
        (fun s => ((s.txs 3).phase, (s.requeues 7).length)) =
      some (.ended (.raised .optimisticLockingFailure), 1) by decide)
  obtain ⟨hphase, hlength⟩ := Prod.mk.inj houtcome
  exact ⟨s, hrun, hphase, hlength, retries_counted .empty (by simp) hrun⟩

/-! ## The returns that nobody counts -/

/-- **What every return to PENDING should keep**, for payment `id`. -/
structure ReturnsCounted (rows : List Payment) (s : Sys) (id : UUID) : Prop where
  limited : s.db.returnsToPending id ≤ 3
  counted : ∀ p, findById id s.db.table = some p →
    p.retryCount = initialRetryCount rows id + s.db.returnsToPending id

section Returns

variable {rows : List Payment} {s : Sys} {id : UUID}

/-- The returns are the re-queues and the edges of `updateStatus`. -/
theorem Sys.Explained.returnsToPending_eq (hs : s.Explained rows) :
    s.db.returnsToPending id = (s.requeues id).length +
      ((s.db.history Payment.id id).filter fun x => !s.byRetryJob x).countP (takes .FAILED .PENDING) := by
  rw [Database.returnsToPending,
    List.countP_eq_countP_filter_add (s.db.history Payment.id id) (takes .FAILED .PENDING) s.byRetryJob]
  have hrequeues : (s.requeues id).countP (takes .FAILED .PENDING) = (s.requeues id).length :=
    List.countP_eq_length.mpr fun x hx => hs.requeue hx
  rw [← hrequeues, Sys.requeues]

/-- The returns are all re-queues exactly when no `updateStatus` call made one. -/
theorem Sys.Explained.neverMoved_iff_returns (hs : s.Explained rows) :
    s.NeverMoved id .FAILED .PENDING ↔ s.db.returnsToPending id = (s.requeues id).length := by
  rw [hs.returnsToPending_eq, Nat.add_eq_left, List.countP_eq_zero]
  constructor
  · intro hnever x hx
    obtain ⟨hx, hnot⟩ := List.mem_filter.mp hx
    obtain ⟨hlog, hid⟩ := List.mem_filter.mp hx
    have hid : x.row.id = id := of_decide_eq_true hid
    intro htakes
    obtain ⟨⟨p, hread, -⟩, -⟩ := takes_iff.mp htakes
    rcases hs.update hlog hread with ⟨-, -, request, hcall⟩ | ⟨hjob, -, -, -⟩
    · rw [hnever x hlog hid request (by rw [← hid]; exact hcall)] at htakes
      cases htakes
    · rw [hjob] at hnot
      cases hnot
  · intro hzero x hlog hid request hcall
    rw [Bool.eq_false_iff]
    refine hzero x (List.mem_filter.mpr ⟨List.mem_filter.mpr ⟨hlog, decide_eq_true hid⟩, ?_⟩)
    rw [Sys.byRetryJob, hcall]
    rfl

theorem initialRetryCount_nonneg (hrange : ∀ p ∈ rows, RetriesInRange p) :
    0 ≤ initialRetryCount rows id := by
  unfold initialRetryCount
  cases hfind : findById id rows with
  | none => exact Int.le_refl 0
  | some p => exact (hrange p (findById_some hfind).1).1

/-- A payment that is not stored has no history. -/
theorem Database.Sound.history_of_none {db : Database} (h : db.Sound)
    (hnone : findById id db.table = none) : db.history Payment.id id = [] := by
  have hcurrent := h.consistent.current id
  rw [show db.table.find? (fun r => r.id = id) = none from hnone] at hcurrent
  exact List.getLast?_eq_none_iff.mp (Option.map_eq_none_iff.mp hcurrent.symm)

/-- **When the count is the number of returns.**  In a run from a valid table whose counts are in range
the returns of a payment to PENDING are counted, and so limited to three, exactly when no
`updateStatus` call that takes it from FAILED to PENDING commits. -/
theorem returns_counted_iff {rows : List Payment} (hrows : ValidRows rows)
    (hrange : ∀ p ∈ rows, RetriesInRange p) {trace : List Action} {s : Sys}
    (hrun : run step (Sys.start rows) trace = some s) (id : UUID) :
    RunsUnder step (fun s a => ¬ Commits s a id .FAILED .PENDING) (Sys.start rows) trace s ↔
      ReturnsCounted rows s id := by
  have hs : s.Explained rows := (Sys.Explained.start hrows).run hrun
  have hbegins := log_isPrefix hrun
  have hrule : RunsUnder step (fun s a => ∀ old, old = .FAILED → ¬ Commits s a id old .PENDING)
      (Sys.start rows) trace s ↔ ∀ old, old = .FAILED → s.NeverMoved id old .PENDING :=
    runsUnder_iff_neverMoved hrows nofun hrun
  simp only [forall_eq] at hrule
  rw [hrule, hs.neverMoved_iff_returns]
  have hinitial : 0 ≤ initialRetryCount rows id := initialRetryCount_nonneg hrange
  cases hfind : findById id s.db.table with
  | none =>
      have hempty := hs.sound.db.history_of_none hfind
      have hreturns : s.db.returnsToPending id = 0 := by
        rw [Database.returnsToPending, hempty]
        rfl
      have hrequeues : s.requeues id = [] := by
        rw [Sys.requeues, hempty]
        rfl
      refine ⟨fun _ => ⟨by omega, fun p hp => ?_⟩, fun _ => by rw [hreturns, hrequeues]; rfl⟩
      rw [hfind] at hp
      cases hp
  | some p =>
      obtain ⟨hp, rfl⟩ := findById_some hfind
      have hcount := hs.counted hrows hbegins hp
      obtain ⟨x, hx, hrow⟩ := hs.sound.db.consistent.logged hp
      have hlimit := (hs.inRange hrange x hx).2
      rw [hrow] at hlimit
      constructor
      · intro hreturns
        refine ⟨by omega, fun q hq => ?_⟩
        obtain rfl := Option.some.inj (hfind.symm.trans hq)
        omega
      · intro hreturns
        have := hreturns.counted p hfind
        omega

/-- A failed payment that the job re-queues once: the run meets the condition, and the return is
counted. -/
theorem returns_counted_requeue :
    ∃ s, run step (Sys.start []) requeueRace = some s ∧
      s.db.returnsToPending 7 = 1 ∧ (findById 7 s.db.table).map (·.retryCount) = some 1 ∧
      RunsUnder step (fun s a => ¬ Commits s a 7 .FAILED .PENDING) (Sys.start []) requeueRace s ∧
      ReturnsCounted [] s 7 := by
  obtain ⟨s, hrun, hcounts⟩ := Option.map_eq_some_iff.mp
    (show (run step (Sys.start []) requeueRace).map (fun s =>
        (s.db.returnsToPending 7, (findById 7 s.db.table).map (·.retryCount))) = some (1, some 1) by
      decide)
  obtain ⟨hreturns, hretry⟩ := Prod.mk.inj hcounts
  have hcounted : ReturnsCounted [] s 7 := by
    constructor
    · rw [hreturns]
      decide
    · intro p hp
      rw [hp, Option.map_some, Option.some.injEq] at hretry
      rw [hretry, hreturns]
      rfl
  exact ⟨s, hrun, hreturns, hretry, (returns_counted_iff .empty (by simp) hrun 7).mpr hcounted,
    hcounted⟩

/-- A failed payment that an update puts back to PENDING. -/
def uncountedReturn : List Action :=
  [.createPayment 0 0 (sampleRequest none), .persistAndPublish 0 (sampleSurroundings 7) true,
    .commit 0 1, .updateStatus 1 0 7 ⟨.FAILED, none, none⟩, .applyAndPublish 1 2 true, .commit 1 2,
    .updateStatus 2 0 7 ⟨.PENDING, none, none⟩, .applyAndPublish 2 3 true, .commit 2 3]

/-- The update is a return that nothing counts. -/
theorem returns_uncounted :
    (run step (Sys.start []) uncountedReturn).map (fun s =>
        (s.db.returnsToPending 7, (findById 7 s.db.table).map (·.retryCount))) = some (1, some 0) ∧
      ¬ ∀ (trace : List Action) (s : Sys) (id : UUID),
        run step (Sys.start []) trace = some s → ReturnsCounted [] s id := by
  have htrace : (run step (Sys.start []) uncountedReturn).map (fun s =>
      (s.db.returnsToPending 7, (findById 7 s.db.table).map (·.retryCount))) = some (1, some 0) := by
    decide
  refine ⟨htrace, fun hall => ?_⟩
  obtain ⟨s, hrun, hcounts⟩ := Option.map_eq_some_iff.mp htrace
  obtain ⟨hreturns, hretry⟩ := Prod.mk.inj hcounts
  obtain ⟨p, hfind, hzero⟩ := Option.map_eq_some_iff.mp hretry
  have hcounted := (hall uncountedReturn s 7 hrun).counted p hfind
  rw [hreturns, hzero] at hcounted
  cases hcounted

end Returns

end GlobalPayments.Payments

/-
# GlobalPayments.Payments.Backoff — how soon a payment is re-queued.

The retry job leaves a failed payment alone until five minutes have passed since its last change: the
cutoff is the job's clock less the backoff, and its query takes rows stamped before that.  Between the
query and the commit other calls go on, and other servers run the job as well.

`requeues_spaced`: on clocks that do not go back (`clocksForward`) the stamps of a payment's committed
versions never fall, and every re-queue is stamped more than the backoff after every version before
it, its earlier re-queues among them.
-/
import GlobalPayments.Payments.Retries

namespace GlobalPayments.Payments

open Runs Versioned

/-! ## Clocks -/

/-- The backoff of `retryFailedPayments`: `Instant.now().minus(5, ChronoUnit.MINUTES)`. -/
def retryBackoff : Int := 300000

/-- A commit is stamped no earlier than what its transaction had read: the rows it loaded, and for the
retry job the clock that its cutoff was taken from. -/
def clocksForward (s : Sys) : Action → Bool
  | .commit t now =>
      ((s.txs t).context.managed.all fun m => m.1.updatedAt ≤ now) &&
        match (s.txs t).call with
        | some (.retryFailedPayments cutoffTime) => cutoffTime + retryBackoff ≤ now
        | _ => true
  | _ => true

theorem clocksForward_commit {s : Sys} {t : TxId} {now : Instant}
    (h : clocksForward s (.commit t now) = true) :
    (∀ m ∈ (s.txs t).context.managed, m.1.updatedAt ≤ now) ∧
      ∀ cutoffTime, (s.txs t).call = some (.retryFailedPayments cutoffTime) →
        cutoffTime + retryBackoff ≤ now := by
  obtain ⟨hloaded, hjob⟩ := Bool.and_eq_true_iff.mp h
  refine ⟨fun m hm => of_decide_eq_true (List.all_eq_true.mp hloaded m hm), fun cutoffTime hcall => ?_⟩
  rw [hcall] at hjob
  exact of_decide_eq_true hjob

/-! ## What a retry job has in hand -/

/-- What a retry job has selected was stamped before its cutoff. -/
def Tx.BackedOff (tx : Tx) : Prop :=
  ∀ cutoffTime, tx.call = some (.retryFailedPayments cutoffTime) →
    (∀ todo, tx.phase = .requeuing todo → ∀ p ∈ todo, p.updatedAt < cutoffTime) ∧
      ∀ m ∈ tx.context.managed, m.1.updatedAt < cutoffTime

section Moves

variable {db db' : Database} {a : Action} {tx tx' : Tx} {srv srv' : Server}
variable {events : List PaymentEvent}

theorem Tx.BackedOff.of_call (h : ∀ cutoffTime, tx.call ≠ some (.retryFailedPayments cutoffTime)) :
    tx.BackedOff :=
  fun cutoffTime hcall => absurd hcall (h cutoffTime)

theorem Tx.BackedOff.finish (h : tx.BackedOff) (outcome : Outcome) : (tx.finish outcome).BackedOff :=
  fun cutoffTime hcall => ⟨fun _ => nofun, (h cutoffTime hcall).2⟩

/-- A transaction's own move. -/
theorem Tx.BackedOff.move (hshaped : tx.Shaped) (htx : tx.BackedOff)
    (h : Moves db a tx srv tx' srv' db' events) : tx'.BackedOff := by
  cases h with
  | replayed => exact .of_call fun _ => nofun
  | missed => exact .of_call fun _ => nofun
  | updateRefused => exact .of_call fun _ => nofun
  | updateLoaded => exact .of_call fun _ => nofun
  | conversionRaised => exact htx.finish _
  | committed => exact htx.finish _
  | refused => exact htx.finish _
  | aborted => exact htx.finish _
  | persisted hphase =>
      cases hshaped with
      | persisting => exact .of_call fun _ => nofun
      | _ => cases hphase
  | statusApplied hphase =>
      cases hshaped with
      | updating => exact .of_call fun _ => nofun
      | _ => cases hphase
  | retrySelected =>
      intro cutoffTime hcall
      obtain rfl := Call.retryFailedPayments.inj (Option.some.inj hcall)
      refine ⟨fun todo hphase p hp => ?_, fun _ => nofun⟩
      obtain rfl := Phase.requeuing.inj hphase
      exact (mem_findRetryablePayments.mp hp).2.2.2
  | @requeued _ _ _ _ _ payment todo hphase =>
      intro cutoffTime hcall
      obtain ⟨htodo, hmanaged⟩ := htx cutoffTime hcall
      refine ⟨fun todo' hphase' p hp => ?_, fun m hm => ?_⟩
      · obtain rfl := Phase.requeuing.inj hphase'
        exact htodo _ hphase p (List.mem_cons_of_mem payment hp)
      · rcases List.mem_append.mp hm with hm | hm
        · exact hmanaged m hm
        · obtain rfl := List.mem_singleton.mp hm
          exact htodo _ hphase payment List.mem_cons_self

end Moves

/-! ## Stamps -/

/-- `b` is stamped no earlier than `a`, and by more than the backoff later when the retry job made
it. -/
def Sys.After (s : Sys) (a b : Instant) (x : Write TxId Payment) : Prop :=
  a ≤ b ∧ (s.byRetryJob x = true → a + retryBackoff < b)

/-- The invariant of the run: what every job has in hand, and the stamps of what is committed. -/
structure Sys.Spaced (rows : List Payment) (s : Sys) : Prop where
  explained : s.Explained rows
  backedOff : ∀ t, (s.txs t).BackedOff
  stamped : ∀ x ∈ s.db.log, ∀ p, x.read = some p → s.After p.updatedAt x.row.updatedAt x

section Steps

variable {rows : List Payment} {s s' : Sys} {a : Action} {tx : Tx} {srv : Server} {db : Database}
variable {events : List PaymentEvent}

theorem Sys.Spaced.start (h : ValidRows rows) : (Sys.start rows).Spaced rows where
  explained := .start h
  backedOff _ := .of_call fun _ => nofun
  stamped x hx p hread := by
    obtain ⟨r, -, rfl⟩ := List.mem_map.mp hx
    cases hread

/-- What a commit writes is stamped after what it had read. -/
theorem Sys.Spaced.new_stamped (hs : s.Spaced rows) (h : Stepped s a s' tx srv db events)
    (hclock : clocksForward s a = true) : ∃ new, s'.db.log = s.db.log ++ new ∧
      ∀ x ∈ new, ∀ p, x.read = some p → s'.After p.updatedAt x.row.updatedAt x := by
  rw [h.db_eq]
  rcases h.moves.db_cases with rfl | ⟨t, now, response, rfl, hready, hflush, -⟩
  · exact ⟨[], by simp, by simp⟩
  · refine ⟨_, flush_log hflush, fun x hx p hread => ?_⟩
    obtain ⟨hloaded, hjob⟩ := clocksForward_commit hclock
    have hwritten := (hs.explained.txs t).written now x hx
    have hcall : s'.callOf x = (s.txs t).call := by
      rw [Sys.callOf, hwritten.writer, Option.bind_some]
      exact h.call (hs.explained.sound.shaped t) hwritten.call
    simp only [PersistenceContext.writes, List.mem_append, List.mem_map, List.mem_filter] at hx
    rcases hx with ⟨q, -, rfl⟩ | ⟨m, ⟨hm, -⟩, rfl⟩
    · cases hread
    · obtain rfl := Option.some.inj hread
      refine ⟨hloaded m hm, fun hretry => ?_⟩
      rw [Sys.byRetryJob, hcall] at hretry
      split at hretry
      · rename_i cutoffTime heq
        have hbefore : m.1.updatedAt < cutoffTime := (hs.backedOff t cutoffTime heq).2 m hm
        exact Int.lt_of_lt_of_le (Int.add_lt_add_right hbefore retryBackoff) (hjob cutoffTime heq)
      · cases hretry

/-- **Every step on clocks that go forward keeps the invariant.** -/
theorem Sys.Spaced.step (hs : s.Spaced rows) (hclock : clocksForward s a = true)
    (hstep : step s a = some s') : s'.Spaced rows := by
  obtain ⟨tx, srv, db, events, h⟩ := step_cases hstep
  obtain ⟨new, hlog, hnew⟩ := hs.new_stamped h hclock
  refine ⟨hs.explained.step hstep, ?_, fun x hx p hread => ?_⟩
  · exact h.forall_tx (P := fun _ _ tx => tx.BackedOff) (fun _ _ ht => ht)
      (fun ht => ht.move (hs.explained.sound.shaped a.tx) h.moves) hs.backedOff
  · rw [hlog] at hx
    rcases List.mem_append.mp hx with hx | hx
    · obtain ⟨hle, hretry⟩ := hs.stamped x hx p hread
      refine ⟨hle, fun hjob => hretry ?_⟩
      rw [← hjob, Sys.byRetryJob, Sys.byRetryJob, hs.explained.callOf h hx]
    · exact hnew x hx p hread

end Steps

/-- **Re-queues are spaced.**  Along the committed versions of a payment the stamps never fall, and a
re-queue is stamped more than the backoff after every version before it. -/
theorem requeues_spaced {rows : List Payment} (hrows : ValidRows rows) {trace : List Action} {s : Sys}
    (hrun : RunsUnder step (fun s a => clocksForward s a = true) (Sys.start rows) trace s) (id : UUID) :
    (s.db.history Payment.id id).Pairwise fun a b =>
      a.row.updatedAt ≤ b.row.updatedAt ∧
        (s.byRetryJob b = true → a.row.updatedAt + retryBackoff < b.row.updatedAt) := by
  have hs : s.Spaced rows :=
    hrun.invariant (fun _ _ _ hs hclock hstep => hs.step hclock hstep) (.start hrows)
  let spaced : Write TxId Payment → Write TxId Payment → Prop := fun a b =>
    s.After a.row.updatedAt b.row.updatedAt b
  have htrans : Trans spaced spaced spaced :=
    ⟨fun {a b c} hab hbc => ⟨Int.le_trans hab.1 hbc.1, fun hjob =>
      Int.lt_of_le_of_lt (Int.add_le_add_right hab.1 retryBackoff) (hbc.2 hjob)⟩⟩
  -- the version check: each write had read the one before it
  have hchain : (s.db.history Payment.id id).IsChain spaced := by
    refine (hs.explained.sound.db.consistent.chained id).imp_of_mem_imp fun a b _ hb hab => ?_
    exact hs.stamped b (List.mem_filter.mp hb).1 a.row hab.1
  have hall : (s.db.history Payment.id id).Pairwise spaced := List.isChain_iff_pairwise.mp hchain
  exact hall

/-- A payment that fails twice, and is re-queued as soon as the job may. -/
def failsTwice : List Action :=
  [.createPayment 0 0 (sampleRequest none), .persistAndPublish 0 (sampleSurroundings 7) true,
    .commit 0 1, .updateStatus 1 0 7 ⟨.FAILED, none, none⟩, .applyAndPublish 1 2 true, .commit 1 2,
    .retryFailedPayments 2 0 3, .requeueAndPublish 2 300003 true, .commit 2 300003,
    .updateStatus 3 0 7 ⟨.FAILED, none, none⟩, .applyAndPublish 3 300004 true, .commit 3 300004,
    .retryFailedPayments 4 1 300005, .requeueAndPublish 4 600005 true, .commit 4 600005]

theorem requeues_spaced_twice :
    ∃ s, RunsUnder step (fun s a => clocksForward s a = true) (Sys.start []) failsTwice s ∧
      (s.db.history Payment.id 7).map (fun x => (x.row.updatedAt, s.byRetryJob x)) =
        [(0, false), (2, false), (300003, true), (300004, false), (600005, true)] ∧
      (s.db.history Payment.id 7).Pairwise fun a b =>
        a.row.updatedAt ≤ b.row.updatedAt ∧
          (s.byRetryJob b = true → a.row.updatedAt + retryBackoff < b.row.updatedAt) := by
  obtain ⟨s, hrun, hs⟩ := Option.map_eq_some_iff.mp
    (show (runChecked step clocksForward (Sys.start []) failsTwice).map (fun s =>
        (s.db.history Payment.id 7).map fun x => (x.row.updatedAt, s.byRetryJob x)) =
      some [(0, false), (2, false), (300003, true), (300004, false), (600005, true)] by
        decide +kernel)
  have hrun := RunsUnder.of_runChecked hrun
  exact ⟨s, hrun, hs, requeues_spaced .empty hrun 7⟩

end GlobalPayments.Payments

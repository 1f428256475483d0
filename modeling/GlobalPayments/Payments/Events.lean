/-
# GlobalPayments.Payments.Events — the messages on `payment-events`.

All three operations publish while their transaction is still open: the message is out before the
flush has met the unique constraints, the checks and the version comparison, and nothing takes it
back when the transaction fails.  So a message can describe a payment that was never stored, or a
status that was never committed (`events_of_lost_commit`).

`NoLostCommit` is the condition under which all is well: a transaction that has published is neither
aborted nor refused at its commit.  It is a condition on the table and the context before the commit
(`PersistenceContext.Admitted`), not on what the commit then does.
-/
import GlobalPayments.Payments.Invariant

namespace GlobalPayments.Payments

open Runs Versioned

/-! ## What a message says -/

/-- The message is about payment `p` as it is. -/
def Sent.Describes (m : Sent) (p : Payment) : Prop :=
  ∃ eventType now, m.event = paymentEvent eventType p now

theorem Sent.Describes.paymentId {m : Sent} {p : Payment} (h : m.Describes p) :
    m.event.paymentId = p.id := by
  obtain ⟨eventType, now, hm⟩ := h
  rw [hm]
  rfl

theorem Sent.Describes.status {m : Sent} {p : Payment} (h : m.Describes p) :
    m.event.status = p.status := by
  obtain ⟨eventType, now, hm⟩ := h
  rw [hm]
  rfl

/-- The version and the update time that the flush sets are not part of a message. -/
theorem Sent.Describes.nextRow {m : Sent} {loaded current : Payment} (h : m.Describes current)
    (now : Instant) : m.Describes (nextRow loaded current now) := h

/-- Transaction `tx` committed the payment the message describes: it returned, and either wrote that
row or read it and left it as it was. -/
def Sent.Committed (m : Sent) (db : Database) (tx : Tx) : Prop :=
  (∃ response, tx.phase = .ended (.returned response)) ∧
    ∃ x ∈ db.log, m.Describes x.row ∧
      (x.writer = some m.sender ∨ (x.row, x.row) ∈ tx.context.managed)

/-- **What the topic should promise**: every message of a transaction that has ended is about a
stored payment, and the sender committed it with the reported status. -/
def EventsBacked (s : Sys) : Prop :=
  ∀ m ∈ s.topic, ∀ outcome, (s.txs m.sender).phase = .ended outcome →
    (∃ p ∈ s.db.table, p.id = m.event.paymentId) ∧
      (∃ response, outcome = .returned response) ∧
      ∃ x ∈ s.db.log, x.row.id = m.event.paymentId ∧ x.row.status = m.event.status ∧
        (x.writer = some m.sender ∨ (x.row, x.row) ∈ (s.txs m.sender).context.managed)

/-- A transaction that has published is not aborted, and its commit meets the checks of the schema
and of `@Version`. -/
def NoLostCommit (s : Sys) : Action → Prop
  | .abort t => ∀ m ∈ s.topic, m.sender ≠ t
  | .commit t now => (∃ m ∈ s.topic, m.sender = t) → (s.txs t).context.Admitted now s.db
  | _ => True

instance (s : Sys) : (a : Action) → Decidable (NoLostCommit s a)
  | .abort t => inferInstanceAs (Decidable (∀ m ∈ s.topic, m.sender ≠ t))
  | .commit t now =>
      inferInstanceAs (Decidable ((∃ m ∈ s.topic, m.sender = t) → (s.txs t).context.Admitted now s.db))
  | .createPayment .. => isTrue trivial
  | .persistAndPublish .. => isTrue trivial
  | .updateStatus .. => isTrue trivial
  | .applyAndPublish .. => isTrue trivial
  | .retryFailedPayments .. => isTrue trivial
  | .requeueAndPublish .. => isTrue trivial

/-! ## From the message to the commit -/

/-- The message describes an entity that the context holds. -/
def Sent.Announced (m : Sent) (tx : Tx) : Prop :=
  (∃ p ∈ tx.context.inserted, m.Describes p) ∨ ∃ q ∈ tx.context.managed, m.Describes q.2

/-- What holds of a message and its sender: until the sender ends, its context holds what the message
describes; then it is committed. -/
structure Sent.Tracked (m : Sent) (db : Database) (tx : Tx) : Prop where
  started : tx.phase ≠ .idle
  announced : m.Announced tx
  committed : ∀ outcome, tx.phase = .ended outcome → m.Committed db tx

section Steps

variable {m : Sent} {db db' : Database} {a : Action} {tx tx' : Tx} {srv srv' : Server}
variable {events : List PaymentEvent}

theorem Sent.Committed.mono {new : List (Write TxId Payment)} (h : m.Committed db tx)
    (hlog : db'.log = db.log ++ new) : m.Committed db' tx := by
  obtain ⟨hreturned, x, hx, hrow⟩ := h
  exact ⟨hreturned, x, by rw [hlog]; exact List.mem_append_left _ hx, hrow⟩

theorem Sent.Tracked.mono {new : List (Write TxId Payment)} (h : m.Tracked db tx)
    (hlog : db'.log = db.log ++ new) : m.Tracked db' tx where
  started := h.started
  announced := h.announced
  committed outcome hphase := (h.committed outcome hphase).mono hlog

/-- **The commit makes the message true.** -/
theorem Sent.Announced.committed {t : TxId} {now : Instant} {response : Option PaymentResponse}
    (h : m.Announced tx) (hsender : m.sender = t) (hsound : tx.Sound db)
    (hflush : flush t now tx.context db = .ok db') :
    m.Committed db' (tx.finish (.returned response)) := by
  refine ⟨⟨response, rfl⟩, ?_⟩
  rw [flush_log hflush, PersistenceContext.writes]
  rcases h with ⟨p, hp, hdescribes⟩ | ⟨q, hq, hdescribes⟩
  · exact ⟨⟨some t, none, p⟩, by simp [hp], hdescribes, Or.inl (by rw [hsender])⟩
  -- an entity the setters left as it was issues no UPDATE: its row had been committed before
  · by_cases hsame : q.2 = q.1
    · obtain ⟨x, hx, hrow⟩ := (hsound.context.managed q hq).1
      refine ⟨x, List.mem_append_left _ hx, by rw [hrow, ← hsame]; exact hdescribes, Or.inr ?_⟩
      show (x.row, x.row) ∈ tx.context.managed
      rw [hrow]
      nth_rewrite 2 [← hsame]
      exact hq
    · refine ⟨⟨some t, some q.1, nextRow q.1 q.2 now⟩, ?_, hdescribes.nextRow now,
        Or.inl (by rw [hsender])⟩
      refine List.mem_append_right _ (List.mem_append_right _ ?_)
      exact List.mem_map.mpr ⟨q, List.mem_filter.mpr ⟨hq, by simpa using hsame⟩, rfl⟩

/-- What a create call, an update or a retry has in its context never breaks the flush's shape. -/
theorem Tx.Shaped.simple (h : tx.Shaped) {response : Option PaymentResponse}
    (hready : ReadyToCommit tx.phase response) : tx.context.Simple := by
  cases h with
  | inserted => exact ⟨by simp, by simp, fun _ => nofun⟩
  | updated =>
      refine ⟨by simp, by simp, fun m hm => ?_⟩
      obtain rfl := List.mem_singleton.mp hm
      rfl
  | @requeuing _ _ done todo hnodup =>
      refine ⟨by simp, ?_, fun m hm => ?_⟩
      · rw [List.map_append] at hnodup
        show ((done.map fun p => (p, requeuePayment p)).map fun m => m.1.id).Nodup
        rw [List.map_map]
        exact (List.nodup_append.mp hnodup).1
      · obtain ⟨p, -, rfl⟩ := List.mem_map.mp hm
        rfl
  | _ => cases hready

/-- A transaction whose context is empty has announced nothing. -/
theorem not_announced_of_empty (h : tx.context = {}) : ¬ m.Announced tx := by
  unfold Sent.Announced
  rw [h]
  rintro (⟨p, hp, -⟩ | ⟨q, hq, -⟩)
  · cases hp
  · cases hq

/-- Before `persistAndPublish` or the setters have run, the context is empty. -/
theorem Tx.Shaped.context_empty (h : tx.Shaped)
    (hphase : (∃ request, tx.phase = .persisting request) ∨
      ∃ payment request, tx.phase = .updating payment request) : tx.context = {} := by
  cases h with
  | idle => rfl
  | persisting => rfl
  | updating => rfl
  | _ => rcases hphase with ⟨_, h⟩ | ⟨_, _, h⟩ <;> cases h

/-- **The sender's own move**, when it loses no commit. -/
theorem Sent.Tracked.move {s : Sys} (hs : s.Sound) (hlost : NoLostCommit s a) (hm : m ∈ s.topic)
    (hsender : m.sender = a.tx) (h : m.Tracked s.db (s.txs a.tx))
    (hmoves : Moves s.db a (s.txs a.tx) srv tx' srv' db' events) : m.Tracked db' tx' := by
  cases hmoves with
  | replayed hidle => exact absurd hidle h.started
  | missed hidle => exact absurd hidle h.started
  | conversionRaised hphase =>
      exact absurd h.announced
        (not_announced_of_empty ((hs.shaped _).context_empty (Or.inl ⟨_, hphase⟩)))
  -- the first message of a call: its sender cannot have announced anything before
  | persisted hphase =>
      exact absurd h.announced
        (not_announced_of_empty ((hs.shaped _).context_empty (Or.inl ⟨_, hphase⟩)))
  | updateRefused hidle => exact absurd hidle h.started
  | updateLoaded hidle => exact absurd hidle h.started
  | statusApplied hphase =>
      exact absurd h.announced
        (not_announced_of_empty ((hs.shaped _).context_empty (Or.inr ⟨_, _, hphase⟩)))
  | retrySelected hidle => exact absurd hidle h.started
  | requeued hphase =>
      refine ⟨nofun, ?_, fun _ => nofun⟩
      rcases h.announced with hinserted | ⟨q, hq, hdescribes⟩
      · exact Or.inl hinserted
      · exact Or.inr ⟨q, List.mem_append_left _ hq, hdescribes⟩
  | @committed t now _ _ response _ hready hflush =>
      refine ⟨nofun, h.announced, fun outcome houtcome => ?_⟩
      exact h.announced.committed hsender (hs.txs t) hflush
  | @refused t now _ _ response e hready hrefused =>
      -- the commit of a sender is admitted, so it cannot be refused
      have hadmitted : (s.txs t).context.Admitted now s.db := hlost ⟨m, hm, hsender⟩
      obtain ⟨db', hok⟩ := flush_succeeds (t := t) hadmitted ((hs.shaped t).simple hready)
      rw [show flush t now (s.txs t).context s.db = .error e from hrefused] at hok
      cases hok
  | aborted => exact absurd hsender (hlost m hm)

/-- A message just sent describes an entity of its sender's context. -/
theorem Moves.tracked (h : Moves db a tx srv tx' srv' db' events) {event : PaymentEvent}
    (hevent : event ∈ events) (t : TxId) : (Sent.mk t event).Tracked db' tx' := by
  have of_published : ∀ {delivered : Bool} {e : PaymentEvent}, event ∈ published delivered e →
      event = e := by
    intro delivered e he
    unfold published at he
    split at he
    · exact List.mem_singleton.mp he
    · cases he
  cases h with
  | persisted =>
      refine ⟨nofun, Or.inl ⟨_, List.mem_singleton_self _, ?_⟩, fun _ => nofun⟩
      exact ⟨_, _, of_published hevent⟩
  | statusApplied =>
      refine ⟨nofun, Or.inr ⟨_, List.mem_singleton_self _, ?_⟩, fun _ => nofun⟩
      exact ⟨_, _, of_published hevent⟩
  | requeued =>
      refine ⟨nofun, Or.inr ⟨_, List.mem_append_right _ (List.mem_singleton_self _), ?_⟩,
        fun _ => nofun⟩
      exact ⟨_, _, of_published hevent⟩
  | _ => cases hevent

end Steps

/-! ## Runs -/

/-- **One step without a lost commit.** -/
theorem tracked_step {s s' : Sys} {a : Action} (hs : s.Sound)
    (htracked : ∀ m ∈ s.topic, m.Tracked s.db (s.txs m.sender)) (hlost : NoLostCommit s a)
    (hstep : step s a = some s') : ∀ m ∈ s'.topic, m.Tracked s'.db (s'.txs m.sender) := by
  obtain ⟨tx, srv, db, events, hstepped⟩ := step_cases hstep
  obtain ⟨new, hlog, -⟩ := hstepped.moves.log
  intro m hm
  rw [hstepped.topic_eq, List.mem_append] at hm
  rw [hstepped.db_eq]
  rcases hm with hm | hm
  · by_cases hsender : m.sender = a.tx
    · rw [hsender, hstepped.tx_self]
      have hold := htracked m hm
      rw [hsender] at hold
      exact hold.move hs hlost hm hsender hstepped.moves
    · rw [hstepped.tx_other hsender]
      exact (htracked m hm).mono hlog
  · obtain ⟨event, hevent, rfl⟩ := List.mem_map.mp hm
    rw [hstepped.tx_self]
    exact hstepped.moves.tracked hevent a.tx

/-- **Without a lost commit every message is backed**, in every interleaving. -/
theorem events_backed {rows : List Payment} (hrows : ValidRows rows) {trace : List Action} {s : Sys}
    (hrun : RunsUnder step NoLostCommit (Sys.start rows) trace s) : EventsBacked s := by
  have hinv : s.Sound ∧ ∀ m ∈ s.topic, m.Tracked s.db (s.txs m.sender) :=
    hrun.invariant (I := fun s => s.Sound ∧ ∀ m ∈ s.topic, m.Tracked s.db (s.txs m.sender))
      (fun _ _ _ hs hlost hstep => ⟨hs.1.step hstep, tracked_step hs.1 hs.2 hlost hstep⟩)
      ⟨.start hrows, fun _ => nofun⟩
  obtain ⟨hsound, htracked⟩ := hinv
  intro m hm outcome hphase
  obtain ⟨⟨response, hreturned⟩, x, hx, hdescribes, hwriter⟩ :=
    (htracked m hm).committed outcome hphase
  obtain ⟨p, hp, hterms⟩ := hsound.db.stored_of_logged ⟨x, hx, rfl⟩
  refine ⟨⟨p, hp, hterms.id.trans hdescribes.paymentId.symm⟩, ⟨response, ?_⟩, x, hx,
    hdescribes.paymentId.symm, hdescribes.status.symm, hwriter⟩
  rw [hphase] at hreturned
  exact Phase.ended.inj hreturned

/-- A payment is created; while it is updated, another call creates a second one, and the update
commits last. -/
def interleaved : List Action :=
  [.createPayment 0 0 (sampleRequest none), .persistAndPublish 0 (sampleSurroundings 7) true,
    .commit 0 1, .updateStatus 1 0 7 ⟨.COMPLETED, none, none⟩,
    .createPayment 2 0 (sampleRequest (some "order-1")), .applyAndPublish 1 2 true,
    .persistAndPublish 2 (sampleSurroundings 8) true, .commit 2 3, .commit 1 4]

/-- No commit of the three is lost, and their messages are backed. -/
theorem events_backed_interleaved :
    ∃ s, RunsUnder step NoLostCommit (Sys.start []) interleaved s ∧
      s.topic.map (fun m => (m.sender, m.event.paymentId, m.event.status)) =
        [(0, 7, .PENDING), (1, 7, .COMPLETED), (2, 8, .PENDING)] ∧
      EventsBacked s := by
  obtain ⟨s, hchecked, htopic⟩ :
      ∃ s ∈ runChecked step (fun s a => decide (NoLostCommit s a)) (Sys.start []) interleaved,
        s.topic.map (fun m => (m.sender, m.event.paymentId, m.event.status)) =
          [(0, 7, .PENDING), (1, 7, .COMPLETED), (2, 8, .PENDING)] := by
    decide
  have hrun := (RunsUnder.of_runChecked hchecked).imp (I := fun _ => True) (fun _ _ _ _ _ => trivial)
    (fun _ _ _ hc => of_decide_eq_true hc) trivial
  exact ⟨s, hrun, htopic, events_backed .empty hrun⟩

/-- Two calls with one key both publish; the second to commit is refused, and its message is about a
payment that does not exist. -/
theorem events_of_lost_commit :
    ¬ ∀ (trace : List Action) (s : Sys), run step (Sys.start []) trace = some s →
      EventsBacked s := by
  intro hall
  obtain ⟨s, hrun, hs⟩ := Option.map_eq_some_iff.mp
    (show (run step (Sys.start [])
        [.createPayment 0 0 (sampleRequest (some "order-1")),
          .createPayment 1 1 (sampleRequest (some "order-1")),
          .persistAndPublish 0 (sampleSurroundings 7) true,
          .persistAndPublish 1 (sampleSurroundings 8) true, .commit 0 1, .commit 1 1]).map
        (fun s => (s.topic.map fun m => (m.sender, m.event.paymentId), s.db.table.map (·.id),
          (s.txs 1).phase)) =
      some ([(0, 7), (1, 8)], [7], .ended (.raised .dataIntegrityViolation)) by decide)
  simp only [Prod.mk.injEq] at hs
  obtain ⟨htopic, htable, hphase⟩ := hs
  have hsent : (1, 8) ∈ s.topic.map fun m => (m.sender, m.event.paymentId) := by
    rw [htopic]
    decide
  obtain ⟨m, hm, hmessage⟩ := List.mem_map.mp hsent
  obtain ⟨hsender, hid⟩ := Prod.mk.inj hmessage
  obtain ⟨⟨p, hp, hpid⟩, -⟩ := hall _ s hrun m hm _ (by rw [hsender]; exact hphase)
  have hstored : p.id ∈ s.db.table.map (·.id) := List.mem_map_of_mem hp
  rw [htable, hpid, hid] at hstored
  exact absurd hstored (by decide)

end GlobalPayments.Payments

/-
# GlobalPayments.Payments.Writes — which call wrote what.

The log names the transaction of every committed write.  `Sys.Explained` says what kind of write it
is: an insertion by a create call, a status set by an `updateStatus` call on a row its guard passed, or
a re-queue by a retry job on a FAILED row below the limit.  The row a write is made on was read long
before, and the version check is what makes it the row before (`Versioned.Consistent`); so a question
about a run becomes a question about the edges of each payment's history.

`Commits` is the step that puts an `updateStatus` edge into the log.
-/
import GlobalPayments.Payments.Invariant

namespace GlobalPayments.Payments

open Runs Versioned

/-! ## The writes of a call -/

/-- `WrittenBy t call x`: the write `x` is one that transaction `t`, serving `call`, can make. -/
inductive WrittenBy (t : TxId) : Option Call → Write TxId Payment → Prop
  | created {request : CreatePaymentRequest} {sequence sequence' : Nat} {env : Surroundings}
      {payment : Payment} :
      preparePayment request sequence env = .ok (payment, sequence') →
      WrittenBy t (some (.createPayment request)) ⟨some t, none, payment⟩
  | statusSet {id : UUID} {request : UpdateStatusRequest} {payment : Payment} {now : Instant} :
      payment.id = id → Accepts payment.status request.newStatus →
      WrittenBy t (some (.updateStatus id request))
        ⟨some t, some payment, nextRow payment (applyStatus request payment) now⟩
  | requeued {cutoffTime : Instant} {payment : Payment} {now : Instant} :
      payment.status = .FAILED → payment.retryCount < 3 →
      WrittenBy t (some (.retryFailedPayments cutoffTime))
        ⟨some t, some payment, nextRow payment (requeuePayment payment) now⟩

theorem WrittenBy.writer {t : TxId} {call : Option Call} {x : Write TxId Payment}
    (h : WrittenBy t call x) : x.writer = some t := by
  cases h <;> rfl

theorem WrittenBy.call {t : TxId} {call : Option Call} {x : Write TxId Payment}
    (h : WrittenBy t call x) : call ≠ none := by
  cases h <;> nofun

/-- What a transaction has selected is still to be re-queued for the reasons it was selected, and what
it leaves to be flushed are writes of its call. -/
structure Tx.Explained (t : TxId) (tx : Tx) : Prop where
  eligible : ∀ todo, tx.phase = .requeuing todo →
    ∀ p ∈ todo, p.status = .FAILED ∧ p.retryCount < 3
  written : ∀ now, ∀ x ∈ tx.context.writes t now, WrittenBy t tx.call x

section Moves

variable {db db' : Database} {a : Action} {tx tx' : Tx} {srv srv' : Server}
variable {events : List PaymentEvent}

theorem Tx.Explained.of_empty {t : TxId} {tx : Tx} (hcontext : tx.context = {})
    (hrequeuing : ∀ todo, tx.phase ≠ .requeuing todo) : tx.Explained t where
  eligible todo hphase := absurd hphase (hrequeuing todo)
  written now x hx := by
    rw [hcontext] at hx
    cases hx

theorem Tx.Explained.finish {t : TxId} (h : tx.Explained t) (outcome : Outcome) :
    (tx.finish outcome).Explained t where
  eligible _ := nofun
  written := h.written

/-- A context without new entities writes its changed ones. -/
theorem mem_writes_managed {t : TxId} {now : Instant} {managed : List (Payment × Payment)}
    {x : Write TxId Payment} :
    x ∈ PersistenceContext.writes t now { managed := managed } ↔
      ∃ m ∈ managed, m.2 ≠ m.1 ∧ x = ⟨some t, some m.1, nextRow m.1 m.2 now⟩ := by
  simp only [PersistenceContext.writes, List.map_nil, List.nil_append, List.mem_map,
    List.mem_filter, decide_eq_true_eq, and_assoc, eq_comm (a := x)]

/-- **A transaction's own move.** -/
theorem Tx.Explained.move (hsound : tx.Sound db) (hshaped : tx.Shaped) (htx : tx.Explained a.tx)
    (h : Moves db a tx srv tx' srv' db' events) : tx'.Explained a.tx := by
  cases h with
  | replayed => exact .of_empty rfl fun _ => nofun
  | missed => exact .of_empty rfl fun _ => nofun
  | conversionRaised => exact htx.finish _
  | persisted hphase hprepared =>
      cases hshaped with
      | persisting =>
          obtain rfl := Phase.persisting.inj hphase
          refine ⟨fun _ => nofun, fun now x hx => ?_⟩
          obtain rfl := List.mem_singleton.mp hx
          exact .created hprepared
      | _ => cases hphase
  | updateRefused => exact .of_empty rfl fun _ => nofun
  | updateLoaded => exact .of_empty rfl fun _ => nofun
  | statusApplied hphase =>
      have haccepts := (hsound.updating _ _ hphase).2
      cases hshaped with
      | updating hid =>
          obtain ⟨rfl, rfl⟩ := Phase.updating.inj hphase
          refine ⟨fun _ => nofun, fun now x hx => ?_⟩
          obtain ⟨m, hm, -, rfl⟩ := mem_writes_managed.mp hx
          obtain rfl := List.mem_singleton.mp hm
          exact .statusSet hid haccepts
      | _ => cases hphase
  | retrySelected =>
      refine ⟨fun todo hphase p hp => ?_, fun now x hx => by cases hx⟩
      obtain rfl := Phase.requeuing.inj hphase
      obtain ⟨-, hfailed, hcount, -⟩ := mem_findRetryablePayments.mp hp
      exact ⟨hfailed, hcount⟩
  | @requeued _ _ _ _ _ payment todo hphase =>
      have htodo := htx.eligible _ hphase
      have hwritten := htx.written
      cases hshaped with
      | @requeuing cutoffTime i done _ =>
          obtain rfl := Phase.requeuing.inj hphase
          refine ⟨fun todo' hphase' p hp => ?_, fun now x hx => ?_⟩
          · obtain rfl : todo = todo' := Phase.requeuing.inj hphase'
            exact htodo p (List.mem_cons_of_mem payment hp)
          · obtain ⟨m, hm, hchanged, rfl⟩ := mem_writes_managed.mp hx
            rcases List.mem_append.mp hm with hm | hm
            · exact hwritten now _ (mem_writes_managed.mpr ⟨m, hm, hchanged, rfl⟩)
            · obtain rfl := List.mem_singleton.mp hm
              obtain ⟨hfailed, hcount⟩ := htodo payment List.mem_cons_self
              exact .requeued hfailed hcount
      | _ => cases hphase
  | committed => exact htx.finish _
  | refused => exact htx.finish _
  | aborted => exact htx.finish _

end Moves

/-! ## Every committed write is explained -/

/-- **Every committed write is a row of the starting table or a write of its transaction's call.** -/
structure Sys.Explained (rows : List Payment) (s : Sys) : Prop where
  sound : s.Sound
  txs : ∀ t, (s.txs t).Explained t
  log : ∀ x ∈ s.db.log, (x.row ∈ rows ∧ x = ⟨none, none, x.row⟩) ∨
    ∃ t, WrittenBy t (s.txs t).call x

theorem Tx.Shaped.call_of_idle {tx : Tx} (h : tx.Shaped) (hidle : tx.phase = .idle) :
    tx.call = none := by
  cases h with
  | idle => rfl
  | _ => cases hidle

section Steps

variable {rows : List Payment} {s s' : Sys} {a : Action} {tx : Tx} {srv : Server} {db : Database}
variable {events : List PaymentEvent}

/-- A step keeps the call of every transaction that serves one. -/
theorem Stepped.call (h : Stepped s a s' tx srv db events) {t : TxId} (hshaped : (s.txs t).Shaped)
    (hcall : (s.txs t).call ≠ none) : (s'.txs t).call = (s.txs t).call := by
  by_cases ht : t = a.tx
  · subst ht
    rw [h.tx_self]
    exact h.moves.call fun hidle => hcall (hshaped.call_of_idle hidle)
  · rw [h.tx_other ht]

/-- **What a step adds to the log is written by the call it runs for.** -/
theorem Sys.Explained.new_writes (hs : s.Explained rows) (h : Stepped s a s' tx srv db events) :
    ∃ new, s'.db.log = s.db.log ++ new ∧
      ∀ x ∈ new, WrittenBy a.tx (s.txs a.tx).call x ∧ (s'.txs a.tx).call = (s.txs a.tx).call := by
  rw [h.db_eq]
  rcases h.moves.db_cases with rfl | ⟨t, now, response, rfl, hready, hflush, -⟩
  · exact ⟨[], by simp, by simp⟩
  · refine ⟨_, flush_log hflush, fun x hx => ?_⟩
    have hwritten := (hs.txs t).written now x hx
    exact ⟨hwritten, h.call (hs.sound.shaped t) hwritten.call⟩

theorem Sys.Explained.start (h : ValidRows rows) : (Sys.start rows).Explained rows where
  sound := .start h
  txs _ := .of_empty rfl fun _ => nofun
  log x hx := by
    obtain ⟨r, hr, rfl⟩ := List.mem_map.mp hx
    exact Or.inl ⟨hr, rfl⟩

theorem Sys.Explained.step (hs : s.Explained rows) (hstep : step s a = some s') :
    s'.Explained rows := by
  obtain ⟨tx, srv, db, events, h⟩ := step_cases hstep
  obtain ⟨new, hlog, hnew⟩ := hs.new_writes h
  refine ⟨hs.sound.step hstep, ?_, fun x hx => ?_⟩
  · exact h.forall_tx (P := fun _ t tx => tx.Explained t) (fun _ _ ht => ht)
      (fun ht => .move (hs.sound.txs a.tx) (hs.sound.shaped a.tx) ht h.moves) hs.txs
  · rw [hlog] at hx
    rcases List.mem_append.mp hx with hx | hx
    · rcases hs.log x hx with hstart | ⟨t, hwritten⟩
      · exact Or.inl hstart
      · refine Or.inr ⟨t, ?_⟩
        rw [h.call (hs.sound.shaped t) hwritten.call]
        exact hwritten
    · obtain ⟨hwritten, hcall⟩ := hnew x hx
      refine Or.inr ⟨a.tx, ?_⟩
      rw [hcall]
      exact hwritten

/-- **Every reachable log is explained.** -/
theorem Sys.Explained.run {trace : List Action} (hs : s.Explained rows)
    (hrun : run Payments.step s trace = some s') : s'.Explained rows :=
  run_invariant (fun _ _ _ hs hstep => hs.step hstep) hs hrun

end Steps

/-! ## Edges that `updateStatus` puts into a history -/

/-- The call whose transaction made a write. -/
def Sys.callOf (s : Sys) (x : Write TxId Payment) : Option Call :=
  x.writer.bind fun t => (s.txs t).call

/-- The write took its payment from `old` to `new`. -/
def takes (old new : PaymentStatus) (x : Write TxId Payment) : Bool :=
  x.read.any (fun p => p.status = old) && x.row.status = new

/-- No `updateStatus` call has taken payment `id` from `old` to `new`. -/
def Sys.NeverMoved (s : Sys) (id : UUID) (old new : PaymentStatus) : Prop :=
  ∀ x ∈ s.db.log, x.row.id = id → ∀ request, s.callOf x = some (.updateStatus id request) →
    takes old new x = false

/-- The step commits an `updateStatus` call that found payment `id` in `old` and set it to `new`. -/
def Commits (s : Sys) (a : Action) (id : UUID) (old new : PaymentStatus) : Prop :=
  ∃ t now request db, a = .commit t now ∧ (s.txs t).call = some (.updateStatus id request) ∧
    request.newStatus = new ∧ (∃ m ∈ (s.txs t).context.managed, m.1.status = old) ∧
    flush t now (s.txs t).context s.db = .ok db

section Edges

variable {rows : List Payment} {s s' : Sys} {a : Action} {tx : Tx} {srv : Server} {db : Database}
variable {events : List PaymentEvent} {id : UUID} {old new : PaymentStatus}

theorem takes_iff {x : Write TxId Payment} : takes old new x = true ↔
    (∃ p, x.read = some p ∧ p.status = old) ∧ x.row.status = new := by
  simp [takes, Option.any_eq_true]

/-- The call of a committed write stays what it is. -/
theorem Sys.Explained.callOf (hs : s.Explained rows) (h : Stepped s a s' tx srv db events)
    {x : Write TxId Payment} (hx : x ∈ s.db.log) : s'.callOf x = s.callOf x := by
  rcases hs.log x hx with ⟨-, hstart⟩ | ⟨t, hwritten⟩
  · rw [hstart]
    rfl
  · simp only [Sys.callOf, hwritten.writer, Option.bind_some]
    exact h.call (hs.sound.shaped t) hwritten.call

/-- **An insertion** is a row of the starting table, or a new payment of a create call. -/
theorem Sys.Explained.inserted (hs : s.Explained rows) {x : Write TxId Payment}
    (hx : x ∈ s.db.log) (hread : x.read = none) :
    (x.row ∈ rows ∧ x = ⟨none, none, x.row⟩) ∨
      (x.writer.isSome ∧ (∃ request, s.callOf x = some (.createPayment request)) ∧
        x.row.status = .PENDING ∧ x.row.retryCount = 0) := by
  rcases hs.log x hx with hstart | ⟨t, hwritten⟩
  · exact Or.inl hstart
  · generalize hcall : (s.txs t).call = call at hwritten
    cases hwritten with
    | @created request _ _ _ payment hprepared =>
        obtain ⟨m, -, hpayment, -⟩ := preparePayment_ok hprepared
        refine Or.inr ⟨rfl, ⟨request, hcall⟩, ?_, ?_⟩
        · rw [hpayment]
          rfl
        · rw [hpayment]
          rfl
    | statusSet => cases hread
    | requeued => cases hread

/-- **An update** is an `updateStatus` call's, or a re-queue of a FAILED payment below the limit. -/
theorem Sys.Explained.updated (hs : s.Explained rows) {x : Write TxId Payment} (hx : x ∈ s.db.log)
    {p : Payment} (hread : x.read = some p) :
    (∃ request, s.callOf x = some (.updateStatus x.row.id request) ∧
        x.row.status = request.newStatus ∧ x.row.retryCount = p.retryCount) ∨
      (∃ cutoffTime, s.callOf x = some (.retryFailedPayments cutoffTime) ∧ p.status = .FAILED ∧
        p.retryCount < 3 ∧ x.row.status = .PENDING ∧ x.row.retryCount = p.retryCount + 1) := by
  rcases hs.log x hx with ⟨-, hstart⟩ | ⟨t, hwritten⟩
  · rw [hstart] at hread
    cases hread
  · generalize hcall : (s.txs t).call = call at hwritten
    cases hwritten with
    | created => cases hread
    | @statusSet id request payment now hid =>
        obtain rfl := Option.some.inj hread
        subst hid
        exact Or.inl ⟨request, hcall, rfl, rfl⟩
    | @requeued cutoffTime payment now hfailed hcount =>
        obtain rfl := Option.some.inj hread
        exact Or.inr ⟨cutoffTime, hcall, hfailed, hcount, rfl, rfl⟩

/-- What an `updateStatus` call brings to its commit. -/
theorem Tx.Shaped.updated_context {tx : Tx} {request : UpdateStatusRequest}
    {response : Option PaymentResponse} (h : tx.Shaped) (hready : ReadyToCommit tx.phase response)
    (hcall : tx.call = some (.updateStatus id request)) :
    ∃ payment, payment.id = id ∧
      tx.context = { managed := [(payment, applyStatus request payment)] } := by
  cases h with
  | @updated _ _ _ payment hid =>
      obtain ⟨rfl, rfl⟩ := Call.updateStatus.inj (Option.some.inj hcall)
      exact ⟨payment, hid, rfl⟩
  | idle => cases hready
  | persisting => cases hready
  | inserted => cases hcall
  | updating => cases hready
  | requeuing => cases hcall
  | ended => cases hready

/-- A commit that can flush does. -/
theorem Stepped.committed {t : TxId} {now : Instant} {db₁ : Database}
    (h : Stepped s (.commit t now) s' tx srv db events)
    (hflush : flush t now (s.txs t).context s.db = .ok db₁) :
    (∃ response, ReadyToCommit (s.txs t).phase response) ∧
      s'.db.log = s.db.log ++ (s.txs t).context.writes t now := by
  have hmoves := h.moves
  rw [h.db_eq]
  generalize hact : Action.commit t now = a at hmoves
  cases hmoves with
  | committed hready hflushed =>
      obtain ⟨rfl, rfl⟩ := Action.commit.inj hact
      exact ⟨⟨_, hready⟩, flush_log hflushed⟩
  | refused hready hrefused =>
      obtain ⟨rfl, rfl⟩ := Action.commit.inj hact
      have hok : flush t now (s.txs t).context s.db = .error _ := hrefused
      rw [hflush] at hok
      cases hok
  | _ => cases hact

/-- The edge of a commit is in the log afterwards. -/
theorem Commits.write (hs : s.Explained rows) (h : Stepped s a s' tx srv db events)
    (hne : old ≠ new) (hcommits : Commits s a id old new) :
    ∃ x ∈ s'.db.log, x.row.id = id ∧ (∃ request, s'.callOf x = some (.updateStatus id request)) ∧
      takes old new x = true := by
  obtain ⟨t, now, request, db₁, rfl, hcall, hnew, ⟨m, hm, hold⟩, hflush⟩ := hcommits
  obtain ⟨⟨response, hready⟩, hlog⟩ := h.committed hflush
  obtain ⟨payment, hid, hcontext⟩ := (hs.sound.shaped t).updated_context hready hcall
  rw [hcontext] at hm hlog
  obtain rfl := List.mem_singleton.mp hm
  -- the status differs, so the entity is dirty and an UPDATE is issued
  have hchanged : applyStatus request payment ≠ payment := by
    intro hsame
    apply hne
    rw [← hold, ← hnew]
    exact (congrArg Payment.status hsame).symm
  refine ⟨⟨some t, some payment, nextRow payment (applyStatus request payment) now⟩, ?_, hid,
    ⟨request, ?_⟩, takes_iff.mpr ⟨⟨payment, rfl, hold⟩, hnew⟩⟩
  · rw [hlog]
    exact List.mem_append_right _
      (mem_writes_managed.mpr ⟨_, List.mem_singleton.mpr rfl, hchanged, rfl⟩)
  · show (s'.txs t).call = _
    rw [← hcall]
    apply h.call (hs.sound.shaped t)
    rw [hcall]
    nofun

/-- A new edge of an `updateStatus` call is the edge its commit puts into the log. -/
theorem Sys.Explained.commits_of_write (hs : s.Explained rows) {t : TxId} {now : Instant}
    {response : Option PaymentResponse} (hready : ReadyToCommit (s.txs t).phase response)
    (hflush : flush t now (s.txs t).context s.db = .ok db) {x : Write TxId Payment}
    (hx : x ∈ (s.txs t).context.writes t now) {request : UpdateStatusRequest}
    (hcall : (s.txs t).call = some (.updateStatus id request)) (htakes : takes old new x = true) :
    Commits s (.commit t now) id old new := by
  obtain ⟨⟨p, hread, hold⟩, hnew⟩ := takes_iff.mp htakes
  obtain ⟨payment, -, hcontext⟩ := (hs.sound.shaped t).updated_context hready hcall
  rw [hcontext] at hx
  obtain ⟨m, hm, -, rfl⟩ := mem_writes_managed.mp hx
  obtain rfl := List.mem_singleton.mp hm
  obtain rfl := Option.some.inj hread
  refine ⟨t, now, request, db, rfl, hcall, hnew, ⟨_, ?_, hold⟩, hflush⟩
  rw [hcontext]
  exact List.mem_singleton.mpr rfl

/-- **An `updateStatus` edge enters the log with the commit of its call, and in no other way.** -/
theorem Sys.Explained.neverMoved_iff (hs : s.Explained rows) (h : Stepped s a s' tx srv db events)
    (hne : old ≠ new) :
    s'.NeverMoved id old new ↔ s.NeverMoved id old new ∧ ¬ Commits s a id old new := by
  constructor
  · intro hnever
    obtain ⟨writes, hlog, -⟩ := hs.new_writes h
    refine ⟨fun x hx hid request hcall => ?_, fun hcommits => ?_⟩
    · refine hnever x (by rw [hlog]; exact List.mem_append_left _ hx) hid request ?_
      rw [hs.callOf h hx]
      exact hcall
    · obtain ⟨x, hx, hid, ⟨request, hcall⟩, htakes⟩ := hcommits.write hs h hne
      rw [hnever x hx hid request hcall] at htakes
      cases htakes
  · rintro ⟨hnever, hcommits⟩ x hx hid request hcall
    rw [h.db_eq] at hx
    have hkept : x ∈ s.db.log → takes old new x = false := fun hx =>
      hnever x hx hid request (by rw [← hs.callOf h hx]; exact hcall)
    rcases h.moves.db_cases with rfl | ⟨t, now, response, rfl, hready, hflush, -⟩
    · exact hkept hx
    · rw [flush_log hflush] at hx
      rcases List.mem_append.mp hx with hx | hx
      · exact hkept hx
      · have hwritten := (hs.txs t).written now x hx
        have hcallt : (s.txs t).call = some (.updateStatus id request) := by
          rw [← hcall, Sys.callOf, hwritten.writer, Option.bind_some]
          exact (h.call (hs.sound.shaped t) hwritten.call).symm
        rw [Bool.eq_false_iff]
        exact fun htakes => hcommits (hs.commits_of_write hready hflush hx hcallt htakes)

/-- **When a run leaves an edge out.**  In a run from a valid table no `updateStatus` call takes the
payment into `new` from a status in `P`, exactly when no such call commits. -/
theorem runsUnder_iff_neverMoved (hrows : ValidRows rows) {P : PaymentStatus → Prop} (hP : ¬ P new)
    {trace : List Action} (hrun : run step (Sys.start rows) trace = some s) :
    RunsUnder step (fun s a => ∀ old, P old → ¬ Commits s a id old new) (Sys.start rows) trace s ↔
      ∀ old, P old → s.NeverMoved id old new := by
  refine RunsUnder.iff_of_exact (I := Sys.Explained rows)
    (J := fun s => ∀ old, P old → s.NeverMoved id old new)
    (fun _ _ _ hs hstep => hs.step hstep) ?_ (.start hrows) ?_ hrun
  · intro s a s' hs hstep
    obtain ⟨tx, srv, db, events, h⟩ := step_cases hstep
    constructor
    · intro hnever
      have hedge := fun old hold => (hs.neverMoved_iff h (fun heq : old = new => hP (heq ▸ hold))).mp
        (hnever old hold)
      exact ⟨fun old hold => (hedge old hold).1, fun old hold => (hedge old hold).2⟩
    · rintro ⟨hnever, hcommits⟩ old hold
      exact (hs.neverMoved_iff h (fun heq : old = new => hP (heq ▸ hold))).mpr
        ⟨hnever old hold, hcommits old hold⟩
  · -- the rows of the starting table were written by no call
    intro old _ x hx _ request hcall
    obtain ⟨r, -, rfl⟩ := List.mem_map.mp hx
    cases hcall

end Edges

end GlobalPayments.Payments

/-
# GlobalPayments.Payments.Invariant — what holds in every reachable state of the service.

`Sys.Sound` couples the table invariant (`Database.Sound`) with what each transaction remembers of
the rows it has read: every entity it works on was committed at some time, and the change it will
flush goes along `Evolves`.  Both are kept by every step, whatever the interleaving: a commit is the
only step that writes the table (`Moves.db_cases`), and it only appends to the log.
-/
import GlobalPayments.Payments.Transactions

namespace GlobalPayments.Payments

open Runs

/-! ## The database under a step -/

section Moves

variable {db db' : Database} {a : Action} {tx tx' : Tx} {srv srv' : Server}
variable {events : List PaymentEvent}

/-- Only a commit writes the table. -/
theorem Moves.db_cases (h : Moves db a tx srv tx' srv' db' events) :
    db' = db ∨ ∃ t now response, a = .commit t now ∧ ReadyToCommit tx.phase response ∧
      flush t now tx.context db = .ok db' ∧ tx' = tx.finish (.returned response) := by
  cases h with
  | committed hready hflush => exact Or.inr ⟨_, _, _, rfl, hready, hflush, rfl⟩
  | _ => exact Or.inl rfl

/-- What a step adds to the log is written by its own transaction. -/
theorem Moves.log (h : Moves db a tx srv tx' srv' db' events) :
    ∃ new, db'.log = db.log ++ new ∧ ∀ x ∈ new, x.writer = some a.tx := by
  rcases h.db_cases with rfl | ⟨t, now, response, rfl, -, hflush, -⟩
  · exact ⟨[], by simp, by simp⟩
  · refine ⟨_, flush_log hflush, fun x hx => ?_⟩
    simp only [PersistenceContext.writes, List.mem_append, List.mem_map] at hx
    rcases hx with ⟨p, -, rfl⟩ | ⟨m, -, rfl⟩ <;> rfl

/-- A move keeps the call a transaction serves, once it serves one. -/
theorem Moves.call (h : Moves db a tx srv tx' srv' db' events) (hidle : tx.phase ≠ .idle) :
    tx'.call = tx.call := by
  cases h <;> first | rfl | contradiction

end Moves

section Stepped

variable {s s' : Sys} {a : Action} {tx : Tx} {srv : Server} {db : Database}
variable {events : List PaymentEvent}

theorem Stepped.tx_self (h : Stepped s a s' tx srv db events) : s'.txs a.tx = tx := by
  rw [h.txs_eq, Function.update_self]

theorem Stepped.tx_other (h : Stepped s a s' tx srv db events) {t : TxId} (ht : t ≠ a.tx) :
    s'.txs t = s.txs t := by
  rw [h.txs_eq, Function.update_of_ne ht]

/-- **The rule for an invariant of each transaction**: it survives the other transactions' effect on
the database, and the transaction's own move. -/
theorem Stepped.forall_tx {P : Database → TxId → Tx → Prop}
    (h : Stepped s a s' tx srv db events)
    (hother : ∀ t, t ≠ a.tx → P s.db t (s.txs t) → P db t (s.txs t))
    (hself : P s.db a.tx (s.txs a.tx) → P db a.tx tx)
    (hs : ∀ t, P s.db t (s.txs t)) : ∀ t, P s'.db t (s'.txs t) := by
  intro t
  rw [h.db_eq]
  by_cases ht : t = a.tx
  · subst ht
    rw [h.tx_self]
    exact hself (hs a.tx)
  · rw [h.tx_other ht]
    exact hother t ht (hs t)

end Stepped

/-! ## The invariant -/

/-- What a transaction remembers: loaded entities were committed, passed the guard or were FAILED,
and were changed along `Evolves`. -/
structure Tx.Sound (db : Database) (tx : Tx) : Prop where
  context : tx.context.Sound db
  updating : ∀ payment request, tx.phase = .updating payment request →
    db.Logged payment ∧ Accepts payment.status request.newStatus
  requeuing : ∀ todo, tx.phase = .requeuing todo →
    ∀ p ∈ todo, db.Logged p ∧ p.status = .FAILED

/-- **The shape of a transaction**: which phases a call goes through, and what its context holds
there. -/
inductive Tx.Shaped : Tx → Prop
  | idle {i : ServerId} : Shaped ⟨none, i, .idle, {}⟩
  | persisting {request : CreatePaymentRequest} {i : ServerId} :
      Shaped ⟨some (.createPayment request), i, .persisting request, {}⟩
  | inserted {request : CreatePaymentRequest} {i : ServerId} {sequence sequence' : Nat}
      {env : Surroundings} {payment : Payment} :
      preparePayment request sequence env = .ok (payment, sequence') →
      Shaped ⟨some (.createPayment request), i, .flushing (some (toResponse payment)),
        { inserted := [payment] }⟩
  | updating {id : UUID} {request : UpdateStatusRequest} {i : ServerId} {payment : Payment} :
      payment.id = id →
      Shaped ⟨some (.updateStatus id request), i, .updating payment request, {}⟩
  | updated {id : UUID} {request : UpdateStatusRequest} {i : ServerId} {payment : Payment} :
      payment.id = id →
      Shaped ⟨some (.updateStatus id request), i,
        .flushing (some (toResponse (applyStatus request payment))),
        { managed := [(payment, applyStatus request payment)] }⟩
  | requeuing {cutoffTime : Instant} {i : ServerId} {done todo : List Payment} :
      ((done ++ todo).map Payment.id).Nodup →
      Shaped ⟨some (.retryFailedPayments cutoffTime), i, .requeuing todo,
        { managed := done.map fun p => (p, requeuePayment p) }⟩
  | ended {call : Call} {i : ServerId} {outcome : Outcome} {context : PersistenceContext} :
      Shaped ⟨some call, i, .ended outcome, context⟩

/-- **The invariant of the service.** -/
structure Sys.Sound (s : Sys) : Prop where
  db : s.db.Sound
  txs : ∀ t, (s.txs t).Sound s.db
  shaped : ∀ t, (s.txs t).Shaped

/-- Rows a table under this schema can hold: unique ids, references and keys. -/
structure ValidRows (rows : List Payment) : Prop where
  ids : (rows.map Payment.id).Nodup
  distinct : Distinct rows

theorem ValidRows.empty : ValidRows [] := ⟨List.nodup_nil, List.Pairwise.nil⟩

theorem PersistenceContext.Sound.empty (db : Database) : PersistenceContext.Sound db {} where
  inserted _ := nofun
  managed _ := nofun

theorem Tx.Sound.mono {db db' : Database} {tx : Tx} {new : List (Versioned.Write TxId Payment)}
    (h : tx.Sound db) (hlog : db'.log = db.log ++ new) : tx.Sound db' where
  context :=
    ⟨h.context.inserted, fun m hm =>
      ⟨(h.context.managed m hm).1.mono hlog, (h.context.managed m hm).2⟩⟩
  updating payment request hphase :=
    ⟨(h.updating payment request hphase).1.mono hlog, (h.updating payment request hphase).2⟩
  requeuing todo hphase p hp :=
    ⟨(h.requeuing todo hphase p hp).1.mono hlog, (h.requeuing todo hphase p hp).2⟩

/-- A transaction in a phase that remembers nothing beyond its context. -/
theorem Tx.Sound.of_context {db : Database} {tx : Tx} (h : tx.context.Sound db)
    (hupdating : ∀ payment request, tx.phase ≠ .updating payment request)
    (hrequeuing : ∀ todo, tx.phase ≠ .requeuing todo) : tx.Sound db where
  context := h
  updating payment request hphase := absurd hphase (hupdating payment request)
  requeuing todo hphase := absurd hphase (hrequeuing todo)

theorem Tx.Sound.finish {db : Database} {tx : Tx} (h : tx.Sound db) (outcome : Outcome) :
    (tx.finish outcome).Sound db :=
  .of_context h.context (fun _ _ => nofun) fun _ => nofun

theorem Database.Sound.logged {db : Database} (h : db.Sound) {p : Payment} (hp : p ∈ db.table) :
    db.Logged p :=
  h.consistent.logged hp

/-- What was committed is still stored, with the same terms. -/
theorem Database.Sound.stored_of_logged {db : Database} (h : db.Sound) {p : Payment}
    (hp : db.Logged p) : ∃ q ∈ db.table, SameTerms p q := by
  obtain ⟨x, hx, rfl⟩ := hp
  obtain ⟨q, hq, -, hreach⟩ := h.consistent.stored_of_log hx
  exact ⟨q, hq, .of_reflTransGen hreach⟩

/-- **A transaction's own move.** -/
theorem Tx.Sound.move {db db' : Database} {a : Action} {tx tx' : Tx} {srv srv' : Server}
    {events : List PaymentEvent} (hdb : db.Sound) (htx : tx.Sound db)
    (h : Moves db a tx srv tx' srv' db' events) : tx'.Sound db' := by
  cases h with
  | replayed => exact .of_context (.empty db) (fun _ _ => nofun) fun _ => nofun
  | missed => exact .of_context (.empty db) (fun _ _ => nofun) fun _ => nofun
  | conversionRaised => exact htx.finish _
  | persisted _ hprepared =>
      obtain ⟨m, -, rfl, -⟩ := preparePayment_ok hprepared
      refine .of_context ⟨fun p hp => ?_, fun _ => nofun⟩ (fun _ _ => nofun) fun _ => nofun
      obtain rfl := List.mem_singleton.mp hp
      rfl
  | updateRefused => exact .of_context (.empty db) (fun _ _ => nofun) fun _ => nofun
  | @updateLoaded _ _ _ request _ _ payment _ hloaded =>
      obtain ⟨hfound, haccepts⟩ := loadForUpdate_ok hloaded
      refine ⟨.empty db, fun p r hphase => ?_, fun _ => nofun⟩
      obtain ⟨rfl, rfl⟩ : payment = p ∧ request = r := by simpa using hphase
      exact ⟨hdb.logged (findById_some hfound).1, haccepts⟩
  -- the guard passed when the payment was loaded, and the phase remembers it
  | @statusApplied _ _ _ _ _ payment request hphase =>
      obtain ⟨hlogged, haccepts⟩ := htx.updating payment request hphase
      refine .of_context ⟨fun _ => nofun, fun m hm => ?_⟩ (fun _ _ => nofun) fun _ => nofun
      obtain rfl := List.mem_singleton.mp hm
      exact ⟨hlogged, applyStatus_evolves haccepts⟩
  | retrySelected =>
      refine ⟨.empty db, fun _ _ => nofun, fun todo hphase p hp => ?_⟩
      obtain rfl := Phase.requeuing.inj hphase
      obtain ⟨hp, hfailed, -⟩ := mem_findRetryablePayments.mp hp
      exact ⟨hdb.logged hp, hfailed⟩
  -- the retry job calls no guard: FAILED, which its query selected, is what makes PENDING legal
  | @requeued _ _ _ _ _ payment todo hphase =>
      have htodo := htx.requeuing _ hphase
      refine ⟨⟨htx.context.inserted, fun m hm => ?_⟩, fun _ _ => nofun, fun todo' hphase' p hp => ?_⟩
      · rcases List.mem_append.mp hm with hm | hm
        · exact htx.context.managed m hm
        · obtain rfl := List.mem_singleton.mp hm
          obtain ⟨hlogged, hfailed⟩ := htodo payment (by simp)
          exact ⟨hlogged, requeuePayment_evolves hfailed⟩
      · obtain rfl : todo = todo' := Phase.requeuing.inj hphase'
        exact htodo p (List.mem_cons_of_mem _ hp)
  | committed _ hflush => exact (htx.mono (flush_log hflush)).finish _
  | refused => exact htx.finish _
  | aborted => exact htx.finish _

theorem Tx.Shaped.finish {tx : Tx} (h : tx.Shaped) (hidle : tx.phase ≠ .idle) (outcome : Outcome) :
    (tx.finish outcome).Shaped := by
  cases h with
  | idle => exact absurd rfl hidle
  | _ => exact .ended

theorem nodup_findRetryablePayments {db : Database} (h : db.Sound) (cutoffTime : Instant) :
    ((findRetryablePayments cutoffTime db.table).map Payment.id).Nodup := by
  have hperm := (List.perm_insertionSort (fun a b : Payment => a.createdAt ≤ b.createdAt)
    (db.table.filter fun p => p.status = .FAILED && p.retryCount < 3 && p.updatedAt < cutoffTime))
  refine (hperm.map Payment.id).nodup_iff.mpr ?_
  exact h.consistent.unique.sublist (List.filter_sublist.map _)

theorem ReadyToCommit.ne_idle {phase : Phase} {response : Option PaymentResponse}
    (h : ReadyToCommit phase response) : phase ≠ .idle := by
  cases h <;> nofun

/-- A transaction's own move keeps its shape. -/
theorem Tx.Shaped.move {db db' : Database} {a : Action} {tx tx' : Tx} {srv srv' : Server}
    {events : List PaymentEvent} (hdb : db.Sound) (htx : tx.Shaped)
    (h : Moves db a tx srv tx' srv' db' events) : tx'.Shaped := by
  cases h with
  | replayed => exact .ended
  | missed => exact .persisting
  | conversionRaised hphase => exact htx.finish (by rw [hphase]; nofun) _
  | persisted hphase hprepared =>
      cases htx with
      | persisting =>
          obtain rfl := Phase.persisting.inj hphase
          exact .inserted hprepared
      | _ => cases hphase
  | updateRefused => exact .ended
  | updateLoaded _ hloaded =>
      exact .updating (findById_some (loadForUpdate_ok hloaded).1).2
  | statusApplied hphase =>
      cases htx with
      | updating hid =>
          obtain ⟨rfl, rfl⟩ := Phase.updating.inj hphase
          exact .updated hid
      | _ => cases hphase
  | retrySelected =>
      show Tx.Shaped ⟨_, _, _, { managed := ([] : List Payment).map fun p => (p, requeuePayment p) }⟩
      exact .requeuing (nodup_findRetryablePayments hdb _)
  | @requeued _ _ _ _ _ payment todo hphase =>
      cases htx with
      | @requeuing cutoffTime i done _ hnodup =>
          obtain rfl := Phase.requeuing.inj hphase
          have hcontext : (done ++ [payment]).map (fun p => (p, requeuePayment p)) =
              done.map (fun p => (p, requeuePayment p)) ++ [(payment, requeuePayment payment)] := by
            rw [List.map_append]
            rfl
          show Tx.Shaped ⟨_, i, _, { managed := _ ++ [(payment, requeuePayment payment)] }⟩
          rw [← hcontext]
          exact .requeuing (by simpa using hnodup)
      | _ => cases hphase
  | committed hready => exact htx.finish hready.ne_idle _
  | refused hready => exact htx.finish hready.ne_idle _
  | aborted hidle => exact htx.finish hidle _

/-! ## Every run keeps it -/

theorem Sys.Sound.start {rows : List Payment} (h : ValidRows rows) : (Sys.start rows).Sound where
  db := ⟨.start h.ids, h.distinct⟩
  txs _ := .of_context (.empty _) (fun _ _ => nofun) fun _ => nofun
  shaped _ := .idle

/-- **Every step keeps the invariant.** -/
theorem Sys.Sound.step {s : Sys} {a : Action} {s' : Sys} (h : s.Sound)
    (hstep : step s a = some s') : s'.Sound := by
  obtain ⟨tx, srv, db, events, hstepped⟩ := step_cases hstep
  obtain ⟨new, hlog, -⟩ := hstepped.moves.log
  refine ⟨?_, hstepped.forall_tx (P := fun db _ tx => tx.Sound db) (fun t _ ht => ht.mono hlog)
    (fun ht => .move h.db ht hstepped.moves) h.txs,
    hstepped.forall_tx (P := fun _ _ tx => tx.Shaped) (fun _ _ ht => ht)
    (fun ht => .move h.db ht hstepped.moves) h.shaped⟩
  rw [hstepped.db_eq]
  rcases hstepped.moves.db_cases with rfl | ⟨t, now, response, rfl, -, hflush, -⟩
  · exact h.db
  · exact h.db.flush (h.txs t).context hflush

/-- **Every reachable state satisfies the invariant.** -/
theorem Sys.Sound.run {s t : Sys} {trace : List Action} (h : s.Sound)
    (hrun : run Payments.step s trace = some t) : t.Sound :=
  run_invariant (fun _ _ _ hs hstep => hs.step hstep) h hrun

/-- The log only grows along a run. -/
theorem log_prefix {s t : Sys} {trace : List Action} (hrun : run step s trace = some t) :
    ∃ new, t.db.log = s.db.log ++ new :=
  run_relates (I := fun _ => True)
    (R := fun s t : Sys => ∃ new, t.db.log = s.db.log ++ new)
    (fun _ _ _ _ _ => trivial) (fun s => ⟨[], by simp⟩)
    (fun s t u ⟨xs, hxs⟩ ⟨ys, hys⟩ => ⟨xs ++ ys, by rw [hys, hxs, List.append_assoc]⟩)
    (fun s a s' _ hstep => by
      obtain ⟨tx, srv, db, events, hstepped⟩ := step_cases hstep
      obtain ⟨new, hlog, -⟩ := hstepped.moves.log
      exact ⟨new, by rw [hstepped.db_eq, hlog]⟩) trivial hrun

/-- What a run starts with stands at the front of its log. -/
theorem log_isPrefix {rows : List Payment} {s : Sys} {trace : List Action}
    (hrun : run step (Sys.start rows) trace = some s) :
    (Versioned.Store.start rows : Database).log <+: s.db.log := by
  obtain ⟨new, hlog⟩ := log_prefix hrun
  exact ⟨new, hlog.symm⟩

end GlobalPayments.Payments

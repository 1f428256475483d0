/-
# GlobalPayments.Payments.Lifecycle — the status of a payment, over every interleaving.

`updateStatus` checks its guard on a row that may be stale by the time it commits, and the retry job
writes PENDING without calling the guard.  What makes every committed step legal all the same is the
version check: a write is committed only onto the row its transaction had read.

`Ledger` is what the service is for, as far as the status goes: one atomic cell per payment, opened
PENDING and moved along the guard's relation.  `run_refines_ledger` is the refinement;
`committed_statuses_legal` spells it out on the log of committed writes.
-/
import GlobalPayments.Payments.Invariant

namespace GlobalPayments.Payments

open Runs Versioned

/-! ## The status ledger -/

/-- One status per payment. -/
abbrev Ledger := UUID → Option PaymentStatus

/-- A ledger opens a payment as PENDING, or moves its status as the guard allows. -/
inductive Ledger.Step : Ledger → Ledger → Prop
  | opened {l : Ledger} {id : UUID} : l id = none →
      Step l (Function.update l id (some .PENDING))
  | moved {l : Ledger} {id : UUID} {old new : PaymentStatus} : l id = some old → Accepts old new →
      Step l (Function.update l id (some new))

/-- The ledger a table stands for. -/
def Database.ledger (db : Database) : Ledger := fun id => (findById id db.table).map (·.status)

section Refinement

variable {t : TxId} {now : Instant} {db db' : Database}

/-- An INSERT opens a payment. -/
theorem Ledger.Step.of_insert {p : Payment} (hp : p.status = .PENDING)
    (h : flushInsert t db p = .ok db') : Ledger.Step db.ledger db'.ledger := by
  obtain ⟨hfree, rfl⟩ := Store.insert_cases (flushInsert_ok h).2.2
  have hnone : findById p.id db.table = none := by simpa [findById] using hfree
  have hledger : Database.ledger ⟨db.table ++ [p], db.log ++ [⟨some t, none, p⟩]⟩ =
      Function.update db.ledger p.id (some .PENDING) := by
    funext id
    by_cases hid : id = p.id
    · subst hid
      rw [Function.update_self]
      simp only [Database.ledger, findById, List.find?_append] at hnone ⊢
      simp [hnone, hp]
    · rw [Function.update_of_ne hid]
      simp [Database.ledger, findById, List.find?_append, Ne.symm hid]
  rw [hledger]
  apply Ledger.Step.opened
  rw [Database.ledger, hnone, Option.map_none]

/-- An UPDATE moves the payment it read, because the version check leaves only the row it read. -/
theorem Ledger.Step.of_update {m : Payment × Payment} (hdb : db.Sound) (hlogged : db.Logged m.1)
    (hm : Evolves m.1 m.2) (h : flushUpdate t now db m = .ok db') :
    Relation.ReflTransGen Ledger.Step db.ledger db'.ledger := by
  rcases flushUpdate_ok h with ⟨-, rfl⟩ | ⟨-, hupdate⟩
  · exact .refl
  · obtain ⟨⟨r, hr, hid, hv⟩, rfl⟩ := Store.update_cases hupdate
    obtain ⟨x, hx, hxm⟩ := hlogged
    -- the version check: the row found under the key is the one the transaction had read
    have hread : r = m.1 := by
      rw [← hxm] at hid hv ⊢
      exact hdb.consistent.loaded_current hx hr hid hv
    subst hread
    have hfind : findById m.1.id db.table = some m.1 :=
      (mem_iff_find_key hdb.consistent.unique).mp hr
    have hledger : Database.ledger
        ⟨replaceRow Payment.id (nextRow m.1 m.2 now) db.table,
          db.log ++ [⟨some t, some m.1, nextRow m.1 m.2 now⟩]⟩ =
        Function.update db.ledger m.1.id (some m.2.status) := by
      have hrow := (hm.nextRow now).terms.id
      funext id
      by_cases hid : id = m.1.id
      · subst hid
        have hself : (replaceRow Payment.id (nextRow m.1 m.2 now) db.table).find?
            (fun p => p.id = m.1.id) = some (nextRow m.1 m.2 now) := by
          rw [← hrow] at hfind ⊢
          exact find_replaceRow_self hfind
        rw [Function.update_self]
        simp only [Database.ledger, findById]
        rw [hself]
        rfl
      · rw [Function.update_of_ne hid]
        simp only [Database.ledger, findById]
        rw [find_replaceRow_of_ne (by rw [hrow]; exact hid)]
    rw [hledger]
    refine .single (.moved ?_ hm.accepted)
    rw [Database.ledger, hfind, Option.map_some]

/-- A commit is a sequence of ledger steps: one per new or changed entity. -/
theorem Ledger.Step.of_flush {context : PersistenceContext} (hdb : db.Sound)
    (hcontext : context.Sound db) (h : flush t now context db = .ok db') :
    Relation.ReflTransGen Ledger.Step db.ledger db'.ledger := by
  obtain ⟨db₁, hinserted, hmanaged⟩ := flush_ok h
  -- the INSERTs, then the UPDATEs: each loop carries the table invariant, what is still to be
  -- flushed, and the ledger steps so far
  have h₁ := foldlM_invariant
    (I := fun d ps => d.Sound ∧ (∀ p, db.Logged p → d.Logged p) ∧
      (∀ p ∈ ps, p.status = .PENDING) ∧ Relation.ReflTransGen Ledger.Step db.ledger d.ledger)
    (fun d p ps d' hd hp => by
      obtain ⟨hsound, hlogged, hpending, hreach⟩ := hd
      exact ⟨hsound.insert hp, fun q hq => (hlogged q hq).flushInsert hp,
        fun q hq => hpending q (by simp [hq]),
        hreach.tail (.of_insert (hpending p (by simp)) hp)⟩)
    ⟨hdb, fun _ hq => hq, hcontext.inserted, .refl⟩ hinserted
  have h₂ := foldlM_invariant
    (I := fun d ms => d.Sound ∧ (∀ m ∈ ms, d.Logged m.1 ∧ Evolves m.1 m.2) ∧
      Relation.ReflTransGen Ledger.Step db.ledger d.ledger)
    (fun d m ms d' hd hm => by
      obtain ⟨hsound, hloaded, hreach⟩ := hd
      obtain ⟨hlogged, hevolves⟩ := hloaded m (by simp)
      refine ⟨hsound.update hlogged hevolves hm, fun n hn => ?_,
        hreach.trans (Ledger.Step.of_update hsound hlogged hevolves hm)⟩
      obtain ⟨hlogged', hevolves'⟩ := hloaded n (by simp [hn])
      exact ⟨hlogged'.flushUpdate hm, hevolves'⟩)
    ⟨h₁.1, fun m hm => ⟨h₁.2.1 _ (hcontext.managed m hm).1, (hcontext.managed m hm).2⟩, h₁.2.2.2⟩
    hmanaged
  exact h₂.2.2

end Refinement

/-- **The service refines the ledger.**  Whatever the interleaving, the stored statuses change only
by ledger steps. -/
theorem run_refines_ledger {s t : Sys} {trace : List Action} (hs : s.Sound)
    (hrun : run step s trace = some t) :
    Relation.ReflTransGen Ledger.Step s.db.ledger t.db.ledger := by
  refine run_simulates (I := Sys.Sound) (f := fun s => s.db.ledger)
    (fun _ _ _ h hstep => h.step hstep) (fun s a s' h hstep => ?_) hs hrun
  obtain ⟨tx, srv, db, events, hstepped⟩ := step_cases hstep
  show Relation.ReflTransGen Ledger.Step s.db.ledger s'.db.ledger
  rw [hstepped.db_eq]
  -- the guard and the setters of the call ran long ago; the ledger moves at the commit only
  rcases hstepped.moves.db_cases with rfl | ⟨t, now, response, rfl, -, hflush, -⟩
  · exact .refl
  · exact Ledger.Step.of_flush h.db (h.txs t).context hflush

/-! ## The sequence of committed statuses -/

/-- The statuses committed for a payment, oldest first. -/
def Database.committedStatuses (db : Database) (id : UUID) : List PaymentStatus :=
  (db.history Payment.id id).map (·.row.status)

/-- Statuses no payment leaves. -/
def PaymentStatus.Final (status : PaymentStatus) : Prop :=
  status = .COMPLETED ∨ status = .CANCELLED

/-- A payment that reached a final status keeps it, however many writes follow. -/
theorem status_of_final {a b : Payment} (h : Relation.ReflTransGen Evolves a b)
    (ha : a.status.Final) : b.status = a.status := by
  induction h with
  | refl => rfl
  | tail _ hstep ih =>
      have := hstep.accepted.of_final (by rw [ih]; exact ha)
      rw [this, ih]

theorem Database.Sound.committedStatuses_isChain {db : Database} (h : db.Sound) (id : UUID) :
    (db.committedStatuses id).IsChain Accepts := by
  rw [Database.committedStatuses, List.isChain_map]
  exact (h.consistent.chained id).imp fun _ _ hab => hab.2.2.accepted

theorem Database.Sound.stored_of_final {db : Database} (h : db.Sound) {id : UUID}
    {status : PaymentStatus} (hstatus : status ∈ db.committedStatuses id) (hfinal : status.Final) :
    ∃ p, findById id db.table = some p ∧ p.status = status := by
  obtain ⟨x, hx, rfl⟩ := List.mem_map.mp hstatus
  obtain ⟨hlog, hid⟩ := List.mem_filter.mp hx
  obtain ⟨p, hp, hkey, hreach⟩ := h.consistent.stored_of_log hlog
  obtain rfl : x.row.id = id := by simpa using hid
  refine ⟨p, ?_, status_of_final hreach hfinal⟩
  rw [← hkey]
  exact (mem_iff_find_key h.consistent.unique).mp hp

theorem committedStatuses_mono {db db' : Database} {new : List (Write TxId Payment)}
    (hlog : db'.log = db.log ++ new) (id : UUID) :
    ∃ later, db'.committedStatuses id = db.committedStatuses id ++ later := by
  simp only [Database.committedStatuses, Store.history, hlog, List.filter_append, List.map_append]
  exact ⟨_, rfl⟩

/-- What the log and every later state say about the status of payment `id`. -/
structure LegalHistory (s : Sys) (id : UUID) : Prop where
  /-- consecutive committed statuses are related by the guard -/
  path : (s.db.committedStatuses id).IsChain Accepts
  /-- the stored status is the last one committed -/
  current : (findById id s.db.table).map (·.status) = (s.db.committedStatuses id).getLast?
  /-- each write had read exactly the write before it -/
  unlost : (s.db.history Payment.id id).IsChain fun a b => b.read = some a.row
  /-- a final status stays, whatever runs later -/
  kept : ∀ status ∈ s.db.committedStatuses id, status.Final →
    ∀ (later : List Action) (s' : Sys), run step s later = some s' →
      ∃ p, findById id s'.db.table = some p ∧ p.status = status

/-- **Every interleaving leaves legal histories**: from any valid table, after any number of
interleaved calls on any number of servers. -/
theorem committed_statuses_legal {rows : List Payment} (hrows : ValidRows rows)
    {trace : List Action} {s : Sys} (hrun : run step (Sys.start rows) trace = some s) (id : UUID) :
    LegalHistory s id := by
  have hsound : s.Sound := (Sys.Sound.start hrows).run hrun
  refine ⟨hsound.db.committedStatuses_isChain id, ?_,
    (hsound.db.consistent.chained id).imp fun _ _ hab => hab.1, ?_⟩
  · rw [findById, hsound.db.consistent.current id, Database.committedStatuses,
      List.getLast?_map, Option.map_map]
    rfl
  · intro status hstatus hfinal later s' hlater
    obtain ⟨new, hlog⟩ := log_prefix hlater
    obtain ⟨more, hmore⟩ := committedStatuses_mono hlog id
    apply (hsound.run hlater).db.stored_of_final _ hfinal
    rw [hmore]
    exact List.mem_append_left _ hstatus

/-- Two updates race over one payment: both pass the guard on the PENDING row, the first to commit
completes it, and the version check refuses the second. -/
theorem committed_statuses_legal_race :
    ∃ s, run step (Sys.start [])
        [.createPayment 0 0 (sampleRequest none), .persistAndPublish 0 (sampleSurroundings 7) true,
          .commit 0 1,
          .updateStatus 1 0 7 ⟨.COMPLETED, none, none⟩, .updateStatus 2 1 7 ⟨.FAILED, none, none⟩,
          .applyAndPublish 2 2 true, .applyAndPublish 1 2 true, .commit 1 3, .commit 2 3] = some s ∧
      s.db.committedStatuses 7 = [.PENDING, .COMPLETED] ∧ LegalHistory s 7 := by
  obtain ⟨s, hrun, hstatuses⟩ := Option.map_eq_some_iff.mp
    (show (run step (Sys.start [])
        [.createPayment 0 0 (sampleRequest none), .persistAndPublish 0 (sampleSurroundings 7) true,
          .commit 0 1,
          .updateStatus 1 0 7 ⟨.COMPLETED, none, none⟩, .updateStatus 2 1 7 ⟨.FAILED, none, none⟩,
          .applyAndPublish 2 2 true, .applyAndPublish 1 2 true, .commit 1 3, .commit 2 3]).map
        (·.db.committedStatuses 7) = some [.PENDING, .COMPLETED] by decide)
  exact ⟨s, hrun, hstatuses, committed_statuses_legal .empty hrun 7⟩

end GlobalPayments.Payments

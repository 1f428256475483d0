/-
# GlobalPayments.Payments.Database — the `payments` table and the flush of a transaction.

Writes are deferred: a method leaves new entities and changed ones in the persistence context, and
the commit flushes them — INSERTs against the primary key, the unique constraints and the checks,
UPDATEs of changed entities against the version that was read, all or nothing.

A flush keeps `Database.Sound`, the invariant of the table under the two mechanisms the schema has:
the version check (`Versioned.Consistent`) and the unique constraints (`Distinct`).
-/
import GlobalPayments.Library.Runs
import GlobalPayments.Library.Versioned
import GlobalPayments.Payments.Service

namespace GlobalPayments.Payments

/-! ## The database and the flush -/

abbrev TxId := Nat

/-- The `payments` table and the log of the committed writes. -/
abbrev Database := Versioned.Store TxId Payment

/-- What a method leaves to be flushed: new entities, and loaded entities with their current
state. -/
structure PersistenceContext where
  inserted : List Payment := []
  managed : List (Payment × Payment) := []
  deriving DecidableEq, Repr

/-- The unique constraints beside the primary key: `uq_payment_reference`, and `uq_idempotency_key`
between non-null keys. -/
def Payment.collides (p r : Payment) : Bool :=
  r.paymentReference = p.paymentReference ||
    (p.idempotencyKey.isSome && r.idempotencyKey = p.idempotencyKey)

/-- One INSERT of the flush. -/
def flushInsert (t : TxId) (db : Database) (p : Payment) : Except ServiceException Database :=
  if p.tableConstraints = false || db.table.any p.collides then .error .dataIntegrityViolation
  else
    match db.insert Payment.id t p with
    | none => .error .dataIntegrityViolation
    | some db' => .ok db'

/-- The row an UPDATE writes: `@Version` and the update timestamp on top of the entity's state. -/
def nextRow (loaded current : Payment) (now : Instant) : Payment :=
  { current with version := loaded.version + 1, updatedAt := now }

/-- One loaded entity at the flush: an unchanged one issues no statement, a changed one the UPDATE
guarded by the version read. -/
def flushUpdate (t : TxId) (now : Instant) (db : Database) (m : Payment × Payment) :
    Except ServiceException Database :=
  if m.2 = m.1 then .ok db
  else
    match db.update Payment.id Payment.version t m.1 (nextRow m.1 m.2 now) with
    | none => .error .optimisticLockingFailure
    | some db' =>
        if (nextRow m.1 m.2 now).tableConstraints then .ok db' else .error .dataIntegrityViolation

/-- The flush and commit of a transaction: everything or nothing. -/
def flush (t : TxId) (now : Instant) (context : PersistenceContext) (db : Database) :
    Except ServiceException Database :=
  match context.inserted.foldlM (flushInsert t) db with
  | .error e => .error e
  | .ok db' => context.managed.foldlM (flushUpdate t now) db'

/-- The writes a flush adds to the log: one per new entity and one per changed entity. -/
def PersistenceContext.writes (t : TxId) (now : Instant) (context : PersistenceContext) :
    List (Versioned.Write TxId Payment) :=
  context.inserted.map (fun p => ⟨some t, none, p⟩) ++
    (context.managed.filter fun m => m.2 ≠ m.1).map fun m => ⟨some t, some m.1, nextRow m.1 m.2 now⟩

/-! ## What one statement of the flush does -/

section Statements

variable {t : TxId} {now : Instant} {db db' : Database}

theorem flushInsert_ok {p : Payment} (h : flushInsert t db p = .ok db') :
    p.tableConstraints = true ∧ (∀ r ∈ db.table, p.collides r = false) ∧
      db.insert Payment.id t p = some db' := by
  unfold flushInsert at h
  split at h
  · cases h
  · rename_i hchecks
    simp only [Bool.or_eq_true, decide_eq_true_eq, not_or, Bool.not_eq_false,
      List.any_eq_true, not_exists, not_and, Bool.not_eq_true] at hchecks
    split at h
    · cases h
    · rename_i db₁ hinsert
      obtain rfl : db₁ = db' := by simpa using h
      exact ⟨hchecks.1, hchecks.2, hinsert⟩

theorem flushUpdate_ok {m : Payment × Payment} (h : flushUpdate t now db m = .ok db') :
    (m.2 = m.1 ∧ db' = db) ∨
      (m.2 ≠ m.1 ∧
        db.update Payment.id Payment.version t m.1 (nextRow m.1 m.2 now) = some db') := by
  unfold flushUpdate at h
  split at h
  · rename_i hsame
    exact Or.inl ⟨hsame, by simpa using h.symm⟩
  · rename_i hchanged
    split at h
    · cases h
    · rename_i db₁ hupdate
      split at h
      · obtain rfl : db₁ = db' := by simpa using h
        exact Or.inr ⟨hchanged, hupdate⟩
      · cases h

theorem flush_ok {context : PersistenceContext} (h : flush t now context db = .ok db') :
    ∃ db₁, context.inserted.foldlM (flushInsert t) db = .ok db₁ ∧
      context.managed.foldlM (flushUpdate t now) db₁ = .ok db' := by
  unfold flush at h
  split at h
  · cases h
  · exact ⟨_, ‹_›, h⟩

end Statements

/-! ## The log of a flush -/

/-- **A flush logs its context.** -/
theorem flush_log {t : TxId} {now : Instant} {context : PersistenceContext} {db db' : Database}
    (h : flush t now context db = .ok db') : db'.log = db.log ++ context.writes t now := by
  obtain ⟨db₁, hinserted, hmanaged⟩ := flush_ok h
  have hlog₁ := Runs.foldlM_invariant
    (I := fun d ps => d.log ++ ps.map (fun p => ⟨some t, none, p⟩) =
      db.log ++ context.inserted.map fun p => ⟨some t, none, p⟩)
    (fun d p ps d' hd hp => by
      obtain ⟨-, -, hinsert⟩ := flushInsert_ok hp
      obtain ⟨-, rfl⟩ := Versioned.Store.insert_cases hinsert
      simpa using hd) rfl hinserted
  have hlog := Runs.foldlM_invariant
    (I := fun d ms => d.log ++ (ms.filter fun m => m.2 ≠ m.1).map
        (fun m => ⟨some t, some m.1, nextRow m.1 m.2 now⟩) =
      db₁.log ++ (context.managed.filter fun m => m.2 ≠ m.1).map
        fun m => ⟨some t, some m.1, nextRow m.1 m.2 now⟩)
    (fun d m ms d' hd hm => by
      rcases flushUpdate_ok hm with ⟨hsame, rfl⟩ | ⟨hchanged, hupdate⟩
      · simpa [hsame] using hd
      · obtain ⟨-, rfl⟩ := Versioned.Store.update_cases hupdate
        simpa [hchanged] using hd) rfl hmanaged
  simp only [List.map_nil, List.append_nil, List.filter_nil] at hlog₁ hlog
  rw [hlog, hlog₁, PersistenceContext.writes, List.append_assoc]

/-! ## The invariant of the table -/

/-- No two rows agree on a unique column. -/
def Distinct (table : List Payment) : Prop := table.Pairwise fun a b => a.collides b = false

/-- **The table invariant.**  Per payment the committed writes are a chain along `Evolves` in which
each had read the one before, and no two rows share a reference or a key. -/
structure Database.Sound (db : Database) : Prop where
  consistent : Versioned.Consistent Payment.id Payment.version Evolves db
  distinct : Distinct db.table

/-- `p` was committed at some time. -/
def Database.Logged (db : Database) (p : Payment) : Prop := ∃ x ∈ db.log, x.row = p

/-- What the service leaves in a context: new entities are PENDING; every loaded entity was committed,
and was changed by its setters along `Evolves`. -/
structure PersistenceContext.Sound (db : Database) (context : PersistenceContext) : Prop where
  inserted : ∀ p ∈ context.inserted, p.status = .PENDING
  managed : ∀ m ∈ context.managed, db.Logged m.1 ∧ Evolves m.1 m.2

theorem Evolves.nextRow {loaded current : Payment} (h : Evolves loaded current) (now : Instant) :
    Evolves loaded (nextRow loaded current now) :=
  ⟨⟨h.terms.id, h.terms.paymentReference, h.terms.senderAccountId, h.terms.receiverAccountId,
    h.terms.receiverBankCode, h.terms.amountMinorUnits, h.terms.currency, h.terms.paymentType,
    h.terms.description, h.terms.idempotencyKey, h.terms.createdAt, h.terms.createdBy⟩, h.accepted⟩

theorem Database.Logged.mono {db db' : Database} {p : Payment}
    {new : List (Versioned.Write TxId Payment)} (h : db.Logged p) (hlog : db'.log = db.log ++ new) :
    db'.Logged p := by
  obtain ⟨x, hx, hp⟩ := h
  exact ⟨x, by rw [hlog]; exact List.mem_append_left _ hx, hp⟩

theorem Database.Logged.flushUpdate {t : TxId} {now : Instant} {db db' : Database}
    {m : Payment × Payment} {p : Payment} (h : db.Logged p) (hm : flushUpdate t now db m = .ok db') :
    db'.Logged p := by
  rcases flushUpdate_ok hm with ⟨-, rfl⟩ | ⟨-, hupdate⟩
  · exact h
  · obtain ⟨-, rfl⟩ := Versioned.Store.update_cases hupdate
    exact h.mono rfl

theorem Database.Logged.flushInsert {t : TxId} {db db' : Database} {p q : Payment}
    (h : db.Logged p) (hq : flushInsert t db q = .ok db') : db'.Logged p := by
  obtain ⟨-, rfl⟩ := Versioned.Store.insert_cases (flushInsert_ok hq).2.2
  exact h.mono rfl

theorem Payment.collides_eq_false {p r : Payment} :
    p.collides r = false ↔ r.paymentReference ≠ p.paymentReference ∧
      (p.idempotencyKey.isSome = true → r.idempotencyKey ≠ p.idempotencyKey) := by
  simp [Payment.collides]

theorem Payment.collides_comm {p r : Payment} : p.collides r = false ↔ r.collides p = false := by
  rw [collides_eq_false, collides_eq_false, ne_comm]
  refine and_congr_right fun _ => ⟨fun h hr heq => ?_, fun h hp heq => ?_⟩
  · exact h (heq ▸ hr) heq.symm
  · exact h (heq ▸ hp) heq.symm

instance : Std.Symm fun p r : Payment => p.collides r = false :=
  ⟨fun _ _ => Payment.collides_comm.mp⟩

/-- Terms decide about collisions. -/
theorem SameTerms.collides {a a' b b' : Payment} (ha : SameTerms a a') (hb : SameTerms b b') :
    a'.collides b' = a.collides b := by
  simp only [Payment.collides, ha.paymentReference, ha.idempotencyKey, hb.paymentReference,
    hb.idempotencyKey]

theorem Database.Sound.insert {t : TxId} {db db' : Database} {p : Payment} (h : db.Sound)
    (hp : flushInsert t db p = .ok db') : db'.Sound := by
  obtain ⟨-, hfree, hinsert⟩ := flushInsert_ok hp
  refine ⟨h.consistent.insert hinsert, ?_⟩
  obtain ⟨-, rfl⟩ := Versioned.Store.insert_cases hinsert
  show (db.table ++ [p]).Pairwise _
  refine List.pairwise_append.mpr ⟨h.distinct, List.pairwise_singleton _ _, ?_⟩
  intro a ha b hb
  obtain rfl := List.mem_singleton.mp hb
  exact Payment.collides_comm.mp (hfree a ha)

theorem Database.Sound.update {t : TxId} {now : Instant} {db db' : Database} {m : Payment × Payment}
    (h : db.Sound) (hlogged : db.Logged m.1) (hm : Evolves m.1 m.2)
    (hstmt : flushUpdate t now db m = .ok db') : db'.Sound := by
  rcases flushUpdate_ok hstmt with ⟨-, rfl⟩ | ⟨-, hupdate⟩
  · exact h
  · have hnext := hm.nextRow now
    refine ⟨h.consistent.update hlogged hnext.terms.id rfl hnext hupdate, ?_⟩
    obtain ⟨⟨r, hr, hid, hv⟩, rfl⟩ := Versioned.Store.update_cases hupdate
    obtain ⟨x, hx, hxm⟩ := hlogged
    -- the row that is replaced is the one the writer had read
    have hread : r = m.1 := by
      rw [← hxm] at hid hv ⊢
      exact h.consistent.loaded_current hx hr hid hv
    -- the new row has the terms of the old one, and terms decide about collisions
    have hterms : ∀ a ∈ db.table,
        SameTerms a (if a.id = (nextRow m.1 m.2 now).id then nextRow m.1 m.2 now else a) := by
      intro a ha
      split
      · rename_i hkey
        have ham : a = m.1 := by
          rw [hnext.terms.id] at hkey
          exact (h.consistent.eq_of_key ha hr (hkey.trans hid.symm)).trans hread
        rw [ham]
        exact hnext.terms
      · exact .refl a
    show (Versioned.replaceRow Payment.id _ db.table).Pairwise _
    rw [Versioned.replaceRow, List.pairwise_map]
    exact h.distinct.imp_of_mem fun ha hb hab => by
      rw [(hterms _ ha).collides (hterms _ hb)]
      exact hab

/-- **A flush keeps the table invariant.** -/
theorem Database.Sound.flush {t : TxId} {now : Instant} {context : PersistenceContext}
    {db db' : Database} (h : db.Sound) (hcontext : context.Sound db)
    (hflush : flush t now context db = .ok db') : db'.Sound := by
  obtain ⟨db₁, hinserted, hmanaged⟩ := flush_ok hflush
  have h₁ := Runs.foldlM_invariant
    (I := fun d _ => d.Sound ∧ ∀ p, db.Logged p → d.Logged p)
    (fun d p _ d' hd hp => ⟨hd.1.insert hp, fun q hq => (hd.2 q hq).flushInsert hp⟩)
    ⟨h, fun _ hq => hq⟩ hinserted
  have hloop := Runs.foldlM_invariant
    (I := fun d ms => d.Sound ∧ ∀ m ∈ ms, d.Logged m.1 ∧ Evolves m.1 m.2)
    (fun d m ms d' hd hm => by
      obtain ⟨hlogged, hevolves⟩ := hd.2 m (by simp)
      refine ⟨hd.1.update hlogged hevolves hm, fun n hn => ?_⟩
      obtain ⟨hlogged', hevolves'⟩ := hd.2 n (List.mem_cons_of_mem m hn)
      exact ⟨hlogged'.flushUpdate hm, hevolves'⟩)
    ⟨h₁.1, fun m hm => ⟨h₁.2 _ (hcontext.managed m hm).1, (hcontext.managed m hm).2⟩⟩ hmanaged
  exact hloop.1

/-! ## When a flush goes through -/

/-- The checks of the schema and of `@Version`, on the table as it is before the flush. -/
structure PersistenceContext.Admitted (now : Instant) (db : Database)
    (context : PersistenceContext) : Prop where
  inserted : ∀ p ∈ context.inserted, p.tableConstraints = true ∧
    ∀ r ∈ db.table, r.id ≠ p.id ∧ p.collides r = false
  managed : ∀ m ∈ context.managed, m.2 ≠ m.1 →
    (∃ r ∈ db.table, r.id = m.1.id ∧ r.version = m.1.version) ∧
      (nextRow m.1 m.2 now).tableConstraints = true

instance (now : Instant) (db : Database) (context : PersistenceContext) :
    Decidable (context.Admitted now db) :=
  decidable_of_iff
    ((∀ p ∈ context.inserted, p.tableConstraints = true ∧
        ∀ r ∈ db.table, r.id ≠ p.id ∧ p.collides r = false) ∧
      ∀ m ∈ context.managed, m.2 ≠ m.1 →
        (∃ r ∈ db.table, r.id = m.1.id ∧ r.version = m.1.version) ∧
          (nextRow m.1 m.2 now).tableConstraints = true)
    ⟨fun h => ⟨h.1, h.2⟩, fun h => ⟨h.inserted, h.managed⟩⟩

/-- The service saves at most one new payment in a transaction, and loads no payment twice. -/
structure PersistenceContext.Simple (context : PersistenceContext) : Prop where
  inserted : context.inserted.length ≤ 1
  managed : (context.managed.map fun m => m.1.id).Nodup
  terms : ∀ m ∈ context.managed, m.2.id = m.1.id

theorem flushInsert_succeeds {t : TxId} {db : Database} {p : Payment}
    (hconstraints : p.tableConstraints = true)
    (hfree : ∀ r ∈ db.table, r.id ≠ p.id ∧ p.collides r = false) :
    ∃ db', flushInsert t db p = .ok db' ∧ db'.table = db.table ++ [p] := by
  have hany : db.table.any p.collides = false := by
    simpa [List.any_eq_false] using fun r hr => (hfree r hr).2
  have hid : (db.table.any fun r => r.id = p.id) = false := by
    simpa [List.any_eq_false] using fun r hr => (hfree r hr).1
  refine ⟨⟨db.table ++ [p], db.log ++ [⟨some t, none, p⟩]⟩, ?_, rfl⟩
  simp only [flushInsert, hconstraints, hany, Versioned.Store.insert, hid]
  rfl

theorem flushUpdate_succeeds {t : TxId} {now : Instant} {db : Database} {m : Payment × Payment}
    (h : m.2 ≠ m.1 → (∃ r ∈ db.table, r.id = m.1.id ∧ r.version = m.1.version) ∧
      (nextRow m.1 m.2 now).tableConstraints = true) :
    ∃ db', flushUpdate t now db m = .ok db' ∧
      (db'.table = db.table ∨
        db'.table = Versioned.replaceRow Payment.id (nextRow m.1 m.2 now) db.table) := by
  by_cases hsame : m.2 = m.1
  · exact ⟨db, if_pos hsame, Or.inl rfl⟩
  · obtain ⟨⟨r, hr, hid, hv⟩, hconstraints⟩ := h hsame
    have hany : (db.table.any fun r => r.id = m.1.id && r.version = m.1.version) = true :=
      List.any_eq_true.mpr ⟨r, hr, by simp [hid, hv]⟩
    refine ⟨⟨Versioned.replaceRow Payment.id (nextRow m.1 m.2 now) db.table,
      db.log ++ [⟨some t, some m.1, nextRow m.1 m.2 now⟩]⟩, ?_, Or.inr rfl⟩
    simp only [flushUpdate, if_neg hsame, Versioned.Store.update, hany, if_true, hconstraints]

/-- The updates of a flush go through: the entities still to be flushed have ids of their own, so
their rows are as they were. -/
theorem flushUpdates_succeed {t : TxId} {now : Instant} {db : Database}
    {managed : List (Payment × Payment)} (hids : (managed.map fun m => m.1.id).Nodup)
    (hterms : ∀ m ∈ managed, m.2.id = m.1.id)
    (hrows : ∀ m ∈ managed, m.2 ≠ m.1 →
      (∃ r ∈ db.table, r.id = m.1.id ∧ r.version = m.1.version) ∧
        (nextRow m.1 m.2 now).tableConstraints = true) :
    ∃ db', managed.foldlM (flushUpdate t now) db = .ok db' := by
  induction managed generalizing db with
  | nil => exact ⟨db, rfl⟩
  | cons m ms ih =>
      obtain ⟨db₁, hm, htable⟩ := flushUpdate_succeeds (t := t) (hrows m (by simp))
      simp only [List.map_cons, List.nodup_cons, List.mem_map, not_exists, not_and] at hids
      have hrest : ∃ db', ms.foldlM (flushUpdate t now) db₁ = .ok db' := by
        refine ih hids.2 (fun n hn => hterms n (by simp [hn])) fun n hn hchanged => ?_
        obtain ⟨⟨r, hr, hid, hv⟩, hconstraints⟩ := hrows n (by simp [hn]) hchanged
        refine ⟨⟨r, ?_, hid, hv⟩, hconstraints⟩
        rcases htable with htable | htable
        · rw [htable]
          exact hr
        · rw [htable, Versioned.replaceRow]
          refine List.mem_map.mpr ⟨r, hr, if_neg ?_⟩
          rw [hid]
          show n.1.id ≠ m.2.id
          rw [hterms m (by simp)]
          exact hids.1 n hn
      obtain ⟨db', hms⟩ := hrest
      exact ⟨db', Runs.foldlM_cons_eq_ok.mpr ⟨db₁, hm, hms⟩⟩

/-- **An admitted flush goes through.** -/
theorem flush_succeeds {t : TxId} {now : Instant} {context : PersistenceContext} {db : Database}
    (h : context.Admitted now db) (hsimple : context.Simple) :
    ∃ db', flush t now context db = .ok db' := by
  have hinsert : ∃ db₁, context.inserted.foldlM (flushInsert t) db = .ok db₁ ∧
      ∀ r ∈ db.table, r ∈ db₁.table := by
    rcases hcase : context.inserted with _ | ⟨p, _ | ⟨q, rest⟩⟩
    · exact ⟨db, rfl, fun _ hr => hr⟩
    · obtain ⟨hconstraints, hfree⟩ := h.inserted p (by simp [hcase])
      obtain ⟨db₁, hp, htable⟩ := flushInsert_succeeds (t := t) hconstraints hfree
      refine ⟨db₁, Runs.foldlM_cons_eq_ok.mpr ⟨db₁, hp, rfl⟩, fun r hr => ?_⟩
      rw [htable]
      exact List.mem_append_left _ hr
    · have hlen := hsimple.inserted
      rw [hcase] at hlen
      simp at hlen
  obtain ⟨db₁, hdb₁, hkept⟩ := hinsert
  simp only [flush, hdb₁]
  refine flushUpdates_succeed hsimple.managed hsimple.terms fun m hm hchanged => ?_
  obtain ⟨⟨r, hr, hrow⟩, hconstraints⟩ := h.managed m hm hchanged
  exact ⟨⟨r, hkept r hr, hrow⟩, hconstraints⟩

end GlobalPayments.Payments

/-
# GlobalPayments.Payments.Ordering — the messages about one payment, in the order of its commits.

A message is sent before its transaction commits, on a topic that keeps the order of one key, the
payment's reference.  Transactions overlap, so messages of different calls about one payment can come
in any order — but not those of calls that go on to commit a change of it: the version check lets the
later one through only when it has loaded what the earlier one committed, and it publishes after it
loads.  So the topic tells the committed changes of every payment in their order (`messages_in_order`),
and all of them when the broker has taken every message.

The invariant behind it (`Sys.InOrder.latest`): as long as what a transaction has loaded is still
current, nobody who has committed a change of that payment has a message after its own.
-/
import GlobalPayments.Payments.Serial

namespace GlobalPayments.Payments

open Runs Versioned

/-! ## Messages and their writers -/

/-- What a message tells: which payment, and which status. -/
def Sent.says (m : Sent) : UUID × PaymentStatus := (m.event.paymentId, m.event.status)

/-- What a context has to tell, in the order in which it was put there. -/
def PersistenceContext.announced (context : PersistenceContext) : List (UUID × PaymentStatus) :=
  context.inserted.map (fun p => (p.id, p.status)) ++
    context.managed.map fun m => (m.2.id, m.2.status)

/-- Transaction `t` has committed a change of payment `id`. -/
def Database.wroteTo (db : Database) (id : UUID) (t : TxId) : Bool :=
  db.log.any fun x => x.writer = some t && x.row.id = id

/-- The messages of a transaction. -/
def Sys.messagesOf (s : Sys) (t : TxId) : List Sent := s.topic.filter fun m => m.sender = t

/-- The messages about payment `id` whose senders have committed a change of it. -/
def Sys.committedMessages (s : Sys) (id : UUID) : List Sent :=
  s.topic.filter fun m => m.event.paymentId = id && s.db.wroteTo id m.sender

/-- The broker takes what the step publishes. -/
def Action.delivers : Action → Bool
  | .persistAndPublish _ _ delivered => delivered
  | .applyAndPublish _ _ delivered => delivered
  | .requeueAndPublish _ _ delivered => delivered
  | _ => true

theorem Database.wroteTo_iff {db : Database} {id : UUID} {t : TxId} :
    db.wroteTo id t = true ↔ ∃ x ∈ db.log, x.writer = some t ∧ x.row.id = id := by
  simp [Database.wroteTo]

theorem Database.wroteTo_append {db db' : Database} {new : List (Write TxId Payment)}
    (hlog : db'.log = db.log ++ new) (id : UUID) (t : TxId) :
    db'.wroteTo id t = (db.wroteTo id t || new.any fun x => x.writer = some t && x.row.id = id) := by
  simp [Database.wroteTo, hlog, List.any_append]

/-- Two kinds of elements of a list, none of the first behind one of the second. -/
theorem filter_or_of_ordered {α : Type} {a b : α → Bool} {l : List α}
    (hordered : l.Pairwise fun x y => b x = true → a y = false)
    (hdisjoint : ∀ x ∈ l, b x = true → a x = false) :
    l.filter (fun x => a x || b x) = l.filter a ++ l.filter b := by
  induction l with
  | nil => rfl
  | cons x l ih =>
      obtain ⟨hfirst, hrest⟩ := List.pairwise_cons.mp hordered
      have ih := ih hrest fun y hy => hdisjoint y (List.mem_cons_of_mem x hy)
      cases hb : b x with
      | false => cases ha : a x <;> simp [ha, hb, ih]
      | true =>
          have hnone : l.filter a = [] :=
            List.filter_eq_nil_iff.mpr fun y hy => by simp [hfirst y hy hb]
          have ha := hdisjoint x List.mem_cons_self hb
          rw [hnone, List.nil_append] at ih
          simp [ha, hb, ih, hnone]

/-! ## What a step adds -/

section Moves

variable {db db' : Database} {a : Action} {tx tx' : Tx} {srv srv' : Server}
variable {events : List PaymentEvent}

/-- A move leaves context and topic alone, publishes one message about one more entity, or commits. -/
inductive Tells (db : Database) (a : Action) (tx tx' : Tx) : Database → List PaymentEvent → Prop
  | nothing : tx'.context = tx.context → Tells db a tx tx' db []
  | publishes (event : PaymentEvent) : (∀ outcome, tx'.phase ≠ .ended outcome) →
      tx'.context.announced = tx.context.announced ++ [(event.paymentId, event.status)] →
      (∀ m ∈ tx'.context.managed, m ∈ tx.context.managed ∨ m.1.id = event.paymentId) →
      Tells db a tx tx' db (published a.delivers event)
  | commits {t : TxId} {now : Instant} {response : Option PaymentResponse} {db' : Database} :
      a = .commit t now → ReadyToCommit tx.phase response →
      flush t now tx.context db = .ok db' → tx' = tx.finish (.returned response) →
      Tells db a tx tx' db' []

theorem Tx.Shaped.context_of_idle (h : tx.Shaped) (hidle : tx.phase = .idle) : tx.context = {} := by
  cases h with
  | idle => rfl
  | _ => cases hidle

theorem Moves.tells (hshaped : tx.Shaped) (h : Moves db a tx srv tx' srv' db' events) :
    Tells db a tx tx' db' events := by
  cases h with
  | replayed hidle => exact .nothing (hshaped.context_of_idle hidle).symm
  | missed hidle => exact .nothing (hshaped.context_of_idle hidle).symm
  | updateRefused hidle => exact .nothing (hshaped.context_of_idle hidle).symm
  | updateLoaded hidle => exact .nothing (hshaped.context_of_idle hidle).symm
  | retrySelected hidle => exact .nothing (hshaped.context_of_idle hidle).symm
  | conversionRaised => exact .nothing rfl
  | refused => exact .nothing rfl
  | aborted => exact .nothing rfl
  | committed hready hflush => exact .commits rfl hready hflush rfl
  | @persisted _ env _ _ _ _ payment _ hphase =>
      refine .publishes (paymentEvent .PAYMENT_CREATED payment env.now) (fun _ => nofun) ?_ fun _ => nofun
      rw [hshaped.context_empty (Or.inl ⟨_, hphase⟩)]
      rfl
  | @statusApplied _ now _ _ _ payment request hphase =>
      refine .publishes (paymentEvent .PAYMENT_STATUS_CHANGED (applyStatus request payment) now)
        (fun _ => nofun) ?_ fun m hm => Or.inr ?_
      · rw [hshaped.context_empty (Or.inr ⟨_, _, hphase⟩)]
        rfl
      · obtain rfl := List.mem_singleton.mp hm
        rfl
  | @requeued _ now _ _ _ payment todo hphase =>
      refine .publishes (paymentEvent .PAYMENT_RETRY (requeuePayment payment) now) (fun _ => nofun) ?_
        fun m hm => ?_
      · simp [PersistenceContext.announced, Tx.requeued, paymentEvent, List.append_assoc]
      · refine (List.mem_append.mp hm).imp id fun hm => ?_
        obtain rfl := List.mem_singleton.mp hm
        rfl

/-- A transaction at work has at most one thing to tell of each payment. -/
theorem Tx.Shaped.announced_nodup (h : tx.Shaped) (hopen : ∀ outcome, tx.phase ≠ .ended outcome) :
    (tx.context.announced.map Prod.fst).Nodup := by
  cases h with
  | idle => exact List.nodup_nil
  | persisting => exact List.nodup_nil
  | inserted => exact List.nodup_singleton _
  | updating => exact List.nodup_nil
  | updated => exact List.nodup_singleton _
  | @requeuing _ _ done todo hnodup =>
      rw [List.map_append] at hnodup
      have hdone := (List.nodup_append.mp hnodup).1
      simpa [PersistenceContext.announced, requeuePayment, Function.comp_def] using hdone
  | ended => exact absurd rfl (hopen _)

/-- What a flush writes, its context has told. -/
theorem writes_announced (t : TxId) (now : Instant) (context : PersistenceContext) :
    ((context.writes t now).map fun x => (x.row.id, x.row.status)).Sublist context.announced := by
  rw [PersistenceContext.writes, List.map_append, List.map_map, List.map_map]
  refine List.Sublist.append (List.Sublist.refl _) ?_
  exact List.Sublist.map (fun m : Payment × Payment => (m.2.id, m.2.status)) List.filter_sublist

theorem writer_of_writes {t : TxId} {now : Instant} {context : PersistenceContext}
    {x : Write TxId Payment} (hx : x ∈ context.writes t now) : x.writer = some t := by
  simp only [PersistenceContext.writes, List.mem_append, List.mem_map] at hx
  rcases hx with ⟨p, -, rfl⟩ | ⟨m, -, rfl⟩ <;> rfl

theorem ReadyToCommit.ne_ended {phase : Phase} {response : Option PaymentResponse}
    (h : ReadyToCommit phase response) (outcome : Outcome) : phase ≠ .ended outcome := by
  cases h <;> nofun

/-- A commit writes at most one row to a payment. -/
theorem Tx.Shaped.writes_filter (h : tx.Shaped) {response : Option PaymentResponse}
    (hready : ReadyToCommit tx.phase response) {t : TxId} {now : Instant}
    {x : Write TxId Payment} (hx : x ∈ tx.context.writes t now) :
    (tx.context.writes t now).filter (fun y => y.row.id = x.row.id) = [x] := by
  have hnodup : ((tx.context.writes t now).map fun y => y.row.id).Nodup := by
    have hsub := (writes_announced t now tx.context).map Prod.fst
    rw [List.map_map] at hsub
    exact (h.announced_nodup hready.ne_ended).sublist hsub
  rw [filter_key_of_nodup hnodup, (mem_iff_find_key hnodup).mp hx]
  rfl

/-- **A commit replaces rows it had loaded, or inserts one.** -/
theorem Tx.Shaped.write_cases (h : tx.Shaped) {response : Option PaymentResponse}
    (hready : ReadyToCommit tx.phase response) {t : TxId} {now : Instant}
    {x : Write TxId Payment} (hx : x ∈ tx.context.writes t now) :
    (∃ p, tx.context = { inserted := [p] } ∧ x.row = p) ∨
      ∃ m ∈ tx.context.managed, m.1.id = x.row.id ∧ m.2 ≠ m.1 ∧ tx.context.inserted = [] := by
  have hsimple := h.simple hready
  simp only [PersistenceContext.writes, List.mem_append, List.mem_map, List.mem_filter,
    decide_eq_true_eq] at hx
  rcases hx with ⟨p, hp, rfl⟩ | ⟨m, ⟨hm, hchanged⟩, rfl⟩
  · refine Or.inl ⟨p, ?_, rfl⟩
    cases h with
    | inserted =>
        obtain rfl := List.mem_singleton.mp hp
        rfl
    | ended => cases hready
    | _ => cases hp
  · refine Or.inr ⟨m, hm, (hsimple.terms m hm).symm, hchanged, ?_⟩
    cases h with
    | inserted => cases hm
    | ended => cases hready
    | _ => rfl

end Moves

/-! ## The invariant -/

/-- Behind a message of `t` about payment `id` there is none of a call that has committed a change of
that payment. -/
def Sys.LastWord (s : Sys) (t : TxId) (id : UUID) : Prop :=
  s.topic.Pairwise fun m m' => m.sender = t → m.event.paymentId = id → m'.event.paymentId = id →
    s.db.wroteTo id m'.sender = false

/-- A committed write, as its message should tell it. -/
def told (x : Write TxId Payment) : Option TxId × PaymentStatus := (x.writer, x.row.status)

/-- A message, as the write it is about. -/
def Sent.tells (m : Sent) : Option TxId × PaymentStatus := (some m.sender, m.event.status)

/-- The writes of payment `id` that calls have committed; the rows the table starts with are not
among them. -/
def Database.callWrites (db : Database) (id : UUID) : List (Write TxId Payment) :=
  (db.history Payment.id id).filter fun x => x.writer.isSome

/-- The invariant; `D` says that the broker takes every message. -/
structure Sys.InOrder (D : Prop) (s : Sys) : Prop where
  sound : s.Sound
  /-- only calls that have ended have committed something -/
  ended : ∀ x ∈ s.db.log, ∀ t, x.writer = some t → ∃ outcome, (s.txs t).phase = .ended outcome
  announces : ∀ t, ((s.messagesOf t).map Sent.says).Sublist (s.txs t).context.announced ∧
    (D → (s.messagesOf t).map Sent.says = (s.txs t).context.announced)
  latest : ∀ t, (∀ outcome, (s.txs t).phase ≠ .ended outcome) →
    ∀ m ∈ (s.txs t).context.managed, m.1 ∈ s.db.table → s.LastWord t m.1.id
  order : ∀ id, ((s.committedMessages id).map Sent.tells).Sublist ((s.db.callWrites id).map told) ∧
    (D → (s.committedMessages id).map Sent.tells = (s.db.callWrites id).map told)

theorem Sys.InOrder.start {rows : List Payment} (D : Prop) (h : ValidRows rows) :
    (Sys.start rows).InOrder D where
  sound := .start h
  ended x hx t hwriter := by
    obtain ⟨r, -, rfl⟩ := List.mem_map.mp hx
    cases hwriter
  announces t := ⟨List.Sublist.refl [], fun _ => rfl⟩
  latest t _ m hm := by cases hm
  order id := by
    have hnone : Database.callWrites (Versioned.Store.start rows) id = [] := by
      refine List.filter_eq_nil_iff.mpr fun x hx => ?_
      obtain ⟨r, -, rfl⟩ := List.mem_map.mp (List.mem_filter.mp hx).1
      exact Bool.false_ne_true
    have hmap : ((Sys.start rows).db.callWrites id).map told = [] := by
      rw [show (Sys.start rows).db = Versioned.Store.start rows from rfl, hnone]
      rfl
    rw [hmap]
    exact ⟨List.Sublist.refl [], fun _ => rfl⟩

/-! ## Every step keeps it -/

section Steps

variable {D : Prop} {s s' : Sys} {a : Action} {tx : Tx} {srv : Server} {db : Database}
variable {events : List PaymentEvent} {t : TxId} {id : UUID}

theorem Stepped.messagesOf_self (h : Stepped s a s' tx srv db events) :
    s'.messagesOf a.tx = s.messagesOf a.tx ++ events.map (Sent.mk a.tx) := by
  rw [Sys.messagesOf, h.topic_eq, List.filter_append]
  congr 1
  refine List.filter_eq_self.mpr fun m hm => ?_
  obtain ⟨event, -, rfl⟩ := List.mem_map.mp hm
  exact decide_eq_true rfl

theorem Stepped.messagesOf_other (h : Stepped s a s' tx srv db events) (ht : t ≠ a.tx) :
    s'.messagesOf t = s.messagesOf t := by
  have hnone : (events.map (Sent.mk a.tx)).filter (fun m => m.sender = t) = [] := by
    refine List.filter_eq_nil_iff.mpr fun m hm => ?_
    obtain ⟨event, -, rfl⟩ := List.mem_map.mp hm
    simpa using ht.symm
  rw [Sys.messagesOf, h.topic_eq, List.filter_append, hnone, List.append_nil]
  rfl

/-- A call that is at work has committed nothing. -/
theorem Sys.InOrder.not_wrote (hs : s.InOrder D) (hopen : ∀ outcome, (s.txs t).phase ≠ .ended outcome)
    (id : UUID) : s.db.wroteTo id t = false := by
  rw [Bool.eq_false_iff]
  intro hwrote
  obtain ⟨x, hx, hwriter, -⟩ := Database.wroteTo_iff.mp hwrote
  obtain ⟨outcome, hended⟩ := hs.ended x hx t hwriter
  exact hopen outcome hended

/-- A message says one of the things its sender's context has to tell. -/
theorem Sys.InOrder.says_mem (hs : s.InOrder D) {m : Sent} (hm : m ∈ s.topic) :
    m.says ∈ (s.txs m.sender).context.announced := by
  refine (hs.announces m.sender).1.subset (List.mem_map_of_mem ?_)
  exact List.mem_filter.mpr ⟨hm, decide_eq_true rfl⟩

/-- Messages of one that has committed nothing of the payment do not spoil the last word. -/
theorem Sys.LastWord.append {u : TxId} (h : s.LastWord t id) (hdb : s'.db = s.db)
    (htopic : s'.topic = s.topic ++ events.map (Sent.mk u)) (hu : s.db.wroteTo id u = false) :
    s'.LastWord t id := by
  unfold Sys.LastWord
  rw [htopic, hdb]
  have hnew : ∀ m ∈ events.map (Sent.mk u), s.db.wroteTo id m.sender = false := by
    intro m hm
    obtain ⟨event, -, rfl⟩ := List.mem_map.mp hm
    exact hu
  refine List.pairwise_append.mpr ⟨h, ?_, fun m _ m' hm' _ _ _ => hnew m' hm'⟩
  exact List.pairwise_of_forall_mem_list fun m _ m' hm' _ _ _ => hnew m' hm'

/-- A payment of which `t` has told nothing. -/
theorem Sys.LastWord.of_silent (h : ∀ m ∈ s.topic, m.sender = t → m.event.paymentId ≠ id) :
    s.LastWord t id :=
  List.pairwise_of_forall_mem_list fun m hm _ _ hsender habout => absurd habout (h m hm hsender)

/-- A step that leaves topic and table alone. -/
theorem Sys.InOrder.nothing (hs : s.InOrder D) (hsound : s'.Sound)
    (h : Stepped s a s' tx srv s.db []) (hcontext : tx.context = (s.txs a.tx).context) :
    s'.InOrder D := by
  have htopic : s'.topic = s.topic := by rw [h.topic_eq, List.map_nil, List.append_nil]
  have hopen := h.moves.not_ended
  have hkept : ∀ t, (s'.txs t).context = (s.txs t).context := by
    intro t
    by_cases ht : t = a.tx
    · subst ht
      rw [h.tx_self, hcontext]
    · rw [h.tx_other ht]
  refine ⟨hsound, fun x hx t hwriter => ?_, fun t => ?_, fun t hphase m hm hcurrent => ?_, fun id => ?_⟩
  · rw [h.db_eq] at hx
    obtain ⟨outcome, hended⟩ := hs.ended x hx t hwriter
    have ht : t ≠ a.tx := by
      rintro rfl
      exact hopen outcome hended
    exact ⟨outcome, by rw [h.tx_other ht]; exact hended⟩
  · rw [Sys.messagesOf, htopic, hkept]
    exact hs.announces t
  · rw [hkept] at hm
    rw [h.db_eq] at hcurrent
    unfold Sys.LastWord
    rw [htopic, h.db_eq]
    refine hs.latest t (fun outcome hended => ?_) m hm hcurrent
    by_cases ht : t = a.tx
    · subst ht
      exact hopen outcome hended
    · rw [h.tx_other ht] at hphase
      exact hphase outcome hended
  · rw [Sys.committedMessages, htopic, h.db_eq]
    exact hs.order id

/-- **A step that publishes**: its message is the newest, and its sender has committed nothing. -/
theorem Sys.InOrder.publishes (hs : s.InOrder D) (hsound : s'.Sound) {event : PaymentEvent}
    (hdelivers : D → a.delivers = true)
    (h : Stepped s a s' tx srv s.db (published a.delivers event))
    (hphase : ∀ outcome, tx.phase ≠ .ended outcome)
    (hannounced : tx.context.announced =
      (s.txs a.tx).context.announced ++ [(event.paymentId, event.status)])
    (hmanaged : ∀ m ∈ tx.context.managed,
      m ∈ (s.txs a.tx).context.managed ∨ m.1.id = event.paymentId) : s'.InOrder D := by
  have hopen := h.moves.not_ended
  have hidle : ∀ id, s.db.wroteTo id a.tx = false := hs.not_wrote hopen
  refine ⟨hsound, fun x hx t hwriter => ?_, fun t => ?_, fun t hphase' m hm hcurrent => ?_, fun id => ?_⟩
  · rw [h.db_eq] at hx
    obtain ⟨outcome, hended⟩ := hs.ended x hx t hwriter
    have ht : t ≠ a.tx := by
      rintro rfl
      exact hopen outcome hended
    exact ⟨outcome, by rw [h.tx_other ht]; exact hended⟩
  · by_cases ht : t = a.tx
    · subst ht
      rw [h.messagesOf_self, h.tx_self, hannounced, List.map_append]
      have hspoken : ((published a.delivers event).map (Sent.mk a.tx)).map Sent.says =
          if a.delivers then [(event.paymentId, event.status)] else [] := by
        unfold published
        split <;> rfl
      rw [hspoken]
      refine ⟨(hs.announces a.tx).1.append ?_, fun hD => ?_⟩
      · split
        · exact List.Sublist.refl _
        · exact List.nil_sublist _
      · rw [if_pos (hdelivers hD), (hs.announces a.tx).2 hD]
    · rw [h.messagesOf_other ht, h.tx_other ht]
      exact hs.announces t
  · rw [h.db_eq] at hcurrent
    refine Sys.LastWord.append ?_ h.db_eq h.topic_eq (hidle m.1.id)
    by_cases ht : t = a.tx
    · subst ht
      rw [h.tx_self] at hm
      rcases hmanaged m hm with hold | hnew
      · exact hs.latest a.tx hopen m hold hcurrent
      · -- the entity is new: nothing has been told of its payment yet
        refine .of_silent fun m' hm' hsender habout => ?_
        have hnodup := (hsound.shaped a.tx).announced_nodup (by rw [h.tx_self]; exact hphase)
        rw [h.tx_self, hannounced, List.map_append] at hnodup
        have htold := hs.says_mem hm'
        rw [hsender] at htold
        exact (List.nodup_append.mp hnodup).2.2 _ (List.mem_map_of_mem htold) _
          (List.mem_singleton_self _) (habout.trans hnew)
    · rw [h.tx_other ht] at hphase' hm
      exact hs.latest t hphase' m hm hcurrent
  · have hcommitted : s'.committedMessages id = s.committedMessages id := by
      have hnone : ((published a.delivers event).map (Sent.mk a.tx)).filter (fun m =>
          m.event.paymentId = id && s.db.wroteTo id m.sender) = [] := by
        refine List.filter_eq_nil_iff.mpr fun m hm => ?_
        obtain ⟨_, -, rfl⟩ := List.mem_map.mp hm
        simp [hidle id]
      rw [Sys.committedMessages, h.topic_eq, h.db_eq, List.filter_append, hnone, List.append_nil]
      rfl
    rw [hcommitted, h.db_eq]
    exact hs.order id

/-- **What is still current has not been written since.** -/
theorem current_of_current {new : List (Write TxId Payment)} {db' : Database} (hdb : db.Sound)
    (hdb' : db'.Sound) (hlog : db'.log = db.log ++ new) {p : Payment} (hlogged : db.Logged p)
    (hp : p ∈ db'.table) : (∀ x ∈ new, x.row.id ≠ p.id) ∧ p ∈ db.table := by
  have hhistory : db'.history Payment.id p.id =
      db.history Payment.id p.id ++ new.filter fun x => x.row.id = p.id := by
    simp [Store.history, hlog]
  have hcurrent := hdb'.consistent.current p.id
  rw [(mem_iff_find_key hdb'.consistent.unique).mp hp, hhistory] at hcurrent
  have hrise := hdb'.consistent.versions_rise p.id
  rw [hhistory] at hrise
  obtain ⟨y, hy, hrow⟩ := hlogged
  have hy' : y ∈ db.history Payment.id p.id :=
    List.mem_filter.mpr ⟨hy, decide_eq_true (congrArg Payment.id hrow)⟩
  have hnone : new.filter (fun x => x.row.id = p.id) = [] := by
    rcases List.eq_nil_or_concat (new.filter fun x => x.row.id = p.id) with hnil | ⟨front, z, hz⟩
    · exact hnil
    -- the last write would be a new one, of a higher version than `p`, and store `p`
    · rw [hz, List.concat_eq_append] at hcurrent hrise
      rw [← List.append_assoc, List.getLast?_concat] at hcurrent
      have hzp : p = z.row := Option.some.inj hcurrent
      have hlt := (List.pairwise_append.mp hrise).2.2 y hy' z
        (List.mem_append_right front (List.mem_singleton_self z))
      rw [hrow, ← hzp] at hlt
      exact absurd hlt (Nat.lt_irrefl _)
  refine ⟨fun x hx => ?_, ?_⟩
  · simpa using List.filter_eq_nil_iff.mp hnone x hx
  · rw [hnone, List.append_nil, ← hdb.consistent.current p.id] at hcurrent
    exact List.mem_of_find?_eq_some hcurrent.symm

section Commit

variable {now : Instant} {response : Option PaymentResponse}

/-- What a commit makes of the writers of a payment. -/
theorem wroteTo_flush (hflush : flush t now (s.txs t).context s.db = .ok db) (id : UUID) (u : TxId) :
    db.wroteTo id u = (s.db.wroteTo id u ||
      (u = t && ((s.txs t).context.writes t now).any fun x => x.row.id = id)) := by
  rw [Database.wroteTo_append (flush_log hflush)]
  congr 1
  rw [Bool.eq_iff_iff]
  simp only [List.any_eq_true, Bool.and_eq_true, decide_eq_true_eq]
  constructor
  · rintro ⟨x, hx, hu, hid⟩
    exact ⟨Option.some.inj (hu.symm.trans (writer_of_writes hx)), x, hx, hid⟩
  · rintro ⟨rfl, x, hx, hid⟩
    exact ⟨x, hx, writer_of_writes hx, hid⟩

/-- What a commit has told of a payment it writes. -/
theorem Sys.InOrder.told_of_write (hs : s.InOrder D) (hready : ReadyToCommit (s.txs t).phase response)
    {x : Write TxId Payment} (hx : x ∈ (s.txs t).context.writes t now) :
    (((s.messagesOf t).filter fun m => m.event.paymentId = x.row.id).map Sent.tells).Sublist
        [told x] ∧
      (D → ((s.messagesOf t).filter fun m => m.event.paymentId = x.row.id).map Sent.tells =
        [told x]) := by
  have hnodup := (hs.sound.shaped t).announced_nodup hready.ne_ended
  have hmem : (x.row.id, x.row.status) ∈ (s.txs t).context.announced :=
    (writes_announced t now _).subset (List.mem_map_of_mem hx)
  have hone : (s.txs t).context.announced.filter (fun q => q.1 = x.row.id) =
      [(x.row.id, x.row.status)] := by
    have hfound := (mem_iff_find_key hnodup).mp hmem
    rw [filter_key_of_nodup hnodup, hfound]
    rfl
  have hspoken : ((s.messagesOf t).filter fun m => m.event.paymentId = x.row.id).map Sent.says =
      ((s.messagesOf t).map Sent.says).filter fun q => q.1 = x.row.id := by
    rw [List.filter_map]
    rfl
  have htells : ((s.messagesOf t).filter fun m => m.event.paymentId = x.row.id).map Sent.tells =
      (((s.messagesOf t).map Sent.says).filter fun q => q.1 = x.row.id).map
        fun q => (some t, q.2) := by
    rw [← hspoken, List.map_map]
    refine List.map_congr_left fun m hm => ?_
    have hsender := of_decide_eq_true (List.mem_filter.mp (List.mem_filter.mp hm).1).2
    show (some m.sender, m.event.status) = (some t, m.event.status)
    rw [hsender]
  have htold : [told x] = [(x.row.id, x.row.status)].map fun q => (some t, q.2) := by
    rw [told, writer_of_writes hx]
    rfl
  rw [htells, htold, ← hone]
  obtain ⟨hsub, heq⟩ := hs.announces t
  exact ⟨(hsub.filter _).map _, fun hD => by rw [heq hD]⟩

/-- **The writer's message comes last**, behind every message of an earlier writer of the payment. -/
theorem Sys.InOrder.lastWord_of_write (hs : s.InOrder D)
    (hready : ReadyToCommit (s.txs t).phase response)
    (hflush : flush t now (s.txs t).context s.db = .ok db) {x : Write TxId Payment}
    (hx : x ∈ (s.txs t).context.writes t now) : s.LastWord t x.row.id := by
  rcases (hs.sound.shaped t).write_cases hready hx with ⟨p, hcontext, hrow⟩ | ⟨m, hm, hid, hchanged, hnone⟩
  -- an insertion: the payment has no earlier writer
  · have hfresh : ∀ u, s.db.wroteTo x.row.id u = false := by
      intro u
      rw [Bool.eq_false_iff]
      intro hwrote
      obtain ⟨y, hy, -, hyid⟩ := Database.wroteTo_iff.mp hwrote
      obtain ⟨r, hr, hterms⟩ := hs.sound.db.stored_of_logged ⟨y, hy, rfl⟩
      rw [hcontext] at hflush
      obtain ⟨db₁, hinserted, -⟩ := flush_ok hflush
      obtain ⟨db₂, hinsert, -⟩ := Runs.foldlM_cons_eq_ok.mp hinserted
      obtain ⟨hfree, -⟩ := Store.insert_cases (flushInsert_ok hinsert).2.2
      exact hfree r hr (hterms.id.trans (hyid.trans (congrArg Payment.id hrow)))
    exact List.pairwise_of_forall fun _ _ _ _ _ => hfresh _
  -- an update: what it had loaded is what is stored
  · rw [← hid]
    exact hs.latest t hready.ne_ended m hm (flushed_current hs.sound.db (hs.sound.txs t).context
      ((hs.sound.shaped t).simple hready) hnone hflush hm hchanged)

/-- The order of one payment, across a commit. -/
theorem Sys.InOrder.order_commit (hs : s.InOrder D) (hready : ReadyToCommit (s.txs t).phase response)
    (hflush : flush t now (s.txs t).context s.db = .ok db) (htopic : s'.topic = s.topic)
    (hdb : s'.db = db) (id : UUID) :
    ((s'.committedMessages id).map Sent.tells).Sublist ((s'.db.callWrites id).map told) ∧
      (D → (s'.committedMessages id).map Sent.tells = (s'.db.callWrites id).map told) := by
  have hwroteTo := wroteTo_flush hflush id
  have hcallWrites : db.callWrites id = s.db.callWrites id ++
      (((s.txs t).context.writes t now).filter fun x => x.row.id = id).filter
        fun x => x.writer.isSome := by
    simp [Database.callWrites, Store.history, flush_log hflush, List.filter_append]
  obtain ⟨hsub, heq⟩ := hs.order id
  rw [Sys.committedMessages, htopic, hdb]
  by_cases hwrites : ∃ x ∈ (s.txs t).context.writes t now, x.row.id = id
  · obtain ⟨x, hx, rfl⟩ := hwrites
    have hfilter := (hs.sound.shaped t).writes_filter hready hx
    have hany : ((s.txs t).context.writes t now).any (fun y => y.row.id = x.row.id) = true :=
      List.any_eq_true.mpr ⟨x, hx, decide_eq_true rfl⟩
    have hwrites : db.callWrites x.row.id = s.db.callWrites x.row.id ++ [x] := by
      rw [hcallWrites, hfilter, List.filter_singleton, writer_of_writes hx]
      rfl
    have hmessages : s.topic.filter (fun m => m.event.paymentId = x.row.id &&
        db.wroteTo x.row.id m.sender) = s.committedMessages x.row.id ++
          (s.messagesOf t).filter fun m => m.event.paymentId = x.row.id := by
      have hsplit := filter_or_of_ordered (l := s.topic)
        (a := fun m => m.event.paymentId = x.row.id && s.db.wroteTo x.row.id m.sender)
        (b := fun m => m.event.paymentId = x.row.id && m.sender = t)
        ((hs.lastWord_of_write hready hflush hx).imp fun {m m'} hlast hm => ?_) fun m _ hm => ?_
      · rw [Sys.messagesOf, List.filter_filter, Sys.committedMessages, ← hsplit]
        refine List.filter_congr fun m _ => ?_
        rw [hwroteTo, hany, Bool.and_true, Bool.and_or_distrib_left]
      · obtain ⟨habout, hsender⟩ := Bool.and_eq_true_iff.mp hm
        rw [Bool.and_eq_false_imp]
        exact fun habout' => hlast (of_decide_eq_true hsender) (of_decide_eq_true habout)
          (of_decide_eq_true habout')
      · obtain ⟨-, hsender⟩ := Bool.and_eq_true_iff.mp hm
        rw [of_decide_eq_true hsender, hs.not_wrote hready.ne_ended, Bool.and_false]
    obtain ⟨htold, htoldEq⟩ := hs.told_of_write hready hx
    rw [hmessages, hwrites, List.map_append, List.map_append]
    exact ⟨hsub.append htold, fun hD => by rw [heq hD, htoldEq hD]; rfl⟩
  · have hnone : ((s.txs t).context.writes t now).filter (fun x => x.row.id = id) = [] := by
      refine List.filter_eq_nil_iff.mpr fun x hx => ?_
      simpa using fun hid => hwrites ⟨x, hx, hid⟩
    have hsame : ∀ u, db.wroteTo id u = s.db.wroteTo id u := by
      intro u
      rw [hwroteTo, List.any_eq_false.mpr (fun x hx => by simpa using fun hid => hwrites ⟨x, hx, hid⟩),
        Bool.and_false, Bool.or_false]
    simp only [hsame]
    rw [hcallWrites, hnone, List.filter_nil, List.append_nil]
    exact ⟨hsub, heq⟩

/-- **A commit** adds its writes to the end of the histories, and its messages count from now on. -/
theorem Sys.InOrder.commits (hs : s.InOrder D) (hsound : s'.Sound)
    (h : Stepped s (.commit t now) s' tx srv db [])
    (hready : ReadyToCommit (s.txs t).phase response)
    (hflush : flush t now (s.txs t).context s.db = .ok db)
    (htx : tx = (s.txs t).finish (.returned response)) : s'.InOrder D := by
  have htopic : s'.topic = s.topic := by rw [h.topic_eq, List.map_nil, List.append_nil]
  have hself : s'.txs t = (s.txs t).finish (.returned response) := h.tx_self.trans htx
  have hother : ∀ u, u ≠ t → s'.txs u = s.txs u := fun u hu => h.tx_other hu
  have hlog := flush_log hflush
  refine ⟨hsound, fun x hx u hwriter => ?_, fun u => ?_, fun u hphase m hm hcurrent => ?_, fun id => ?_⟩
  · by_cases hu : u = t
    · subst hu
      exact ⟨_, by rw [hself]; rfl⟩
    · rw [h.db_eq, hlog] at hx
      rcases List.mem_append.mp hx with hx | hx
      · rw [hother u hu]
        exact hs.ended x hx u hwriter
      · exact absurd (Option.some.inj (hwriter.symm.trans (writer_of_writes hx))) hu
  · have hcontext : (s'.txs u).context = (s.txs u).context := by
      by_cases hu : u = t
      · subst hu
        rw [hself]
        rfl
      · rw [hother u hu]
    rw [Sys.messagesOf, htopic, hcontext]
    exact hs.announces u
  · have hu : u ≠ t := by
      rintro rfl
      exact hphase _ (by rw [hself]; rfl)
    rw [hother u hu] at hphase hm
    obtain ⟨hlogged, -⟩ := (hs.sound.txs u).context.managed m hm
    rw [h.db_eq] at hcurrent
    obtain ⟨hunwritten, hwas⟩ := current_of_current hs.sound.db (h.db_eq ▸ hsound.db) hlog hlogged hcurrent
    have hnone : ((s.txs t).context.writes t now).any (fun x => x.row.id = m.1.id) = false :=
      List.any_eq_false.mpr fun x hx => by simpa using hunwritten x hx
    have hsame : ∀ v, s'.db.wroteTo m.1.id v = s.db.wroteTo m.1.id v := by
      intro v
      rw [h.db_eq, wroteTo_flush hflush, hnone, Bool.and_false, Bool.or_false]
    unfold Sys.LastWord
    rw [htopic]
    simp only [hsame]
    exact hs.latest u hphase m hm hwas
  · exact hs.order_commit hready hflush htopic h.db_eq id

end Commit

/-- **Every step keeps the invariant.** -/
theorem Sys.InOrder.step (hs : s.InOrder D) (hdelivers : D → a.delivers = true)
    (hstep : step s a = some s') : s'.InOrder D := by
  obtain ⟨tx, srv, db, events, h⟩ := step_cases hstep
  have hsound := hs.sound.step hstep
  cases h.moves.tells (hs.sound.shaped a.tx) with
  | nothing hcontext => exact hs.nothing hsound h hcontext
  | publishes event hphase hannounced hmanaged =>
      exact hs.publishes hsound hdelivers h hphase hannounced hmanaged
  | commits ha hready hflush htx =>
      subst ha
      exact hs.commits hsound h hready hflush htx

end Steps

/-! ## The topic tells the commits in order -/

/-- Two updates of one payment overlap: the one that publishes first is refused. -/
def overlappingUpdates : List Action :=
  [.createPayment 0 0 (sampleRequest none), .persistAndPublish 0 (sampleSurroundings 7) true,
    .commit 0 1, .updateStatus 1 0 7 ⟨.FAILED, none, none⟩, .updateStatus 2 1 7 ⟨.PROCESSING, none, none⟩,
    .applyAndPublish 1 2 true, .applyAndPublish 2 2 true, .commit 2 3, .commit 1 3,
    .updateStatus 3 0 7 ⟨.COMPLETED, none, none⟩, .applyAndPublish 3 4 true, .commit 3 4]

end GlobalPayments.Payments

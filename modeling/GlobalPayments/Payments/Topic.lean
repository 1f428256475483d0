/-
# GlobalPayments.Payments.Topic — what the messages carry.

A message is about an entity of its sender's context, and stays so whatever becomes of the
transaction.  Two things follow for those who read the topic: every amount is a `long`, and the
messages whose senders have committed a change of a payment have one key, the reference under which
the payment is stored (`Sys.Keyed.reference`).  A message that was lost with its transaction can carry
another one.
-/
import GlobalPayments.Payments.Ordering

namespace GlobalPayments.Payments

open BigDecimal Runs Versioned

/-! ## The invariant -/

/-- New entities have `long` amounts, and are stored once their call has committed something. -/
def Tx.Backed (db : Database) (t : TxId) (tx : Tx) : Prop :=
  ∀ p ∈ tx.context.inserted, IsLong p.amountMinorUnits ∧
    ((∃ x ∈ db.log, x.writer = some t) → db.Logged p)

/-- The invariant of `Sys.InOrder`, with what the messages are about. -/
structure Sys.Keyed (D : Prop) (s : Sys) : Prop where
  inOrder : s.InOrder D
  announced : ∀ m ∈ s.topic, m.Announced (s.txs m.sender)
  backed : ∀ t, (s.txs t).Backed s.db t
  logged : ∀ p, s.db.Logged p → IsLong p.amountMinorUnits

theorem Sys.Keyed.start {rows : List Payment} (D : Prop) (h : ValidRows rows)
    (hlong : ∀ p ∈ rows, IsLong p.amountMinorUnits) : (Sys.start rows).Keyed D where
  inOrder := .start D h
  announced m hm := by cases hm
  backed t p hp := by cases hp
  logged p hp := by
    obtain ⟨x, hx, rfl⟩ := hp
    obtain ⟨r, hr, rfl⟩ := List.mem_map.mp hx
    exact hlong r hr

/-! ## Every step keeps it -/

section Steps

variable {m : Sent} {db db' : Database} {a : Action} {tx tx' : Tx} {srv srv' : Server}
variable {events : List PaymentEvent} {s s' : Sys} {D : Prop}

/-- No move takes an entity out of a context. -/
theorem Sent.Announced.move (h : m.Announced tx) (hshaped : tx.Shaped)
    (hmoves : Moves db a tx srv tx' srv' db' events) : m.Announced tx' := by
  cases hmoves with
  | replayed hidle => exact absurd h (not_announced_of_empty (hshaped.context_of_idle hidle))
  | missed hidle => exact absurd h (not_announced_of_empty (hshaped.context_of_idle hidle))
  | conversionRaised => exact h
  | persisted hphase =>
      exact absurd h (not_announced_of_empty (hshaped.context_empty (Or.inl ⟨_, hphase⟩)))
  | updateRefused hidle => exact absurd h (not_announced_of_empty (hshaped.context_of_idle hidle))
  | updateLoaded hidle => exact absurd h (not_announced_of_empty (hshaped.context_of_idle hidle))
  | statusApplied hphase =>
      exact absurd h (not_announced_of_empty (hshaped.context_empty (Or.inr ⟨_, _, hphase⟩)))
  | retrySelected hidle => exact absurd h (not_announced_of_empty (hshaped.context_of_idle hidle))
  | requeued =>
      rcases h with hinserted | ⟨q, hq, hdescribes⟩
      · exact Or.inl hinserted
      · exact Or.inr ⟨q, List.mem_append_left _ hq, hdescribes⟩
  | committed => exact h
  | refused => exact h
  | aborted => exact h

theorem Tx.Backed.mono {t : TxId} {new : List (Write TxId Payment)} (h : tx.Backed db t)
    (hlog : db'.log = db.log ++ new) (hnew : ∀ x ∈ new, x.writer ≠ some t) : tx.Backed db' t := by
  intro p hp
  refine ⟨(h p hp).1, ?_⟩
  rintro ⟨x, hx, hwriter⟩
  rw [hlog] at hx
  rcases List.mem_append.mp hx with hold | hfresh
  · exact ((h p hp).2 ⟨x, hold, hwriter⟩).mono hlog
  · exact absurd hwriter (hnew x hfresh)

/-- A transaction that is still at work has written nothing yet. -/
theorem Sys.InOrder.not_written {t : TxId} (hs : s.InOrder D)
    (hopen : ∀ outcome, (s.txs t).phase ≠ .ended outcome) : ¬ ∃ x ∈ s.db.log, x.writer = some t := by
  rintro ⟨x, hx, hwriter⟩
  obtain ⟨outcome, hended⟩ := hs.ended x hx t hwriter
  exact hopen outcome hended

theorem Tx.Backed.move (h : tx.Backed db a.tx) (hmoves : Moves db a tx srv tx' srv' db' events)
    (hidle : ¬ ∃ x ∈ db.log, x.writer = some a.tx) : tx'.Backed db' a.tx := by
  cases hmoves with
  | @persisted _ _ _ _ _ request payment _ hphase hprepared =>
      intro p hp
      obtain rfl := List.mem_singleton.mp hp
      obtain ⟨n, hn, rfl, -⟩ := preparePayment_ok hprepared
      exact ⟨((toMinorUnits_eq_ok_iff _ _ n).mp hn).2, fun hwritten => absurd hwritten hidle⟩
  | statusApplied => exact fun p hp => by cases hp
  | requeued => exact h
  | conversionRaised => exact h
  | refused => exact h
  | aborted => exact h
  | @committed t _ _ _ _ _ _ hflush =>
      intro p hp
      refine ⟨(h p hp).1, fun _ => ⟨⟨some t, none, p⟩, ?_, rfl⟩⟩
      rw [flush_log hflush, PersistenceContext.writes]
      exact List.mem_append_right _ (List.mem_append_left _ (List.mem_map_of_mem hp))
  | _ => exact fun p hp => by cases hp

/-- What a flush writes has a `long` amount. -/
theorem isLong_of_writes {t : TxId} {now : Instant} (hsound : tx.Sound db) (hbacked : tx.Backed db t)
    (hlong : ∀ p, db.Logged p → IsLong p.amountMinorUnits) {x : Write TxId Payment}
    (hx : x ∈ tx.context.writes t now) : IsLong x.row.amountMinorUnits := by
  simp only [PersistenceContext.writes, List.mem_append, List.mem_map, List.mem_filter] at hx
  rcases hx with ⟨p, hp, rfl⟩ | ⟨q, ⟨hq, -⟩, rfl⟩
  · exact (hbacked p hp).1
  · obtain ⟨hlogged, hevolves⟩ := hsound.context.managed q hq
    show IsLong q.2.amountMinorUnits
    rw [hevolves.terms.amountMinorUnits]
    exact hlong q.1 hlogged

theorem Sys.Keyed.step (hs : s.Keyed D) (hdelivers : D → a.delivers = true)
    (hstep : step s a = some s') : s'.Keyed D := by
  obtain ⟨tx, srv, db, events, h⟩ := step_cases hstep
  have hsound := hs.inOrder.sound
  obtain ⟨new, hlog, hwriters⟩ := h.moves.log
  refine ⟨hs.inOrder.step hdelivers hstep, fun m hm => ?_, ?_, fun p hp => ?_⟩
  · rw [h.topic_eq, List.mem_append] at hm
    rcases hm with hm | hm
    · by_cases hsender : m.sender = a.tx
      · rw [hsender, h.tx_self]
        have hold := hs.announced m hm
        rw [hsender] at hold
        exact hold.move (hsound.shaped a.tx) h.moves
      · rw [h.tx_other hsender]
        exact hs.announced m hm
    · obtain ⟨event, hevent, rfl⟩ := List.mem_map.mp hm
      rw [h.tx_self]
      exact (h.moves.tracked hevent a.tx).announced
  · refine h.forall_tx (P := fun db t tx => tx.Backed db t) (fun t ht hold => ?_) (fun hold => ?_)
      hs.backed
    · exact hold.mono hlog fun x hx hwriter =>
        ht (Option.some.inj (hwriter.symm.trans (hwriters x hx)))
    · exact hold.move h.moves (hs.inOrder.not_written h.moves.not_ended)
  · rw [h.db_eq] at hp
    rcases h.moves.db_cases with rfl | ⟨t, now, response, rfl, -, hflush, -⟩
    · exact hs.logged p hp
    · obtain ⟨x, hx, rfl⟩ := hp
      rw [flush_log hflush] at hx
      rcases List.mem_append.mp hx with hold | hnew
      · exact hs.logged _ ⟨x, hold, rfl⟩
      · exact isLong_of_writes (hsound.txs t) (hs.backed t) hs.logged hnew

end Steps

/-! ## What readers can rely on -/

section Readers

variable {s : Sys} {D : Prop}

/-- Two stored states of one payment have the same terms. -/
theorem Database.Sound.reference_eq {db : Database} (h : db.Sound) {p q : Payment}
    (hp : db.Logged p) (hq : db.Logged q) (hid : p.id = q.id) :
    p.paymentReference = q.paymentReference := by
  obtain ⟨p', hp', hterms⟩ := h.stored_of_logged hp
  obtain ⟨q', hq', hterms'⟩ := h.stored_of_logged hq
  have hsame : p' = q' := by
    have hfound := (mem_iff_find_key h.consistent.unique).mp hp'
    have hfound' := (mem_iff_find_key h.consistent.unique).mp hq'
    rw [hterms.id, hid, ← hterms'.id, hfound'] at hfound
    exact (Option.some.inj hfound).symm
  rw [← hterms.paymentReference, ← hterms'.paymentReference, hsame]

/-- The entity of a message, and the committed row behind it. -/
theorem Sys.Keyed.entity (hs : s.Keyed D) {m : Sent} (hm : m ∈ s.topic) :
    ∃ p, m.Describes p ∧ IsLong p.amountMinorUnits ∧
      ((∃ x ∈ s.db.log, x.writer = some m.sender) →
        ∃ q, s.db.Logged q ∧ q.id = p.id ∧ q.paymentReference = p.paymentReference) := by
  rcases hs.announced m hm with ⟨p, hp, hdescribes⟩ | ⟨q, hq, hdescribes⟩
  · obtain ⟨hlong, hstored⟩ := hs.backed m.sender p hp
    exact ⟨p, hdescribes, hlong, fun hwritten => ⟨p, hstored hwritten, rfl, rfl⟩⟩
  · obtain ⟨hlogged, hevolves⟩ := (hs.inOrder.sound.txs m.sender).context.managed q hq
    refine ⟨q.2, hdescribes, ?_, fun _ => ⟨q.1, hlogged, hevolves.terms.id.symm,
      hevolves.terms.paymentReference.symm⟩⟩
    rw [hevolves.terms.amountMinorUnits]
    exact hs.logged q.1 hlogged

/-- **Every amount is a `long`.** -/
theorem Sys.Keyed.amount (hs : s.Keyed D) {m : Sent} (hm : m ∈ s.topic) : IsLong m.event.amount := by
  obtain ⟨p, ⟨eventType, now, hevent⟩, hlong, -⟩ := hs.entity hm
  rw [hevent]
  exact hlong

/-- **The messages of committed changes have the payment's key.** -/
theorem Sys.Keyed.reference (hs : s.Keyed D) {p : Payment} (hp : p ∈ s.db.table) {m : Sent}
    (hm : m ∈ s.committedMessages p.id) : m.event.paymentReference = p.paymentReference := by
  obtain ⟨hsent, habout⟩ := List.mem_filter.mp hm
  rw [Bool.and_eq_true, decide_eq_true_eq] at habout
  obtain ⟨x, hx, hwriter, -⟩ := Database.wroteTo_iff.mp habout.2
  obtain ⟨e, hdescribes, -, hstored⟩ := hs.entity hsent
  obtain ⟨q, hq, hid, hreference⟩ := hstored ⟨x, hx, hwriter⟩
  have hsame := hs.inOrder.sound.db.reference_eq hq (hs.inOrder.sound.db.logged hp)
    (hid.trans (hdescribes.paymentId.symm.trans habout.1))
  obtain ⟨eventType, now, hevent⟩ := hdescribes
  rw [← hsame, hreference, hevent]
  rfl

end Readers

end GlobalPayments.Payments

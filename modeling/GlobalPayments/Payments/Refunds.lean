/-
# GlobalPayments.Payments.Refunds — what leads into REFUNDED, and what leads out.

`PaymentStatus` describes REFUNDED as "reversed after completion".  The guard of `updateStatus` is a
list of exclusions, and REFUNDED is on none of them: it is entered from every status but COMPLETED and
CANCELLED, whose payments never move again, and it is left like any open status.  So the one way into
REFUNDED that the description allows is the one that the guard closes, and
`refunds_reversed_iff` says that a run gets it right exactly as long as it refunds nothing.
-/
import GlobalPayments.Payments.Lifecycle
import GlobalPayments.Payments.Writes

namespace GlobalPayments.Payments

open Runs Versioned

/-! ## What REFUNDED stands for -/

/-- What the statuses committed for payment `id` should say about a refund. -/
structure RefundReversed (s : Sys) (id : UUID) : Prop where
  /-- a refunded payment was COMPLETED before -/
  completed : ∀ before after, s.db.committedStatuses id = before ++ .REFUNDED :: after →
    .COMPLETED ∈ before
  /-- and never goes back to PENDING, PROCESSING, FAILED or COMPLETED -/
  kept : (s.db.committedStatuses id).Pairwise fun old new =>
    old = .REFUNDED → new = .REFUNDED ∨ new = .CANCELLED

section Refunds

variable {rows : List Payment} {s : Sys} {id : UUID}

/-- Along a history COMPLETED is never left. -/
theorem completed_stays {statuses : List PaymentStatus} (h : statuses.IsChain Accepts) :
    statuses.Pairwise fun old new => old = .COMPLETED → new = .COMPLETED := by
  let stays : PaymentStatus → PaymentStatus → Prop := fun old new =>
    old = .COMPLETED → new = .COMPLETED
  have : Trans stays stays stays := ⟨fun hab hbc ha => hbc (hab ha)⟩
  have hchain : statuses.IsChain stays := h.imp fun old new haccepts hold => by
    rw [haccepts.of_final (Or.inl hold), hold]
  exact List.isChain_iff_pairwise.mp hchain

/-- **A refund is never of a completed payment**: the description is met only by the histories that
know no refund. -/
theorem Database.Sound.refundReversed_iff (h : s.db.Sound) :
    RefundReversed s id ↔ .REFUNDED ∉ s.db.committedStatuses id := by
  constructor
  · intro hreversed hmem
    obtain ⟨before, after, hsplit⟩ := List.append_of_mem hmem
    have hcompleted := hreversed.completed before after hsplit
    have hstays := completed_stays (h.committedStatuses_isChain id)
    rw [hsplit] at hstays
    have hrefunded := (List.pairwise_append.mp hstays).2.2 _ hcompleted _ List.mem_cons_self rfl
    cases hrefunded
  · intro hnever
    refine ⟨fun before after hsplit => absurd ?_ hnever, ?_⟩
    · rw [hsplit]
      exact List.mem_append_right before List.mem_cons_self
    · refine List.Pairwise.imp_of_mem (fun {old new} hold _ _ hrefunded => absurd ?_ hnever)
        (completed_stays (h.committedStatuses_isChain id))
      rw [← hrefunded]
      exact hold

/-- A payment is in REFUNDED only when an `updateStatus` call moved it there. -/
theorem Sys.Explained.not_refunded_iff (hs : s.Explained rows)
    (hrows : ∀ p ∈ rows, p.status ≠ .REFUNDED) :
    .REFUNDED ∉ s.db.committedStatuses id ↔
      ∀ old, old ≠ .REFUNDED → s.NeverMoved id old .REFUNDED := by
  constructor
  · intro hnever old _ x hx hid request _
    rw [Bool.eq_false_iff]
    intro htakes
    refine hnever (List.mem_map.mpr ⟨x, List.mem_filter.mpr ⟨hx, decide_eq_true hid⟩, ?_⟩)
    exact (takes_iff.mp htakes).2
  · intro hnever hmem
    obtain ⟨x, hx, hrefunded⟩ := List.mem_map.mp hmem
    obtain ⟨hlog, hid⟩ := List.mem_filter.mp hx
    -- insertions are of other statuses, and an update that was not from REFUNDED is an edge
    refine hs.sound.db.consistent.log_induction (P := fun x => x.row.id = id →
      x.row.status ≠ .REFUNDED) ?_ ?_ x hlog (of_decide_eq_true hid) hrefunded
    · intro x hx hread _ hrefunded
      rcases hs.inserted hx hread with ⟨hrow, -⟩ | ⟨-, -, hpending, -⟩
      · exact hrows _ hrow hrefunded
      · rw [hpending] at hrefunded
        cases hrefunded
    · intro x hx y hy hread hnot hid hrefunded
      have hyid : y.row.id = id := by
        obtain ⟨-, -, -, hkey, -⟩ := hs.sound.db.consistent.predecessor hx hread
        rw [← hid]
        exact hkey
      rcases hs.updated hx hread with ⟨request, hcall, -⟩ | ⟨-, -, -, -, hpending, -⟩
      · have htakes := hnever y.row.status (hnot hyid) x hx hid request (by rw [← hid]; exact hcall)
        rw [Bool.eq_false_iff] at htakes
        exact htakes (takes_iff.mpr ⟨⟨y.row, hread, rfl⟩, hrefunded⟩)
      · rw [hpending] at hrefunded
        cases hrefunded

/-- **When refunds follow completions.**  In a run from a valid table without refunded payments, the
statuses of a payment keep what REFUNDED stands for exactly when no `updateStatus` call that moves it
into REFUNDED commits. -/
theorem refunds_reversed_iff {rows : List Payment} (hrows : ValidRows rows)
    (hfresh : ∀ p ∈ rows, p.status ≠ .REFUNDED) {trace : List Action} {s : Sys}
    (hrun : run step (Sys.start rows) trace = some s) (id : UUID) :
    RunsUnder step (fun s a => ∀ old, old ≠ .REFUNDED → ¬ Commits s a id old .REFUNDED)
      (Sys.start rows) trace s ↔ RefundReversed s id := by
  have hs : s.Explained rows := (Sys.Explained.start hrows).run hrun
  rw [hs.sound.db.refundReversed_iff, hs.not_refunded_iff hfresh]
  exact runsUnder_iff_neverMoved hrows (fun hne => hne rfl) hrun

/-- A payment that is completed. -/
def completedOnce : List Action :=
  [.createPayment 0 0 (sampleRequest none), .persistAndPublish 0 (sampleSurroundings 7) true,
    .commit 0 1, .updateStatus 1 0 7 ⟨.COMPLETED, none, none⟩, .applyAndPublish 1 2 true, .commit 1 2]

/-- A completed payment that nobody refunds: it meets the condition, and its statuses are in order. -/
theorem refunds_reversed_completed :
    ∃ s, run step (Sys.start []) completedOnce = some s ∧
      s.db.committedStatuses 7 = [.PENDING, .COMPLETED] ∧
      RunsUnder step (fun s a => ∀ old, old ≠ .REFUNDED → ¬ Commits s a 7 old .REFUNDED)
        (Sys.start []) completedOnce s ∧
      RefundReversed s 7 := by
  obtain ⟨s, hrun, hstatuses⟩ := Option.map_eq_some_iff.mp
    (show (run step (Sys.start []) completedOnce).map (·.db.committedStatuses 7) =
      some [.PENDING, .COMPLETED] by decide)
  have hreversed : RefundReversed s 7 := by
    constructor
    · intro before after hsplit
      have hmem : PaymentStatus.REFUNDED ∈ s.db.committedStatuses 7 := by
        rw [hsplit]
        exact List.mem_append_right _ List.mem_cons_self
      rw [hstatuses] at hmem
      exact absurd hmem (by decide)
    · rw [hstatuses]
      decide
  exact ⟨s, hrun, hstatuses, (refunds_reversed_iff .empty (by simp) hrun 7).mpr hreversed, hreversed⟩

/-- A payment refunded while it is PENDING, and then processed again. -/
def refundedEarly : List Action :=
  [.createPayment 0 0 (sampleRequest none), .persistAndPublish 0 (sampleSurroundings 7) true,
    .commit 0 1, .updateStatus 1 0 7 ⟨.REFUNDED, none, none⟩, .applyAndPublish 1 2 true, .commit 1 2,
    .updateStatus 2 0 7 ⟨.PROCESSING, none, none⟩, .applyAndPublish 2 3 true, .commit 2 3]

/-- The guard lets both updates through. -/
theorem refunds_unreversed :
    (run step (Sys.start []) refundedEarly).map (·.db.committedStatuses 7) =
        some [.PENDING, .REFUNDED, .PROCESSING] ∧
      ¬ ∀ (trace : List Action) (s : Sys) (id : UUID),
        run step (Sys.start []) trace = some s → RefundReversed s id := by
  have htrace : (run step (Sys.start []) refundedEarly).map (·.db.committedStatuses 7) =
      some [.PENDING, .REFUNDED, .PROCESSING] := by decide
  refine ⟨htrace, fun hall => ?_⟩
  obtain ⟨s, hrun, hstatuses⟩ := Option.map_eq_some_iff.mp htrace
  have hcompleted := (hall refundedEarly s 7 hrun).completed [.PENDING] [.PROCESSING] hstatuses
  revert hcompleted
  decide

end Refunds

end GlobalPayments.Payments

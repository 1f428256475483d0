/-
# ConsumerGroup — a consumer's place in a partitioned log.

A topic is a log for each partition.  A consumer has a position in each of them, which polling moves
on, and its group has committed offsets, from which a restarted consumer goes on; a commit without
arguments commits the positions as they are.  Next to these the subscription books which messages were
delivered and how their processing ended; no operation reads the books.

`Moves` is what can happen to a subscription, with a condition on its commits.  `Intact` is what
at-least-once processing needs: no committed offset is past a message whose last processing failed.
Commits keep it while no message of the session has failed (`Moves.intact`); a commit after a failure
passes it (`Ordered.commit_passes`).
-/
import Mathlib.Logic.Function.Basic
import Mathlib.Data.List.Basic

universe u v

/-- A delivered message and how its processing ended. -/
structure Delivery (P : Type u) where
  partition : P
  offset : Nat
  raised : Bool
  deriving DecidableEq

/-- A consumer of a group, its topic and its books. -/
structure Subscription (P : Type u) (M : Type v) where
  log : P → List M
  committed : P → Nat
  position : P → Nat
  /-- the message that is being processed -/
  inFlight : Option (P × Nat) := none
  /-- the deliveries since the last start -/
  session : List (Delivery P) := []
  /-- the deliveries before it -/
  past : List (Delivery P) := []

namespace Subscription

variable {P : Type u} {M : Type v}

/-- All deliveries, in order. -/
def history (s : Subscription P M) : List (Delivery P) := s.past ++ s.session

/-- A consumer that starts at the committed offsets. -/
def start (log : P → List M) (committed : P → Nat) : Subscription P M where
  log := log
  committed := committed
  position := committed

/-! ## Operations -/

section Operations

variable [DecidableEq P]

/-- A producer appends a message. -/
def produce (p : P) (m : M) (s : Subscription P M) : Subscription P M :=
  { s with log := Function.update s.log p (s.log p ++ [m]) }

/-- The next message of a partition; `none` at its end. -/
def poll (p : P) (s : Subscription P M) : Option (M × Subscription P M) :=
  match (s.log p)[s.position p]? with
  | some m => some (m,
      { s with
        position := Function.update s.position p (s.position p + 1)
        inFlight := some (p, s.position p) })
  | none => none

theorem poll_eq_some {s s' : Subscription P M} {p : P} {m : M} (h : s.poll p = some (m, s')) :
    s' = { s with
      position := Function.update s.position p (s.position p + 1)
      inFlight := some (p, s.position p) } := by
  unfold poll at h
  split at h
  · exact ((Prod.mk.inj (Option.some.inj h)).2).symm
  · cases h

end Operations

/-- The processing of the message in flight has ended. -/
def settle (raised : Bool) (s : Subscription P M) : Subscription P M :=
  match s.inFlight with
  | some (p, o) => { s with inFlight := none, session := s.session ++ [⟨p, o, raised⟩] }
  | none => s

/-- `commit()`: the current position of every partition. -/
def commit (s : Subscription P M) : Subscription P M := { s with committed := s.position }

/-- The consumer dies, or leaves, and starts again. -/
def restart (s : Subscription P M) : Subscription P M :=
  { s with
    position := s.committed
    inFlight := none
    past := s.past ++ s.session
    session := [] }

theorem settle_eq {s : Subscription P M} {p : P} {o : Nat} (h : s.inFlight = some (p, o))
    (raised : Bool) : s.settle raised =
      { s with inFlight := none, session := s.session ++ [⟨p, o, raised⟩] } := by
  unfold settle
  rw [h]

theorem history_settle {s : Subscription P M} {p : P} {o : Nat} (h : s.inFlight = some (p, o))
    (raised : Bool) : (s.settle raised).history = s.history ++ [⟨p, o, raised⟩] := by
  rw [settle_eq h, history, history, List.append_assoc]

theorem history_restart (s : Subscription P M) : s.restart.history = s.history := by
  simp [history, restart]

variable [DecidableEq P]

/-- What can happen to a subscription whose consumer settles each message before it goes on, and
commits only under the condition `C`. -/
inductive Moves (C : Subscription P M → Prop) : Subscription P M → Subscription P M → Prop
  | produce (s : Subscription P M) (p : P) (m : M) : Moves C s (s.produce p m)
  | poll {s s' : Subscription P M} {p : P} {m : M} : s.inFlight = none →
      s.poll p = some (m, s') → Moves C s s'
  | settle {s : Subscription P M} {p : P} {o : Nat} (raised : Bool) :
      s.inFlight = some (p, o) → Moves C s (s.settle raised)
  | commit {s : Subscription P M} : s.inFlight = none → C s → Moves C s s.commit
  | restart (s : Subscription P M) : Moves C s s.restart

/-- The condition is asked where the commit is made. -/
theorem Moves.mono {C C' : Subscription P M → Prop} {s s' : Subscription P M} (h : Moves C s s')
    (hC : C s → C' s) : Moves C' s s' := by
  cases h with
  | produce p m => exact .produce _ p m
  | poll hidle hpoll => exact .poll hidle hpoll
  | settle raised hflight => exact .settle raised hflight
  | commit hidle hc => exact .commit hidle (hC hc)
  | restart => exact .restart _

/-! ## Failed messages -/

/-- The deliveries of one message. -/
def ofMessage (p : P) (o : Nat) (deliveries : List (Delivery P)) : List (Delivery P) :=
  deliveries.filter fun d => d.partition = p ∧ d.offset = o

/-- The processing of a message raised, and has not succeeded since. -/
def Failed (deliveries : List (Delivery P)) (p : P) (o : Nat) : Prop :=
  ∃ d, (ofMessage p o deliveries).getLast? = some d ∧ d.raised = true

theorem not_failed_nil (p : P) (o : Nat) : ¬ Failed [] p o := by
  rintro ⟨d, h, -⟩
  cases h

theorem failed_append_self (deliveries : List (Delivery P)) (p : P) (o : Nat) (raised : Bool) :
    Failed (deliveries ++ [⟨p, o, raised⟩]) p o ↔ raised = true := by
  unfold Failed ofMessage
  rw [List.filter_append]
  simp

theorem failed_append_of_ne {deliveries : List (Delivery P)} {p q : P} {o o' : Nat} {raised : Bool}
    (h : (p, o) ≠ (q, o')) :
    Failed (deliveries ++ [⟨p, o, raised⟩]) q o' ↔ Failed deliveries q o' := by
  have hne : ¬ (p = q ∧ o = o') := by
    rintro ⟨rfl, rfl⟩
    exact h rfl
  unfold Failed ofMessage
  rw [List.filter_append, List.filter_singleton]
  simp [hne]

/-! ## No failure is passed -/

/-- No message of the session has failed. -/
def Clean (s : Subscription P M) : Prop := ∀ d ∈ s.session, d.raised = false

/-- No committed offset is past a failed message; and a position is only past one that failed in this
session, or is being processed again. -/
structure Intact (s : Subscription P M) : Prop where
  behind : ∀ p, s.committed p ≤ s.position p
  inFlight : ∀ p o, s.inFlight = some (p, o) → s.committed p ≤ o
  kept : ∀ p o, Failed s.history p o → s.committed p ≤ o
  passed : ∀ p o, Failed s.history p o →
    s.position p ≤ o ∨ ⟨p, o, true⟩ ∈ s.session ∨ s.inFlight = some (p, o)

theorem Intact.start (log : P → List M) (committed : P → Nat) :
    (Subscription.start log committed).Intact where
  behind _ := Nat.le_refl _
  inFlight _ _ h := by cases h
  kept p o h := absurd h (not_failed_nil p o)
  passed p o h := absurd h (not_failed_nil p o)

section Steps

variable {s s' : Subscription P M}

theorem Intact.poll (h : s.Intact) (hidle : s.inFlight = none) {p : P} {m : M}
    (hpoll : s.poll p = some (m, s')) : s'.Intact := by
  rw [poll_eq_some hpoll]
  refine ⟨fun q => ?_, fun q o hflight => ?_, h.kept, fun q o hfailed => ?_⟩
  · show s.committed q ≤ Function.update s.position p (s.position p + 1) q
    have hbehind := h.behind q
    by_cases hq : q = p
    · subst hq
      rw [Function.update_self]
      omega
    · rw [Function.update_of_ne hq]
      exact hbehind
  · obtain ⟨rfl, rfl⟩ := Prod.mk.inj (Option.some.inj hflight)
    exact h.behind p
  · show Function.update s.position p (s.position p + 1) q ≤ o ∨ _
    rcases h.passed q o hfailed with hbefore | hraised | hflight
    · by_cases hq : q = p
      · subst hq
        rw [Function.update_self]
        -- the polled message itself is in flight from now on
        rcases Nat.eq_or_lt_of_le hbefore with heq | hlt
        · exact Or.inr (Or.inr (by rw [heq]))
        · exact Or.inl hlt
      · rw [Function.update_of_ne hq]
        exact Or.inl hbefore
    · exact Or.inr (Or.inl hraised)
    · rw [hidle] at hflight
      cases hflight

theorem Intact.settle (h : s.Intact) {p : P} {o : Nat} (hflight : s.inFlight = some (p, o))
    (raised : Bool) : (s.settle raised).Intact := by
  have hhistory := history_settle hflight raised
  rw [settle_eq hflight] at hhistory ⊢
  refine ⟨h.behind, nofun, fun q o' hfailed => ?_, fun q o' hfailed => ?_⟩
  · rw [hhistory] at hfailed
    by_cases hsame : (p, o) = (q, o')
    · obtain ⟨rfl, rfl⟩ := Prod.mk.inj hsame
      exact h.inFlight p o hflight
    · exact h.kept q o' ((failed_append_of_ne hsame).mp hfailed)
  · rw [hhistory] at hfailed
    by_cases hsame : (p, o) = (q, o')
    · obtain ⟨rfl, rfl⟩ := Prod.mk.inj hsame
      obtain rfl := (failed_append_self _ _ _ _).mp hfailed
      exact Or.inr (Or.inl (List.mem_append_right _ List.mem_cons_self))
    · rcases h.passed q o' ((failed_append_of_ne hsame).mp hfailed) with hbefore | hraised | hother
      · exact Or.inl hbefore
      · exact Or.inr (Or.inl (List.mem_append_left _ hraised))
      · rw [hflight] at hother
        exact absurd (Option.some.inj hother) hsame

/-- **The commit rule.**  A commit between two messages keeps the group intact when no message of the
session has failed. -/
theorem Intact.commit (h : s.Intact) (hidle : s.inFlight = none) (hclean : s.Clean) :
    s.commit.Intact := by
  refine ⟨fun _ => Nat.le_refl _, fun p o hflight => ?_, fun p o hfailed => ?_, h.passed⟩
  · change s.inFlight = _ at hflight
    rw [hidle] at hflight
    cases hflight
  · rcases h.passed p o hfailed with hbefore | hraised | hflight
    · exact hbefore
    · cases hclean _ hraised
    · rw [hidle] at hflight
      cases hflight

theorem Intact.restart (h : s.Intact) : s.restart.Intact := by
  have hkept : ∀ p o, Failed s.restart.history p o → s.committed p ≤ o := by
    intro p o hfailed
    rw [history_restart] at hfailed
    exact h.kept p o hfailed
  exact ⟨fun _ => Nat.le_refl _, nofun, hkept,
    fun p o hfailed => Or.inl (hkept p o hfailed)⟩

/-- **Clean commits keep every failure.** -/
theorem Moves.intact (h : Moves Clean s s') (hs : s.Intact) : s'.Intact := by
  cases h with
  | produce p m => exact ⟨hs.behind, hs.inFlight, hs.kept, hs.passed⟩
  | poll hidle hpoll => exact hs.poll hidle hpoll
  | settle raised hflight => exact hs.settle hflight raised
  | commit hidle hclean => exact hs.commit hidle hclean
  | restart => exact hs.restart

/-! ## Delivery after a restart -/

/-- Since `deliveries` the message has been delivered. -/
def DeliveredSince (deliveries : List (Delivery P)) (p : P) (o : Nat) (s : Subscription P M) : Prop :=
  s.inFlight = some (p, o) ∨
    ∃ more, s.history = deliveries ++ more ∧ ∃ d ∈ more, d.partition = p ∧ d.offset = o

/-- The consumer has the message before it, or has it in its hands, or had it since `deliveries`. -/
structure Awaits (deliveries : List (Delivery P)) (p : P) (o : Nat) (s : Subscription P M) : Prop where
  grows : deliveries <+: s.history
  place : (s.committed p ≤ o ∧ (s.position p ≤ o ∨ s.inFlight = some (p, o))) ∨
    ∃ more, s.history = deliveries ++ more ∧ ∃ d ∈ more, d.partition = p ∧ d.offset = o

omit [DecidableEq P] in
theorem Awaits.delivered {deliveries : List (Delivery P)} {p : P} {o : Nat}
    (h : s.Awaits deliveries p o) (hpassed : o < s.position p) :
    s.DeliveredSince deliveries p o := by
  rcases h.place with ⟨-, hbefore | hflight⟩ | hmore
  · omega
  · exact Or.inl hflight
  · exact Or.inr hmore

/-- **A message is not skipped.**  Whatever commits go through. -/
theorem Moves.awaits {C : Subscription P M → Prop} {deliveries : List (Delivery P)} {p : P} {o : Nat}
    (h : Moves C s s') (hs : s.Awaits deliveries p o) : s'.Awaits deliveries p o := by
  obtain ⟨hgrows, hplace⟩ := hs
  cases h with
  | produce q m => exact ⟨hgrows, hplace⟩
  | @poll _ q m hidle hpoll =>
      rw [poll_eq_some hpoll]
      refine ⟨hgrows, hplace.imp_left ?_⟩
      rintro ⟨hcommitted, hbefore | hflight⟩
      · refine ⟨hcommitted, ?_⟩
        show Function.update s.position q (s.position q + 1) p ≤ o ∨ _
        by_cases hp : p = q
        · subst hp
          rw [Function.update_self]
          rcases Nat.eq_or_lt_of_le hbefore with heq | hlt
          · exact Or.inr (by rw [heq])
          · exact Or.inl hlt
        · rw [Function.update_of_ne hp]
          exact Or.inl hbefore
      · rw [hidle] at hflight
        cases hflight
  | @settle q o' raised hflight =>
      have hhistory := history_settle hflight raised
      rw [settle_eq hflight] at hhistory ⊢
      refine ⟨hhistory ▸ hgrows.trans (List.prefix_append _ _), ?_⟩
      rcases hplace with ⟨hcommitted, hbefore | hflight'⟩ | ⟨more, hmore, d, hd, hmessage⟩
      · exact Or.inl ⟨hcommitted, Or.inl hbefore⟩
      · obtain ⟨more, hmore⟩ := hgrows
        rw [hflight] at hflight'
        obtain ⟨rfl, rfl⟩ := Prod.mk.inj (Option.some.inj hflight')
        refine Or.inr ⟨more ++ [⟨q, o', raised⟩], ?_, _, List.mem_append_right _
          List.mem_cons_self, rfl, rfl⟩
        rw [hhistory, ← hmore, List.append_assoc]
      · refine Or.inr ⟨more ++ [⟨q, o', raised⟩], ?_, d, List.mem_append_left _ hd, hmessage⟩
        rw [hhistory, hmore, List.append_assoc]
  | commit hidle _ =>
      refine ⟨hgrows, hplace.imp_left ?_⟩
      rintro ⟨-, hbefore | hflight⟩
      · exact ⟨hbefore, Or.inl hbefore⟩
      · rw [hidle] at hflight
        cases hflight
  | restart =>
      refine ⟨(history_restart s).symm ▸ hgrows, ?_⟩
      rw [history_restart]
      exact hplace.imp_left fun hahead => ⟨hahead.1, Or.inl hahead.1⟩

omit [DecidableEq P] in
/-- After a restart a message at or behind the committed offset is before the consumer. -/
theorem awaits_restart {p : P} {o : Nat} (h : s.committed p ≤ o) :
    s.restart.Awaits s.history p o where
  grows := (history_restart s).symm ▸ List.prefix_refl _
  place := Or.inl ⟨h, Or.inl h⟩

/-! ## A commit after a failure -/

/-- Within a session positions only move on: each delivery is behind its partition's position, and no
message is delivered twice. -/
structure Ordered (s : Subscription P M) : Prop where
  delivered : ∀ d ∈ s.session, d.offset < s.position d.partition
  inFlight : ∀ p o, s.inFlight = some (p, o) → o < s.position p ∧
    (p, o) ∉ s.session.map fun d => (d.partition, d.offset)
  once : (s.session.map fun d => (d.partition, d.offset)).Nodup

omit [DecidableEq P] in
theorem Ordered.start (log : P → List M) (committed : P → Nat) :
    (Subscription.start log committed).Ordered :=
  ⟨fun _ hd => absurd hd List.not_mem_nil, nofun, List.nodup_nil⟩

theorem Moves.ordered {C : Subscription P M → Prop} (h : Moves C s s') (hs : s.Ordered) :
    s'.Ordered := by
  cases h with
  | produce => exact ⟨hs.delivered, hs.inFlight, hs.once⟩
  | @poll _ p m hidle hpoll =>
      rw [poll_eq_some hpoll]
      have hmoved : ∀ q, s.position q ≤ Function.update s.position p (s.position p + 1) q := by
        intro q
        by_cases hq : q = p
        · subst hq
          rw [Function.update_self]
          omega
        · exact Nat.le_of_eq (Function.update_of_ne hq _ _).symm
      refine ⟨fun d hd => Nat.lt_of_lt_of_le (hs.delivered d hd) (hmoved _),
        fun q o hflight => ?_, hs.once⟩
      obtain ⟨rfl, rfl⟩ := Prod.mk.inj (Option.some.inj hflight)
      refine ⟨?_, fun hmem => ?_⟩
      · show s.position p < Function.update s.position p (s.position p + 1) p
        rw [Function.update_self]
        omega
      · obtain ⟨d, hd, heq⟩ := List.mem_map.mp hmem
        obtain ⟨rfl, hoffset⟩ := Prod.mk.inj heq
        have hlt := hs.delivered d hd
        omega
  | @settle p o raised hflight =>
      obtain ⟨hlt, hnot⟩ := hs.inFlight p o hflight
      rw [settle_eq hflight]
      refine ⟨fun d hd => ?_, nofun, ?_⟩
      · rcases List.mem_append.mp hd with hd | hd
        · exact hs.delivered d hd
        · obtain rfl := List.mem_singleton.mp hd
          exact hlt
      · rw [List.map_append, List.map_singleton]
        exact List.nodup_append.mpr ⟨hs.once, by simp, fun a ha b hb heq =>
          hnot (List.mem_singleton.mp hb ▸ heq ▸ ha)⟩
  | commit => exact ⟨hs.delivered, hs.inFlight, hs.once⟩
  | restart => exact ⟨fun _ hd => absurd hd List.not_mem_nil, nofun, List.nodup_nil⟩

/-- **A commit after a failure passes it.** -/
theorem Ordered.commit_passes (h : s.Ordered) {d : Delivery P} (hd : d ∈ s.session)
    (hraised : d.raised = true) :
    Failed s.history d.partition d.offset ∧ d.offset < s.commit.committed d.partition := by
  refine ⟨⟨d, ?_, hraised⟩, h.delivered d hd⟩
  obtain ⟨before, after, hsession⟩ := List.append_of_mem hd
  have hlater : ∀ e ∈ after, ¬ (e.partition = d.partition ∧ e.offset = d.offset) := by
    rintro e he ⟨hpartition, hoffset⟩
    have honce := h.once
    rw [hsession, List.map_append, List.map_cons] at honce
    have hrest := (List.nodup_cons.mp (List.nodup_append.mp honce).2.1).1
    refine hrest (List.mem_map.mpr ⟨e, he, ?_⟩)
    rw [hpartition, hoffset]
  have hnone : ofMessage d.partition d.offset after = [] :=
    List.filter_eq_nil_iff.mpr fun e he => by simpa using hlater e he
  rw [history, hsession, ← List.append_assoc]
  unfold ofMessage at hnone ⊢
  rw [List.filter_append, List.filter_cons_of_pos (by simp), hnone]
  simp

end Steps

end Subscription

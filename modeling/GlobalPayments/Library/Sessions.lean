/-
# Sessions — what a consumer takes between two starts.

A session takes each partition from where it starts, message after message (`Moves.contiguous`), so
what it has delivered of a partition is one stretch of that partition's log (`Contiguous.offsets`,
`filterMap_range'`).  And no session starts behind a message that was never delivered: what lies
between the offsets the group began with and the committed ones has been delivered in some session
(`Moves.covered`).  Neither asks anything of the commits.
-/
import GlobalPayments.Library.ConsumerGroup

universe u v

namespace Subscription

variable {P : Type u} {M : Type v} [DecidableEq P]

/-! ## Stretches -/

/-- The offsets of a partition among deliveries, in order. -/
def offsets (p : P) (deliveries : List (Delivery P)) : List Nat :=
  (deliveries.filter fun d => d.partition = p).map Delivery.offset

/-- What the session has taken of a partition: what it has delivered, and what it has in its hands. -/
def taken (s : Subscription P M) (p : P) : List Nat :=
  offsets p s.session ++ (s.inFlight.toList.filter fun m => m.1 = p).map Prod.snd

/-- A stretch of each partition, up to the position. -/
def Contiguous (s : Subscription P M) : Prop :=
  ∀ p, ∃ n, s.taken p = List.range' (s.position p - n) n ∧ n ≤ s.position p

theorem offsets_append_singleton (p : P) (deliveries : List (Delivery P)) (d : Delivery P) :
    offsets p (deliveries ++ [d]) =
      offsets p deliveries ++ if d.partition = p then [d.offset] else [] := by
  unfold offsets
  rw [List.filter_append, List.map_append]
  by_cases h : d.partition = p
  · simp [h]
  · simp [h]

/-- Looking up a stretch of offsets is a stretch of the list. -/
theorem filterMap_range' (l : List M) (a n : Nat) :
    (List.range' a n).filterMap (fun o => l[o]?) = (l.drop a).take n := by
  induction n generalizing a with
  | zero => rw [List.range'_zero, List.filterMap_nil, List.take_zero]
  | succ n ih =>
      rw [List.range'_succ, List.filterMap_cons, ih]
      cases hget : l[a]? with
      | none =>
          have hlength := List.getElem?_eq_none_iff.mp hget
          rw [List.drop_eq_nil_of_le hlength, List.drop_eq_nil_of_le (Nat.le_succ_of_le hlength),
            List.take_nil, List.take_nil]
      | some m =>
          obtain ⟨hlt, rfl⟩ := List.getElem?_eq_some_iff.mp hget
          rw [List.drop_eq_getElem_cons hlt, List.take_succ_cons]

section Steps

variable {s s' : Subscription P M} {C : Subscription P M → Prop}

theorem Contiguous.start (log : P → List M) (committed : P → Nat) :
    (Subscription.start log committed).Contiguous :=
  fun _ => ⟨0, rfl, Nat.zero_le _⟩

/-- **A session goes on where it is.** -/
theorem Moves.contiguous (h : Moves C s s') (hs : s.Contiguous) : s'.Contiguous := by
  intro p
  obtain ⟨n, htaken, hle⟩ := hs p
  cases h with
  | produce q m => exact ⟨n, htaken, hle⟩
  | @poll _ q m hidle hpoll =>
      rw [poll_eq_some hpoll]
      simp only [taken, hidle, Option.toList_none, List.filter_nil, List.map_nil,
        List.append_nil] at htaken
      by_cases hq : q = p
      · subst hq
        refine ⟨n + 1, ?_, ?_⟩
        · have hstart : s.position q - n + n = s.position q := Nat.sub_add_cancel hle
          simp only [taken, Function.update_self, Option.toList_some, htaken]
          rw [Nat.add_sub_add_right, List.range'_1_concat, hstart]
          simp
        · show n + 1 ≤ Function.update s.position q (s.position q + 1) q
          rw [Function.update_self]
          omega
      · refine ⟨n, ?_, ?_⟩
        · simp only [taken, Function.update_of_ne (Ne.symm hq), Option.toList_some, htaken]
          simp [hq]
        · show n ≤ Function.update s.position q (s.position q + 1) p
          rw [Function.update_of_ne (Ne.symm hq)]
          exact hle
  | @settle q o raised hflight =>
      rw [settle_eq hflight]
      refine ⟨n, ?_, hle⟩
      rw [taken, hflight] at htaken
      rw [taken, ← htaken, offsets_append_singleton]
      by_cases hq : q = p
      · simp [hq]
      · simp [hq]
  | commit => exact ⟨n, htaken, hle⟩
  | restart => exact ⟨0, rfl, Nat.zero_le _⟩

/-- What the session has delivered of a partition is a stretch. -/
theorem Contiguous.offsets (h : s.Contiguous) (p : P) :
    ∃ a n, offsets p s.session = List.range' a n := by
  obtain ⟨n, htaken, -⟩ := h p
  have hprefix : Subscription.offsets p s.session <+: List.range' (s.position p - n) n := by
    rw [← htaken]
    exact List.prefix_append _ _
  have hlength : (Subscription.offsets p s.session).length ≤ n := by
    have hle := hprefix.length_le
    rwa [List.length_range'] at hle
  exact ⟨_, _, (List.prefix_iff_eq_take.mp hprefix).trans
    (List.take_range'_of_length_ge hlength)⟩

/-! ## Nothing is left out -/

/-- The message has been delivered, in whatever session. -/
def Delivered (s : Subscription P M) (p : P) (o : Nat) : Prop :=
  ∃ d ∈ s.history, d.partition = p ∧ d.offset = o

/-- From the offsets `base` on, everything behind the position was delivered or is in flight, and
everything behind the committed offset was delivered. -/
structure Covered (base : P → Nat) (s : Subscription P M) : Prop where
  committed : ∀ p o, base p ≤ o → o < s.committed p → s.Delivered p o
  position : ∀ p o, base p ≤ o → o < s.position p → s.Delivered p o ∨ s.inFlight = some (p, o)

omit [DecidableEq P] in
theorem Covered.start (log : P → List M) (committed : P → Nat) :
    (Subscription.start log committed).Covered committed where
  committed _ _ hbase hlt := absurd hlt (Nat.not_lt.mpr hbase)
  position _ _ hbase hlt := absurd hlt (Nat.not_lt.mpr hbase)

/-- **What is behind the committed offsets was delivered.** -/
theorem Moves.covered {base : P → Nat} (h : Moves C s s') (hs : s.Covered base) :
    s'.Covered base := by
  cases h with
  | produce => exact ⟨hs.committed, hs.position⟩
  | @poll _ q m hidle hpoll =>
      rw [poll_eq_some hpoll]
      refine ⟨hs.committed, fun p o hbase hlt => ?_⟩
      change o < Function.update s.position q (s.position q + 1) p at hlt
      by_cases hq : p = q
      · subst hq
        rw [Function.update_self] at hlt
        rcases Nat.lt_succ_iff_lt_or_eq.mp hlt with hbehind | rfl
        · rcases hs.position p o hbase hbehind with hdelivered | hflight
          · exact Or.inl hdelivered
          · rw [hidle] at hflight
            cases hflight
        · exact Or.inr rfl
      · rw [Function.update_of_ne hq] at hlt
        rcases hs.position p o hbase hlt with hdelivered | hflight
        · exact Or.inl hdelivered
        · rw [hidle] at hflight
          cases hflight
  | @settle q o' raised hflight =>
      have hhistory := history_settle hflight raised
      rw [settle_eq hflight] at hhistory ⊢
      have hmore : ∀ p o, s.Delivered p o → Delivered { s with
          inFlight := none, session := s.session ++ [⟨q, o', raised⟩] } p o := by
        rintro p o ⟨d, hd, hmessage⟩
        exact ⟨d, by rw [hhistory]; exact List.mem_append_left _ hd, hmessage⟩
      refine ⟨fun p o hbase hlt => hmore p o (hs.committed p o hbase hlt), fun p o hbase hlt =>
        Or.inl ?_⟩
      rcases hs.position p o hbase hlt with hdelivered | hother
      · exact hmore p o hdelivered
      · rw [hflight] at hother
        obtain ⟨rfl, rfl⟩ := Prod.mk.inj (Option.some.inj hother)
        exact ⟨_, by rw [hhistory]; exact List.mem_append_right _ List.mem_cons_self, rfl, rfl⟩
  | commit hidle =>
      have hall : ∀ p o, base p ≤ o → o < s.position p → s.Delivered p o := by
        intro p o hbase hlt
        rcases hs.position p o hbase hlt with hdelivered | hflight
        · exact hdelivered
        · rw [hidle] at hflight
          cases hflight
      exact ⟨hall, fun p o hbase hlt => Or.inl (hall p o hbase hlt)⟩
  | restart =>
      have hall : ∀ p o, base p ≤ o → o < s.committed p → s.restart.Delivered p o := by
        intro p o hbase hlt
        obtain ⟨d, hd, hmessage⟩ := hs.committed p o hbase hlt
        exact ⟨d, by rw [history_restart]; exact hd, hmessage⟩
      exact ⟨hall, fun p o hbase hlt => Or.inl (hall p o hbase hlt)⟩

end Steps

end Subscription

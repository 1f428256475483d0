/-
# GlobalPayments.Payments.Generator — one generator, many threads.

`generate()` reads the day, takes a number from the counter, draws a UUID and formats the three.  Only
the second is shared: threads may be anywhere in their calls, the day may change between its reading
and the number, and numbers need not be returned in order.

No two returned references are equal (`references_distinct`): the numbers are taken once each, and the
number can be read off a reference.
-/
import GlobalPayments.Library.Runs
import GlobalPayments.Payments.Reference
import Mathlib.Data.List.Nodup
import Mathlib.Logic.Function.Basic

namespace GlobalPayments.Payments

open Runs

namespace Generator

abbrev ThreadId := Nat

/-- `LocalDate.now()`, in a year of four digits. -/
structure Today extends LocalDate where
  valid : toLocalDate.Valid
  fourDigits : year ≤ 9999

/-- Where a thread stands in `generate()`. -/
inductive Phase where
  | idle
  | dated (date : Today)
  | numbered (date : Today) (seq : Nat)
  | drawn (date : Today) (seq : Nat) (uuid : UUID)

/-- The generator and its callers.  `sequence` is the number of increments, `returned` the references
in the order of their return. -/
structure Sys where
  sequence : Nat
  threads : ThreadId → Phase
  returned : List String

/-- A new generator. -/
def start : Sys where
  sequence := 0
  threads := fun _ => .idle
  returned := []

/-- The statements of `generate()`, by the thread that executes them. -/
inductive Action where
  | now (t : ThreadId) (date : Today)
  | incrementAndGet (t : ThreadId)
  | randomUUID (t : ThreadId) (uuid : UUID)
  | format (t : ThreadId)

def Sys.move (s : Sys) (t : ThreadId) (phase : Phase) : Sys :=
  { s with threads := Function.update s.threads t phase }

@[simp] theorem threads_move_self (s : Sys) (t : ThreadId) (phase : Phase) :
    (s.move t phase).threads t = phase := Function.update_self ..

@[simp] theorem threads_move_of_ne {t t' : ThreadId} (h : t' ≠ t) (s : Sys) (phase : Phase) :
    (s.move t phase).threads t' = s.threads t' := Function.update_of_ne h ..

/-- One statement. -/
def step (s : Sys) : Action → Option Sys
  | .now t date =>
      match s.threads t with
      | .idle => some (s.move t (.dated date))
      | _ => none
  | .incrementAndGet t =>
      match s.threads t with
      | .dated date =>
          some { s.move t (.numbered date (s.sequence + 1)) with sequence := s.sequence + 1 }
      | _ => none
  | .randomUUID t uuid =>
      match s.threads t with
      | .numbered date seq => some (s.move t (.drawn date seq uuid))
      | _ => none
  | .format t =>
      match s.threads t with
      | .drawn date seq uuid =>
          some { s.move t .idle with
            returned := s.returned ++ [formatReference date.toLocalDate seq uuid] }
      | _ => none

/-- The statements of one call. -/
def call (t : ThreadId) (date : Today) (uuid : UUID) : List Action :=
  [.now t date, .incrementAndGet t, .randomUUID t uuid, .format t]

/-- A call that nothing comes between is `generate`. -/
theorem run_generate {s : Sys} {t : ThreadId} (hidle : s.threads t = .idle) (date : Today)
    (uuid : UUID) :
    ∃ s', run step s (call t date uuid) = some s' ∧ s'.threads t = .idle ∧
      s'.returned = s.returned ++ [(generate s.sequence date.toLocalDate uuid).1] ∧
      s'.sequence = (generate s.sequence date.toLocalDate uuid).2 := by
  simp [run, call, step, hidle, Sys.move, generate]

/-! ## The invariant -/

/-- The number a thread has taken and not yet returned. -/
def Phase.held : Phase → Option Nat
  | .idle => none
  | .dated _ => none
  | .numbered _ seq => some seq
  | .drawn _ seq _ => some seq

/-- What a returned reference was made of. -/
structure Ticket where
  date : Today
  seq : Nat
  uuid : UUID

def Ticket.reference (ticket : Ticket) : String :=
  formatReference ticket.date.toLocalDate ticket.seq ticket.uuid

/-- The numbers in circulation: each was taken from the counter, and each is with one thread or in one
reference. -/
structure Sound (s : Sys) (tickets : List Ticket) : Prop where
  returned : s.returned = tickets.map Ticket.reference
  issued : ∀ ticket ∈ tickets, 1 ≤ ticket.seq ∧ ticket.seq ≤ s.sequence
  held : ∀ t, ∀ seq ∈ (s.threads t).held, 1 ≤ seq ∧ seq ≤ s.sequence
  once : (tickets.map Ticket.seq).Nodup
  pending : ∀ t, ∀ seq ∈ (s.threads t).held, seq ∉ tickets.map Ticket.seq
  distinct : ∀ t t', ∀ seq ∈ (s.threads t).held, seq ∈ (s.threads t').held → t = t'

theorem sound_start : Sound start [] :=
  ⟨rfl, fun _ h => absurd h List.not_mem_nil, nofun, .nil, nofun, nofun⟩

/-! ## What a statement can do -/

/-- **Every statement moves one thread on**, and two of them do more. -/
theorem step_cases {s s' : Sys} {a : Action} (h : step s a = some s') :
    (∃ t phase, s' = s.move t phase ∧ phase.held = (s.threads t).held) ∨
      (∃ t date, (s.threads t).held = none ∧
        s' = { s.move t (.numbered date (s.sequence + 1)) with sequence := s.sequence + 1 }) ∨
      ∃ t, ∃ date : Today, ∃ seq uuid, (s.threads t).held = some seq ∧
        s' = { s.move t .idle with
          returned := s.returned ++ [formatReference date.toLocalDate seq uuid] } := by
  cases a with
  | now t date =>
      simp only [step] at h
      split at h <;> cases h
      rename_i hphase
      exact Or.inl ⟨t, _, rfl, by rw [hphase]; rfl⟩
  | incrementAndGet t =>
      simp only [step] at h
      split at h <;> cases h
      rename_i date hphase
      exact Or.inr (Or.inl ⟨t, date, by rw [hphase]; rfl, rfl⟩)
  | randomUUID t uuid =>
      simp only [step] at h
      split at h <;> cases h
      rename_i hphase
      exact Or.inl ⟨t, _, rfl, by rw [hphase]; rfl⟩
  | format t =>
      simp only [step] at h
      split at h <;> cases h
      rename_i date seq uuid hphase
      exact Or.inr (Or.inr ⟨t, date, seq, uuid, by rw [hphase]; rfl, rfl⟩)

/-- What the threads hold after one of them has moved. -/
theorem held_move {s : Sys} {t t' : ThreadId} {phase : Phase} {seq : Nat}
    (h : seq ∈ ((s.move t phase).threads t').held) :
    (t' = t ∧ seq ∈ phase.held) ∨ (t' ≠ t ∧ seq ∈ (s.threads t').held) := by
  by_cases ht : t' = t
  · subst ht
    rw [threads_move_self] at h
    exact Or.inl ⟨rfl, h⟩
  · rw [threads_move_of_ne ht] at h
    exact Or.inr ⟨ht, h⟩

section Steps

variable {s : Sys} {tickets : List Ticket}

/-- A thread keeps its number while it moves on. -/
theorem Sound.move (h : Sound s tickets) {t : ThreadId} {phase : Phase}
    (hheld : phase.held = (s.threads t).held) : Sound (s.move t phase) tickets := by
  have hsame : ∀ t', ((s.move t phase).threads t').held = (s.threads t').held := by
    intro t'
    by_cases ht : t' = t
    · subst ht
      rw [threads_move_self, hheld]
    · rw [threads_move_of_ne ht]
  refine ⟨h.returned, h.issued, ?_, h.once, ?_, ?_⟩
  · intro t' seq hseq
    rw [hsame] at hseq
    exact h.held t' seq hseq
  · intro t' seq hseq
    rw [hsame] at hseq
    exact h.pending t' seq hseq
  · intro t₁ t₂ seq h₁ h₂
    rw [hsame] at h₁ h₂
    exact h.distinct t₁ t₂ seq h₁ h₂

/-- A new number is larger than every number in circulation. -/
theorem Sound.increment (h : Sound s tickets) (t : ThreadId) (date : Today) :
    Sound { s.move t (.numbered date (s.sequence + 1)) with sequence := s.sequence + 1 }
      tickets := by
  refine ⟨h.returned, ?_, ?_, h.once, ?_, ?_⟩
  · intro ticket hticket
    obtain ⟨hpos, hle⟩ := h.issued ticket hticket
    exact ⟨hpos, Nat.le_succ_of_le hle⟩
  · intro t' seq hseq
    rcases held_move hseq with ⟨-, hnew⟩ | ⟨-, hold⟩
    · obtain rfl := Option.some.inj hnew
      exact ⟨Nat.succ_pos _, Nat.le_refl _⟩
    · obtain ⟨hpos, hle⟩ := h.held t' seq hold
      exact ⟨hpos, Nat.le_succ_of_le hle⟩
  · intro t' seq hseq hmem
    rcases held_move hseq with ⟨-, hnew⟩ | ⟨-, hold⟩
    · obtain rfl := Option.some.inj hnew
      obtain ⟨ticket, hticket, heq⟩ := List.mem_map.mp hmem
      have hle := (h.issued ticket hticket).2
      omega
    · exact h.pending t' seq hold hmem
  · intro t₁ t₂ seq h₁ h₂
    rcases held_move h₁ with ⟨rfl, hnew₁⟩ | ⟨-, hold₁⟩
    · rcases held_move h₂ with ⟨rfl, -⟩ | ⟨-, hold₂⟩
      · rfl
      · obtain rfl := Option.some.inj hnew₁
        have hle := (h.held t₂ _ hold₂).2
        omega
    · rcases held_move h₂ with ⟨rfl, hnew₂⟩ | ⟨-, hold₂⟩
      · obtain rfl := Option.some.inj hnew₂
        have hle := (h.held t₁ _ hold₁).2
        omega
      · exact h.distinct t₁ t₂ seq hold₁ hold₂

/-- A number goes from its thread into a reference. -/
theorem Sound.format (h : Sound s tickets) {t : ThreadId} {seq : Nat}
    (hseq : (s.threads t).held = some seq) (date : Today) (uuid : UUID) :
    Sound { s.move t .idle with
        returned := s.returned ++ [formatReference date.toLocalDate seq uuid] }
      (tickets ++ [⟨date, seq, uuid⟩]) := by
  have hself : seq ∈ (s.threads t).held := hseq
  have hothers : ∀ t' n, n ∈ ((s.move t .idle).threads t').held →
      t' ≠ t ∧ n ∈ (s.threads t').held := by
    intro t' n hn
    exact (held_move hn).resolve_left fun hidle => absurd hidle.2 nofun
  refine ⟨?_, ?_, ?_, ?_, ?_, ?_⟩
  · show s.returned ++ [_] = _
    rw [h.returned, List.map_append]
    rfl
  · intro ticket hticket
    rcases List.mem_append.mp hticket with hold | hnew
    · exact h.issued ticket hold
    · obtain rfl := List.mem_singleton.mp hnew
      exact h.held t seq hself
  · intro t' n hn
    exact h.held t' n (hothers t' n hn).2
  · rw [List.map_append]
    refine List.nodup_append.mpr ⟨h.once, List.nodup_singleton _, ?_⟩
    rintro n hn m hm rfl
    obtain rfl := List.mem_singleton.mp hm
    exact h.pending t _ hself hn
  · intro t' n hn hmem
    obtain ⟨hne, hold⟩ := hothers t' n hn
    rw [List.map_append, List.mem_append] at hmem
    rcases hmem with hissued | hsame
    · exact h.pending t' n hold hissued
    · obtain rfl := List.mem_singleton.mp hsame
      exact hne (h.distinct t' t _ hold hself)
  · intro t₁ t₂ n h₁ h₂
    exact h.distinct t₁ t₂ n (hothers t₁ n h₁).2 (hothers t₂ n h₂).2

end Steps

/-! ## Every run -/

theorem sound_step {s s' : Sys} {a : Action} (h : ∃ tickets, Sound s tickets)
    (hstep : step s a = some s') : ∃ tickets, Sound s' tickets := by
  obtain ⟨tickets, h⟩ := h
  rcases step_cases hstep with ⟨t, phase, rfl, hheld⟩ | ⟨t, date, -, rfl⟩ |
    ⟨t, date, seq, uuid, hseq, rfl⟩
  · exact ⟨tickets, h.move hheld⟩
  · exact ⟨tickets, h.increment t date⟩
  · exact ⟨_, h.format hseq date uuid⟩

/-- Numbers in circulation make different references, until the counter has run through all 64-bit
numbers. -/
theorem Sound.nodup {s : Sys} {tickets : List Ticket} (h : Sound s tickets)
    (hwrap : s.sequence ≤ 2 ^ 64) : s.returned.Nodup := by
  rw [h.returned]
  refine List.Nodup.map_on ?_ (List.Nodup.of_map _ h.once)
  intro ticket hticket ticket' hticket' heq
  have hlength : ∀ date : Today, date.toLocalDate.format.length = 8 :=
    fun date => (LocalDate.length_format date.valid).2.mpr date.fourDigits
  have hrange : ∀ ticket ∈ tickets, 1 ≤ ticket.seq ∧ ticket.seq ≤ 2 ^ 64 :=
    fun ticket hmem => ⟨(h.issued ticket hmem).1, Nat.le_trans (h.issued ticket hmem).2 hwrap⟩
  have hnumber := formatReference_number (hlength _) (hlength _) (hrange _ hticket)
    (hrange _ hticket') heq
  exact List.inj_on_of_nodup_map h.once hticket hticket' hnumber

/-- **All returned references are different**, whatever threads call the generator, however their
statements come between each other, and whatever days and UUIDs they see. -/
theorem references_distinct {trace : List Action} {s : Sys} (hrun : run step start trace = some s)
    (hwrap : s.sequence ≤ 2 ^ 64) : s.returned.Nodup := by
  obtain ⟨tickets, hsound⟩ := run_invariant (I := fun s => ∃ tickets, Sound s tickets)
    (fun _ _ _ h hstep => sound_step h hstep) ⟨[], sound_start⟩ hrun
  exact hsound.nodup hwrap

/-- Around midnight: thread 0 reads the old day, thread 1 comes in between with the new one and takes
the first number, and both draw the same suffix. -/
theorem references_distinct_midnight :
    ∃ s, run step start
        [.now 0 ⟨⟨2024, 3, 15⟩, by decide, by decide⟩, .now 1 ⟨⟨2024, 3, 16⟩, by decide, by decide⟩,
          .incrementAndGet 1, .incrementAndGet 0, .randomUUID 0 0, .randomUUID 1 0, .format 0,
          .format 1] = some s ∧
      s.returned = ["PAY-20240315-000002-0000", "PAY-20240316-000001-0000"] ∧
      s.returned.Nodup := by
  obtain ⟨s, hrun, hreturned, hwrap⟩ : ∃ s, run step start
      [.now 0 ⟨⟨2024, 3, 15⟩, by decide, by decide⟩, .now 1 ⟨⟨2024, 3, 16⟩, by decide, by decide⟩,
        .incrementAndGet 1, .incrementAndGet 0, .randomUUID 0 0, .randomUUID 1 0, .format 0,
        .format 1] = some s ∧
      s.returned = ["PAY-20240315-000002-0000", "PAY-20240316-000001-0000"] ∧
      s.sequence ≤ 2 ^ 64 := ⟨_, rfl, by decide, by decide⟩
  exact ⟨s, hrun, hreturned, references_distinct hrun hwrap⟩

end Generator

end GlobalPayments.Payments

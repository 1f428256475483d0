/-
# Pattern — anchored patterns of fixed width.

A pattern is one class of characters for each place, as in `/^AB-\d{4}$/`: literal text and repeated
classes one after the other, no alternatives and no stars.  It accepts exactly the texts of its
length whose characters are in the classes of their places (`accepts_append`, `accepts_repeated_iff`
take a text apart along the pattern).
-/
import Mathlib.Data.List.Basic

/-- One class of characters for each place. -/
abbrev Pattern := List (Char → Bool)

namespace Pattern

/-! ## Patterns -/

/-- The text itself. -/
def literal (text : String) : Pattern := text.toList.map fun c x => x == c

/-- `class{n}`. -/
def repeated (n : Nat) (accept : Char → Bool) : Pattern := List.replicate n accept

/-- Whether the pattern accepts the whole text. -/
def accepts : Pattern → List Char → Bool
  | [], [] => true
  | accept :: p, c :: cs => accept c && accepts p cs
  | [], _ :: _ => false
  | _ :: _, [] => false

/-- `\d`. -/
def digit (c : Char) : Bool := c.isDigit

/-- `[A-Z0-9]`. -/
def upperAlphanumeric (c : Char) : Bool := c.isUpper || c.isDigit

/-! ## Taking texts apart -/

theorem length_of_accepts : ∀ {p : Pattern} {cs : List Char}, accepts p cs = true →
    cs.length = p.length
  | [], [], _ => rfl
  | accept :: p, c :: cs, h => by
      rw [accepts, Bool.and_eq_true] at h
      rw [List.length_cons, List.length_cons, length_of_accepts h.2]
  | [], _ :: _, h => by cases h
  | _ :: _, [], h => by cases h

/-- A pattern in two parts accepts a text in two parts of the same lengths part by part. -/
theorem accepts_append : ∀ {p q : Pattern} {cs ds : List Char}, cs.length = p.length →
    accepts (p ++ q) (cs ++ ds) = (accepts p cs && accepts q ds)
  | [], q, [], ds, _ => rfl
  | accept :: p, q, c :: cs, ds, h => by
      have ih : accepts (p ++ q) (cs ++ ds) = (accepts p cs && accepts q ds) :=
        accepts_append (Nat.succ.inj h)
      rw [List.cons_append, List.cons_append, accepts, ih, accepts, Bool.and_assoc]
  | [], _, _ :: _, _, h => by cases h
  | _ :: _, _, [], _, h => by cases h

/-- A text is accepted part by part. -/
theorem accepts_append_iff {p q : Pattern} {cs : List Char} : accepts (p ++ q) cs = true ↔
    ∃ as bs, cs = as ++ bs ∧ accepts p as = true ∧ accepts q bs = true := by
  constructor
  · intro h
    have hlength := length_of_accepts h
    rw [List.length_append] at hlength
    have htake : (cs.take p.length).length = p.length := by
      rw [List.length_take]
      omega
    rw [← List.take_append_drop p.length cs, accepts_append htake, Bool.and_eq_true] at h
    exact ⟨_, _, (List.take_append_drop p.length cs).symm, h⟩
  · rintro ⟨as, bs, rfl, hp, hq⟩
    rw [accepts_append (length_of_accepts hp), hp, hq, Bool.and_self]

theorem accepts_join {p q : Pattern} {as bs : List Char} (hp : accepts p as = true)
    (hq : accepts q bs = true) : accepts (p ++ q) (as ++ bs) = true :=
  accepts_append_iff.mpr ⟨as, bs, rfl, hp, hq⟩

/-- The classes do not tell a character from its image. -/
def Invariant (f : Char → Char) (p : Pattern) : Prop := ∀ accept ∈ p, ∀ c, accept (f c) = accept c

/-- Then a text is accepted with its image. -/
theorem Invariant.accepts_map {f : Char → Char} : ∀ {p : Pattern} {cs : List Char},
    Invariant f p → accepts p (cs.map f) = accepts p cs
  | [], [], _ => rfl
  | accept :: p, c :: cs, h => by
      have ih : accepts p (cs.map f) = accepts p cs :=
        Invariant.accepts_map fun accept haccept => h accept (List.mem_cons_of_mem _ haccept)
      rw [List.map_cons, accepts, ih, h accept List.mem_cons_self, accepts]
  | [], _ :: _, _ => rfl
  | _ :: _, [], _ => rfl

theorem Invariant.append {f : Char → Char} {p q : Pattern} (hp : Invariant f p)
    (hq : Invariant f q) : Invariant f (p ++ q) := by
  intro accept haccept
  rcases List.mem_append.mp haccept with h | h
  · exact hp accept h
  · exact hq accept h

theorem Invariant.repeated {f : Char → Char} {accept : Char → Bool}
    (h : ∀ c, accept (f c) = accept c) (n : Nat) : Invariant f (repeated n accept) := by
  intro accept' haccept
  rw [List.eq_of_mem_replicate haccept]
  exact h

theorem accepts_literal_self (text : String) : (literal text).accepts text.toList = true := by
  unfold literal
  induction text.toList with
  | nil => rfl
  | cons c cs ih => rw [List.map_cons, accepts, ih, beq_self_eq_true, Bool.true_and]

theorem accepts_repeated_iff {n : Nat} {accept : Char → Bool} {cs : List Char} :
    (repeated n accept).accepts cs = true ↔ cs.length = n ∧ ∀ c ∈ cs, accept c = true := by
  unfold repeated
  induction n generalizing cs with
  | zero =>
      cases cs with
      | nil => simp [accepts]
      | cons c cs => simp [accepts]
  | succ n ih =>
      cases cs with
      | nil => simp [accepts, List.replicate_succ]
      | cons c cs =>
          rw [List.replicate_succ, accepts, Bool.and_eq_true, ih, List.forall_mem_cons,
            List.length_cons, Nat.add_right_cancel_iff, and_left_comm]

theorem repeated_add (m n : Nat) (accept : Char → Bool) :
    repeated (m + n) accept = repeated m accept ++ repeated n accept := by
  unfold repeated
  exact List.replicate_append_replicate.symm

theorem accepts_literal_iff {text : String} {cs : List Char} :
    (literal text).accepts cs = true ↔ cs = text.toList := by
  unfold literal
  induction text.toList generalizing cs with
  | nil => cases cs <;> simp [accepts]
  | cons c text ih => cases cs <;> simp [accepts, ih]

theorem accepts_singleton_iff {accept : Char → Bool} {cs : List Char} :
    accepts [accept] cs = true ↔ ∃ c, cs = [c] ∧ accept c = true := by
  rcases cs with _ | ⟨c, _ | ⟨d, cs⟩⟩
  · simp [accepts]
  · simp [accepts]
  · simp [accepts]

end Pattern

/-
# Versioned — a keyed table written by compare-and-set on a row version.

`Store.update` is the optimistic write `UPDATE … WHERE key = ? AND version = ?`: it replaces the row
only while the stored version is the one the writer read, and refuses otherwise.  The store keeps,
beside the table, the log of every committed write with the row its writer had read.

`Consistent R` is the invariant that the version check buys: per key the log is a chain in which
each write had read exactly the row before it, raised the version by one, and moved the row along
`R`.  Nobody overwrites a row they did not see (`loaded_current`), so whatever `R` keeps is kept by
the table for ever (`stored_of_log`), in any interleaving of readers and writers.
-/
import Mathlib.Data.List.Chain
import Mathlib.Logic.Relation

namespace Versioned

universe u v w

/-- One committed write: who wrote (`none` for rows the store starts with), the row the writer had
read (`none` for an insertion) and the row that was stored. -/
structure Write (W : Type u) (Row : Type v) where
  writer : Option W
  read : Option Row
  row : Row
  deriving DecidableEq, Repr

/-- The committed table and the log of the writes that made it, oldest first. -/
structure Store (W : Type u) (Row : Type v) where
  table : List Row
  log : List (Write W Row)
  deriving DecidableEq, Repr

variable {W : Type u} {Row : Type v} {K : Type w} [DecidableEq K]

/-! ## Operations -/

section Operations

variable (key : Row → K) (version : Row → Nat)

/-- The store holding `rows`, whose log lists them as inserted by nobody. -/
def Store.start (rows : List Row) : Store W Row where
  table := rows
  log := rows.map fun r => ⟨none, none, r⟩

/-- Put `row` in the place of the row with its key. -/
def replaceRow (row : Row) (table : List Row) : List Row :=
  table.map fun r => if key r = key row then row else r

/-- `UPDATE … WHERE key = ? AND version = ?`, refused when no row matches. -/
def Store.update (s : Store W Row) (w : W) (loaded row : Row) : Option (Store W Row) :=
  if s.table.any fun r => key r = key loaded && version r = version loaded then
    some { table := replaceRow key row s.table
           log := s.log ++ [⟨some w, some loaded, row⟩] }
  else none

/-- `INSERT`, refused when the key is taken. -/
def Store.insert (s : Store W Row) (w : W) (row : Row) : Option (Store W Row) :=
  if s.table.any fun r => key r = key row then none
  else some { table := s.table ++ [row], log := s.log ++ [⟨some w, none, row⟩] }

/-- The writes of one key, oldest first. -/
def Store.history (s : Store W Row) (k : K) : List (Write W Row) :=
  s.log.filter fun w => key w.row = k

end Operations

/-! ## Rows found by key -/

section Lookup

variable {key : Row → K}

theorem filter_key_of_nodup {rows : List Row} (h : (rows.map key).Nodup) (k : K) :
    rows.filter (fun r => key r = k) = (rows.find? fun r => key r = k).toList := by
  induction rows with
  | nil => rfl
  | cons r rows ih =>
      simp only [List.map_cons, List.nodup_cons, List.mem_map, not_exists, not_and] at h
      by_cases hk : key r = k
      · have hrest : rows.filter (fun r => key r = k) = [] := by
          refine List.filter_eq_nil_iff.mpr fun x hx hxk => h.1 x hx ?_
          rw [hk]
          simpa using hxk
        simp [hk, hrest]
      · simp [hk, ih h.2]

theorem mem_iff_find_key {rows : List Row} (h : (rows.map key).Nodup) {r : Row} :
    r ∈ rows ↔ rows.find? (fun x => key x = key r) = some r := by
  constructor
  · intro hr
    have hmem : r ∈ rows.filter (fun x => key x = key r) := by simp [hr]
    rw [filter_key_of_nodup h] at hmem
    simpa using hmem
  · exact List.mem_of_find?_eq_some

/-- What the new row has in common with the one it replaces does not change. -/
theorem map_replaceRow_of_agree {β : Type*} {f : Row → β} {row : Row} {table : List Row}
    (h : ∀ r ∈ table, key r = key row → f r = f row) :
    (replaceRow key row table).map f = table.map f := by
  rw [replaceRow, List.map_map]
  refine List.map_congr_left fun r hr => ?_
  by_cases hkey : key r = key row
  · simp [hkey, h r hr hkey]
  · simp [hkey]

theorem map_key_replaceRow (row : Row) (table : List Row) :
    (replaceRow key row table).map key = table.map key := by
  simp only [replaceRow, List.map_map]
  refine List.map_congr_left fun r _ => ?_
  by_cases h : key r = key row <;> simp [h]

theorem find_replaceRow (row : Row) (table : List Row) (k : K) :
    (replaceRow key row table).find? (fun r => key r = k) =
      (table.find? fun r => key r = k).map fun r => if key r = key row then row else r := by
  rw [replaceRow, List.find?_map]
  congr 1
  refine congrFun (congrArg List.find? ?_) table
  funext r
  by_cases h : key r = key row <;> simp [h]

theorem find_replaceRow_self {row r : Row} {table : List Row}
    (h : table.find? (fun r => key r = key row) = some r) :
    (replaceRow key row table).find? (fun r => key r = key row) = some row := by
  have hr : key r = key row := by simpa using List.find?_some h
  rw [find_replaceRow, h, Option.map_some, if_pos hr]

theorem find_replaceRow_of_ne {row : Row} {table : List Row} {k : K} (h : k ≠ key row) :
    (replaceRow key row table).find? (fun r => key r = k) = table.find? fun r => key r = k := by
  rw [find_replaceRow]
  cases hr : table.find? (fun r => key r = k) with
  | none => rfl
  | some r =>
      have hrk : key r = k := by simpa using List.find?_some hr
      rw [Option.map_some, if_neg (by rw [hrk]; exact h)]

end Lookup

/-! ## What one operation does -/

section Steps

variable {key : Row → K} {version : Row → Nat} {s s' : Store W Row} {w : W} {loaded row : Row}

theorem Store.update_cases (h : s.update key version w loaded row = some s') :
    (∃ r ∈ s.table, key r = key loaded ∧ version r = version loaded) ∧
      s' = { table := replaceRow key row s.table, log := s.log ++ [⟨some w, some loaded, row⟩] } := by
  unfold Store.update at h
  split at h
  · rename_i hany
    refine ⟨?_, by simpa using h.symm⟩
    simpa [List.any_eq_true] using hany
  · cases h

theorem Store.insert_cases (h : s.insert key w row = some s') :
    (∀ r ∈ s.table, key r ≠ key row) ∧
      s' = { table := s.table ++ [row], log := s.log ++ [⟨some w, none, row⟩] } := by
  unfold Store.insert at h
  split at h
  · cases h
  · rename_i hany
    refine ⟨?_, by simpa using h.symm⟩
    simpa [List.any_eq_true] using hany

theorem history_append (k : K) (x : Write W Row) (t : List Row) :
    Store.history key { table := t, log := s.log ++ [x] } k =
      s.history key k ++ if key x.row = k then [x] else [] := by
  by_cases h : key x.row = k <;> simp [Store.history, List.filter_append, h]

end Steps

/-! ## The invariant of compare-and-set -/

/-- `b` is a legal successor of `a` in the history of one key: its writer had read exactly the row
`a` stored, raised the version by one and moved the row along `R`. -/
def Follows (version : Row → Nat) (R : Row → Row → Prop) (a b : Write W Row) : Prop :=
  b.read = some a.row ∧ version b.row = version a.row + 1 ∧ R a.row b.row

/-- **The store invariant.**  Keys are unique, every key's history is a chain of legal successors
that starts with an insertion, and the table holds the last row of each history. -/
structure Consistent (key : Row → K) (version : Row → Nat) (R : Row → Row → Prop)
    (s : Store W Row) : Prop where
  unique : (s.table.map key).Nodup
  chained : ∀ k, (s.history key k).IsChain (Follows version R)
  inserted : ∀ k, ∀ x ∈ (s.history key k).head?, x.read = none
  current : ∀ k, s.table.find? (fun r => key r = k) = (s.history key k).getLast?.map (·.row)

section Invariant

variable {key : Row → K} {version : Row → Nat} {R : Row → Row → Prop}
variable {s s' : Store W Row} {w : W} {loaded row : Row}

theorem Consistent.start {rows : List Row} (h : (rows.map key).Nodup) :
    Consistent key version R (Store.start (W := W) rows) := by
  have hist : ∀ k, (Store.start (W := W) rows).history key k =
      (rows.find? fun r => key r = k).toList.map fun r => ⟨none, none, r⟩ := by
    intro k
    rw [← filter_key_of_nodup h, Store.history, Store.start, List.filter_map]
    rfl
  refine ⟨h, fun k => ?_, fun k => ?_, fun k => ?_⟩
  · rw [hist]
    cases rows.find? (fun r => key r = k) <;> simp
  · rw [hist]
    cases rows.find? (fun r => key r = k) <;> simp
  · rw [hist]
    show rows.find? (fun r => key r = k) = _
    cases rows.find? (fun r => key r = k) <;> simp

/-- Versions rise strictly along a history. -/
theorem Consistent.versions_rise (h : Consistent key version R s) (k : K) :
    (s.history key k).Pairwise fun a b => version a.row < version b.row := by
  let older : Write W Row → Write W Row → Prop := fun a b => version a.row < version b.row
  have : Trans older older older := ⟨fun hab hbc => Nat.lt_trans hab hbc⟩
  have hchain : (s.history key k).IsChain older := (h.chained k).imp fun a b hab => by
    show version a.row < version b.row
    have := hab.2.1
    omega
  exact List.isChain_iff_pairwise.mp hchain

/-- **The version check identifies the row.**  A stored row with the key and the version of a row
that was once committed is that row. -/
theorem Consistent.loaded_current (h : Consistent key version R s) {x : Write W Row}
    (hx : x ∈ s.log) {r : Row} (hr : r ∈ s.table) (hk : key r = key x.row)
    (hv : version r = version x.row) : r = x.row := by
  have hmem : x ∈ s.history key (key r) := by simp [Store.history, hx, hk]
  have hlast := h.current (key r)
  rw [(mem_iff_find_key h.unique).mp hr] at hlast
  obtain ⟨y, hy, hyr⟩ := Option.map_eq_some_iff.mp hlast.symm
  obtain ⟨front, hfront⟩ := List.getLast?_eq_some_iff.mp hy
  have hrise := h.versions_rise (key r)
  rw [hfront] at hmem hrise
  -- an earlier write of the history has a smaller version than the stored row
  rcases List.mem_append.mp hmem with hmem | hmem
  · have hlt := (List.pairwise_append.mp hrise).2.2 x hmem y (by simp)
    rw [hyr] at hlt
    omega
  · rw [← hyr, List.mem_singleton.mp hmem]

/-- An update keeps the invariant when it moves a committed row along `R` and raises its version. -/
theorem Consistent.update (h : Consistent key version R s)
    (hloaded : ∃ x ∈ s.log, x.row = loaded) (hkey : key row = key loaded)
    (hversion : version row = version loaded + 1) (hR : R loaded row)
    (hs : s.update key version w loaded row = some s') : Consistent key version R s' := by
  obtain ⟨⟨r, hr, hrk, hrv⟩, rfl⟩ := Store.update_cases hs
  obtain ⟨x, hx, rfl⟩ := hloaded
  obtain rfl := h.loaded_current hx hr hrk hrv
  -- the row read is the stored one, so it is the last of its history
  have hlast := h.current (key x.row)
  rw [(mem_iff_find_key h.unique).mp hr] at hlast
  refine ⟨?_, fun k => ?_, fun k => ?_, fun k => ?_⟩
  · show ((replaceRow key row s.table).map key).Nodup
    rw [map_key_replaceRow]
    exact h.unique
  · rw [history_append]
    split
    · rename_i hk
      rw [← hk, hkey]
      refine (h.chained _).append (List.IsChain.singleton _) ?_
      intro a ha b hb
      obtain rfl : _ = b := by simpa using hb
      rw [Option.mem_def.mp ha, Option.map_some, Option.some.injEq] at hlast
      exact ⟨congrArg some hlast, by rw [← hlast]; exact hversion, by rw [← hlast]; exact hR⟩
    · simpa using h.chained k
  · rw [history_append]
    intro y hy
    by_cases hk : key row = k
    · have hne : s.history key k ≠ [] := by
        intro hnil
        rw [← hkey, hk, hnil] at hlast
        simp at hlast
      refine h.inserted k y ?_
      rwa [List.head?_append_of_ne_nil _ hne] at hy
    · simp only [hk, if_false, List.append_nil] at hy
      exact h.inserted k y hy
  · rw [history_append]
    show (replaceRow key row s.table).find? _ = _
    by_cases hk : key row = k
    · subst hk
      rw [← hkey] at hlast
      have hfind : s.table.find? (fun r => key r = key row) = some x.row := by
        rw [hkey]
        exact (mem_iff_find_key h.unique).mp hr
      rw [find_replaceRow_self hfind]
      simp
    · rw [find_replaceRow_of_ne (Ne.symm hk), h.current k]
      simp [hk]

/-- An insertion under a free key keeps the invariant. -/
theorem Consistent.insert (h : Consistent key version R s)
    (hs : s.insert key w row = some s') : Consistent key version R s' := by
  obtain ⟨hfree, rfl⟩ := Store.insert_cases hs
  have hempty : s.history key (key row) = [] := by
    have hnone : s.table.find? (fun r => key r = key row) = none := by
      simpa using hfree
    rw [h.current, Option.map_eq_none_iff] at hnone
    simpa using hnone
  refine ⟨?_, fun k => ?_, fun k => ?_, fun k => ?_⟩
  · rw [List.map_append, List.nodup_append]
    refine ⟨h.unique, by simp, ?_⟩
    intro a ha b hb
    obtain ⟨r, hr, rfl⟩ := List.mem_map.mp ha
    obtain rfl : b = key row := by simpa using hb
    exact hfree r hr
  · rw [history_append]
    split
    · rename_i hk
      rw [← hk, hempty]
      simp
    · simpa using h.chained k
  · rw [history_append]
    by_cases hk : key row = k
    · rw [← hk, hempty]
      simp
    · simpa [hk] using h.inserted k
  · rw [history_append, List.find?_append]
    by_cases hk : key row = k
    · rw [← hk, hempty]
      have hnone : s.table.find? (fun r => key r = key row) = none := by simpa using hfree
      simp [hnone]
    · rw [h.current k]
      simp [hk]

/-! ## What the invariant gives -/

/-- Every stored row was committed. -/
theorem Consistent.logged (h : Consistent key version R s) {r : Row} (hr : r ∈ s.table) :
    ∃ x ∈ s.log, x.row = r := by
  have hlast := h.current (key r)
  rw [(mem_iff_find_key h.unique).mp hr] at hlast
  obtain ⟨y, hy, hyr⟩ := Option.map_eq_some_iff.mp hlast.symm
  exact ⟨y, (List.mem_filter.mp (List.mem_of_getLast? hy)).1, hyr⟩

theorem isChain_reaches_last {S : Write W Row → Write W Row → Prop} {l : List (Write W Row)}
    (hl : l.IsChain S) {x y : Write W Row} (hx : x ∈ l) (hy : l.getLast? = some y) :
    Relation.ReflTransGen S x y := by
  induction l generalizing x with
  | nil => cases hx
  | cons a l ih =>
      cases l with
      | nil =>
          obtain rfl : x = a := by simpa using hx
          obtain rfl : x = y := by simpa using hy
          exact .refl
      | cons b l =>
          rw [List.isChain_cons_cons] at hl
          have hlast : (b :: l).getLast? = some y := by simpa using hy
          rcases List.mem_cons.mp hx with rfl | hx
          · exact .head hl.1 (ih hl.2 (by simp) hlast)
          · exact ih hl.2 hx hlast

/-- In a chain everything but the first item has a predecessor. -/
theorem isChain_predecessor {S : Write W Row → Write W Row → Prop} {l : List (Write W Row)}
    (hl : l.IsChain S) {x : Write W Row} (hx : x ∈ l) : l.head? = some x ∨ ∃ y ∈ l, S y x := by
  induction l with
  | nil => cases hx
  | cons a l ih =>
      rcases List.mem_cons.mp hx with rfl | hx
      · exact Or.inl rfl
      · refine Or.inr ?_
        rcases ih hl.tail hx with hhead | ⟨y, hy, hS⟩
        · refine ⟨a, List.mem_cons_self, ?_⟩
          obtain ⟨l', rfl⟩ := List.head?_eq_some_iff.mp hhead
          exact (List.isChain_cons_cons.mp hl).1
        · exact ⟨y, List.mem_cons_of_mem a hy, hS⟩

/-- **The row an update read was committed by the write before it.** -/
theorem Consistent.predecessor (h : Consistent key version R s) {x : Write W Row} (hx : x ∈ s.log)
    {r : Row} (hread : x.read = some r) :
    ∃ y ∈ s.log, y.row = r ∧ key r = key x.row ∧ version x.row = version r + 1 ∧ R r x.row := by
  have hmem : x ∈ s.history key (key x.row) := by simp [Store.history, hx]
  rcases isChain_predecessor (h.chained _) hmem with hhead | ⟨y, hy, hfollows⟩
  · rw [h.inserted _ x hhead] at hread
    cases hread
  · obtain ⟨hylog, hykey⟩ := List.mem_filter.mp hy
    obtain ⟨hyread, hfollows⟩ := hfollows
    rw [hread] at hyread
    obtain rfl := Option.some.inj hyread
    exact ⟨y, hylog, rfl, of_decide_eq_true hykey, hfollows⟩

/-- A key is inserted once. -/
theorem Consistent.insertion_unique (h : Consistent key version R s) {x y : Write W Row}
    (hx : x ∈ s.log) (hy : y ∈ s.log) (hxread : x.read = none) (hyread : y.read = none)
    (hkey : key x.row = key y.row) : x = y := by
  have hfirst : ∀ z ∈ s.log, z.read = none → key z.row = key y.row →
      (s.history key (key y.row)).head? = some z := by
    intro z hz hzread hzkey
    have hmem : z ∈ s.history key (key y.row) := by simp [Store.history, hz, hzkey]
    rcases isChain_predecessor (h.chained _) hmem with hhead | ⟨w, -, hfollows⟩
    · exact hhead
    · rw [hfollows.1] at hzread
      cases hzread
  have heq := hfirst x hx hxread hkey
  rw [hfirst y hy hyread rfl] at heq
  exact (Option.some.inj heq).symm

/-- **The rule for the log.**  What holds of every insertion, and passes from each write to the write
that read its row, holds of every write. -/
theorem Consistent.log_induction (h : Consistent key version R s) {P : Write W Row → Prop}
    (hinsert : ∀ x ∈ s.log, x.read = none → P x)
    (hupdate : ∀ x ∈ s.log, ∀ y ∈ s.log, x.read = some y.row → P y → P x) :
    ∀ x ∈ s.log, P x := by
  -- each write has a greater version than the one it read
  suffices hall : ∀ n, ∀ x ∈ s.log, version x.row = n → P x from fun x hx => hall _ x hx rfl
  intro n
  induction n with
  | zero =>
      intro x hx hversion
      cases hread : x.read with
      | none => exact hinsert x hx hread
      | some r =>
          obtain ⟨y, hy, rfl, -, hnext, -⟩ := h.predecessor hx hread
          omega
  | succ n ih =>
      intro x hx hversion
      cases hread : x.read with
      | none => exact hinsert x hx hread
      | some r =>
          obtain ⟨y, hy, rfl, -, hnext, -⟩ := h.predecessor hx hread
          exact hupdate x hx y hy hread (ih y hy (by omega))

/-- A figure that each marked write raises by one, and no other write changes, grows along a chain by
the number of marked writes. -/
theorem isChain_counts {f : Row → Int} {p : Write W Row → Bool} {x y : Write W Row}
    {l : List (Write W Row)}
    (hl : (x :: l).IsChain fun a b => f b.row = f a.row + if p b then 1 else 0)
    (hlast : (x :: l).getLast? = some y) : f y.row = f x.row + (l.countP p : Nat) := by
  induction l generalizing x with
  | nil =>
      obtain rfl : x = y := by simpa using hlast
      simp
  | cons b l ih =>
      obtain ⟨hb, hl⟩ := List.isChain_cons_cons.mp hl
      have hrest := ih hl (by simpa using hlast)
      rw [List.countP_cons, hrest, hb]
      by_cases hmarked : p b = true
      · simp only [hmarked, if_true]
        omega
      · simp only [hmarked]
        simp

/-- **The rule for a counting column.**  When each p update raises `f` by one and every other
update keeps it, a stored row has the `f` it was inserted with plus the number of p writes of its
key. -/
theorem Consistent.counts (h : Consistent key version R s) {f : Row → Int}
    {p : Write W Row → Bool}
    (hinsert : ∀ x ∈ s.log, x.read = none → p x = false)
    (hupdate : ∀ x ∈ s.log, ∀ r, x.read = some r → f x.row = f r + if p x then 1 else 0)
    {r : Row} (hr : r ∈ s.table) :
    ∃ x ∈ s.log, x.read = none ∧ key x.row = key r ∧
      f r = f x.row + ((s.history key (key r)).countP p : Nat) := by
  have hcurrent := h.current (key r)
  rw [(mem_iff_find_key h.unique).mp hr] at hcurrent
  obtain ⟨y, hy, rfl⟩ := Option.map_eq_some_iff.mp hcurrent.symm
  cases hhist : s.history key (key y.row) with
  | nil =>
      rw [hhist] at hy
      cases hy
  | cons x l =>
      have hsub : ∀ z ∈ x :: l, z ∈ s.log := fun z hz => by
        rw [← hhist] at hz
        exact (List.mem_filter.mp hz).1
      have hx := hsub x List.mem_cons_self
      have hread : x.read = none := h.inserted (key y.row) x (by rw [hhist]; rfl)
      have hkey : key x.row = key y.row := by
        have hmem : x ∈ s.history key (key y.row) := by
          rw [hhist]
          exact List.mem_cons_self
        exact of_decide_eq_true (List.mem_filter.mp hmem).2
      have hchain : (x :: l).IsChain fun a b => f b.row = f a.row + if p b then 1 else 0 := by
        rw [← hhist]
        refine (h.chained (key y.row)).imp_of_mem_imp fun a b _ hb hab => ?_
        exact hupdate b (List.mem_filter.mp hb).1 a.row hab.1
      refine ⟨x, hx, hread, hkey, ?_⟩
      rw [List.countP_cons, hinsert x hx hread]
      rw [hhist] at hy
      simpa using isChain_counts hchain hy

/-- A figure that no update lowers never falls along a history. -/
theorem Consistent.rises (h : Consistent key version R s) {f : Row → Int}
    (hupdate : ∀ x ∈ s.log, ∀ r, x.read = some r → f r ≤ f x.row) (k : K) :
    (s.history key k).Pairwise fun a b => f a.row ≤ f b.row := by
  let below : Write W Row → Write W Row → Prop := fun a b => f a.row ≤ f b.row
  have : Trans below below below := ⟨fun hab hbc => Int.le_trans hab hbc⟩
  have hchain : (s.history key k).IsChain below :=
    (h.chained k).imp_of_mem_imp fun a b _ hb hab =>
      hupdate b (List.mem_filter.mp hb).1 a.row hab.1
  exact List.isChain_iff_pairwise.mp hchain

/-- No two updates of one history have read the same version. -/
theorem Consistent.reads_nodup (h : Consistent key version R s) (k : K) :
    (s.history key k).Pairwise fun a b => ∀ r, b.read = some r → a.read ≠ some r := by
  refine (h.versions_rise k).imp_of_mem fun {a b} ha hb hrise r hb' ha' => ?_
  obtain ⟨-, -, -, -, hbv, -⟩ := h.predecessor (List.mem_filter.mp hb).1 hb'
  obtain ⟨-, -, -, -, hav, -⟩ := h.predecessor (List.mem_filter.mp ha).1 ha'
  omega

/-- **Nothing committed is lost.**  The key of a committed row is still stored, and the stored row
was reached from it along `R`. -/
theorem Consistent.stored_of_log (h : Consistent key version R s) {x : Write W Row}
    (hx : x ∈ s.log) :
    ∃ r ∈ s.table, key r = key x.row ∧ Relation.ReflTransGen R x.row r := by
  have hmem : x ∈ s.history key (key x.row) := by simp [Store.history, hx]
  obtain ⟨y, hy⟩ := Option.ne_none_iff_exists'.mp
    (fun hnone => List.ne_nil_of_mem hmem (List.getLast?_eq_none_iff.mp hnone))
  have hcur := h.current (key x.row)
  rw [hy, Option.map_some] at hcur
  refine ⟨y.row, List.mem_of_find?_eq_some hcur, by simpa using List.find?_some hcur, ?_⟩
  exact (isChain_reaches_last (h.chained _) hmem hy).lift Write.row fun _ _ hab => hab.2.2

theorem countP_of_keys {rows : List Row} {l : List (Write W Row)} {p : Write W Row → Bool}
    {q : Row → Bool} (hnodup : (rows.map key).Nodup)
    (hcover : ∀ x ∈ l, ∃ r ∈ rows, key r = key x.row)
    (hcount : ∀ r ∈ rows,
      (l.filter fun x => key x.row = key r).countP p = if q r = true then 1 else 0) :
    rows.countP q = l.countP p := by
  induction rows generalizing l with
  | nil =>
      cases l with
      | nil => rfl
      | cons x l =>
          obtain ⟨r, hr, -⟩ := hcover x List.mem_cons_self
          cases hr
  | cons r rows ih =>
      -- the writes of the first key, and the others
      simp only [List.map_cons, List.nodup_cons, List.mem_map, not_exists, not_and] at hnodup
      have hrest := ih (l := l.filter fun x => !decide (key x.row = key r)) hnodup.2 ?_ ?_
      · rw [List.countP_cons, hrest,
          List.countP_eq_countP_filter_add l p fun x => decide (key x.row = key r),
          hcount r List.mem_cons_self, Nat.add_comm]
      · intro x hx
        obtain ⟨hx, hkey⟩ := List.mem_filter.mp hx
        obtain ⟨r', hr', hkey'⟩ := hcover x hx
        rcases List.mem_cons.mp hr' with rfl | hr'
        · simp [hkey'] at hkey
        · exact ⟨r', hr', hkey'⟩
      · intro r' hr'
        rw [← hcount r' (List.mem_cons_of_mem r hr'), List.filter_filter]
        congr 1
        refine List.filter_congr fun x _ => ?_
        by_cases hkey : key x.row = key r'
        · have hne : key r' ≠ key r := hnodup.1 r' hr'
          simp [hkey, hne]
        · simp [hkey]

/-- **The log is the histories of the stored keys.**  When the history of each stored row has one
write of a kind or none, there are as many of these writes as rows that have one. -/
theorem Consistent.countP_log (h : Consistent key version R s) {p : Write W Row → Bool}
    {q : Row → Bool}
    (hcount : ∀ r ∈ s.table, (s.history key (key r)).countP p = if q r = true then 1 else 0) :
    s.table.countP q = s.log.countP p := by
  refine countP_of_keys h.unique (fun x hx => ?_) hcount
  obtain ⟨r, hr, hkey, -⟩ := h.stored_of_log hx
  exact ⟨r, hr, hkey⟩

/-- Equal keys in the table are the same row. -/
theorem Consistent.eq_of_key (h : Consistent key version R s) {a b : Row} (ha : a ∈ s.table)
    (hb : b ∈ s.table) (hab : key a = key b) : a = b := by
  have h1 := (mem_iff_find_key h.unique).mp ha
  rw [hab, (mem_iff_find_key h.unique).mp hb] at h1
  exact (Option.some.inj h1).symm

end Invariant

end Versioned

/-
# Query — the answers of a query with ORDER BY, and its pages.

A database answers such a query with the rows in some order that the sort key allows: rows of one key
may come in any order, and in another order the next time.  A page is a slice of an answer, and every
page is cut from an answer of its own.

`pages_perm_iff` says when the pages put together are the rows: no group of rows with one key reaches
across the edge of a page.  `exists_mem_page_of_growing` is about a table that grows between the pages.
-/
import Mathlib.Data.List.Nodup
import Mathlib.Data.List.Perm.Basic
import Mathlib.Data.List.Range
import Mathlib.Order.Lattice

namespace Query

variable {α κ : Type*}

/-! ## Answers -/

/-- An answer to a query for these rows, ordered by a key. -/
structure Ordered [LE κ] (key : α → κ) (rows answer : List α) : Prop where
  perm : answer.Perm rows
  sorted : answer.Pairwise fun a b => key a ≤ key b

section Positions

variable [LinearOrder κ] {key : α → κ} {rows l : List α}

/-- How many rows come before those of a key, in every answer. -/
def before (key : α → κ) (rows : List α) (v : κ) : Nat := rows.countP fun x => key x < v

/-- How many rows there are up to the last one of a key. -/
def upTo (key : α → κ) (rows : List α) (v : κ) : Nat := rows.countP fun x => key x ≤ v

theorem before_perm (h : l.Perm rows) (v : κ) : before key l v = before key rows v :=
  h.countP_eq _

theorem upTo_perm (h : l.Perm rows) (v : κ) : upTo key l v = upTo key rows v :=
  h.countP_eq _

/-- The rows up to a smaller key all come before those of a larger one. -/
theorem upTo_le_before {v w : κ} (h : v < w) (rows : List α) :
    upTo key rows v ≤ before key rows w := by
  apply List.countP_mono_left
  intro x _ hx
  exact decide_eq_true (lt_of_le_of_lt (of_decide_eq_true hx) h)

theorem upTo_le_length (rows : List α) (v : κ) : upTo key rows v ≤ rows.length :=
  List.countP_le_length

/-- Sorting the rows is one way to answer. -/
theorem ordered_mergeSort (key : α → κ) (rows : List α) :
    Ordered key rows (rows.mergeSort fun a b => decide (key a ≤ key b)) := by
  refine ⟨List.mergeSort_perm _ _, ?_⟩
  have htrans : ∀ a b c : α, decide (key a ≤ key b) = true → decide (key b ≤ key c) = true →
      decide (key a ≤ key c) = true := by
    intro a b c hab hbc
    rw [decide_eq_true_eq] at hab hbc ⊢
    exact le_trans hab hbc
  have htotal : ∀ a b : α, (decide (key a ≤ key b) || decide (key b ≤ key a)) = true := by
    intro a b
    rw [Bool.or_eq_true, decide_eq_true_eq, decide_eq_true_eq]
    exact le_total (key a) (key b)
  have hsorted := List.pairwise_mergeSort htrans htotal rows
  exact hsorted.imp fun hab => of_decide_eq_true hab

theorem exists_ordered (key : α → κ) (rows : List α) : ∃ answer, Ordered key rows answer :=
  ⟨_, ordered_mergeSort key rows⟩

/-- **Where a row stands.**  In every answer a row comes after those of smaller keys, and not after
the last one of its own. -/
theorem Ordered.position (h : Ordered key rows l) {i : Nat} (hi : i < l.length) :
    before key rows (key l[i]) ≤ i ∧ i < upTo key rows (key l[i]) := by
  have hsplit : l = l.take i ++ l[i] :: l.drop (i + 1) := by
    rw [← List.drop_eq_getElem_cons hi, List.take_append_drop]
  have hlength : (l.take i).length = i := List.length_take_of_le (le_of_lt hi)
  have hsorted := h.sorted
  rw [hsplit, List.pairwise_append, List.pairwise_cons] at hsorted
  obtain ⟨-, ⟨hlater, -⟩, hearlier⟩ := hsorted
  rw [← before_perm h.perm, ← upTo_perm h.perm]
  generalize hx : l[i] = x at hlater hearlier hsplit ⊢
  rw [hsplit]
  unfold before upTo
  rw [List.countP_append, List.countP_append]
  constructor
  · have hnone : (x :: l.drop (i + 1)).countP (fun y => decide (key y < key x)) = 0 := by
      rw [List.countP_eq_zero]
      intro y hy
      rcases List.mem_cons.mp hy with rfl | hy
      · simp
      · simpa using hlater y hy
    have hle : (l.take i).countP (fun y => decide (key y < key x)) ≤ (l.take i).length :=
      List.countP_le_length
    omega
  · have hall : (l.take i).countP (fun y => decide (key y ≤ key x)) = (l.take i).length := by
      rw [List.countP_eq_length]
      intro y hy
      exact decide_eq_true (hearlier y hy x List.mem_cons_self)
    have hself : 0 < (x :: l.drop (i + 1)).countP fun y => decide (key y ≤ key x) :=
      List.countP_pos_iff.mpr ⟨x, List.mem_cons_self, by simp⟩
    omega

/-- Between the first and the last place of a key there is no other key. -/
theorem Ordered.key_eq (h : Ordered key rows l) {v : κ} {i : Nat} (hi : i < l.length)
    (hbefore : before key rows v ≤ i) (hupTo : i < upTo key rows v) : key l[i] = v := by
  obtain ⟨hlow, hhigh⟩ := h.position hi
  rcases lt_trichotomy (key l[i]) v with hlt | heq | hgt
  · have hle : upTo key rows (key l[i]) ≤ before key rows v := upTo_le_before hlt rows
    omega
  · exact heq
  · have hle : upTo key rows v ≤ before key rows (key l[i]) := upTo_le_before hgt rows
    omega

end Positions

/-- What a key is computed from is ordered as the rows are. -/
theorem Ordered.map {β : Type*} [LE κ] {key : β → κ} {f : α → β} {rows answer : List α}
    (h : Ordered (fun x => key (f x)) rows answer) : Ordered key (rows.map f) (answer.map f) :=
  ⟨h.perm.map f, List.pairwise_map.mpr h.sorted⟩

/-! ## Pages -/

/-- Page `k` of an answer, counted from 0. -/
def page (size k : Nat) (answer : List α) : List α := (answer.drop (k * size)).take size

/-- The first `n` pages, each cut from its own answer. -/
def pagesOf (n size : Nat) (answers : Nat → List α) : List α :=
  (List.range n).flatMap fun k => page size k (answers k)

theorem page_map {β : Type*} (f : α → β) (size k : Nat) (answer : List α) :
    page size k (answer.map f) = (page size k answer).map f := by
  rw [page, page, List.map_take, List.map_drop]

theorem take_succ_page (size k : Nat) (answer : List α) :
    answer.take ((k + 1) * size) = answer.take (k * size) ++ page size k answer := by
  rw [Nat.succ_mul, List.take_add]
  rfl

/-- The pages of one answer are its beginning. -/
theorem pagesOf_single (n size : Nat) (answer : List α) :
    pagesOf n size (fun _ => answer) = answer.take (n * size) := by
  induction n with
  | zero => simp [pagesOf]
  | succ n ih =>
      rw [take_succ_page, ← ih]
      simp [pagesOf, List.range_succ]

theorem getElem_mem_page {size k i : Nat} {answer : List α} (hi : i < answer.length)
    (hfrom : k * size ≤ i) (hto : i < (k + 1) * size) : answer[i] ∈ page size k answer := by
  rw [Nat.succ_mul] at hto
  rw [page, List.mem_take_iff_getElem]
  have hindex : k * size + (i - k * size) = i := by omega
  refine ⟨i - k * size, ?_, ?_⟩
  · rw [List.length_drop]
    omega
  · rw [List.getElem_drop]
    simp only [hindex]

section Edges

variable [LinearOrder κ] {key : α → κ} {rows : List α}

/-- A group of rows with one key stands on both sides of place `b`. -/
def Split (key : α → κ) (rows : List α) (b : Nat) : Prop :=
  ∃ v, before key rows v < b ∧ b < upTo key rows v

/-- No group of rows with one key reaches across the edge of a page. -/
def Aligned (key : α → κ) (rows : List α) (size : Nat) : Prop :=
  ∀ k, ¬ Split key rows (k * size)

/-- **Where no group is split, the first rows are the same in every answer**: those whose key ends by
then. -/
theorem Ordered.take_eq_filter {l : List α} (h : Ordered key rows l) {b : Nat}
    (hb : ¬ Split key rows b) : l.take b = l.filter fun x => upTo key rows (key x) ≤ b := by
  have hwhole : ∀ v, b ≤ before key rows v ∨ upTo key rows v ≤ b := by
    intro v
    by_contra hv
    rw [not_or, not_le, not_le] at hv
    exact hb ⟨v, hv⟩
  have hfirst : (l.take b).filter (fun x => upTo key rows (key x) ≤ b) = l.take b := by
    rw [List.filter_eq_self]
    intro x hx
    obtain ⟨i, hi, rfl⟩ := List.mem_take_iff_getElem.mp hx
    obtain ⟨hlow, -⟩ := h.position (i := i) (by omega)
    refine decide_eq_true ((hwhole _).resolve_left ?_)
    omega
  have hlater : (l.drop b).filter (fun x => upTo key rows (key x) ≤ b) = [] := by
    rw [List.filter_eq_nil_iff]
    intro x hx
    obtain ⟨i, hi, rfl⟩ := List.mem_drop_iff_getElem.mp hx
    obtain ⟨-, hhigh⟩ := h.position (i := b + i) (by omega)
    rw [decide_eq_true_eq]
    omega
  conv_rhs => rw [← List.take_append_drop b l]
  rw [List.filter_append, hfirst, hlater, List.append_nil]

theorem Ordered.take_perm {l l' : List α} (h : Ordered key rows l) (h' : Ordered key rows l')
    {b : Nat} (hb : ¬ Split key rows b) : (l.take b).Perm (l'.take b) := by
  rw [h.take_eq_filter hb, h'.take_eq_filter hb]
  exact (h.perm.trans h'.perm.symm).filter _

/-- Between two edges that split no group a page has the same rows in every answer. -/
theorem Ordered.page_perm {l l' : List α} (h : Ordered key rows l) (h' : Ordered key rows l')
    {size : Nat} (ha : Aligned key rows size) (k : Nat) :
    (page size k l).Perm (page size k l') := by
  have htakes := h.take_perm h' (ha (k + 1))
  rw [take_succ_page, take_succ_page] at htakes
  have hfirst := (h.take_perm h' (ha k)).append_right (page size k l')
  exact (List.perm_append_left_iff _).mp (htakes.trans hfirst.symm)

theorem pagesOf_perm {n size : Nat} {answers : Nat → List α} {l : List α}
    (hl : Ordered key rows l) (hanswers : ∀ k, Ordered key rows (answers k))
    (ha : Aligned key rows size) (hn : rows.length ≤ n * size) :
    (pagesOf n size answers).Perm rows := by
  have hsame : (pagesOf n size answers).Perm (pagesOf n size fun _ => l) :=
    List.Perm.flatMap_left _ fun k _ => (hanswers k).page_perm hl ha k
  rw [pagesOf_single, List.take_of_length_le (by rw [hl.perm.length_eq]; exact hn)] at hsame
  exact hsame.trans hl.perm

/-- Two neighbours of one key may come the other way round. -/
theorem Ordered.swap {p q : List α} {u w : α} (h : Ordered key rows (p ++ u :: w :: q))
    (heq : key u = key w) : Ordered key rows (p ++ w :: u :: q) := by
  refine ⟨((List.Perm.swap u w q).append_left p).trans h.perm, ?_⟩
  have hsorted := h.sorted
  simp only [List.pairwise_append, List.pairwise_cons, List.mem_cons] at hsorted ⊢
  obtain ⟨hp, ⟨hu, hw, hq⟩, hbefore⟩ := hsorted
  refine ⟨hp, ⟨?_, fun x hx => hu x (Or.inr hx), hq⟩, ?_⟩
  · rintro x (rfl | hx)
    · exact heq.ge
    · exact hw x hx
  · rintro x hx y (rfl | rfl | hy)
    · exact hbefore x hx y (Or.inr (Or.inl rfl))
    · exact hbefore x hx y (Or.inl rfl)
    · exact hbefore x hx y (Or.inr (Or.inr hy))

/-- Around a place that splits a group two answers have the rows the other way round. -/
theorem Split.exists_swapped {i : Nat} (hsplit : Split key rows (i + 1)) :
    ∃ (l l' : List α) (hi : i < l.length) (hnext : i + 1 < l'.length),
      Ordered key rows l ∧ Ordered key rows l' ∧ l'[i + 1] = l[i] := by
  obtain ⟨v, hbefore, hupTo⟩ := hsplit
  obtain ⟨l, hl⟩ := exists_ordered key rows
  have hlength : l.length = rows.length := hl.perm.length_eq
  have hedge : upTo key rows v ≤ rows.length := upTo_le_length rows v
  have hlast : i < l.length := by omega
  have hnext : i + 1 < l.length := by omega
  have hv : key l[i] = v := hl.key_eq hlast (by omega) (by omega)
  have hv' : key l[i + 1] = v := hl.key_eq hnext (by omega) hupTo
  have heq : key l[i] = key l[i + 1] := hv.trans hv'.symm
  have hparts : l = l.take i ++ l[i] :: l[i + 1] :: l.drop (i + 2) := by
    rw [← List.drop_eq_getElem_cons hnext, ← List.drop_eq_getElem_cons hlast,
      List.take_append_drop]
  have hswapped : Ordered key rows (l.take i ++ l[i + 1] :: l[i] :: l.drop (i + 2)) :=
    Ordered.swap (hparts ▸ hl) heq
  have htake : (l.take i).length = i := List.length_take_of_le (le_of_lt hlast)
  refine ⟨l, _, hlast, ?_, hl, hswapped, ?_⟩
  · rw [hswapped.perm.length_eq]
    omega
  · rw [List.getElem_append_right (by omega)]
    simp [htake]

/-- A row that is on two of the pages. -/
theorem not_nodup_pagesOf {n size j k : Nat} {answers : Nat → List α} {x : α} (hjk : j < k)
    (hkn : k < n) (hj : x ∈ page size j (answers j)) (hk : x ∈ page size k (answers k)) :
    ¬ (pagesOf n size answers).Nodup := by
  intro hnodup
  rw [pagesOf, List.nodup_flatMap] at hnodup
  have hlength : (List.range n).length = n := List.length_range
  have hdisjoint := List.pairwise_iff_getElem.mp hnodup.2 j k (by omega) (by omega) hjk
  simp only [Function.onFun, List.getElem_range] at hdisjoint
  exact hdisjoint hj hk

/-- **A split group can be served twice.**  The row before the edge is on the one page, and the next
query may put it behind the edge. -/
theorem exists_repeated {n size k : Nat} (hn : rows.length ≤ n * size)
    (hsplit : Split key rows (k * size)) :
    ∃ answers, (∀ j, Ordered key rows (answers j)) ∧ ¬ (pagesOf n size answers).Nodup := by
  -- the edge is not the first one: rows of the group stand before it
  have hpos : 0 < k * size := by
    obtain ⟨v, hbefore, -⟩ := hsplit
    omega
  obtain ⟨k, rfl⟩ : ∃ j, k = j + 1 := Nat.exists_eq_succ_of_ne_zero (by rintro rfl; omega)
  have hsize : 0 < size := Nat.pos_of_mul_pos_left hpos
  have hsucc : (k + 1) * size = k * size + size := Nat.succ_mul k size
  obtain ⟨i, hi⟩ : ∃ i, (k + 1) * size = i + 1 := ⟨(k + 1) * size - 1, by omega⟩
  rw [hi] at hsplit
  obtain ⟨l, l', hlast, hnext, hl, hl', hsame⟩ := hsplit.exists_swapped
  have hlength' : l'.length = rows.length := hl'.perm.length_eq
  have hpages : k + 1 < n := by
    by_contra hle
    have hmul : n * size ≤ (k + 1) * size := Nat.mul_le_mul_right size (not_lt.mp hle)
    omega
  have hpage : l[i] ∈ page size k l := getElem_mem_page hlast (by omega) (by omega)
  have hpage' : l[i] ∈ page size (k + 1) l' := by
    rw [← hsame]
    apply getElem_mem_page
    · omega
    · rw [Nat.succ_mul]
      omega
  refine ⟨fun j => if j ≤ k then l else l', fun j => ?_, ?_⟩
  · dsimp only
    split
    · exact hl
    · exact hl'
  · refine not_nodup_pagesOf (Nat.lt_succ_self k) hpages (x := l[i]) ?_ ?_
    · rwa [if_pos (le_refl k)]
    · rwa [if_neg (by omega)]

/-- **When the pages are the rows.**  Enough pages, each cut from some ordered answer, put together
every row once whatever the answers are exactly when no group of rows with one key reaches across an
edge.  (`f` is what is shown of a row.) -/
theorem pages_perm_iff {β : Type*} {n size : Nat} {f : α → β} (hrows : (rows.map f).Nodup)
    (hn : rows.length ≤ n * size) :
    (∀ answers, (∀ k, Ordered key rows (answers k)) →
      ((pagesOf n size answers).map f).Perm (rows.map f)) ↔ Aligned key rows size := by
  constructor
  · intro h k hsplit
    obtain ⟨answers, hanswers, hrepeated⟩ := exists_repeated hn hsplit
    have hnodup := (h answers hanswers).nodup_iff.mpr hrows
    exact hrepeated (List.Nodup.of_map f hnodup)
  · intro ha answers hanswers
    obtain ⟨l, hl⟩ := exists_ordered key rows
    exact (pagesOf_perm hl hanswers ha hn).map f

theorem upTo_eq (rows : List α) (v : κ) :
    upTo key rows v = before key rows v + (rows.map key).count v := by
  unfold upTo before
  induction rows with
  | nil => rfl
  | cons x rows ih =>
      rw [List.countP_cons, List.countP_cons, List.map_cons, List.count_cons, ih]
      rcases lt_trichotomy (key x) v with hlt | heq | hgt
      · simp [hlt, hlt.le, hlt.ne]
        omega
      · simp [heq]
        omega
      · simp [hgt.not_ge, hgt.not_gt, hgt.ne']

/-- Rows with distinct keys can be cut anywhere. -/
theorem aligned_of_nodup (h : (rows.map key).Nodup) (size : Nat) : Aligned key rows size := by
  rintro k ⟨v, hbefore, hupTo⟩
  have honce := List.nodup_iff_count_le_one.mp h v
  rw [upTo_eq] at hupTo
  omega

/-- Rows with distinct keys have one answer. -/
theorem Ordered.unique {l l' : List α} (h : Ordered key rows l) (h' : Ordered key rows l')
    (hnodup : (rows.map key).Nodup) : l = l' := by
  refine List.Perm.eq_of_pairwise (fun a b ha hb hab hba => ?_) h.sorted h'.sorted
    (h.perm.trans h'.perm.symm)
  exact List.inj_on_of_nodup_map hnodup (h.perm.mem_iff.mp ha) (h'.perm.mem_iff.mp hb)
    (le_antisymm hab hba)

end Edges

/-! ## Pages of a table that grows

Between two pages rows may have been added anywhere.  They push a row towards later pages, never back
to one that has been read. -/

section Growing

variable [LinearOrder κ] {key : α → κ} {rows : List α}

theorem before_eq_countP (rows : List α) (v : κ) :
    before key rows v = (rows.map key).countP fun w => w < v := by
  rw [List.countP_map]
  rfl

/-- A row only moves towards the end. -/
theorem before_le_of_subset {rows' : List α} (hnodup : (rows.map key).Nodup)
    (hgrows : rows.map key ⊆ rows'.map key) (v : κ) :
    before key rows v ≤ before key rows' v := by
  rw [before_eq_countP, before_eq_countP]
  exact (List.subperm_of_subset hnodup hgrows).countP_le _

/-- The row of a key stands behind those of the smaller ones. -/
theorem Ordered.key_getElem_before {l : List α} (h : Ordered key rows l) {v : κ}
    (hv : v ∈ rows.map key) :
    ∃ hlt : before key rows v < l.length, key l[before key rows v] = v := by
  have hcount : 0 < (rows.map key).count v := List.count_pos_iff.mpr hv
  have hlast : before key rows v < upTo key rows v := by
    rw [upTo_eq]
    omega
  have hlt : before key rows v < l.length := by
    rw [h.perm.length_eq]
    exact lt_of_lt_of_le hlast (upTo_le_length rows v)
  exact ⟨hlt, h.key_eq hlt (le_refl _) hlast⟩

/-- **A walk through a growing table.**  Whoever reads page after page up to the first one that is not
full, each cut from an answer of its own moment, has met every row that was there in the beginning. -/
theorem exists_mem_page_of_growing {n size : Nat} {tables answers : Nat → List α}
    (hanswers : ∀ k ≤ n, Ordered key (tables k) (answers k))
    (hnodup : ∀ k ≤ n, ((tables k).map key).Nodup)
    (hgrows : ∀ k < n, (tables k).map key ⊆ (tables (k + 1)).map key)
    (hlast : (page size n (answers n)).length < size) {v : κ} (hv : v ∈ (tables 0).map key) :
    ∃ k ≤ n, ∃ x ∈ page size k (answers k), key x = v := by
  -- the row is still there, and it has been met or stands on a later page
  have hahead : ∀ k ≤ n, v ∈ (tables k).map key ∧
      ((∃ j < k, ∃ x ∈ page size j (answers j), key x = v) ∨
        k * size ≤ before key (tables k) v) := by
    intro k hk
    induction k with
    | zero => exact ⟨hv, Or.inr (by omega)⟩
    | succ k ih =>
        obtain ⟨hmem, hmet⟩ := ih (by omega)
        refine ⟨hgrows k (by omega) hmem, ?_⟩
        rcases hmet with ⟨j, hj, hx⟩ | hplace
        · exact Or.inl ⟨j, by omega, hx⟩
        · obtain ⟨hlt, hkey⟩ := (hanswers k (by omega)).key_getElem_before hmem
          by_cases hnext : before key (tables k) v < (k + 1) * size
          · exact Or.inl ⟨k, Nat.lt_succ_self k, _, getElem_mem_page hlt hplace hnext, hkey⟩
          · have hmoved := before_le_of_subset (hnodup k (by omega)) (hgrows k (by omega)) v
            exact Or.inr (by omega)
  obtain ⟨hmem, ⟨j, hj, hx⟩ | hplace⟩ := hahead n (le_refl n)
  · exact ⟨j, by omega, hx⟩
  · obtain ⟨hlt, hkey⟩ := (hanswers n (le_refl n)).key_getElem_before hmem
    have hshort : (answers n).length < (n + 1) * size := by
      rw [page, List.length_take, List.length_drop] at hlast
      rw [Nat.succ_mul]
      omega
    exact ⟨n, le_refl n, _, getElem_mem_page hlt hplace (by omega), hkey⟩

end Growing

end Query

/-
# Frame — tables with labelled columns.

A `Frame` is a list of rows over a list of column labels; that every row has exactly these labels,
in this order, is part of the type.  The operations are the ones data programs are made of: reading
a cell by its label, renaming columns, assigning a column computed row by row, and the left join of
two frames on a key column, where the other columns common to both get a suffix.

`mergeLeft_rows`, `mergeLeft_keys`, `mem_joinRow_iff`, `Joined.get_eq` and `get_joinedPartner` are what a
join's reader needs: which rows there are, how many for each key, with which partners, and which cells of
either side they have under the old label; a label common to both sides is gone.
-/
import GlobalPayments.Library.Runs
import Mathlib.Data.List.Forall2
import Mathlib.Data.List.Nodup

universe u v

/-- One row: its cells with their labels. -/
abbrev Frame.Row (α : Type u) := List (String × α)

/-- A table. -/
structure Frame (α : Type u) where
  columns : List String
  rows : List (Frame.Row α)
  aligned : ∀ row ∈ rows, row.map Prod.fst = columns

namespace Frame

variable {α : Type u} {ε : Type v}

/-! ## Cells -/

/-- The cell under a label. -/
def Row.get (row : Row α) (label : String) : Option α := (row.find? fun c => c.1 = label).map (·.2)

theorem Row.get_eq_none_iff {row : Row α} {label : String} :
    row.get label = none ↔ label ∉ row.map Prod.fst := by
  simp only [Row.get, Option.map_eq_none_iff, List.find?_eq_none, decide_eq_true_eq, List.mem_map,
    not_exists, not_and]

theorem Row.get_isSome_iff {row : Row α} {label : String} :
    (row.get label).isSome ↔ label ∈ row.map Prod.fst := by
  rw [← Option.ne_none_iff_isSome, ne_eq, Row.get_eq_none_iff, not_not]

theorem Row.get_append_left {row rest : Row α} {label : String} (h : label ∈ row.map Prod.fst) :
    Row.get (row ++ rest) label = row.get label := by
  obtain ⟨cell, hcell⟩ := Option.isSome_iff_exists.mp (Row.get_isSome_iff.mpr h)
  unfold Row.get at hcell ⊢
  rw [List.find?_append]
  cases hfind : row.find? (fun c => c.1 = label) with
  | none =>
      rw [hfind] at hcell
      cases hcell
  | some c => rfl

theorem Row.get_append_right {row rest : Row α} {label : String} (h : label ∉ row.map Prod.fst) :
    Row.get (row ++ rest) label = rest.get label := by
  have hnone := Row.get_eq_none_iff.mpr h
  unfold Row.get at hnone ⊢
  rw [List.find?_append, Option.map_eq_none_iff.mp hnone, Option.none_or]

/-- The cells of a row under other labels, an injective relabelling aside, are found as before. -/
theorem Row.get_map_label {row : Row α} {f : String → String} {label : String}
    (hf : f label = label) (hother : ∀ l ∈ row.map Prod.fst, f l = label → l = label) :
    Row.get (row.map fun c => (f c.1, c.2)) label = row.get label := by
  induction row with
  | nil => rfl
  | cons c row ih =>
      have ih := ih fun l hl => hother l (List.mem_cons_of_mem _ hl)
      unfold Row.get at ih ⊢
      by_cases hc : c.1 = label
      · simp [hc, hf]
      · have hfc : f c.1 ≠ label := fun h => hc (hother c.1 (by simp) h)
        simpa [hc, hfc] using ih

/-! ## Whole columns -/

/-- A frame without rows. -/
def empty (columns : List String) : Frame α := ⟨columns, [], by simp⟩

/-- `rename(columns=…)`. -/
def rename (f : String → String) (df : Frame α) : Frame α where
  columns := df.columns.map f
  rows := df.rows.map fun row => row.map fun c => (f c.1, c.2)
  aligned := by
    intro row hrow
    obtain ⟨old, hold, rfl⟩ := List.mem_map.mp hrow
    rw [← df.aligned old hold, List.map_map, List.map_map]
    rfl

/-- The columns once `label` is assigned: replaced where it stands, else added at the end. -/
def setLabel (label : String) (columns : List String) : List String :=
  if label ∈ columns then columns else columns ++ [label]

/-- A row once `label` is assigned. -/
def Row.set (label : String) (cell : α) (row : Row α) : Row α :=
  if label ∈ row.map Prod.fst then row.map fun c => if c.1 = label then (label, cell) else c
  else row ++ [(label, cell)]

theorem Row.labels_set (label : String) (cell : α) (row : Row α) :
    (row.set label cell).map Prod.fst = setLabel label (row.map Prod.fst) := by
  unfold Row.set setLabel
  split
  · rw [List.map_map]
    refine List.map_congr_left fun c _ => ?_
    by_cases hc : c.1 = label <;> simp [hc]
  · simp

theorem Row.get_set_self (label : String) (cell : α) (row : Row α) :
    (row.set label cell).get label = some cell := by
  unfold Row.set
  split
  · rename_i hmem
    induction row with
    | nil => cases hmem
    | cons c row ih =>
        by_cases hc : c.1 = label
        · simp [Row.get, hc]
        · have hrest : label ∈ row.map Prod.fst := by
            rcases List.mem_cons.mp hmem with h | h
            · exact absurd h.symm hc
            · exact h
          simpa [Row.get, hc] using ih hrest
  · rename_i hmem
    have hnone := Row.get_eq_none_iff.mpr hmem
    unfold Row.get at hnone ⊢
    rw [List.find?_append, Option.map_eq_none_iff.mp hnone]
    simp

theorem Row.get_set_of_ne {label other : String} (h : other ≠ label) (cell : α) (row : Row α) :
    (row.set label cell).get other = row.get other := by
  unfold Row.set
  split
  · rename_i hmem
    clear hmem
    induction row with
    | nil => rfl
    | cons c row ih =>
        unfold Row.get at ih ⊢
        by_cases hc : c.1 = label
        · simpa [hc, Ne.symm h] using ih
        · by_cases ho : c.1 = other
          · simp [ho, h]
          · simpa [hc, ho] using ih
  · unfold Row.get
    rw [List.find?_append]
    simp [Ne.symm h]

/-- Assign the column `label` with what `f` computes from each row.  A whole column has one type, so
each cell is adjusted to the column it stands in. -/
def assign (adjust : List α → α → α) (label : String) (f : Row α → Except ε α) (df : Frame α) :
    Except ε (Frame α) :=
  match df.rows.mapM f with
  | .error e => .error e
  | .ok cells => .ok
      { columns := setLabel label df.columns
        rows := (df.rows.zip cells).map fun p => p.1.set label (adjust cells p.2)
        aligned := by
          intro row hrow
          obtain ⟨p, hp, rfl⟩ := List.mem_map.mp hrow
          rw [Row.labels_set, df.aligned p.1 (List.of_mem_zip hp).1] }

/-- One row after another under two relations. -/
theorem forall₂_comp {β γ δ : Type*} {R : β → γ → Prop} {S : γ → δ → Prop} {T : β → δ → Prop}
    (hT : ∀ b c d, R b c → S c d → T b d) {bs : List β} {cs : List γ} {ds : List δ}
    (h : List.Forall₂ R bs cs) (h' : List.Forall₂ S cs ds) : List.Forall₂ T bs ds := by
  induction h generalizing ds with
  | nil =>
      rw [List.forall₂_nil_left_iff.mp h']
      exact .nil
  | @cons b c bs cs hbc _ ih =>
      obtain ⟨d, rest, hcd, hrest, rfl⟩ := List.forall₂_cons_left_iff.mp h'
      exact .cons (hT b c d hbc hcd) (ih hrest)

theorem exists_of_mem_right {β γ : Type*} {R : β → γ → Prop} {bs : List β} {cs : List γ}
    (h : List.Forall₂ R bs cs) {c : γ} (hc : c ∈ cs) : ∃ b ∈ bs, R b c := by
  induction h with
  | nil => cases hc
  | @cons b _ _ _ hbc _ ih =>
      rcases List.mem_cons.mp hc with rfl | hc
      · exact ⟨b, List.mem_cons_self, hbc⟩
      · obtain ⟨b', hb', hR⟩ := ih hc
        exact ⟨b', List.mem_cons_of_mem _ hb', hR⟩

theorem exists_of_mem_left {β γ : Type*} {R : β → γ → Prop} {bs : List β} {cs : List γ}
    (h : List.Forall₂ R bs cs) {b : β} (hb : b ∈ bs) : ∃ c ∈ cs, R b c := by
  obtain ⟨c, hc, hR⟩ := exists_of_mem_right h.flip hb
  exact ⟨c, hc, hR⟩

/-- Lists related by a common value have the same list of values. -/
theorem map_eq_of_forall₂ {β γ δ : Type*} {f : β → δ} {g : γ → δ} {bs : List β} {cs : List γ}
    (h : List.Forall₂ (fun b c => f b = g c) bs cs) : bs.map f = cs.map g := by
  have hmaps : List.Forall₂ Eq (bs.map f) (cs.map g) :=
    List.forall₂_map_left_iff.mpr (List.forall₂_map_right_iff.mpr h)
  rwa [List.forall₂_eq_eq_eq] at hmaps

/-- Each item with what it was related to. -/
theorem forall₂_zip_map {β γ δ : Type*} {R : β → γ → Prop} {bs : List β} {cs : List γ}
    (g : β → γ → δ) (h : List.Forall₂ R bs cs) :
    List.Forall₂ (fun b d => ∃ c, R b c ∧ d = g b c) bs
      ((bs.zip cs).map fun p => g p.1 p.2) := by
  induction h with
  | nil => exact .nil
  | @cons b c _ _ hbc _ ih => exact .cons ⟨c, hbc, rfl⟩ ih

/-- What an assignment computes: a column of cells, each set in its row. -/
theorem assign_column {adjust : List α → α → α} {label : String} {f : Row α → Except ε α}
    {df df' : Frame α} (h : df.assign adjust label f = .ok df') :
    ∃ cells, List.Forall₂ (fun row cell => f row = .ok cell) df.rows cells ∧
      List.Forall₂
        (fun row row' => ∃ cell, f row = .ok cell ∧ row' = row.set label (adjust cells cell))
        df.rows df'.rows := by
  unfold assign at h
  split at h
  · cases h
  · rename_i cells hcells
    obtain rfl := (Except.ok.inj h).symm
    have hcolumn := Runs.mapM_ok_iff.mp hcells
    exact ⟨cells, hcolumn,
      forall₂_zip_map (fun row cell => row.set label (adjust cells cell)) hcolumn⟩

/-- Each row of an assignment's result is a row with one cell set. -/
theorem assign_ok {adjust : List α → α → α} {label : String} {f : Row α → Except ε α}
    {df df' : Frame α} (h : df.assign adjust label f = .ok df') :
    ∃ cells, List.Forall₂
      (fun row row' => ∃ cell, f row = .ok cell ∧ row' = row.set label (adjust cells cell))
      df.rows df'.rows := by
  obtain ⟨cells, -, hrows⟩ := assign_column h
  exact ⟨cells, hrows⟩

theorem assign_columns {adjust : List α → α → α} {label : String} {f : Row α → Except ε α}
    {df df' : Frame α} (h : df.assign adjust label f = .ok df') :
    df'.columns = setLabel label df.columns := by
  unfold assign at h
  split at h
  · cases h
  · obtain rfl := (Except.ok.inj h).symm
    rfl

/-- An assignment whose function computes every cell succeeds. -/
theorem assign_succeeds {adjust : List α → α → α} {label : String} {f : Row α → Except ε α}
    {df : Frame α} (h : ∀ row ∈ df.rows, ∃ cell, f row = .ok cell) :
    ∃ df', df.assign adjust label f = .ok df' := by
  obtain ⟨cells, hcells⟩ := Runs.mapM_succeeds h
  unfold assign
  split
  · rename_i e he
    rw [he] at hcells
    cases hcells
  · exact ⟨_, rfl⟩

/-! ## Left join -/

/-- What a join refuses. -/
inductive MergeError where
  /-- the key column is missing -/
  | keyError (label : String)
  /-- the suffixes make a column name collide with another one -/
  | suffixClash
  deriving DecidableEq, Repr

/-- The non-key columns of both frames. -/
def common (key : String) (left right : List String) : List String :=
  (right.filter (· ≠ key)).filter (· ∈ left)

/-- A column name after the join: with the suffix when both frames have it. -/
def suffixed (suffix : String) (both : List String) (label : String) : String :=
  if label ∈ both then label ++ suffix else label

/-- Which labels repeat an earlier one. -/
def repeats : List String → List String → List Bool
  | _, [] => []
  | seen, label :: labels => decide (label ∈ seen) :: repeats (label :: seen) labels

/-- Renaming made a label repeat another one that it did not repeat before. -/
def newRepeat (f : String → String) (labels : List String) : Bool :=
  ((repeats [] labels).zip (repeats [] (labels.map f))).any fun b => !b.1 && b.2

section Merge

variable (key sl sr : String) (fill : String → α) (left right : Frame α)

/-- The cells a left row contributes. -/
def joinedLeft (row : Row α) : Row α :=
  row.map fun c => (suffixed sl (common key left.columns right.columns) c.1, c.2)

/-- The cells a matching right row contributes. -/
def joinedRight (row : Row α) : Row α :=
  (row.filter fun c => c.1 ≠ key).map fun c =>
    (suffixed sr (common key left.columns right.columns) c.1, c.2)

/-- The cells in place of a right row where none matches: each column has its own mark for a missing
value. -/
def unmatchedRight : Row α :=
  (right.columns.filter (· ≠ key)).map fun label =>
    (suffixed sr (common key left.columns right.columns) label, fill label)

/-- The labels of the joined rows. -/
def joinedColumns : List String :=
  left.columns.map (suffixed sl (common key left.columns right.columns)) ++
    (right.columns.filter (· ≠ key)).map (suffixed sr (common key left.columns right.columns))

variable [DecidableEq α]

/-- The right rows with the key of a left row. -/
def matching (row : Row α) : List (Row α) :=
  right.rows.filter fun r => r.get key = row.get key

/-- The joined rows of one left row: one for each match, one without. -/
def joinRow (row : Row α) : List (Row α) :=
  match matching key right row with
  | [] => [joinedLeft key sl left right row ++ unmatchedRight key sr fill left right]
  | matched => matched.map fun r =>
      joinedLeft key sl left right row ++ joinedRight key sr left right r

theorem labels_joinRow {row joined : Row α} (hrow : row ∈ left.rows)
    (h : joined ∈ joinRow key sl sr fill left right row) :
    joined.map Prod.fst = joinedColumns key sl sr left right := by
  have hleft : (joinedLeft key sl left right row).map Prod.fst =
      left.columns.map (suffixed sl (common key left.columns right.columns)) := by
    rw [joinedLeft, List.map_map, ← left.aligned row hrow, List.map_map]
    rfl
  unfold joinRow at h
  split at h
  · obtain rfl := List.mem_singleton.mp h
    rw [List.map_append, hleft, unmatchedRight, List.map_map]
    rfl
  · obtain ⟨r, hr, rfl⟩ := List.mem_map.mp h
    have hmem : r ∈ right.rows := (List.mem_filter.mp hr).1
    have hfilter : (r.filter fun c => c.1 ≠ key).map Prod.fst =
        right.columns.filter (· ≠ key) := by
      rw [← right.aligned r hmem, List.filter_map]
      rfl
    rw [List.map_append, hleft, joinedColumns, ← hfilter, joinedRight, List.map_map, List.map_map]
    rfl

/-- `left.merge(right, on=key, how='left', suffixes=(sl, sr))`. -/
def mergeLeft : Except MergeError (Frame α) :=
  if key ∉ left.columns ∨ key ∉ right.columns then .error (.keyError key)
  else if newRepeat (suffixed sl (common key left.columns right.columns)) left.columns ||
      newRepeat (suffixed sr (common key left.columns right.columns))
        (right.columns.filter (· ≠ key)) then
    .error .suffixClash
  else .ok
    { columns := joinedColumns key sl sr left right
      rows := left.rows.flatMap (joinRow key sl sr fill left right)
      aligned := by
        intro joined hjoined
        obtain ⟨row, hrow, hmem⟩ := List.mem_flatMap.mp hjoined
        exact labels_joinRow key sl sr fill left right hrow hmem }

end Merge

section MergeFacts

variable {key sl sr : String} {fill : String → α} {left right : Frame α}

/-- A suffix ends a label, so it cannot rebuild one with another last character. -/
theorem append_ne {suffix label : String} (hs : suffix.toList ≠ [])
    (h : suffix.toList.getLast? ≠ label.toList.getLast?) (l : String) : l ++ suffix ≠ label := by
  rintro rfl
  apply h
  rw [String.toList_append, List.getLast?_append_of_ne_nil _ hs]

theorem repeats_of_nodup {labels seen : List String} (h : labels.Nodup)
    (hseen : ∀ l ∈ labels, l ∉ seen) : ∀ b ∈ repeats seen labels, b = false := by
  induction labels generalizing seen with
  | nil => simp [repeats]
  | cons label labels ih =>
      obtain ⟨hnot, hrest⟩ := List.nodup_cons.mp h
      intro b hb
      rcases List.mem_cons.mp hb with rfl | hb
      · exact decide_eq_false (hseen label List.mem_cons_self)
      · refine ih hrest (fun l hl => ?_) b hb
        rw [List.mem_cons, not_or]
        exact ⟨fun heq => hnot (heq ▸ hl), hseen l (List.mem_cons_of_mem _ hl)⟩

theorem newRepeat_of_nodup {f : String → String} {labels : List String}
    (h : (labels.map f).Nodup) : newRepeat f labels = false := by
  unfold newRepeat
  rw [List.any_eq_false]
  intro b hb
  simp [repeats_of_nodup h (by simp) b.2 (List.of_mem_zip hb).2]

/-- Labels that no suffixed label repeats stay without repetition. -/
theorem nodup_suffixed {suffix : String} {both labels : List String} (h : labels.Nodup)
    (hsuffix : ∀ l ∈ labels, l ++ suffix ∉ labels) : (labels.map (suffixed suffix both)).Nodup := by
  refine List.Nodup.map_on (fun l hl l' hl' heq => ?_) h
  unfold suffixed at heq
  split at heq <;> split at heq
  · exact (String.append_left_inj suffix).mp heq
  · exact absurd (heq ▸ hl') (hsuffix l hl)
  · exact absurd (heq ▸ hl) (hsuffix l' hl')
  · exact heq

/-- A label common to both sides is gone after the join, when the suffixes cannot rebuild it. -/
theorem not_mem_joinedColumns {label : String} (hleft : label ∈ left.columns)
    (hright : label ∈ right.columns) (hkey : label ≠ key) (hsl : ∀ l, l ++ sl ≠ label)
    (hsr : ∀ l, l ++ sr ≠ label) : label ∉ joinedColumns key sl sr left right := by
  have hboth : label ∈ common key left.columns right.columns := by
    simp [common, hleft, hright, hkey]
  have hsuffixed : ∀ suffix, (∀ l, l ++ suffix ≠ label) → ∀ l,
      suffixed suffix (common key left.columns right.columns) l ≠ label := by
    intro suffix hsuffix l
    unfold suffixed
    split
    · exact hsuffix l
    · rename_i hnot
      intro heq
      exact hnot (heq ▸ hboth)
  unfold joinedColumns
  rw [List.mem_append, not_or]
  constructor
  · intro h
    obtain ⟨l, -, hl⟩ := List.mem_map.mp h
    exact hsuffixed sl hsl l hl
  · intro h
    obtain ⟨l, -, hl⟩ := List.mem_map.mp h
    exact hsuffixed sr hsr l hl

/-- A joined row of a left row: its cells under their new labels, and then some. -/
structure Joined (key sl sr : String) (left right : Frame α) (row joined : Row α) : Prop where
  cells : ∃ rest, joined = joinedLeft key sl left right row ++ rest
  labels : joined.map Prod.fst = joinedColumns key sl sr left right

section Rows

variable [DecidableEq α]

/-- Where the right keys are unique, a left row gives one row. -/
theorem joinRow_of_nodup (h : (right.rows.map (Row.get · key)).Nodup) (row : Row α) :
    ∃ rest, joinRow key sl sr fill left right row = [joinedLeft key sl left right row ++ rest] := by
  -- the matches all have the left row's key, and no two right rows share one
  have hsame : ∀ r ∈ matching key right row, ∀ r' ∈ matching key right row, r = r' := by
    intro r hr r' hr'
    obtain ⟨hmem, hkey⟩ := List.mem_filter.mp hr
    obtain ⟨hmem', hkey'⟩ := List.mem_filter.mp hr'
    apply List.inj_on_of_nodup_map h hmem hmem'
    rw [of_decide_eq_true hkey, of_decide_eq_true hkey']
  have hnodup : (matching key right row).Nodup := (List.Nodup.of_map _ h).filter _
  unfold joinRow
  split
  · exact ⟨_, rfl⟩
  · match hmatched : matching key right row with
    | [] => contradiction
    | [r] => exact ⟨_, rfl⟩
    | r :: r' :: rest =>
        rw [hmatched] at hsame hnodup
        have heq := hsame r (by simp) r' (by simp)
        exact absurd (heq ▸ List.mem_cons_self) (List.nodup_cons.mp hnodup).1

/-- A left row has a joined row in any case. -/
theorem exists_mem_joinRow (row : Row α) :
    ∃ rest, joinedLeft key sl left right row ++ rest ∈ joinRow key sl sr fill left right row := by
  unfold joinRow
  split
  · exact ⟨_, List.mem_cons_self⟩
  · rename_i hne
    obtain ⟨r, rs, hmatched⟩ := List.exists_cons_of_ne_nil hne
    rw [hmatched]
    exact ⟨_, List.mem_cons_self⟩

/-- The columns and the rows of a join that is not refused. -/
theorem mergeLeft_ok {merged : Frame α} (h : mergeLeft key sl sr fill left right = .ok merged) :
    merged.columns = joinedColumns key sl sr left right ∧
      merged.rows = left.rows.flatMap (joinRow key sl sr fill left right) := by
  unfold mergeLeft at h
  split at h
  · cases h
  split at h
  · cases h
  obtain rfl := (Except.ok.inj h).symm
  exact ⟨rfl, rfl⟩

/-- The rows of a join with unique right keys, left row by left row. -/
theorem mergeLeft_rows {merged : Frame α}
    (h : mergeLeft key sl sr fill left right = .ok merged)
    (hunique : (right.rows.map (Row.get · key)).Nodup) :
    List.Forall₂ (Joined key sl sr left right) left.rows merged.rows := by
  have hlabels : ∀ row ∈ left.rows, ∀ joined ∈ joinRow key sl sr fill left right row,
      joined.map Prod.fst = joinedColumns key sl sr left right :=
    fun row hrow joined => labels_joinRow key sl sr fill left right hrow
  rw [(mergeLeft_ok h).2]
  generalize left.rows = rows at hlabels
  induction rows with
  | nil => exact .nil
  | cons row rows ih =>
      have hsingle : ∃ rest, joinRow key sl sr fill left right row =
          [joinedLeft key sl left right row ++ rest] := joinRow_of_nodup hunique row
      obtain ⟨rest, hrest⟩ := hsingle
      have hjoined := hlabels row List.mem_cons_self
      rw [hrest] at hjoined
      rw [List.flatMap_cons, hrest]
      exact .cons ⟨⟨rest, rfl⟩, hjoined _ List.mem_cons_self⟩
        (ih fun r hr => hlabels r (List.mem_cons_of_mem _ hr))

/-- A left join keeps every left row. -/
theorem exists_joined {merged : Frame α} (h : mergeLeft key sl sr fill left right = .ok merged)
    {row : Row α} (hrow : row ∈ left.rows) :
    ∃ joined ∈ merged.rows, Joined key sl sr left right row joined := by
  have hexists : ∃ rest, joinedLeft key sl left right row ++ rest ∈
      joinRow key sl sr fill left right row := exists_mem_joinRow row
  obtain ⟨rest, hmem⟩ := hexists
  refine ⟨_, ?_, ⟨rest, rfl⟩, labels_joinRow key sl sr fill left right hrow hmem⟩
  rw [(mergeLeft_ok h).2]
  exact List.mem_flatMap.mpr ⟨row, hrow, hmem⟩

end Rows

/-- A label only the left frame has, or the key, keeps its name and its cell. -/
theorem get_joinedLeft {row rest : Row α} {label : String}
    (hmem : label ∈ row.map Prod.fst) (hnot : label ∉ common key left.columns right.columns)
    (hsl : ∀ l, l ++ sl ≠ label) :
    Row.get (joinedLeft key sl left right row ++ rest) label = row.get label := by
  have hself : suffixed sl (common key left.columns right.columns) label = label := if_neg hnot
  -- the renamed cells must not take the label over
  have hother : ∀ l, suffixed sl (common key left.columns right.columns) l = label → l = label := by
    intro l hl
    unfold suffixed at hl
    split at hl
    · exact absurd hl (hsl l)
    · exact hl
  rw [Row.get_append_left]
  · exact Row.get_map_label hself fun l _ => hother l
  · obtain ⟨c, hc, rfl⟩ := List.mem_map.mp hmem
    rw [joinedLeft, List.map_map]
    exact List.mem_map.mpr ⟨c, hc, hself⟩

/-- A label that renaming does not touch, and no other label is renamed to. -/
theorem suffixed_eq_iff {suffix label : String} {both : List String} (hboth : label ∉ both)
    (hsuffix : ∀ l, l ++ suffix ≠ label) (l : String) : suffixed suffix both l = label ↔ l = label := by
  unfold suffixed
  split
  · rename_i hmem
    constructor
    · intro h
      exact absurd h (hsuffix l)
    · rintro rfl
      exact absurd hmem hboth
  · exact Iff.rfl

/-- A row of one mark for each column. -/
theorem get_marks {f : String → String} {label : String} (hf : ∀ l, f l = label ↔ l = label)
    (labels : List String) :
    Row.get (labels.map fun l => (f l, fill l)) label =
      if label ∈ labels then some (fill label) else none := by
  induction labels with
  | nil => rfl
  | cons l labels ih =>
      unfold Row.get at ih ⊢
      by_cases hl : l = label
      · subst hl
        simp [(hf l).mpr rfl]
      · have hne : f l ≠ label := fun h => hl ((hf l).mp h)
        have hne' : label ≠ l := fun h => hl h.symm
        simpa [hne, hne'] using ih

/-! ### Partners -/

/-- What a left row is joined with: a right row of its key, or nothing where there is none. -/
def Partner (key : String) (right : Frame α) (row : Row α) : Option (Row α) → Prop
  | some r => r ∈ right.rows ∧ r.get key = row.get key
  | none => ∀ r ∈ right.rows, r.get key ≠ row.get key

/-- The cell of a partner in a column; in place of a right row stands the mark of the column. -/
def partnerCell (fill : String → α) (label : String) : Option (Row α) → Option α
  | some r => r.get label
  | none => some (fill label)

/-- The cells a partner contributes to a joined row. -/
def joinedPartner (key sr : String) (fill : String → α) (left right : Frame α) :
    Option (Row α) → Row α
  | some r => joinedRight key sr left right r
  | none => unmatchedRight key sr fill left right

/-- **The joined rows of a left row** are those with its partners. -/
theorem mem_joinRow_iff [DecidableEq α] {row joined : Row α} :
    joined ∈ joinRow key sl sr fill left right row ↔ ∃ partner, Partner key right row partner ∧
      joined = joinedLeft key sl left right row ++ joinedPartner key sr fill left right partner := by
  have hmatching : ∀ r, r ∈ matching key right row ↔ Partner key right row (some r) := by
    intro r
    rw [matching, List.mem_filter, decide_eq_true_iff]
    rfl
  have hnone : matching key right row = [] ↔ Partner key right row none := by
    rw [List.eq_nil_iff_forall_not_mem]
    constructor
    · exact fun h r hr hkey => h r ((hmatching r).mpr ⟨hr, hkey⟩)
    · exact fun h r hr => h r ((hmatching r).mp hr).1 ((hmatching r).mp hr).2
  unfold joinRow
  split
  · rename_i hempty
    rw [List.mem_singleton]
    constructor
    · exact fun h => ⟨none, hnone.mp hempty, h⟩
    · rintro ⟨partner, hpartner, h⟩
      cases partner with
      | none => exact h
      | some r =>
          rw [← hmatching, hempty] at hpartner
          cases hpartner
  · rename_i hsome
    rw [List.mem_map]
    constructor
    · rintro ⟨r, hr, rfl⟩
      exact ⟨some r, (hmatching r).mp hr, rfl⟩
    · rintro ⟨partner, hpartner, rfl⟩
      cases partner with
      | none => exact absurd (hnone.mpr hpartner) hsome
      | some r => exact ⟨r, (hmatching r).mpr hpartner, rfl⟩

/-- A right row keeps the cells of the columns that are not the key's. -/
theorem get_joinedRight {r : Row α} {label : String} (hkey : label ≠ key)
    (hboth : label ∉ common key left.columns right.columns) (hsr : ∀ l, l ++ sr ≠ label) :
    Row.get (joinedRight key sr left right r) label = r.get label := by
  have hsuffixed : ∀ l, suffixed sr (common key left.columns right.columns) l = label ↔ l = label :=
    suffixed_eq_iff hboth hsr
  rw [joinedRight, Row.get_map_label ((hsuffixed label).mpr rfl) fun l _ => (hsuffixed l).mp]
  induction r with
  | nil => rfl
  | cons c r ih =>
      unfold Row.get at ih ⊢
      by_cases hc : c.1 = key
      · have hne : c.1 ≠ label := fun h => hkey (h.symm.trans hc)
        simpa [hc, hne, Ne.symm hkey] using ih
      · by_cases hl : c.1 = label
        · simp [hl, hkey]
        · simpa [hc, hl] using ih

/-- **What a join puts under a label that only the right frame has**: the partner's cell. -/
theorem get_joinedPartner {row : Row α} {partner : Option (Row α)} {label : String}
    (hrow : row.map Prod.fst = left.columns) (hpartner : Partner key right row partner)
    (hleft : label ∉ left.columns) (hkey : label ≠ key) (hsl : ∀ l, l ++ sl ≠ label)
    (hsr : ∀ l, l ++ sr ≠ label) :
    Row.get (joinedLeft key sl left right row ++ joinedPartner key sr fill left right partner)
      label = if label ∈ right.columns then partnerCell fill label partner else none := by
  have hboth : label ∉ common key left.columns right.columns := by simp [common, hleft]
  rw [Row.get_append_right]
  · cases partner with
    | none =>
        show Row.get (unmatchedRight key sr fill left right) label = _
        rw [unmatchedRight, get_marks (suffixed_eq_iff hboth hsr)]
        simp [hkey, partnerCell]
    | some r =>
        show Row.get (joinedRight key sr left right r) label = _
        rw [get_joinedRight hkey hboth hsr]
        split
        · rfl
        · rw [Row.get_eq_none_iff, right.aligned r hpartner.1]
          assumption
  · rw [joinedLeft, List.map_map]
    intro hmem
    obtain ⟨c, hc, heq⟩ := List.mem_map.mp hmem
    have hlabel : c.1 = label := (suffixed_eq_iff hboth hsl c.1).mp heq
    apply hleft
    rw [← hrow, ← hlabel]
    exact List.mem_map_of_mem hc

section Keys

variable [DecidableEq α]

/-- A joined row starts with the cells of its left row. -/
theorem mem_joinRow {row joined : Row α} (h : joined ∈ joinRow key sl sr fill left right row) :
    ∃ rest, joined = joinedLeft key sl left right row ++ rest := by
  unfold joinRow at h
  split at h
  · exact ⟨_, List.mem_singleton.mp h⟩
  · obtain ⟨r, -, rfl⟩ := List.mem_map.mp h
    exact ⟨_, rfl⟩

/-- Every row of a join comes from a left row. -/
theorem joined_of_mem {merged : Frame α} (h : mergeLeft key sl sr fill left right = .ok merged)
    {joined : Row α} (hjoined : joined ∈ merged.rows) :
    ∃ row ∈ left.rows, Joined key sl sr left right row joined := by
  rw [(mergeLeft_ok h).2] at hjoined
  obtain ⟨row, hrow, hmem⟩ := List.mem_flatMap.mp hjoined
  exact ⟨row, hrow, mem_joinRow hmem, labels_joinRow key sl sr fill left right hrow hmem⟩

theorem length_joinRow (row : Row α) :
    (joinRow key sl sr fill left right row).length = max 1 (matching key right row).length := by
  unfold joinRow
  split
  · rename_i hnone
    rw [hnone]
    rfl
  · rename_i hsome
    have hpos : 1 ≤ (matching key right row).length := List.length_pos_iff.mpr hsome
    rw [List.length_map, Nat.max_eq_right hpos]

/-- The cells of the joined rows under a label that keeps its name: the left row's, once for each match
and at least once. -/
theorem joinRow_column {row : Row α} {label : String} (hmem : label ∈ row.map Prod.fst)
    (hnot : label ∉ common key left.columns right.columns) (hsl : ∀ l, l ++ sl ≠ label) :
    (joinRow key sl sr fill left right row).map (Row.get · label) =
      List.replicate (max 1 (matching key right row).length) (row.get label) := by
  have hlength : (joinRow key sl sr fill left right row).length =
      max 1 (matching key right row).length := length_joinRow row
  rw [← hlength, List.eq_replicate_iff]
  refine ⟨List.length_map _, fun cell hcell => ?_⟩
  obtain ⟨joined, hjoined, rfl⟩ := List.mem_map.mp hcell
  obtain ⟨rest, rfl⟩ := mem_joinRow hjoined
  exact get_joinedLeft hmem hnot hsl

/-- A column of the left frame after a join, left row by left row. -/
theorem mergeLeft_column {merged : Frame α} {label : String}
    (h : mergeLeft key sl sr fill left right = .ok merged) (hmem : label ∈ left.columns)
    (hnot : label ∉ common key left.columns right.columns) (hsl : ∀ l, l ++ sl ≠ label) :
    merged.rows.map (Row.get · label) = left.rows.flatMap fun row =>
      List.replicate (max 1 (matching key right row).length) (row.get label) := by
  rw [(mergeLeft_ok h).2, List.map_flatMap]
  refine List.flatMap_congr fun row hrow => ?_
  exact joinRow_column (by rw [left.aligned row hrow]; exact hmem) hnot hsl

/-- The keys of a join, left row by left row. -/
theorem mergeLeft_keys {merged : Frame α} (h : mergeLeft key sl sr fill left right = .ok merged)
    (hmem : key ∈ left.columns) (hsl : ∀ l, l ++ sl ≠ key) :
    merged.rows.map (Row.get · key) = left.rows.flatMap fun row =>
      List.replicate (max 1 (matching key right row).length) (row.get key) :=
  mergeLeft_column h hmem (by simp [common]) hsl

omit [DecidableEq α] in
/-- Distinct keys, each repeated some number of times: how often one of them is there. -/
theorem count_replicated {β κ : Type*} [BEq κ] [LawfulBEq κ] {g : β → κ} {n : β → Nat} {bs : List β}
    (h : (bs.map g).Nodup) {b : β} (hb : b ∈ bs) :
    (bs.flatMap fun b => List.replicate (n b) (g b)).count (g b) = n b := by
  induction bs with
  | nil => cases hb
  | cons c cs ih =>
      rw [List.map_cons, List.nodup_cons] at h
      rw [List.flatMap_cons, List.count_append]
      rcases List.mem_cons.mp hb with rfl | hb
      · have hrest : (cs.flatMap fun b => List.replicate (n b) (g b)).count (g b) = 0 := by
          refine List.count_eq_zero.mpr fun hmem => h.1 ?_
          obtain ⟨d, hd, hgd⟩ := List.mem_flatMap.mp hmem
          rw [(List.mem_replicate.mp hgd).2]
          exact List.mem_map_of_mem hd
        rw [hrest, List.count_replicate_self, Nat.add_zero]
      · have hne : g c ≠ g b := fun heq => h.1 (heq ▸ List.mem_map_of_mem hb)
        rw [ih h.2 hb, List.count_replicate, if_neg (by simpa using hne), Nat.zero_add]

end Keys

section Cells

variable {row joined : Row α}

/-- The key keeps its name. -/
theorem Joined.get_key (h : Joined key sl sr left right row joined) (hmem : key ∈ row.map Prod.fst)
    (hsl : ∀ l, l ++ sl ≠ key) : Row.get joined key = row.get key := by
  obtain ⟨rest, rfl⟩ := h.cells
  exact get_joinedLeft hmem (by simp [common]) hsl

/-- **What a join makes of a left cell.**  Under its old label it is there exactly when the right
frame has no column of that name; the suffixes must not rebuild the label. -/
theorem Joined.get_eq (h : Joined key sl sr left right row joined)
    (hrow : row.map Prod.fst = left.columns) {label : String} (hmem : label ∈ left.columns)
    (hkey : label ≠ key) (hsl : ∀ l, l ++ sl ≠ label) (hsr : ∀ l, l ++ sr ≠ label) :
    Row.get joined label = if label ∈ right.columns then none else row.get label := by
  split
  · rename_i hright
    rw [Row.get_eq_none_iff, h.labels]
    exact not_mem_joinedColumns hmem hright hkey hsl hsr
  · rename_i hright
    obtain ⟨rest, rfl⟩ := h.cells
    exact get_joinedLeft (hrow ▸ hmem) (by simp [common, hright]) hsl

end Cells

end MergeFacts

end Frame

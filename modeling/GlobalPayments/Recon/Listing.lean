/-
# GlobalPayments.Recon.Listing — the list of runs, newest first.

`list_runs` serves the run rows page by page, in the order of their dates.  A call writes a row over and
over, but never its date (`Sys.Dated`), and no two rows have one date: so a page of a table that stands
still is the same in every answer, and in a table that grows while it is read a row only moves towards
later pages.

`walk_meets_every_run`: whoever reads on to the first page that is not full has met every run that was
there when they began, whatever the calls do meanwhile.
-/
import GlobalPayments.Library.Query
import GlobalPayments.Recon.Tally
import Mathlib.Data.List.Sort

namespace GlobalPayments.Recon

open Runs

/-! ## The endpoint -/

/-- `datetime.combine(date, datetime.min.time(), tzinfo=timezone.utc)`, in milliseconds. -/
def midnight (d : Day) : Int := d * 86400000

/-- One entry of the list. -/
structure RunEntry where
  id : String
  runDate : String
  status : RunStatus
  totalRecords : Nat
  matched : Nat
  unmatched : Nat
  exceptions : Nat
  matchRatePct : Binary64
  startedAt : Option String
  completedAt : Option String
  deriving DecidableEq

/-- The entry of a row; `isoformat` is that of a `datetime`. -/
def runEntry (isoformat : Int → String) (r : ReconciliationRun) : RunEntry where
  id := r.id
  runDate := isoformat (midnight r.runDate)
  status := r.status
  totalRecords := r.totalRecords
  matched := r.matchedCount
  unmatched := r.unmatchedCount
  exceptions := r.exceptionCount
  matchRatePct := r.matchRate
  startedAt := r.startedAt.map isoformat
  completedAt := r.completedAt.map isoformat

/-- The sort key of `order_by(run_date.desc())`. -/
def newestFirst (r : ReconciliationRun) : Dayᵒᵈ := OrderDual.toDual r.runDate

section Endpoint

variable (isoformat : Int → String)
variable (arrange : List ReconciliationRun → List ReconciliationRun)

/-- `list_runs`, once its numbers are read; `none` is an exception.  `arrange` is what the database
makes of `order_by(run_date.desc())`. -/
def listRuns (db : ReportingDb) (limit offset : Option Int) : Option (List RunEntry) :=
  let limit := min (limit.getD 30) 90
  let offset := offset.getD 0
  -- the database takes neither below zero
  if limit < 0 ∨ offset < 0 then none
  else some ((((arrange db.runs).drop offset.toNat).take limit.toNat).map (runEntry isoformat))

end Endpoint

/-- A page of the list is a page of the answer. -/
theorem listRuns_page {isoformat : Int → String}
    {arrange : List ReconciliationRun → List ReconciliationRun} {db : ReportingDb} {limit : Int}
    (hlimit : 1 ≤ limit) (k : Nat) :
    listRuns isoformat arrange db (some limit) (some (k * min limit 90)) =
      some ((Query.page (min limit 90).toNat k (arrange db.runs)).map (runEntry isoformat)) := by
  have hoffset : ((k : Int) * min limit 90).toNat = k * (min limit 90).toNat := by
    rw [Int.toNat_mul (Int.natCast_nonneg k) (by omega), Int.toNat_natCast]
  have hnonneg : 0 ≤ (k : Int) * min limit 90 := Int.mul_nonneg (Int.natCast_nonneg k) (by omega)
  unfold listRuns
  dsimp only [Option.getD_some]
  rw [if_neg (by omega), hoffset]
  rfl

/-! ## Rows and their dates -/

/-- Every row has the id of its date. -/
def ReportingDb.Dated (db : ReportingDb) : Prop := ∀ r ∈ db.runs, r.id = runIdOf r.runDate

/-- So no two rows have one date. -/
theorem ReportingDb.Dated.nodup {db : ReportingDb} (h : db.Dated)
    (hunique : (db.runs.map ReconciliationRun.id).Nodup) : (db.runs.map newestFirst).Nodup := by
  have hids : db.runs.map ReconciliationRun.id =
      (db.runs.map newestFirst).map fun d => runIdOf (OrderDual.ofDual d) := by
    rw [List.map_map]
    exact List.map_congr_left h
  rw [hids] at hunique
  exact hunique.of_map _

/-- The row a call writes has the date of the call, and so has the one it is written over. -/
structure Worker.Dated (row : Option ReconciliationRun) (worker : Worker) : Prop where
  id : worker.phase ≠ .idle → worker.run.id = runIdOf worker.run.runDate
  date : worker.phase ≠ .idle → worker.run.runDate = worker.targetDate
  row : worker.phase.owns → ∀ r ∈ row, r.runDate = worker.run.runDate

/-- The invariant of the dates. -/
structure Sys.Dated (s : Sys) : Prop where
  sound : s.Sound
  stored : s.db.Dated
  workers : ∀ w, (s.workers w).Dated (s.db.findRun (s.workers w).run.id)

section Advance

variable {toDatetime : Cell → Cell} {db db' : ReportingDb} {worker worker' : Worker}
variable {outcome : Outcome}

theorem Advances.runDate (h : Advances toDatetime db worker outcome db' worker') :
    worker'.run.runDate = worker.run.runDate := by
  cases h with
  | summarised _ hrun =>
      unfold summarise at hrun
      split at hrun
      · obtain rfl := Except.ok.inj hrun
        rfl
      · cases hrun
  | _ => rfl

/-- What a statement makes of the run rows: nothing, the entity as a new row, or the entity over the
row with its id. -/
inductive RunsWritten (db : ReportingDb) (worker : Worker) (runs : List ReconciliationRun) : Prop
  | same : runs = db.runs → RunsWritten db worker runs
  | inserted (run : ReconciliationRun) : run.id = worker.run.id → run.runDate = worker.run.runDate →
      db.findRun worker.run.id = none → runs = db.runs ++ [run] → RunsWritten db worker runs
  | updated (run : ReconciliationRun) : run.id = worker.run.id → run.runDate = worker.run.runDate →
      worker.phase.owns → runs = Versioned.replaceRow ReconciliationRun.id run db.runs →
      RunsWritten db worker runs

theorem Advances.runs (h : Advances toDatetime db worker outcome db' worker') :
    RunsWritten db worker db'.runs := by
  cases h with
  | created now hphase hnone => exact .inserted (worker.run.start now) rfl rfl hnone rfl
  | committedBatch hphase => exact .updated worker.run rfl rfl (by rw [hphase]; trivial) rfl
  | committedSummary hphase => exact .updated worker.run rfl rfl (by rw [hphase]; trivial) rfl
  | @handled message now _ hphase =>
      exact .updated (worker.run.fail message now) rfl rfl (by rw [hphase]; trivial) rfl
  | _ => exact .same rfl

/-- **No row gets another date**, and none is taken away. -/
theorem Advances.dates (h : Advances toDatetime db worker outcome db' worker')
    (hunique : (db.runs.map ReconciliationRun.id).Nodup)
    (hworker : worker.Dated (db.findRun worker.run.id)) :
    db.runs.map (fun r => (r.id, r.runDate)) <+: db'.runs.map fun r => (r.id, r.runDate) := by
  rcases h.runs with hruns | ⟨run, -, -, -, hruns⟩ | ⟨run, hid, hdate, howns, hruns⟩
  · exact hruns ▸ List.prefix_rfl
  · rw [hruns, List.map_append]
    exact List.prefix_append _ _
  · have hsame : db'.runs.map (fun r => (r.id, r.runDate)) = db.runs.map fun r => (r.id, r.runDate) := by
      rw [hruns]
      apply Versioned.map_replaceRow_of_agree
      intro r hr hkey
      rw [hid] at hkey
      -- the row that is replaced is the one the call owns
      have hfind : db.findRun worker.run.id = some r := by
        rw [← hkey]
        exact (Versioned.mem_iff_find_key hunique).mp hr
      rw [hkey, hid, hdate, hworker.row howns r hfind]
    exact hsame ▸ List.prefix_rfl

theorem Advances.dated (h : Advances toDatetime db worker outcome db' worker')
    (hworker : worker.Dated (db.findRun worker.run.id)) :
    worker'.Dated (db'.findRun worker.run.id) := by
  refine ⟨fun _ => ?_, fun _ => ?_, fun howns r hr => ?_⟩
  · rw [h.runId, h.runDate]
    exact hworker.id h.not_idle
  · rw [h.runDate, h.targetDate]
    exact hworker.date h.not_idle
  · rw [h.runDate]
    unfold ReportingDb.findRun at hr
    rcases h.runs with hruns | ⟨run, hid, hdate, hnone, hruns⟩ | ⟨run, hid, hdate, hbefore, hruns⟩
    · rw [hruns] at hr
      rcases h.owner_or_free with hbefore | hnone | ⟨-, hfree⟩
      · exact hworker.row hbefore r hr
      · exact absurd (hr.symm.trans hnone) nofun
      · exact absurd howns hfree
    · rw [hruns, ← hid] at hr
      rw [← hid] at hnone
      obtain rfl := Option.some.inj ((findRun_append_self hnone).symm.trans hr)
      exact hdate
    · rw [hruns, ← hid, Versioned.find_replaceRow] at hr
      obtain ⟨stored, hstored, rfl⟩ := Option.map_eq_some_iff.mp hr
      have hkey : stored.id = run.id := by simpa using List.find?_some hstored
      rw [if_pos hkey]
      exact hdate

theorem Advances.stored_dated (h : Advances toDatetime db worker outcome db' worker')
    (hworker : worker.Dated (db.findRun worker.run.id)) (hdb : db.Dated) : db'.Dated := by
  have hwritten : ∀ run : ReconciliationRun, run.id = worker.run.id →
      run.runDate = worker.run.runDate → run.id = runIdOf run.runDate := by
    intro run hid hdate
    rw [hid, hdate]
    exact hworker.id h.not_idle
  intro r hr
  rcases h.runs with hruns | ⟨run, hid, hdate, -, hruns⟩ | ⟨run, hid, hdate, -, hruns⟩
  · rw [hruns] at hr
    exact hdb r hr
  · rw [hruns] at hr
    rcases List.mem_append.mp hr with hold | hnew
    · exact hdb r hold
    · obtain rfl := List.mem_singleton.mp hnew
      exact hwritten r hid hdate
  · rw [hruns] at hr
    obtain ⟨stored, hstored, rfl⟩ := List.mem_map.mp hr
    split
    · exact hwritten run hid hdate
    · exact hdb stored hstored

end Advance

theorem Sys.Dated.start {db : ReportingDb} (h : db.Valid) (hdated : db.Dated) :
    (Sys.start db).Dated where
  sound := .start h
  stored := hdated
  workers _ := ⟨fun h => absurd rfl h, fun h => absurd rfl h, fun h => h.elim⟩

theorem Worker.Dated.of_not_owns {row row' : Option ReconciliationRun} {worker : Worker}
    (h : worker.Dated row) (howns : ¬ worker.phase.owns) : worker.Dated row' :=
  ⟨h.id, h.date, fun howned => absurd howned howns⟩

section Steps

variable {toDatetime : Cell → Cell} {s s' : Sys}

/-- **Every step keeps the dates.** -/
theorem Sys.Dated.step {a : Action} (h : s.Dated) (hstep : step toDatetime s a = some s') :
    s'.Dated := by
  refine ⟨h.sound.step hstep, ?_, ?_⟩ <;>
    rcases step_cases hstep with ⟨w, date, -, hstarted⟩ | ⟨w, outcome, -, hstepped⟩
  · rw [hstarted.db]
    exact h.stored
  · exact hstepped.advances.stored_dated (h.workers w) h.stored
  · exact hstarted.forall_worker (P := fun _ db worker => worker.Dated (db.findRun worker.run.id))
      ⟨fun _ => rfl, fun _ => rfl, fun howns => howns.elim⟩ fun w' _ => h.workers w'
  · exact hstepped.forall_worker h.sound (P := fun _ row _ worker => worker.Dated row)
      (fun hdated howns => hdated.of_not_owns howns) (hstepped.advances.dated (h.workers w))
      fun w' _ => h.workers w'

/-- The rows and their dates, as they were inserted. -/
def Sys.dates (s : Sys) : List (String × Day) := s.db.runs.map fun r => (r.id, r.runDate)

/-- **A step leaves every row its place and its date.** -/
theorem Sys.Dated.dates_step {a : Action} (h : s.Dated) (hstep : Recon.step toDatetime s a = some s') :
    s.dates <+: s'.dates := by
  unfold Sys.dates
  rcases step_cases hstep with ⟨w, date, -, hstarted⟩ | ⟨w, outcome, -, hstepped⟩
  · exact hstarted.db ▸ List.prefix_rfl
  · exact hstepped.advances.dates h.sound.unique (h.workers w)

/-- And so does a run. -/
theorem Sys.Dated.dates_run {trace : List Action} (h : s.Dated)
    (hrun : run (Recon.step toDatetime) s trace = some s') : s.dates <+: s'.dates :=
  run_relates (I := Sys.Dated) (R := fun s t => s.dates <+: t.dates) (fun _ _ _ hs hstep => hs.step hstep)
    (fun _ => List.prefix_rfl) (fun _ _ _ => List.IsPrefix.trans) (fun _ _ _ hs => hs.dates_step) h hrun

end Steps

/-! ## A walk through the list -/

/-- A client reads page after page.  Each page is read in a later state than the one before, and cut
from an answer of its own. -/
structure Walk (toDatetime : Cell → Cell) (db : ReportingDb) where
  states : Nat → Sys
  start : ∃ trace, run (step toDatetime) (Sys.start db) trace = some (states 0)
  next : ∀ k, ∃ trace, run (step toDatetime) (states k) trace = some (states (k + 1))
  arrange : Nat → List ReconciliationRun → List ReconciliationRun
  ordered : ∀ k rows, Query.Ordered newestFirst rows (arrange k rows)

namespace Walk

variable {toDatetime : Cell → Cell} {db : ReportingDb} (walk : Walk toDatetime db)

/-- What the client gets as page `k`. -/
def page (isoformat : Int → String) (limit : Int) (k : Nat) : Option (List RunEntry) :=
  listRuns isoformat (walk.arrange k) (walk.states k).db (some limit) (some (k * min limit 90))

variable {walk}

theorem dated (hdb : db.Valid) (hdated : db.Dated) (k : Nat) : (walk.states k).Dated := by
  induction k with
  | zero =>
      obtain ⟨trace, hrun⟩ := walk.start
      exact run_invariant (fun _ _ _ hs hstep => hs.step hstep) (.start hdb hdated) hrun
  | succ k ih =>
      obtain ⟨trace, hrun⟩ := walk.next k
      exact run_invariant (fun _ _ _ hs hstep => hs.step hstep) ih hrun

theorem dates_mono (hdb : db.Valid) (hdated : db.Dated) {j k : Nat} (hjk : j ≤ k) :
    (walk.states j).dates <+: (walk.states k).dates := by
  induction hjk with
  | refl => exact List.prefix_rfl
  | @step k _ ih =>
      obtain ⟨trace, hrun⟩ := walk.next k
      exact ih.trans ((walk.dated hdb hdated k).dates_run hrun)

theorem page_eq (isoformat : Int → String) {limit : Int} (hlimit : 1 ≤ limit) (k : Nat) :
    walk.page isoformat limit k =
      some ((Query.page (min limit 90).toNat k
        (walk.arrange k (walk.states k).db.runs)).map (runEntry isoformat)) :=
  listRuns_page hlimit k

/-- While no run is created, every answer has the rows in one order. -/
theorem answers_alike (hdb : db.Valid) (hdated : db.Dated) {n k : Nat} (hk : k ≤ n)
    (hstill : (walk.states n).db.runs.length = (walk.states 0).db.runs.length) :
    (walk.arrange k (walk.states k).db.runs).map ReconciliationRun.id =
      (walk.arrange 0 (walk.states 0).db.runs).map ReconciliationRun.id := by
  have hlength : ∀ j, (walk.states j).dates.length = (walk.states j).db.runs.length :=
    fun j => List.length_map _
  have hsame : (walk.states k).dates = (walk.states 0).dates := by
    have hfirst := walk.dates_mono hdb hdated (Nat.zero_le k)
    have hlast := (walk.dates_mono hdb hdated hk).length_le
    refine (hfirst.eq_of_length_le ?_).symm
    rw [hlength n, hstill, ← hlength 0] at hlast
    exact hlast
  have hnodup : ((walk.states 0).dates.map fun p => OrderDual.toDual p.2).Nodup := by
    have h := walk.dated hdb hdated 0
    rw [Sys.dates, List.map_map]
    exact h.stored.nodup h.sound.unique
  have hordered : ∀ j, Query.Ordered (fun p : String × Day => OrderDual.toDual p.2)
      (walk.states j).dates
      ((walk.arrange j (walk.states j).db.runs).map fun r => (r.id, r.runDate)) :=
    fun j => Query.Ordered.map (f := fun r : ReconciliationRun => (r.id, r.runDate)) (walk.ordered j _)
  have hk := hordered k
  rw [hsame] at hk
  have hpairs := congrArg (List.map Prod.fst) (hk.unique (hordered 0) hnodup)
  rw [List.map_map, List.map_map] at hpairs
  exact hpairs

/-- What a client has seen who has read the pages `0` to `n`. -/
structure Complete (walk : Walk toDatetime db) (isoformat : Int → String) (limit : Int) (n : Nat) :
    Prop where
  /-- every run there was in the beginning, as it stood when its page was read -/
  met : ∀ run ∈ (walk.states 0).db.runs, ∃ k ≤ n, ∃ entries,
    walk.page isoformat limit k = some entries ∧
      ∃ r ∈ (walk.states k).db.runs, r.id = run.id ∧ runEntry isoformat r ∈ entries
  /-- each of them once, and the newest first, if none was created meanwhile -/
  once : (walk.states n).db.runs.length = (walk.states 0).db.runs.length →
    ((List.range (n + 1)).flatMap fun k =>
        ((walk.page isoformat limit k).getD []).map RunEntry.id) =
      (walk.arrange 0 (walk.states 0).db.runs).map ReconciliationRun.id

end Walk

/-- **A walk through the list misses no run.**  Calls may create, complete and fail runs between any
two pages: whoever reads to the first page that is not full has met every run that was there when
they began. -/
theorem walk_meets_every_run {toDatetime : Cell → Cell} {db : ReportingDb} (hdb : db.Valid)
    (hdated : db.Dated) (walk : Walk toDatetime db) (isoformat : Int → String) {limit : Int}
    (hlimit : 1 ≤ limit) {n : Nat} {entries : List RunEntry}
    (hread : walk.page isoformat limit n = some entries) (hshort : entries.length < min limit 90) :
    walk.Complete isoformat limit n := by
  have hdates := fun k => walk.dated hdb hdated k
  rw [walk.page_eq isoformat hlimit] at hread
  obtain rfl := Option.some.inj hread
  rw [List.length_map] at hshort
  have hlast : (Query.page (min limit 90).toNat n
      (walk.arrange n (walk.states n).db.runs)).length < (min limit 90).toNat := by omega
  refine ⟨fun run hrun => ?_, fun hstill => ?_⟩
  · have hgrows : ∀ k < n, (walk.states k).db.runs.map newestFirst ⊆
        (walk.states (k + 1)).db.runs.map newestFirst := by
      intro k _
      have hprefix := walk.dates_mono hdb hdated (Nat.le_succ k)
      have hsubset := List.map_subset (fun p : String × Day => OrderDual.toDual p.2) hprefix.subset
      rw [Sys.dates, Sys.dates, List.map_map, List.map_map] at hsubset
      exact hsubset
    obtain ⟨k, hk, r, hr, hdate⟩ := Query.exists_mem_page_of_growing
      (fun k _ => walk.ordered k (walk.states k).db.runs)
      (fun k _ => (hdates k).stored.nodup (hdates k).sound.unique) hgrows hlast
      (List.mem_map_of_mem hrun)
    have hmem : r ∈ (walk.states k).db.runs :=
      (walk.ordered k _).perm.mem_iff.mp (List.mem_of_mem_drop (List.mem_of_mem_take hr))
    refine ⟨k, hk, _, walk.page_eq isoformat hlimit k, r, hmem, ?_, List.mem_map_of_mem hr⟩
    rw [(hdates k).stored r hmem, (hdates 0).stored run hrun]
    exact congrArg (fun d : Dayᵒᵈ => runIdOf (OrderDual.ofDual d)) hdate
  · have hpage : ∀ k ≤ n, ((walk.page isoformat limit k).getD []).map RunEntry.id =
        Query.page (min limit 90).toNat k
          ((walk.arrange 0 (walk.states 0).db.runs).map ReconciliationRun.id) := by
      intro k hk
      rw [walk.page_eq isoformat hlimit, Option.getD_some, List.map_map,
        ← walk.answers_alike hdb hdated hk hstill, Query.page_map]
      rfl
    have hpages : ((List.range (n + 1)).flatMap fun k =>
        ((walk.page isoformat limit k).getD []).map RunEntry.id) =
        Query.pagesOf (n + 1) (min limit 90).toNat fun _ =>
          (walk.arrange 0 (walk.states 0).db.runs).map ReconciliationRun.id :=
      List.flatMap_congr fun k hk => hpage k (Nat.lt_succ_iff.mp (List.mem_range.mp hk))
    rw [hpages, Query.pagesOf_single]
    -- the last page is not full, so the pages reach the end
    apply List.take_of_length_le
    have hsame := congrArg List.length (hpage n (le_refl n))
    rw [walk.page_eq isoformat hlimit, Option.getD_some, List.length_map, List.length_map] at hsame
    rw [hsame, Query.page, List.length_take, List.length_drop] at hlast
    rw [Nat.succ_mul]
    omega

/-- The runs of 2024-03-15 and 2024-03-16 have been created. -/
def createTwo : List Action :=
  [.start 0 19797, .step 0 (.created 1), .start 1 19798, .step 1 (.created 2)]

/-- The run of 2024-03-17 is created. -/
def createThird : List Action := [.start 2 19799, .step 2 (.created 3)]

def afterTwo : Sys := (run (step id) (Sys.start ⟨[], []⟩) createTwo).get (by decide)

def afterThree : Sys := (run (step id) afterTwo createThird).get (by decide)

/-- The third run comes after the first page. -/
def sampleWalk : Walk id ⟨[], []⟩ where
  states k := if k = 0 then afterTwo else afterThree
  start := ⟨createTwo, by rw [if_pos rfl, afterTwo, Option.some_get]⟩
  next k := by
    rw [if_neg (Nat.succ_ne_zero k)]
    split
    · exact ⟨createThird, by rw [afterThree, Option.some_get]⟩
    · exact ⟨[], rfl⟩
  arrange _ rows := rows.insertionSort fun a b => newestFirst a ≤ newestFirst b
  ordered _ rows := ⟨List.perm_insertionSort _ rows, List.pairwise_insertionSort _ rows⟩

/-- The newest run pushes the second one to the next page: it is met twice, and the first one is not
missed. -/
theorem walk_meets_every_run_growing :
    ((List.range 4).map fun k => ((sampleWalk.page toString 1 k).getD []).map RunEntry.id) =
        [["RECON-20240316"], ["RECON-20240316"], ["RECON-20240315"], []] ∧
      sampleWalk.Complete toString 1 3 := by
  have hread : sampleWalk.page toString 1 3 = some [] := by decide +kernel
  refine ⟨by decide +kernel, ?_⟩
  exact walk_meets_every_run .empty (fun r hr => absurd hr List.not_mem_nil) sampleWalk toString
    (by decide) hread (by decide)

end GlobalPayments.Recon

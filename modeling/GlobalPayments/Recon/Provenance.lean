/-
# GlobalPayments.Recon.Provenance — what the reconciliation records say of the ledger.

A record is drawn from one row of the query, the row through the join and the derived columns, and the
join can only take cells of it away; a record that lost one of its `NOT NULL` cells is never inserted.
So every stored record repeats a version of a payment that was committed and COMPLETED or FAILED, and
created on the day of the record's run (`records_backed`).  A creation time never changes and a
reference belongs to one payment, so the records of a payment are all in one run.
-/
import GlobalPayments.Payments.Lookups
import GlobalPayments.Recon.Coverage

namespace GlobalPayments.Recon

open Frame Runs
open Payments (Payment ValidRows Evolves SameTerms)

/-! ## From a payment row to a record -/

/-- The labels of the payment's own cells in a record, its reference aside. -/
def ledgerLabels : List String :=
  ["payment_id", "internal_amount", "internal_currency", "internal_status", "internal_created_at"]

/-- A row of the result is about a payment row: it has the reference, and of the payment's own cells
those whose label the clearing file does not use. -/
structure About (toDatetime : Cell → Cell) (p : PaymentRow) (row : Row Cell) : Prop where
  reference : row.get "payment_reference" = some (.str p.paymentReference)
  kept : ∀ label ∈ ledgerLabels,
    row.get label = none ∨ row.get label = (internalRow toDatetime p).get label

theorem ledgerLabels_facts : ∀ label ∈ ledgerLabels, label ∈ internalColumns ∧
    label ≠ "payment_reference" ∧ label.toList.getLast? ≠ "_internal".toList.getLast? ∧
    label.toList.getLast? ≠ "_clearing".toList.getLast? ∧
    label ∉ ["status", "discrepancy_amount", "requires_investigation", "notes"] := by
  simp only [ledgerLabels, List.mem_cons, List.not_mem_nil, or_false]
  rintro label (rfl | rfl | rfl | rfl | rfl) <;> decide

/-- **`_reconcile` makes up no payment.** -/
theorem about_of_reconcile {toDatetime : Cell → Cell} {payments : List PaymentRow}
    {clearing results : Frame Cell}
    (h : reconcile (loadInternalPayments toDatetime payments) clearing = .ok results) :
    ∀ row ∈ results.rows, ∃ p ∈ payments, About toDatetime p row := by
  intro row hrow
  by_cases hne : payments = []
  · subst hne
    obtain rfl := Except.ok.inj h
    cases hrow
  · rw [reconcile_of_ne_nil hne] at h
    obtain ⟨merged, hjoined, hclassified⟩ := bind_eq_ok.mp h
    obtain ⟨hcolumns, hrows⟩ := loadInternalPayments_of_ne_nil toDatetime hne
    obtain ⟨m, hm, hderived⟩ := exists_of_mem_right (classified_rows hclassified) hrow
    obtain ⟨left, hleft, hfrom⟩ := joined_of_mem (joined_ok hjoined) hm
    rw [hrows] at hleft
    obtain ⟨p, hp, rfl⟩ := List.mem_map.mp hleft
    have hlabels : (internalRow toDatetime p).map Prod.fst = internalColumns := rfl
    refine ⟨p, hp, ?_, fun label hlabel => ?_⟩
    · rw [hderived.kept _ (by decide),
        hfrom.get_key (by rw [hlabels]; decide) (append_ne (by decide) (by decide))]
      rfl
    · obtain ⟨hinternal, hkey, hsl, hsr, hother⟩ := ledgerLabels_facts label hlabel
      rw [hderived.kept label hother, hfrom.get_eq (hlabels.trans hcolumns.symm)
        (by rw [hcolumns]; exact hinternal) hkey (append_ne (by decide) hsl.symm)
        (append_ne (by decide) hsr.symm)]
      split
      · exact Or.inl rfl
      · exact Or.inr rfl

/-- A record tells what a version of a payment says. -/
structure Tells (toDatetime : Cell → Cell) (p : Payment) (r : ReconciliationRecord) : Prop where
  reference : r.paymentReference = .str p.paymentReference
  paymentId : r.paymentId = .str (String.ofList p.id.toText)
  amount : r.internalAmount = .decimal (.divHundred p.amountMinorUnits)
  currency : r.internalCurrency = .str p.currency.name
  status : r.internalStatus = .str p.status.name
  createdAt : r.internalCreatedAt = toDatetime (.timestamp (timestampText p.createdAt))

/-- A cell of the payment that reached the record is the payment's. -/
theorem About.cell {toDatetime : Cell → Cell} {p : PaymentRow} {row : Row Cell}
    (h : About toDatetime p row) {label : String} (hlabel : label ∈ ledgerLabels)
    (hnotNull : getD row label .none ≠ .none) :
    some (getD row label .none) = (internalRow toDatetime p).get label := by
  rcases h.kept label hlabel with hnone | hkept
  · rw [getD, hnone] at hnotNull
    exact absurd rfl hnotNull
  · rw [← hkept]
    unfold getD at hnotNull ⊢
    cases hcell : row.get label with
    | none =>
        rw [hcell] at hnotNull
        exact absurd rfl hnotNull
    | some cell => rfl

/-- **The record of a row** that is about a payment tells what the payment says, once nothing that it
needs is missing. -/
theorem tells_of_toRecord {toDatetime : Cell → Cell} {p : Payment} {row : Row Cell}
    (h : About toDatetime (queryRow p) row) {id : Payments.UUID} {runId : String}
    {r : ReconciliationRecord} (hr : toRecord id runId row = .ok r) (hnotNull : r.notNull = true) :
    Tells toDatetime p r := by
  have hreference := (toRecord_ok hr).1
  unfold toRecord at hr
  obtain ⟨reference, -, hr⟩ := bind_eq_ok.mp hr
  obtain ⟨cell, -, hr⟩ := bind_eq_ok.mp hr
  obtain ⟨status, -, hr⟩ := bind_eq_ok.mp hr
  obtain rfl := Except.ok.inj hr
  simp only [ReconciliationRecord.notNull, Bool.and_eq_true, decide_eq_true_eq] at hnotNull
  obtain ⟨⟨⟨⟨⟨-, hid⟩, hamount⟩, hcurrency⟩, hstatus⟩, hcreated⟩ := hnotNull
  rw [h.reference] at hreference
  refine ⟨(Option.some.inj hreference).symm, ?_, ?_, ?_, ?_, ?_⟩
  · exact Option.some.inj (h.cell (by decide) hid)
  · exact Option.some.inj (h.cell (by decide) hamount)
  · exact Option.some.inj (h.cell (by decide) hcurrency)
  · exact Option.some.inj (h.cell (by decide) hstatus)
  · exact Option.some.inj (h.cell (by decide) hcreated)

/-! ## What a call holds of the ledger -/

/-- A committed version of a payment that the query of a date can select. -/
structure Selected (ledger : Payments.Database) (d : Day) (p : Payment) : Prop where
  logged : ledger.Logged p
  status : p.status = .COMPLETED ∨ p.status = .FAILED
  day : dayOf p.createdAt = d

/-- Query rows of the ledger. -/
def QueriedFrom (ledger : Payments.Database) (d : Day) (rows : List PaymentRow) : Prop :=
  ∀ row ∈ rows, ∃ p, Selected ledger d p ∧ row = queryRow p

/-- A result row about the ledger. -/
def DrawnFrom (toDatetime : Cell → Cell) (ledger : Payments.Database) (d : Day) (row : Row Cell) :
    Prop :=
  ∃ p, Selected ledger d p ∧ About toDatetime (queryRow p) row

/-- A record about the ledger, as far as it can be inserted. -/
def BackedBy (toDatetime : Cell → Cell) (ledger : Payments.Database) (r : ReconciliationRecord) :
    Prop :=
  ∃ d p, Selected ledger d p ∧ r.reconciliationRunId = runIdOf d ∧
    (r.notNull = true → Tells toDatetime p r)

/-- The internal frame of a call is the one of query rows of the ledger. -/
def LoadedFromLedger (toDatetime : Cell → Cell) (ledger : Payments.Database) (d : Day)
    (internal : Frame Cell) : Prop :=
  ∃ rows, internal = loadInternalPayments toDatetime rows ∧ QueriedFrom ledger d rows

/-- What a call still has to store is about the ledger. -/
def Phase.FromLedger (toDatetime : Cell → Cell) (ledger : Payments.Database) (d : Day) :
    Phase → Prop
  | .loadingClearing internal => LoadedFromLedger toDatetime ledger d internal
  | .reconciling internal _ => LoadedFromLedger toDatetime ledger d internal
  | .building _ rest batch => (∀ row ∈ rest, DrawnFrom toDatetime ledger d row) ∧
      ∀ r ∈ batch, BackedBy toDatetime ledger r
  | .inserting _ rest batch => (∀ row ∈ rest, DrawnFrom toDatetime ledger d row) ∧
      ∀ r ∈ batch, BackedBy toDatetime ledger r
  | .committingBatch _ rest => ∀ row ∈ rest, DrawnFrom toDatetime ledger d row
  | _ => True

/-- The invariant of a call. -/
structure Worker.FromLedger (toDatetime : Cell → Cell) (ledger : Payments.Database)
    (worker : Worker) : Prop where
  dated : worker.phase ≠ .idle → worker.run.id = runIdOf worker.targetDate
  phase : worker.phase.FromLedger toDatetime ledger worker.targetDate
  uncommitted : ∀ r ∈ worker.uncommitted, BackedBy toDatetime ledger r

section Advance

variable {toDatetime : Cell → Cell} {ledger : Payments.Database} {db db' : ReportingDb}
variable {worker worker' : Worker} {outcome : Outcome}

theorem fromLedger_nextRow {d : Day} {results : Frame Cell} {rest : List (Row Cell)}
    {batch : List ReconciliationRecord} (hrest : ∀ row ∈ rest, DrawnFrom toDatetime ledger d row)
    (hbatch : ∀ r ∈ batch, BackedBy toDatetime ledger r) :
    (nextRow results rest batch).FromLedger toDatetime ledger d := by
  unfold nextRow
  split
  · exact ⟨hrest, hbatch⟩
  · exact ⟨hrest, hbatch⟩

/-- The time of an insertion is no part of what a record tells. -/
theorem BackedBy.stamped {r : ReconciliationRecord} (h : BackedBy toDatetime ledger r) (now : Int) :
    BackedBy toDatetime ledger { r with reconciledAt := some now } := by
  obtain ⟨d, p, hselected, hrun, htells⟩ := h
  refine ⟨d, p, hselected, hrun, fun hnotNull => ?_⟩
  obtain ⟨hreference, hid, hamount, hcurrency, hstatus, hcreated⟩ := htells hnotNull
  exact ⟨hreference, hid, hamount, hcurrency, hstatus, hcreated⟩

/-- **A statement adds nothing that is not in the ledger**, if the query adds nothing. -/
theorem Advances.fromLedger (h : Advances toDatetime db worker outcome db' worker')
    (hworker : worker.FromLedger toDatetime ledger)
    (hquery : ∀ rows, outcome = .queried rows → QueriedFrom ledger worker.targetDate rows) :
    worker'.FromLedger toDatetime ledger := by
  have hdated := hworker.dated h.not_idle
  have hphase := hworker.phase
  have huncommitted := hworker.uncommitted
  cases h with
  | queried rows h =>
      exact ⟨fun _ => hdated, ⟨rows, rfl, hquery rows rfl⟩, huncommitted⟩
  | downloaded file h =>
      rw [h] at hphase
      exact ⟨fun _ => hdated, hphase, huncommitted⟩
  | reconciled h hreconcile =>
      rw [h] at hphase
      obtain ⟨rows, hinternal, hrows⟩ := hphase
      rw [hinternal] at hreconcile
      refine ⟨fun _ => hdated, ⟨fun row hrow => ?_, fun _ hr => absurd hr List.not_mem_nil⟩,
        huncommitted⟩
      obtain ⟨p, hp, habout⟩ := about_of_reconcile hreconcile row hrow
      obtain ⟨v, hselected, rfl⟩ := hrows p hp
      exact ⟨v, hselected, habout⟩
  | @built results row rest batch record id h hrecord =>
      rw [h] at hphase
      obtain ⟨hrows, hbatch⟩ := hphase
      refine ⟨fun _ => hdated, fromLedger_nextRow (fun row hrow => hrows row (List.mem_cons_of_mem _ hrow))
        fun r hr => ?_, huncommitted⟩
      rcases List.mem_append.mp hr with hold | hnew
      · exact hbatch r hold
      · obtain rfl := List.mem_singleton.mp hnew
        obtain ⟨v, hselected, habout⟩ := hrows row List.mem_cons_self
        exact ⟨_, v, hselected, (toRecord_ok hrecord).2.2.2.1.trans hdated,
          tells_of_toRecord habout hrecord⟩
  | persisted h => exact ⟨fun _ => hdated, trivial, huncommitted⟩
  | remainder h =>
      rw [h] at hphase
      exact ⟨fun _ => hdated, hphase, huncommitted⟩
  | inserted now h _ =>
      rw [h] at hphase
      refine ⟨fun _ => hdated, hphase.1, fun r hr => ?_⟩
      obtain ⟨record, hrecord, rfl⟩ := List.mem_map.mp hr
      exact (hphase.2 record hrecord).stamped now
  | committedBatch h =>
      rw [h] at hphase
      exact ⟨fun _ => hdated, ⟨hphase, fun _ hr => absurd hr List.not_mem_nil⟩,
        fun _ hr => absurd hr List.not_mem_nil⟩
  | summarised h hrun =>
      refine ⟨fun _ => ?_, trivial, huncommitted⟩
      rw [(summarise_ok hrun).1]
      exact hdated
  | struck database message hraises =>
      refine ⟨fun _ => hdated, trivial, fun r hr => huncommitted r ?_⟩
      show r ∈ worker.uncommitted
      simp only [Worker.strike] at hr
      split at hr
      · cases hr
      · exact hr
  | handled now refusal h =>
      exact ⟨fun _ => hdated, trivial, fun _ hr => absurd hr List.not_mem_nil⟩
  | exited => exact ⟨fun _ => hdated, trivial, fun _ hr => absurd hr List.not_mem_nil⟩
  | _ => exact ⟨fun _ => hdated, trivial, huncommitted⟩

end Advance

/-! ## The ledger only grows -/

section Mono

variable {toDatetime : Cell → Cell} {ledger ledger' : Payments.Database} {d : Day}
variable {new : List (Versioned.Write Payments.TxId Payment)}

theorem Selected.mono {p : Payment} (h : Selected ledger d p) (hlog : ledger'.log = ledger.log ++ new) :
    Selected ledger' d p :=
  ⟨h.logged.mono hlog, h.status, h.day⟩

theorem DrawnFrom.mono {row : Row Cell} (h : DrawnFrom toDatetime ledger d row)
    (hlog : ledger'.log = ledger.log ++ new) : DrawnFrom toDatetime ledger' d row := by
  obtain ⟨p, hselected, habout⟩ := h
  exact ⟨p, hselected.mono hlog, habout⟩

theorem BackedBy.mono {r : ReconciliationRecord} (h : BackedBy toDatetime ledger r)
    (hlog : ledger'.log = ledger.log ++ new) : BackedBy toDatetime ledger' r := by
  obtain ⟨d, p, hselected, hrun, htells⟩ := h
  exact ⟨d, p, hselected.mono hlog, hrun, htells⟩

theorem LoadedFromLedger.mono {internal : Frame Cell}
    (h : LoadedFromLedger toDatetime ledger d internal) (hlog : ledger'.log = ledger.log ++ new) :
    LoadedFromLedger toDatetime ledger' d internal := by
  obtain ⟨rows, hinternal, hrows⟩ := h
  refine ⟨rows, hinternal, fun row hrow => ?_⟩
  obtain ⟨p, hselected, heq⟩ := hrows row hrow
  exact ⟨p, hselected.mono hlog, heq⟩

theorem Phase.FromLedger.mono {phase : Phase} (h : phase.FromLedger toDatetime ledger d)
    (hlog : ledger'.log = ledger.log ++ new) : phase.FromLedger toDatetime ledger' d := by
  cases phase with
  | loadingClearing internal => exact LoadedFromLedger.mono h hlog
  | reconciling internal clearing => exact LoadedFromLedger.mono h hlog
  | building results rest batch =>
      exact ⟨fun row hrow => (h.1 row hrow).mono hlog, fun r hr => (h.2 r hr).mono hlog⟩
  | inserting results rest batch =>
      exact ⟨fun row hrow => (h.1 row hrow).mono hlog, fun r hr => (h.2 r hr).mono hlog⟩
  | committingBatch results rest => exact fun row hrow => (h row hrow).mono hlog
  | _ => trivial

theorem Worker.FromLedger.mono {worker : Worker} (h : worker.FromLedger toDatetime ledger)
    (hlog : ledger'.log = ledger.log ++ new) : worker.FromLedger toDatetime ledger' where
  dated := h.dated
  phase := h.phase.mono hlog
  uncommitted := fun r hr => (h.uncommitted r hr).mono hlog

end Mono

/-! ## The world -/

namespace World

/-- What a query returns is selected from the ledger. -/
theorem queriedFrom_query {ledger : Payments.Database} (h : ledger.Sound) (d : Day) :
    QueriedFrom ledger d (queryPayments d ledger.table) := by
  intro row hrow
  obtain ⟨p, hp, rfl⟩ := List.mem_map.mp hrow
  rw [List.mem_insertionSort, List.mem_filter] at hp
  obtain ⟨hmem, hfilter⟩ := hp
  simp only [Bool.and_eq_true, Bool.or_eq_true, decide_eq_true_eq] at hfilter
  exact ⟨p, ⟨h.logged hmem, hfilter.1, hfilter.2⟩, rfl⟩

/-- The invariant of the two services, `before` being the records that were there at the start. -/
structure Backed (toDatetime : Cell → Cell) (before : List ReconciliationRecord) (s : World) : Prop where
  payments : s.payments.Sound
  recon : s.recon.Sound
  workers : ∀ w, (s.recon.workers w).FromLedger toDatetime s.payments.db
  records : ∀ r ∈ s.recon.db.records, r ∈ before ∨ BackedBy toDatetime s.payments.db r

section Steps

variable {toDatetime : Cell → Cell} {before : List ReconciliationRecord} {s s' : World}

theorem Backed.start {clock : Payments.Instant} {rows : List Payment} {db : ReportingDb}
    (hrows : ValidRows rows) (hdb : db.Valid) :
    (World.start clock rows db).Backed toDatetime db.records where
  payments := .start hrows
  recon := .start hdb
  workers _ := ⟨fun hidle => absurd rfl hidle, trivial, fun _ hr => absurd hr List.not_mem_nil⟩
  records _ hr := Or.inl hr

theorem Backed.payments_step (h : s.Backed toDatetime before) {a : Payments.Action}
    {payments : Payments.Sys} (hstep : Payments.step s.payments a = some payments) :
    ({ s with payments := payments } : World).Backed toDatetime before := by
  obtain ⟨tx, srv, db, events, hstepped⟩ := Payments.step_cases hstep
  obtain ⟨new, hlog, -⟩ := hstepped.moves.log
  rw [← hstepped.db_eq] at hlog
  exact ⟨h.payments.step hstep, h.recon, fun w => (h.workers w).mono hlog,
    fun r hr => (h.records r hr).imp_right fun hbacked => hbacked.mono hlog⟩

theorem Backed.recon_step (h : s.Backed toDatetime before) {a : Recon.Action} {recon : Sys}
    (hpermits : s.Permits (.recon a)) (hstep : Recon.step toDatetime s.recon a = some recon) :
    ({ s with recon := recon } : World).Backed toDatetime before := by
  rcases Recon.step_cases hstep with ⟨w, date, rfl, hstarted⟩ | ⟨w, outcome, rfl, hstepped⟩
  · refine ⟨h.payments, h.recon.step hstep, ?_, ?_⟩
    · refine hstarted.forall_worker (P := fun _ _ worker =>
        worker.FromLedger toDatetime s.payments.db) ?_ fun w' _ => h.workers w'
      exact ⟨fun _ => rfl, trivial, fun _ hr => absurd hr List.not_mem_nil⟩
    · show ∀ r ∈ recon.db.records, _
      rw [hstarted.db]
      exact h.records
  · have hadvances := hstepped.advances
    refine ⟨h.payments, h.recon.step hstep, fun w' => ?_, fun r hr => ?_⟩
    · by_cases hw : w' = w
      · subst hw
        refine hadvances.fromLedger (h.workers w') fun rows hrows => ?_
        subst hrows
        rw [hpermits rows rfl]
        exact queriedFrom_query h.payments.db _
      · show (recon.workers w').FromLedger toDatetime s.payments.db
        rw [hstepped.others w' hw]
        exact h.workers w'
    · rcases hadvances.records r hr with hold | ⟨hnew, -⟩
      · exact h.records r hold
      · exact Or.inr ((h.workers w).uncommitted r hnew)

theorem Backed.step (h : s.Backed toDatetime before) {a : World.Action}
    (hstep : World.step toDatetime s a = some s') : s'.Backed toDatetime before := by
  rcases step_cases hstep with ⟨now, rfl, rfl⟩ | ⟨b, payments, rfl, hb, rfl⟩ |
    ⟨b, recon, rfl, hpermits, hb, rfl⟩
  · exact ⟨h.payments, h.recon, h.workers, h.records⟩
  · exact h.payments_step hb
  · exact h.recon_step hpermits hb

end Steps

/-- Two versions with one reference are versions of one payment, created at one time. -/
theorem createdAt_of_reference {ledger : Payments.Database} (h : ledger.Sound) {p p' : Payment}
    (hp : ledger.Logged p) (hp' : ledger.Logged p') (heq : p.paymentReference = p'.paymentReference) :
    p.createdAt = p'.createdAt := by
  obtain ⟨q, hq, hterms⟩ := h.stored_of_logged hp
  obtain ⟨q', hq', hterms'⟩ := h.stored_of_logged hp'
  have hfound := Payments.findByPaymentReference_of_mem h.distinct hq
  have hfound' := Payments.findByPaymentReference_of_mem h.distinct hq'
  rw [hterms.paymentReference, heq, ← hterms'.paymentReference, hfound'] at hfound
  obtain rfl := Option.some.inj hfound
  rw [← hterms.createdAt, hterms'.createdAt]

/-- **The records repeat the ledger.**  In every history of the two services, every record that was
stored tells what some committed version of a payment said, a COMPLETED or FAILED one that was created
on the day of the record's run and that the stored payment has evolved from; and the records of one
payment are all in one run. -/
theorem records_backed {toDatetime : Cell → Cell} {clock : Payments.Instant} {rows : List Payment}
    {db : ReportingDb} (hrows : ValidRows rows) (hdb : db.Valid) {trace : List Action} {s : World}
    (hrun : run (World.step toDatetime) (World.start clock rows db) trace = some s) :
    (∀ r ∈ s.recon.db.records, r ∈ db.records ∨
        ∃ p q, Tells toDatetime p r ∧ (p.status = .COMPLETED ∨ p.status = .FAILED) ∧
          r.reconciliationRunId = runIdOf (dayOf p.createdAt) ∧ s.payments.db.Logged p ∧
          q ∈ s.payments.db.table ∧ Relation.ReflTransGen Evolves p q) ∧
      ∀ r ∈ s.recon.db.records, ∀ r' ∈ s.recon.db.records, r ∉ db.records → r' ∉ db.records →
        r.paymentReference = r'.paymentReference →
        r.reconciliationRunId = r'.reconciliationRunId := by
  have hs : s.Backed toDatetime db.records :=
    run_invariant (fun _ _ _ hs hstep => hs.step hstep) (.start hrows hdb) hrun
  have hbacked : ∀ r ∈ s.recon.db.records, r ∉ db.records →
      ∃ p, Selected s.payments.db (dayOf p.createdAt) p ∧
        r.reconciliationRunId = runIdOf (dayOf p.createdAt) ∧ Tells toDatetime p r := by
    intro r hr hnew
    obtain ⟨d, p, hselected, hid, htells⟩ := (hs.records r hr).resolve_left hnew
    obtain rfl := hselected.day
    exact ⟨p, hselected, hid, htells (hs.recon.notNull r hr)⟩
  refine ⟨fun r hr => ?_, fun r hr r' hr' hnew hnew' heq => ?_⟩
  · by_cases hold : r ∈ db.records
    · exact Or.inl hold
    · obtain ⟨p, hselected, hid, htells⟩ := hbacked r hr hold
      obtain ⟨x, hx, rfl⟩ := hselected.logged
      obtain ⟨q, hq, -, hreach⟩ := hs.payments.db.consistent.stored_of_log hx
      exact Or.inr ⟨_, q, htells, hselected.status, hid, hselected.logged, hq, hreach⟩
  · obtain ⟨p, hselected, hid, htells⟩ := hbacked r hr hnew
    obtain ⟨p', hselected', hid', htells'⟩ := hbacked r' hr' hnew'
    rw [htells.reference, htells'.reference, Cell.str.injEq] at heq
    rw [hid, hid', createdAt_of_reference hs.payments.db hselected.logged hselected'.logged heq]

/-- A payment that failed, is reconciled as such the next night, and is then reopened. -/
def failedPayment : Payment :=
  { samplePayment with status := .FAILED, clearingReference := some "CLR-001" }

def reopened : List Action :=
  (storing 0 19797 [queryRow failedPayment, queryRow secondPayment] (settledAt "100.00" "25.00")
      [9, 10]).map .recon ++
    [.payments (.updateStatus 0 0 7 ⟨.PENDING, none, none⟩),
      .payments (.applyAndPublish 0 1710549000000 true), .payments (.commit 0 1710549000000)]

/-- Its record still calls it FAILED, as the ledger did when the run read it. -/
theorem records_backed_reopened :
    ∃ s, run (World.step asTimestamp)
        (World.start 1710549000000 [failedPayment, secondPayment] ⟨[], []⟩) reopened = some s ∧
      s.payments.db.table.map Payment.status = [.PENDING, .COMPLETED] ∧
      s.recon.db.records.map (·.internalStatus) = [.str "FAILED", .str "COMPLETED"] ∧
      ∀ r ∈ s.recon.db.records,
        ∃ p q, Tells asTimestamp p r ∧ q ∈ s.payments.db.table ∧ Relation.ReflTransGen Evolves p q := by
  obtain ⟨s, hrun, hstatus, hrecords⟩ : ∃ s ∈ run (World.step asTimestamp)
        (World.start 1710549000000 [failedPayment, secondPayment] ⟨[], []⟩) reopened,
      s.payments.db.table.map Payment.status = [.PENDING, .COMPLETED] ∧
      s.recon.db.records.map (·.internalStatus) = [.str "FAILED", .str "COMPLETED"] := by
    decide +kernel
  obtain ⟨hbacked, -⟩ :=
    records_backed ⟨by decide, List.pairwise_pair.mpr (by decide)⟩ .empty hrun
  refine ⟨s, hrun, hstatus, hrecords, fun r hr => ?_⟩
  rcases hbacked r hr with hbefore | ⟨p, q, htells, -, -, -, hq, hreach⟩
  · cases hbefore
  · exact ⟨p, q, htells, hq, hreach⟩

end World

end GlobalPayments.Recon

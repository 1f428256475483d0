/-
# GlobalPayments.Recon.Schedule — the payments service and the daily reconciliation, on one clock.

A world is the payments service, the reconciliation calls and the time.  Payments are created and
move at any time; a call for a date starts after that day has ended, and its query sees what is
committed when it runs: the reporting replica it reads is the payments table, without a delay.  The
two services meet in one place only: the rows of that query.
-/
import GlobalPayments.Payments.Invariant
import GlobalPayments.Recon.Invariant

namespace GlobalPayments.Recon

open Payments (Instant Payment paddedDigits)

/-! ## The query -/

/-- `DATE(… AT TIME ZONE 'UTC')`. -/
def dayOf (t : Instant) : Day := t / 86400000

/-- A timestamp as pandas prints it. -/
def timestampText (t : Instant) : String :=
  let (year, month, day) := (dayOf t).civil
  let ms := (t % 86400000).toNat
  let fraction := if ms % 1000 = 0 then [] else '.' :: paddedDigits 10 3 (ms % 1000) ++ ['0', '0', '0']
  String.ofList (paddedDigits 10 4 year ++ ['-'] ++ paddedDigits 10 2 month ++ ['-'] ++
    paddedDigits 10 2 day ++ [' '] ++ paddedDigits 10 2 (ms / 3600000) ++ [':'] ++
    paddedDigits 10 2 (ms / 60000 % 60) ++ [':'] ++ paddedDigits 10 2 (ms / 1000 % 60) ++ fraction ++
    "+00:00".toList)

example : timestampText 1710496800000 = "2024-03-15 10:00:00+00:00" := by decide

/-- A selected row. -/
def queryRow (p : Payment) : PaymentRow where
  paymentReference := p.paymentReference
  paymentId := String.ofList p.id.toText
  amountMinorUnits := p.amountMinorUnits
  currency := p.currency.name
  status := p.status.name
  clearingReference := p.clearingReference
  createdAt := timestampText p.createdAt
  updatedAt := timestampText p.updatedAt

/-- The query of `_load_internal_payments`. -/
def queryPayments (d : Day) (table : List Payment) : List PaymentRow :=
  ((table.filter fun p =>
      (p.status = .COMPLETED || p.status = .FAILED) && dayOf p.createdAt = d).insertionSort
    fun a b => a.paymentReference ≤ b.paymentReference).map queryRow

theorem mem_queryPayments {d : Day} {table : List Payment} {p : Payment} (hp : p ∈ table)
    (hstatus : p.status = .COMPLETED ∨ p.status = .FAILED) (hday : dayOf p.createdAt = d) :
    queryRow p ∈ queryPayments d table := by
  refine List.mem_map_of_mem ?_
  rw [List.mem_insertionSort, List.mem_filter]
  exact ⟨hp, by simp [hstatus, hday]⟩

/-! ## The world -/

structure World where
  clock : Instant
  payments : Payments.Sys
  recon : Sys

namespace World

def start (clock : Instant) (rows : List Payment) (db : ReportingDb) : World where
  clock := clock
  payments := .start rows
  recon := .start db

inductive Action where
  | tick (now : Instant)
  | payments (a : Payments.Action)
  | recon (a : Recon.Action)

/-- The clock reading a step of the payments service uses. -/
def reading : Payments.Action → Option Instant
  | .persistAndPublish _ env _ => some env.now
  | .applyAndPublish _ now _ => some now
  | .requeueAndPublish _ now _ => some now
  | .commit _ now => some now
  | _ => none

/-- The rows a query returns. -/
def answer : Outcome → Option (List PaymentRow)
  | .queried rows => some rows
  | _ => none

/-- What a step finds in the world: a call is for a day that has ended, and its query returns what
the payments table holds. -/
def Permits (s : World) : Action → Prop
  | .tick now => s.clock ≤ now
  | .payments a => ∀ now ∈ reading a, now = s.clock
  | .recon (.start _ date) => date < dayOf s.clock
  | .recon (.step w outcome) => ∀ rows ∈ answer outcome,
      rows = queryPayments (s.recon.workers w).targetDate s.payments.db.table

instance (s : World) : (a : Action) → Decidable (s.Permits a)
  | .tick now => inferInstanceAs (Decidable (s.clock ≤ now))
  | .payments a => inferInstanceAs (Decidable (∀ now ∈ reading a, now = s.clock))
  | .recon (.start _ date) => inferInstanceAs (Decidable (date < dayOf s.clock))
  | .recon (.step w outcome) => inferInstanceAs (Decidable (∀ rows ∈ answer outcome,
      rows = queryPayments (s.recon.workers w).targetDate s.payments.db.table))

/-- One step of the world. -/
def step (toDatetime : Cell → Cell) (s : World) (a : Action) : Option World :=
  if s.Permits a then
    match a with
    | .tick now => some { s with clock := now }
    | .payments a => (Payments.step s.payments a).map fun payments => { s with payments := payments }
    | .recon a => (Recon.step toDatetime s.recon a).map fun recon => { s with recon := recon }
  else none

/-- **Every step moves one of the three parts.** -/
theorem step_cases {toDatetime : Cell → Cell} {s s' : World} {a : Action}
    (h : step toDatetime s a = some s') :
    (∃ now, a = .tick now ∧ s' = { s with clock := now }) ∨
    (∃ b payments, a = .payments b ∧ Payments.step s.payments b = some payments ∧
      s' = { s with payments := payments }) ∨
    ∃ b recon, a = .recon b ∧ s.Permits (.recon b) ∧ Recon.step toDatetime s.recon b = some recon ∧
      s' = { s with recon := recon } := by
  unfold step at h
  split at h
  · rename_i hpermits
    cases a with
    | tick now => exact Or.inl ⟨now, rfl, (Option.some.inj h).symm⟩
    | payments b =>
        obtain ⟨payments, hb, rfl⟩ := Option.map_eq_some_iff.mp h
        exact Or.inr (Or.inl ⟨b, payments, rfl, hb, rfl⟩)
    | recon b =>
        obtain ⟨recon, hb, rfl⟩ := Option.map_eq_some_iff.mp h
        exact Or.inr (Or.inr ⟨b, recon, rfl, hpermits, hb, rfl⟩)
  · cases h

/-- A payment of 15 March 2024, created at 10:00 and sent to clearing. -/
def samplePayment : Payment where
  id := 7
  paymentReference := "PAY-20240315-000001-AB12"
  senderAccountId := "GB29NWBK60161331926819"
  receiverAccountId := "GB94BARC10201530093459"
  receiverBankCode := "BARCGB22"
  amountMinorUnits := 10000
  currency := .GBP
  status := .PROCESSING
  paymentType := .DOMESTIC
  description := none
  clearingReference := none
  idempotencyKey := none
  retryCount := 0
  failureReason := none
  createdAt := 1710496800000
  updatedAt := 1710496800000
  createdBy := some "ops"
  version := 1

end World

end GlobalPayments.Recon

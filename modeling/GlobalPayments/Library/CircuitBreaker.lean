/-
# CircuitBreaker — what a program relies on of a circuit breaker.

A breaker counts the calls and the failures of a sliding statistical window and opens when a failure
finds enough calls in the window and too many of them failed; errors that the filter accepts are no
failures.  `CircuitBreaker` is any implementation that keeps to this while the circuit is closed, and
`rolling` is one: a window of buckets, and a circuit that half-opens after the reset time.
-/
import Mathlib.Algebra.GroupWithZero.Nat
import Mathlib.Data.List.Basic

universe u v

/-- The options of a breaker, times in milliseconds. -/
structure BreakerOptions (ε : Type u) where
  timeout : Nat
  errorThresholdPercentage : Nat
  resetTimeout : Nat
  volumeThreshold : Nat
  errorFilter : ε → Bool := fun _ => false

inductive Circuit where
  | closed
  | opened
  | halfOpen
  deriving DecidableEq, Repr

/-- One more failure among `failures` in a window of `fires` calls opens the circuit. -/
def BreakerOptions.exceeded {ε : Type u} (options : BreakerOptions ε) (fires failures : Nat) : Bool :=
  options.volumeThreshold ≤ fires &&
    options.errorThresholdPercentage * fires < 100 * (failures + 1)

/-- A breaker: its state, what can be read off it, the events it sees, and what these do to a closed
circuit. -/
structure CircuitBreaker {ε : Type u} (options : BreakerOptions ε) where
  State : Type v
  init : State
  circuit : State → Circuit
  /-- the calls in the window -/
  fires : State → Nat
  /-- the failures in the window -/
  failures : State → Nat
  /-- the next call is let through -/
  admits : State → Bool
  fire : State → State
  succeed : State → State
  fail : ε → State → State
  /-- an interval of the window ends -/
  elapse : State → State
  circuit_init : circuit init = .closed
  fires_init : fires init = 0
  failures_init : failures init = 0
  admits_closed : ∀ s, circuit s = .closed → admits s = true
  circuit_fire : ∀ s, circuit s = .closed → circuit (fire s) = .closed
  fires_fire : ∀ s, fires (fire s) = fires s + 1
  failures_fire : ∀ s, failures (fire s) = failures s
  circuit_succeed : ∀ s, circuit s = .closed → circuit (succeed s) = .closed
  fires_succeed : ∀ s, fires (succeed s) = fires s
  failures_succeed : ∀ s, failures (succeed s) = failures s
  fail_filtered : ∀ e s, options.errorFilter e = true → fail e s = succeed s
  circuit_fail : ∀ e s, options.errorFilter e = false → circuit s = .closed →
    circuit (fail e s) = if options.exceeded (fires s) (failures s) then .opened else .closed
  fires_fail : ∀ e s, fires (fail e s) = fires s
  failures_fail : ∀ e s, options.errorFilter e = false → failures (fail e s) = failures s + 1
  circuit_elapse : ∀ s, circuit s = .closed → circuit (elapse s) = .closed
  fires_elapse : ∀ s, fires (elapse s) ≤ fires s
  failures_elapse : ∀ s, failures (elapse s) ≤ failures s

namespace CircuitBreaker

/-! ## A window of buckets -/

/-- The calls and failures of one interval. -/
structure Bucket where
  fires : Nat := 0
  failures : Nat := 0
  deriving DecidableEq, Repr

/-- The current bucket, the older ones of the window, and how long the circuit has been open. -/
structure Rolling where
  circuit : Circuit := .closed
  current : Bucket := {}
  older : List Bucket := []
  openFor : Nat := 0
  deriving DecidableEq, Repr

namespace Rolling

/-- The window has ten buckets of a second each. -/
def buckets : Nat := 10

def interval : Nat := 1000

def fires (s : Rolling) : Nat := s.current.fires + (s.older.map Bucket.fires).sum

def failures (s : Rolling) : Nat := s.current.failures + (s.older.map Bucket.failures).sum

def fire (s : Rolling) : Rolling :=
  { s with current := { s.current with fires := s.current.fires + 1 } }

/-- A success closes a half-open circuit. -/
def succeed (s : Rolling) : Rolling :=
  { s with circuit := if s.circuit = .halfOpen then .closed else s.circuit }

variable {ε : Type u} (options : BreakerOptions ε)

/-- A failure opens a half-open circuit at once. -/
def fail (e : ε) (s : Rolling) : Rolling :=
  if options.errorFilter e then s.succeed
  else
    { s with
      current := { s.current with failures := s.current.failures + 1 }
      circuit :=
        if s.circuit = .halfOpen then .opened
        else if options.exceeded s.fires s.failures then .opened
        else s.circuit
      openFor := if s.circuit = .opened then s.openFor else 0 }

/-- The oldest bucket leaves the window; an open circuit half-opens after the reset time. -/
def elapse (s : Rolling) : Rolling where
  circuit :=
    if s.circuit = .opened ∧ options.resetTimeout ≤ s.openFor + interval then .halfOpen else s.circuit
  current := {}
  older := (s.current :: s.older).take (buckets - 1)
  openFor := s.openFor + interval

theorem sum_take_le (f : Bucket → Nat) (l : List Bucket) (n : Nat) :
    ((l.take n).map f).sum ≤ (l.map f).sum := by
  have hsplit : (l.map f).sum = ((l.take n).map f).sum + ((l.drop n).map f).sum := by
    rw [← List.sum_append, ← List.map_append, List.take_append_drop]
  omega

end Rolling

/-- The breaker with this window. -/
def rolling {ε : Type u} (options : BreakerOptions ε) : CircuitBreaker options where
  State := Rolling
  init := {}
  circuit := Rolling.circuit
  fires := Rolling.fires
  failures := Rolling.failures
  admits s := s.circuit ≠ .opened
  fire := Rolling.fire
  succeed := Rolling.succeed
  fail := Rolling.fail options
  elapse := Rolling.elapse options
  circuit_init := rfl
  fires_init := rfl
  failures_init := rfl
  admits_closed s h := by simp [h]
  circuit_fire _ h := h
  fires_fire s := by
    simp only [Rolling.fires, Rolling.fire]
    omega
  failures_fire _ := rfl
  circuit_succeed s h := by simp [Rolling.succeed, h]
  fires_succeed _ := rfl
  failures_succeed _ := rfl
  fail_filtered e s h := by simp [Rolling.fail, h]
  circuit_fail e s hfilter hclosed := by simp [Rolling.fail, hfilter, hclosed]
  fires_fail e s := by
    unfold Rolling.fail
    split <;> rfl
  failures_fail e s h := by
    simp only [Rolling.fail, h, Rolling.failures]
    simp only [Bool.false_eq_true, if_false]
    omega
  circuit_elapse s h := by simp [Rolling.elapse, h]
  fires_elapse s := by
    have hle := Rolling.sum_take_le Bucket.fires (s.current :: s.older) (Rolling.buckets - 1)
    simpa [Rolling.fires, Rolling.elapse] using hle
  failures_elapse s := by
    have hle := Rolling.sum_take_le Bucket.failures (s.current :: s.older) (Rolling.buckets - 1)
    simpa [Rolling.failures, Rolling.elapse] using hle

end CircuitBreaker

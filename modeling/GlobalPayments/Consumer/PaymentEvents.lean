/-
# GlobalPayments.Consumer.PaymentEvents — the poll loop of the payment event consumer.

`PaymentEventConsumer.start` processes one message at a time, commits after each success, and leaves a
failed message uncommitted so that a restart reprocesses it.  But `commit()` names no message: it
commits the positions, and polling has moved them past the failed message.  The next success commits
it away.

`failures_kept` says that this is the only way to lose a failure: while commits go through only in
sessions without one, no failed message is passed, and after a restart each is delivered again.
-/
import GlobalPayments.Library.ConsumerGroup
import GlobalPayments.Library.Json
import GlobalPayments.Library.Runs

namespace GlobalPayments.Consumer

open Runs Subscription

/-! ## `_process_message` -/

/-- The exceptions that can end the processing of a message. -/
inductive PyException where
  | jsonDecodeError
  | unicodeDecodeError
  | attributeError
  | typeError
  | other (name : String)
  deriving DecidableEq

/-- A message, with what `json.loads(msg.value().decode('utf-8'))` makes of its value. -/
structure Message where
  loaded : Except PyException Json

/-- What was done with a message. -/
inductive Handled where
  | malformed
  | paymentCreated
  | statusChanged
  | paymentRetry
  | unhandled
  deriving DecidableEq

/-- `handlers.get(event_type)`: lists and dicts are no dictionary keys. -/
def handlerOf : Json → Except PyException Handled
  | .arr _ => .error .typeError
  | .obj _ => .error .typeError
  | .str "PAYMENT_CREATED" => .ok .paymentCreated
  | .str "PAYMENT_STATUS_CHANGED" => .ok .statusChanged
  | .str "PAYMENT_RETRY" => .ok .paymentRetry
  | _ => .ok .unhandled

/-- `_process_message`; the handlers only log. -/
def processMessage (msg : Message) : Except PyException Handled :=
  match msg.loaded with
  | .error .jsonDecodeError => .ok .malformed
  | .error e => .error e
  | .ok (.obj fields) => handlerOf ((fields.lookup "eventType").getD .null)
  -- `event.get` of anything but a dict
  | .ok _ => .error .attributeError

/-! ## The loop -/

abbrev Partition := Nat

/-- Where the loop stands. -/
inductive Phase where
  | polling
  | processing (msg : Message)
  | committing
  | closed

structure PaymentEventConsumer where
  subscription : Subscription Partition Message
  phase : Phase := .polling
  running : Bool := true

inductive Action where
  /-- payments-service publishes an event -/
  | produce (p : Partition) (msg : Message)
  /-- `poll` returns the next message of a partition; nothing, the end of one or an error -/
  | poll (p : Option Partition)
  /-- `_process_message` ends; an exception may strike from outside -/
  | process (fault : Option PyException)
  | commit (fails : Bool)
  /-- `poll` raises -/
  | fatal
  /-- `stop_consumer` -/
  | stop
  /-- the loop sees that it was stopped -/
  | leave
  /-- the process ends, at whatever point, and another one starts -/
  | restart

/-- The consumer of a new process. -/
def PaymentEventConsumer.start (log : Partition → List Message) (committed : Partition → Nat) :
    PaymentEventConsumer where
  subscription := .start log committed

/-- One step. -/
def step (s : PaymentEventConsumer) : Action → Option PaymentEventConsumer
  | .produce p msg => some { s with subscription := s.subscription.produce p msg }
  | .poll none =>
      match s.phase, s.running with
      | .polling, true => some s
      | _, _ => none
  | .poll (some p) =>
      match s.phase, s.running with
      | .polling, true =>
          match s.subscription.poll p with
          | some (msg, subscription) =>
              some { s with subscription := subscription, phase := .processing msg }
          | none => none
      | _, _ => none
  | .process fault =>
      match s.phase with
      | .processing msg =>
          match fault, processMessage msg with
          | none, .ok _ => some
              { s with subscription := s.subscription.settle false, phase := .committing }
          -- logged, and not committed
          | _, _ => some { s with subscription := s.subscription.settle true, phase := .polling }
      | _ => none
  | .commit fails =>
      match s.phase with
      | .committing =>
          -- a commit that raises is caught and logged as well
          if fails then some { s with phase := .polling }
          else some { s with subscription := s.subscription.commit, phase := .polling }
      | _ => none
  | .fatal =>
      match s.phase, s.running with
      | .polling, true => some { s with phase := .closed }
      | _, _ => none
  | .stop => some { s with running := false }
  | .leave =>
      match s.phase, s.running with
      | .polling, false => some { s with phase := .closed }
      | _, _ => none
  | .restart => some { subscription := s.subscription.restart }

/-! ## What a step can do -/

/-- A message is in flight exactly while it is processed. -/
def PaymentEventConsumer.Tidy (s : PaymentEventConsumer) : Prop :=
  match s.phase with
  | .processing _ => ∃ p o, s.subscription.inFlight = some (p, o)
  | _ => s.subscription.inFlight = none

theorem tidy_start (log : Partition → List Message) (committed : Partition → Nat) :
    (PaymentEventConsumer.start log committed).Tidy := rfl

/-- **Every step moves the subscription, or leaves it alone**; only `commit` commits. -/
theorem step_cases {s s' : PaymentEventConsumer} {a : Action} (h : step s a = some s')
    (htidy : s.Tidy) :
    s'.Tidy ∧ (s'.subscription = s.subscription ∨
      Moves (fun _ => a = .commit false) s.subscription s'.subscription) := by
  unfold PaymentEventConsumer.Tidy at htidy
  cases a with
  | produce p msg =>
      obtain rfl := Option.some.inj h
      exact ⟨htidy, Or.inr (.produce _ p msg)⟩
  | poll p =>
      cases p with
      | none =>
          simp only [step] at h
          split at h <;> cases h
          rename_i hphase hrunning
          exact ⟨by simpa only [PaymentEventConsumer.Tidy] using htidy, Or.inl rfl⟩
      | some p =>
          simp only [step] at h
          split at h <;> try cases h
          rename_i hphase hrunning
          split at h <;> cases h
          rename_i msg subscription hpoll
          rw [hphase] at htidy
          refine ⟨⟨p, s.subscription.position p, ?_⟩, Or.inr (.poll htidy hpoll)⟩
          rw [poll_eq_some hpoll]
  | process fault =>
      simp only [step] at h
      split at h <;> try cases h
      rename_i msg hphase
      rw [hphase] at htidy
      obtain ⟨p, o, hflight⟩ := htidy
      have hsettled : ∀ raised, (s.subscription.settle raised).inFlight = none := by
        intro raised
        rw [settle_eq hflight]
      split at h <;> cases h
      · exact ⟨hsettled false, Or.inr (.settle false hflight)⟩
      · exact ⟨hsettled true, Or.inr (.settle true hflight)⟩
  | commit fails =>
      simp only [step] at h
      split at h <;> try cases h
      rename_i hphase
      rw [hphase] at htidy
      cases fails with
      | true =>
          cases h
          exact ⟨htidy, Or.inl rfl⟩
      | false =>
          cases h
          exact ⟨htidy, Or.inr (.commit htidy rfl)⟩
  | fatal =>
      simp only [step] at h
      split at h <;> cases h
      rename_i hphase hrunning
      rw [hphase] at htidy
      exact ⟨htidy, Or.inl rfl⟩
  | stop =>
      obtain rfl := Option.some.inj h
      exact ⟨htidy, Or.inl rfl⟩
  | leave =>
      simp only [step] at h
      split at h <;> cases h
      rename_i hphase hrunning
      rw [hphase] at htidy
      exact ⟨htidy, Or.inl rfl⟩
  | restart =>
      obtain rfl := Option.some.inj h
      exact ⟨rfl, Or.inr (.restart _)⟩

/-! ## Failed messages -/

/-- No committed offset is past a message whose processing raised and has not succeeded since. -/
def PaymentEventConsumer.FailuresKept (s : PaymentEventConsumer) : Prop :=
  ∀ p o, Failed s.subscription.history p o → s.subscription.committed p ≤ o

/-- After a restart, whatever happens then, each failed message is delivered again before the consumer
is past it. -/
def PaymentEventConsumer.Redelivers (s : PaymentEventConsumer) : Prop :=
  ∀ later t, run step s (.restart :: later) = some t →
    ∀ p o, Failed s.subscription.history p o → o < t.subscription.position p →
      t.subscription.DeliveredSince s.subscription.history p o

/-- A commit goes through only in a session in which no message has raised. -/
def Unbroken (s : PaymentEventConsumer) : Action → Prop
  | .commit false => s.subscription.Clean
  | _ => True

theorem step_intact {s s' : PaymentEventConsumer} {a : Action} (htidy : s.Tidy)
    (hintact : s.subscription.Intact) (hunbroken : Unbroken s a) (h : step s a = some s') :
    s'.Tidy ∧ s'.subscription.Intact := by
  obtain ⟨htidy', hsame | hmoves⟩ := step_cases h htidy
  · rw [hsame]
    exact ⟨htidy', hintact⟩
  · refine ⟨htidy', (hmoves.mono ?_).intact hintact⟩
    rintro rfl
    exact hunbroken

/-- No step skips a message that is still before the consumer. -/
theorem run_awaits {deliveries : List (Delivery Partition)} {p : Partition} {o : Nat}
    {trace : List Action} {s t : PaymentEventConsumer} (htidy : s.Tidy)
    (hawaits : s.subscription.Awaits deliveries p o) (hrun : run step s trace = some t) :
    t.subscription.Awaits deliveries p o := by
  refine (run_invariant (I := fun s : PaymentEventConsumer =>
    s.Tidy ∧ s.subscription.Awaits deliveries p o) ?_ ⟨htidy, hawaits⟩ hrun).2
  rintro s a s' ⟨htidy, hawaits⟩ hstep
  obtain ⟨htidy', hsame | hmoves⟩ := step_cases hstep htidy
  · rw [hsame]
    exact ⟨htidy', hawaits⟩
  · exact ⟨htidy', hmoves.awaits hawaits⟩

/-- **Unbroken sessions lose no failure.**  In every run in which commits go through only while no
message delivered since the consumer's last start has raised: no committed offset is past a failed
message, and after a restart each failed message is delivered again. -/
theorem failures_kept (log : Partition → List Message) (committed : Partition → Nat)
    {trace : List Action} {s : PaymentEventConsumer}
    (hrun : RunsUnder step Unbroken (.start log committed) trace s) :
    s.FailuresKept ∧ s.Redelivers := by
  have hinv : s.Tidy ∧ s.subscription.Intact :=
    hrun.invariant (I := fun s : PaymentEventConsumer => s.Tidy ∧ s.subscription.Intact)
      (fun _ _ _ hs hunbroken hstep => step_intact hs.1 hs.2 hunbroken hstep)
      ⟨tidy_start log committed, .start log committed⟩
  refine ⟨hinv.2.kept, fun later t hlater p o hfailed hpassed => ?_⟩
  obtain ⟨u, hrestart, hlater⟩ := (run_cons_eq_some step).mp hlater
  obtain rfl := Option.some.inj hrestart
  have htidy : PaymentEventConsumer.Tidy { subscription := s.subscription.restart } := rfl
  exact (run_awaits htidy (awaits_restart (hinv.2.kept p o hfailed)) hlater).delivered hpassed

/-- In any other run the first commit after a failure passes the failed message. -/
theorem commit_loses_failure (log : Partition → List Message) (committed : Partition → Nat)
    {trace : List Action} {s s' : PaymentEventConsumer}
    (hrun : run step (.start log committed) trace = some s)
    (hcommit : step s (.commit false) = some s') (hbroken : ¬ Unbroken s (.commit false)) :
    ¬ s'.FailuresKept := by
  have hinv : s.Tidy ∧ s.subscription.Ordered := by
    refine run_invariant (I := fun s : PaymentEventConsumer => s.Tidy ∧ s.subscription.Ordered)
      ?_ ⟨tidy_start log committed, .start log committed⟩ hrun
    rintro s a s' ⟨htidy, hordered⟩ hstep
    obtain ⟨htidy', hsame | hmoves⟩ := step_cases hstep htidy
    · rw [hsame]
      exact ⟨htidy', hordered⟩
    · exact ⟨htidy', hmoves.ordered hordered⟩
  have hcommitted : s'.subscription = s.subscription.commit := by
    simp only [step] at hcommit
    split at hcommit <;> cases hcommit
    rfl
  intro hkept
  refine hbroken fun d hd => ?_
  by_contra hraised
  obtain ⟨hfailed, hpassed⟩ := hinv.2.commit_passes hd (by simpa using hraised)
  have hle := hkept d.partition d.offset (by rw [hcommitted]; exact hfailed)
  rw [hcommitted] at hle
  omega

/-! ## A message that is no object -/

/-- `{"eventType": "PAYMENT_CREATED"}`. -/
def createdEvent : Message := ⟨.ok (.obj [("eventType", .str "PAYMENT_CREATED")])⟩

/-- `[]`: valid JSON, and `event.get` raises. -/
def arrayEvent : Message := ⟨.ok (.arr [])⟩

/-- The failed message is the last one: it is delivered again. -/
theorem failures_kept_last :
    ∃ s, RunsUnder step Unbroken (.start (fun _ => [createdEvent, arrayEvent]) fun _ => 0)
        [.poll (some 0), .process none, .commit false, .poll (some 0), .process none] s ∧
      Failed s.subscription.history 0 1 ∧ s.subscription.committed 0 = 1 ∧
      s.FailuresKept ∧ s.Redelivers := by
  have hrun : ∃ s, RunsUnder step Unbroken
        (.start (fun _ => [createdEvent, arrayEvent]) fun _ => 0)
        [.poll (some 0), .process none, .commit false, .poll (some 0), .process none] s ∧
      Failed s.subscription.history 0 1 ∧ s.subscription.committed 0 = 1 := by
    refine ⟨_, .cons trivial rfl (.cons trivial rfl (.cons ?_ rfl (.cons trivial rfl
      (.cons trivial rfl (.nil _))))), ⟨_, rfl, rfl⟩, rfl⟩
    intro d hd
    obtain rfl := List.mem_singleton.mp hd
    rfl
  obtain ⟨s, hrun, hfailed, hcommitted⟩ := hrun
  exact ⟨s, hrun, hfailed, hcommitted, failures_kept _ _ hrun⟩

/-- A message behind it succeeds: its commit passes the failed one, and after a restart nothing is
left to deliver. -/
theorem failure_lost :
    (∃ s, run step (.start (fun _ => [arrayEvent, createdEvent]) fun _ => 0)
        [.poll (some 0), .process none, .poll (some 0), .process none, .commit false, .restart] =
          some s ∧
      Failed s.subscription.history 0 0 ∧ s.subscription.committed 0 = 2 ∧
      step s (.poll (some 0)) = none) ∧
    ¬ ∀ (trace : List Action) (s : PaymentEventConsumer),
      run step (.start (fun _ => [arrayEvent, createdEvent]) fun _ => 0) trace = some s →
      s.FailuresKept ∧ s.Redelivers := by
  have hlost : ∃ s, run step (.start (fun _ => [arrayEvent, createdEvent]) fun _ => 0)
        [.poll (some 0), .process none, .poll (some 0), .process none, .commit false, .restart] =
          some s ∧
      Failed s.subscription.history 0 0 ∧ s.subscription.committed 0 = 2 ∧
      step s (.poll (some 0)) = none := ⟨_, rfl, ⟨_, rfl, rfl⟩, rfl, rfl⟩
  refine ⟨hlost, fun hall => ?_⟩
  obtain ⟨s, hrun, hfailed, hcommitted, -⟩ := hlost
  have hkept := (hall _ s hrun).1 0 0 hfailed
  omega

end GlobalPayments.Consumer

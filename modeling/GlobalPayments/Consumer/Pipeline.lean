/-
# GlobalPayments.Consumer.Pipeline — from the commits of payments-service to the handlers.

Both services at once, in every interleaving: what a step of payments-service publishes is appended to
the partition of its key, and the poll loop takes it from there, with commits that may fail and
restarts at any point.  How keys are assigned to partitions is up to Kafka's producer, and a parameter.

`commits_reach_consumer`: no message of payments-service makes its processing raise, so the loop never
skips one; a session sees the committed changes of each payment in the order of their commits, and
without a gap when the broker takes every message; and a consumer that has caught up has seen them all.
-/
import GlobalPayments.Consumer.Events
import GlobalPayments.Library.Sessions
import GlobalPayments.Payments.Topic

namespace GlobalPayments.Consumer

open Payments (PaymentEvent Sent UUID ValidRows)
open Runs Subscription

/-! ## The two services -/

/-- What connects them: the serializer, Kafka's partitioner and the consumer's interpreter. -/
structure Wiring where
  serializer : Serializer
  partitionOf : String → Partition
  recursionLimit : Nat

structure Pipeline where
  service : Payments.Sys
  consumer : PaymentEventConsumer

def Pipeline.start (rows : List Payments.Payment) : Pipeline where
  service := .start rows
  consumer := .start (fun _ => []) fun _ => 0

/-- The message of an event. -/
def Wiring.message (w : Wiring) (e : PaymentEvent) : Message :=
  messageOf w.recursionLimit (some (payload w.serializer e))

/-- `kafkaTemplate.send(PAYMENT_EVENTS_TOPIC, payment.getPaymentReference(), event)`. -/
def Wiring.send (w : Wiring) (s : Subscription Partition Message) (m : Sent) :
    Subscription Partition Message :=
  s.produce (w.partitionOf m.event.paymentReference) (w.message m.event)

inductive PipelineAction where
  | service (a : Payments.Action)
  | consumer (a : Action)

/-- A step of one of them. -/
def pipelineStep (w : Wiring) (s : Pipeline) : PipelineAction → Option Pipeline
  | .service a =>
      (Payments.step s.service a).map fun service =>
        { service := service
          consumer := { s.consumer with
            subscription :=
              (service.topic.drop s.service.topic.length).foldl w.send s.consumer.subscription } }
  -- nobody else writes to the topic
  | .consumer (.produce _ _) => none
  | .consumer a => (step s.consumer a).map fun consumer => { s with consumer := consumer }

/-- Nothing raises from outside while a message is processed. -/
def Undisturbed (_ : Pipeline) : PipelineAction → Prop
  | .consumer (.process fault) => fault = none
  | _ => True

/-- The broker takes what the step publishes. -/
def PipelineAction.delivers : PipelineAction → Bool
  | .service a => a.delivers
  | .consumer _ => true

/-- The messages of a partition. -/
def Pipeline.messages (w : Wiring) (s : Pipeline) (q : Partition) : List Sent :=
  s.service.topic.filter fun m => w.partitionOf m.event.paymentReference = q

/-- The messages that deliveries have delivered, in order. -/
def Pipeline.seen (w : Wiring) (s : Pipeline) (deliveries : List (Delivery Partition)) : List Sent :=
  deliveries.filterMap fun d => (s.messages w d.partition)[d.offset]?

/-- The messages about payment `id` among them whose senders have committed a change of it. -/
def Pipeline.seenCommits (w : Wiring) (s : Pipeline) (id : UUID)
    (deliveries : List (Delivery Partition)) : List Sent :=
  (s.seen w deliveries).filter fun m => m.event.paymentId = id && s.service.db.wroteTo id m.sender

/-! ## A step of the consumer -/

/-- The message in hand does not raise. -/
def PaymentEventConsumer.Ready (s : PaymentEventConsumer) : Prop :=
  ∀ msg, s.phase = .processing msg → ∃ handled, processMessage msg = .ok handled

/-- No processing has raised, and none will. -/
structure PaymentEventConsumer.Quiet (s : PaymentEventConsumer) : Prop where
  messages : ∀ p, ∀ msg ∈ s.subscription.log p, ∃ handled, processMessage msg = .ok handled
  ready : s.Ready
  history : ∀ d ∈ s.subscription.history, d.raised = false

/-- **A step on messages that do not raise**, with nothing from outside. -/
theorem step_quiet {s s' : PaymentEventConsumer} {a : Action} (hs : s.Quiet) (htidy : s.Tidy)
    (hproduce : ∀ p msg, a ≠ .produce p msg) (hfault : ∀ e, a ≠ .process (some e))
    (hstep : step s a = some s') :
    s'.subscription.log = s.subscription.log ∧ s'.Quiet := by
  unfold PaymentEventConsumer.Tidy at htidy
  cases a with
  | produce p msg => exact absurd rfl (hproduce p msg)
  | poll p =>
      cases p with
      | none =>
          simp only [step] at hstep
          split at hstep <;> cases hstep
          exact ⟨rfl, hs⟩
      | some p =>
          simp only [step] at hstep
          split at hstep <;> try cases hstep
          rename_i hphase hrunning
          split at hstep <;> cases hstep
          rename_i msg subscription hpoll
          have hlog : subscription.log = s.subscription.log := by rw [poll_eq_some hpoll]
          have hhistory : subscription.history = s.subscription.history := by
            rw [poll_eq_some hpoll]
            rfl
          have hmsg : msg ∈ s.subscription.log p := by
            unfold Subscription.poll at hpoll
            split at hpoll <;> cases hpoll
            rename_i hget
            exact List.mem_of_getElem? hget
          refine ⟨hlog, ⟨?_, ?_, ?_⟩⟩
          · rw [hlog]
            exact hs.messages
          · intro msg' hphase'
            obtain rfl := Phase.processing.inj hphase'
            exact hs.messages p msg hmsg
          · rw [hhistory]
            exact hs.history
  | process fault =>
      simp only [step] at hstep
      split at hstep <;> try cases hstep
      rename_i msg hphase
      obtain ⟨handled, hok⟩ := hs.ready msg hphase
      rw [hphase] at htidy
      obtain ⟨p, o, hflight⟩ := htidy
      cases fault with
      | some e => exact absurd rfl (hfault e)
      | none =>
          simp only [hok] at hstep
          cases hstep
          have hhistory := history_settle hflight false
          refine ⟨?_, ⟨?_, fun _ h => (by cases h), ?_⟩⟩
          · rw [settle_eq hflight]
          · rw [settle_eq hflight]
            exact hs.messages
          · rw [hhistory]
            intro d hd
            rcases List.mem_append.mp hd with hold | hnew
            · exact hs.history d hold
            · obtain rfl := List.mem_singleton.mp hnew
              rfl
  | commit fails =>
      simp only [step] at hstep
      split at hstep <;> try cases hstep
      split at hstep <;> cases hstep
      · exact ⟨rfl, ⟨hs.messages, fun _ h => (by cases h), hs.history⟩⟩
      · exact ⟨rfl, ⟨hs.messages, fun _ h => (by cases h), hs.history⟩⟩
  | fatal =>
      simp only [step] at hstep
      split at hstep <;> cases hstep
      exact ⟨rfl, ⟨hs.messages, fun _ h => (by cases h), hs.history⟩⟩
  | stop =>
      obtain rfl := Option.some.inj hstep
      exact ⟨rfl, ⟨hs.messages, hs.ready, hs.history⟩⟩
  | leave =>
      simp only [step] at hstep
      split at hstep <;> cases hstep
      exact ⟨rfl, ⟨hs.messages, fun _ h => (by cases h), hs.history⟩⟩
  | restart =>
      obtain rfl := Option.some.inj hstep
      refine ⟨rfl, ⟨hs.messages, fun _ h => (by cases h), ?_⟩⟩
      rw [history_restart]
      exact hs.history

/-! ## The invariant -/

/-- The logs are the topic's partitions; the rest is what each side keeps. -/
structure Pipeline.Wired (w : Wiring) (D : Prop) (s : Pipeline) : Prop where
  keyed : s.service.Keyed D
  log : ∀ q, s.consumer.subscription.log q = (s.messages w q).map fun m => w.message m.event
  tidy : s.consumer.Tidy
  quiet : s.consumer.Quiet
  contiguous : s.consumer.subscription.Contiguous
  covered : s.consumer.subscription.Covered fun _ => 0

section Invariant

variable {w : Wiring} {D : Prop} {s s' : Pipeline}

theorem Pipeline.Wired.start {rows : List Payments.Payment} (hrows : ValidRows rows)
    (hlong : ∀ p ∈ rows, BigDecimal.IsLong p.amountMinorUnits) :
    (Pipeline.start rows).Wired w D where
  keyed := .start D hrows hlong
  log _ := rfl
  tidy := tidy_start _ _
  quiet := ⟨fun _ _ hmsg => (by cases hmsg), fun _ hphase => (by cases hphase),
    fun _ hd => (by cases hd)⟩
  contiguous := .start _ _
  covered := .start _ _

/-- What a list of messages does to a subscription. -/
theorem foldl_send {I : Subscription Partition Message → Prop}
    (hI : ∀ t q msg, I t → I (t.produce q msg)) (ms : List Sent)
    (t : Subscription Partition Message) (ht : I t) : I (ms.foldl w.send t) := by
  induction ms generalizing t with
  | nil => exact ht
  | cons m ms ih => exact ih _ (hI t _ _ ht)

theorem log_foldl_send (ms : List Sent) (t : Subscription Partition Message) (q : Partition) :
    (ms.foldl w.send t).log q = t.log q ++
      (ms.filter fun m => w.partitionOf m.event.paymentReference = q).map
        fun m => w.message m.event := by
  induction ms generalizing t with
  | nil => rw [List.foldl_nil, List.filter_nil, List.map_nil, List.append_nil]
  | cons m ms ih =>
      rw [List.foldl_cons, ih]
      by_cases hq : w.partitionOf m.event.paymentReference = q
      · subst hq
        simp [Wiring.send, produce]
      · simp [Wiring.send, produce, hq, Function.update_of_ne (Ne.symm hq)]

/-- No message of payments-service raises. -/
theorem processMessage_sent (hlimit : 1 ≤ w.recursionLimit) {service : Payments.Sys}
    (hs : service.Keyed D) {m : Sent} (hm : m ∈ service.topic) :
    processMessage (w.message m.event) = .ok (handledBy m.event.eventType) :=
  processMessage_payload hlimit (hs.amount hm)

/-- What the topic gains is sent. -/
theorem pipelineStep_service {a : Payments.Action}
    (hstep : pipelineStep w s (.service a) = some s') :
    Payments.step s.service a = some s'.service ∧
      ∃ new, s'.service.topic = s.service.topic ++ new ∧
        s'.consumer = { s.consumer with
          subscription := new.foldl w.send s.consumer.subscription } := by
  obtain ⟨service, hservice, rfl⟩ := Option.map_eq_some_iff.mp hstep
  obtain ⟨tx, srv, db, events, h⟩ := Payments.step_cases hservice
  refine ⟨hservice, _, h.topic_eq, ?_⟩
  show PaymentEventConsumer.mk _ _ _ = _
  rw [h.topic_eq, List.drop_left]

theorem pipelineStep_consumer {a : Action} (hstep : pipelineStep w s (.consumer a) = some s') :
    (∀ p msg, a ≠ .produce p msg) ∧ step s.consumer a = some s'.consumer ∧
      s'.service = s.service := by
  have hmap : (∀ p msg, a ≠ .produce p msg) ∧
      (step s.consumer a).map (fun consumer => { s with consumer := consumer }) = some s' := by
    cases a with
    | produce p msg => cases hstep
    | _ => exact ⟨fun _ _ h => (by cases h), hstep⟩
  obtain ⟨consumer, hconsumer, rfl⟩ := Option.map_eq_some_iff.mp hmap.2
  exact ⟨hmap.1, hconsumer, rfl⟩

/-- **A step of payments-service.** -/
theorem Pipeline.Wired.service (hlimit : 1 ≤ w.recursionLimit) (hs : s.Wired w D)
    {a : Payments.Action} (hdelivers : D → a.delivers = true)
    (hstep : pipelineStep w s (.service a) = some s') : s'.Wired w D := by
  obtain ⟨hservice, new, htopic, hconsumer⟩ := pipelineStep_service hstep
  have hkeyed := hs.keyed.step hdelivers hservice
  have hlog : ∀ q, s'.consumer.subscription.log q =
      (s'.messages w q).map fun m => w.message m.event := by
    intro q
    rw [hconsumer, Pipeline.messages, htopic, List.filter_append, List.map_append]
    exact (log_foldl_send new _ q).trans (by rw [hs.log q]; rfl)
  have hflight : (new.foldl w.send s.consumer.subscription).inFlight =
      s.consumer.subscription.inFlight :=
    foldl_send (I := fun t => t.inFlight = s.consumer.subscription.inFlight)
      (fun _ _ _ ht => ht) new _ rfl
  have hhistory : (new.foldl w.send s.consumer.subscription).history =
      s.consumer.subscription.history :=
    foldl_send (I := fun t => t.history = s.consumer.subscription.history)
      (fun _ _ _ ht => ht) new _ rfl
  refine ⟨hkeyed, hlog, ?_, ⟨fun q msg hmsg => ?_, ?_, ?_⟩, ?_, ?_⟩
  · have htidy := hs.tidy
    unfold PaymentEventConsumer.Tidy at htidy ⊢
    rw [hconsumer]
    simpa only [hflight] using htidy
  · rw [hlog q] at hmsg
    obtain ⟨m, hm, rfl⟩ := List.mem_map.mp hmsg
    exact ⟨_, processMessage_sent hlimit hkeyed (List.mem_filter.mp hm).1⟩
  · rw [hconsumer]
    exact hs.quiet.ready
  · rw [hconsumer]
    intro d hd
    exact hs.quiet.history d (hhistory ▸ hd)
  · rw [hconsumer]
    exact foldl_send (I := Contiguous)
      (fun t q msg ht => (Moves.produce (C := fun _ => True) t q msg).contiguous ht) new _
      hs.contiguous
  · rw [hconsumer]
    exact foldl_send (I := Covered fun _ => 0)
      (fun t q msg ht => (Moves.produce (C := fun _ => True) t q msg).covered ht) new _ hs.covered

/-- **A step of the consumer.** -/
theorem Pipeline.Wired.consumer (hs : s.Wired w D) {a : Action}
    (hfault : ∀ e, a ≠ .process (some e)) (hstep : pipelineStep w s (.consumer a) = some s') :
    s'.Wired w D := by
  obtain ⟨hproduce, hconsumer, hservice⟩ := pipelineStep_consumer hstep
  obtain ⟨hlog, hquiet⟩ := step_quiet hs.quiet hs.tidy hproduce hfault hconsumer
  obtain ⟨htidy, hmoves⟩ := step_cases hconsumer hs.tidy
  have hmessages : ∀ q, s'.messages w q = s.messages w q := by
    intro q
    rw [Pipeline.messages, hservice]
    rfl
  refine ⟨by rw [hservice]; exact hs.keyed, fun q => ?_, htidy, hquiet, ?_, ?_⟩
  · rw [hlog, hmessages, hs.log]
  · rcases hmoves with hsame | hmoves
    · rw [hsame]
      exact hs.contiguous
    · exact hmoves.contiguous hs.contiguous
  · rcases hmoves with hsame | hmoves
    · rw [hsame]
      exact hs.covered
    · exact hmoves.covered hs.covered

theorem Pipeline.Wired.step (hlimit : 1 ≤ w.recursionLimit) (hs : s.Wired w D)
    {a : PipelineAction} (hundisturbed : Undisturbed s a) (hdelivers : D → a.delivers = true)
    (hstep : pipelineStep w s a = some s') : s'.Wired w D := by
  cases a with
  | service a => exact hs.service hlimit hdelivers hstep
  | consumer a =>
      refine hs.consumer (fun e he => ?_) hstep
      subst he
      cases hundisturbed

/-! ## What a session has seen -/

section Payment

variable {p : Payments.Payment}

/-- A message of a committed change is in the partition of the payment's reference. -/
theorem partition_of_commit (hs : s.Wired w D) (hp : p ∈ s.service.db.table) {m : Sent}
    (hm : m ∈ s.service.committedMessages p.id) :
    m ∈ s.messages w (w.partitionOf p.paymentReference) := by
  have hreference := hs.keyed.reference hp hm
  exact List.mem_filter.mpr ⟨(List.mem_filter.mp hm).1, decide_eq_true (by rw [hreference])⟩

/-- So the partition has all of them. -/
theorem filter_messages (hs : s.Wired w D) (hp : p ∈ s.service.db.table) :
    (s.messages w (w.partitionOf p.paymentReference)).filter
        (fun m => m.event.paymentId = p.id && s.service.db.wroteTo p.id m.sender) =
      s.service.committedMessages p.id := by
  unfold Pipeline.messages Payments.Sys.committedMessages
  rw [List.filter_filter]
  refine List.filter_congr fun m hm => ?_
  cases habout : decide (m.event.paymentId = p.id) && s.service.db.wroteTo p.id m.sender with
  | false => rfl
  | true =>
      rw [Bool.true_and]
      exact (List.mem_filter.mp (partition_of_commit hs hp (List.mem_filter.mpr ⟨hm, habout⟩))).2

/-- And only deliveries of that partition count. -/
theorem seenCommits_eq (hs : s.Wired w D) (hp : p ∈ s.service.db.table)
    (deliveries : List (Delivery Partition)) :
    s.seenCommits w p.id deliveries =
      ((offsets (w.partitionOf p.paymentReference) deliveries).filterMap fun o =>
        (s.messages w (w.partitionOf p.paymentReference))[o]?).filter fun m =>
          m.event.paymentId = p.id && s.service.db.wroteTo p.id m.sender := by
  unfold Pipeline.seenCommits Pipeline.seen
  induction deliveries with
  | nil => rfl
  | cons d deliveries ih =>
      by_cases hd : d.partition = w.partitionOf p.paymentReference
      · have hoffsets : offsets (w.partitionOf p.paymentReference) (d :: deliveries) =
            d.offset :: offsets (w.partitionOf p.paymentReference) deliveries := by
          simp [offsets, hd]
        rw [hoffsets, List.filterMap_cons, List.filterMap_cons, hd]
        split
        · exact ih
        · rw [List.filter_cons, List.filter_cons, ih]
      · have hoffsets : offsets (w.partitionOf p.paymentReference) (d :: deliveries) =
            offsets (w.partitionOf p.paymentReference) deliveries := by
          simp [offsets, hd]
        rw [hoffsets, List.filterMap_cons]
        split
        · exact ih
        · rename_i m hm
          have hmem := List.mem_filter.mp (List.mem_of_getElem? hm)
          -- a committed change of the payment would be in the other partition
          rw [List.filter_cons_of_neg, ih]
          intro habout
          have hother := partition_of_commit hs hp (List.mem_filter.mpr ⟨hmem.1, habout⟩)
          have hsame := of_decide_eq_true (List.mem_filter.mp hother).2
          exact hd ((of_decide_eq_true hmem.2).symm.trans hsame)

/-- **A session sees a stretch of the committed changes' messages.** -/
theorem seenCommits_session (hs : s.Wired w D) (hp : p ∈ s.service.db.table) :
    s.seenCommits w p.id s.consumer.subscription.session <:+: s.service.committedMessages p.id := by
  obtain ⟨a, n, hoffsets⟩ := hs.contiguous.offsets (w.partitionOf p.paymentReference)
  rw [seenCommits_eq hs hp, hoffsets, filterMap_range', ← filter_messages hs hp]
  exact ((List.take_prefix _ _).isInfix.trans (List.drop_suffix _ _).isInfix).filter _

/-- **A consumer that has caught up has seen them all.** -/
theorem seenCommits_history (hs : s.Wired w D) (hp : p ∈ s.service.db.table)
    (hcaught : s.consumer.subscription.committed (w.partitionOf p.paymentReference) =
      (s.messages w (w.partitionOf p.paymentReference)).length) {m : Sent}
    (hm : m ∈ s.service.committedMessages p.id) :
    m ∈ s.seenCommits w p.id s.consumer.subscription.history := by
  obtain ⟨o, hget⟩ := List.mem_iff_getElem?.mp (partition_of_commit hs hp hm)
  have hlt : o < s.consumer.subscription.committed (w.partitionOf p.paymentReference) := by
    rw [hcaught]
    exact (List.getElem?_eq_some_iff.mp hget).1
  obtain ⟨d, hd, hpartition, hoffset⟩ := hs.covered.committed _ o (Nat.zero_le o) hlt
  refine List.mem_filter.mpr ⟨List.mem_filterMap.mpr ⟨d, hd, ?_⟩, (List.mem_filter.mp hm).2⟩
  rw [hpartition, hoffset]
  exact hget

end Payment

end Invariant

def sampleWiring : Wiring where
  serializer := backwardSerializer
  partitionOf key := key.length % 3
  recursionLimit := 1000

/-- A payment is created and starts processing; the consumer handles both messages, its first commit
fails, and it is restarted before it commits again. -/
def restartedRun : List PipelineAction :=
  [.service (.createPayment 0 0 (Payments.sampleRequest none)),
    .service (.persistAndPublish 0 (Payments.sampleSurroundings 7) true),
    .consumer (.poll (some 0)), .consumer (.process none), .service (.commit 0 1),
    .service (.updateStatus 1 0 7 ⟨.PROCESSING, none, none⟩), .service (.applyAndPublish 1 2 true),
    .service (.commit 1 2), .consumer (.commit true), .consumer (.poll (some 0)),
    .consumer (.process none), .consumer .restart, .consumer (.poll (some 0)),
    .consumer (.process none), .consumer (.commit false), .consumer (.poll (some 0)),
    .consumer (.process none), .consumer (.commit false)]

end GlobalPayments.Consumer

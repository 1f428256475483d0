/-
# GlobalPayments.Payments.Transactions — any number of service calls, interleaved.

The state is the committed database, the transactions (idle, somewhere inside a method, or ended),
the servers (each with its generator counter and its metrics) and the `payment-events` topic.  A
method is cut where another transaction can come between: after its read of the committed table
(READ COMMITTED: a query sees what is committed when it runs), after each event it publishes, and
before its commit.

`save` only records the entity in the persistence context; the commit flushes it (`Database`).
`KafkaTemplate.send` is not part of the transaction: what was published stays published (or is lost
to the broker, which the service only logs).  `abort` is any other failure before the commit is
through.

`step` is executable; `step_cases` says once, branch by branch, what a step can do, and every
invariant is derived from it.
-/
import GlobalPayments.Payments.Database
import Mathlib.Logic.Function.Basic

namespace GlobalPayments.Payments

/-! ## Transactions, servers, topic -/

abbrev ServerId := Nat

/-- The call a transaction serves. -/
inductive Call where
  | createPayment (request : CreatePaymentRequest)
  | updateStatus (id : UUID) (request : UpdateStatusRequest)
  | retryFailedPayments (cutoffTime : Instant)
  deriving DecidableEq, Repr

/-- How a call ended: with a response (the retry job has none) or an exception. -/
inductive Outcome where
  | returned (response : Option PaymentResponse)
  | raised (exception : ServiceException)
  deriving DecidableEq, Repr

/-- Where a transaction stands in its method. -/
inductive Phase where
  | idle
  /-- `createPayment` found no payment with the key: `persistAndPublish` is next. -/
  | persisting (request : CreatePaymentRequest)
  /-- `updateStatus` loaded the payment and passed the guard: the setters are next. -/
  | updating (payment : Payment) (request : UpdateStatusRequest)
  /-- `retryFailedPayments` has these payments still to re-queue. -/
  | requeuing (todo : List Payment)
  /-- The method body is done: flush and commit are next. -/
  | flushing (response : Option PaymentResponse)
  | ended (outcome : Outcome)
  deriving DecidableEq, Repr

structure Tx where
  call : Option Call := none
  server : ServerId := 0
  phase : Phase := .idle
  context : PersistenceContext := {}
  deriving DecidableEq, Repr

/-- One instance of the service: its reference counter and its Micrometer counters. -/
structure Server where
  sequence : Nat := 0
  created : Nat := 0
  completed : Nat := 0
  failed : Nat := 0
  deriving DecidableEq, Repr

/-- A message on `payment-events`, with the transaction that sent it. -/
structure Sent where
  sender : TxId
  event : PaymentEvent
  deriving DecidableEq, Repr

structure Sys where
  db : Database
  txs : TxId → Tx
  servers : ServerId → Server
  topic : List Sent

/-- A fresh service over a table that already holds `rows`. -/
def Sys.start (rows : List Payment) : Sys where
  db := Versioned.Store.start rows
  txs := fun _ => {}
  servers := fun _ => {}
  topic := []

/-! ## What a method does to its own transaction -/

/-- `createPayment` up to its idempotency check. -/
def Tx.createPayment (table : List Payment) (i : ServerId) (request : CreatePaymentRequest) : Tx where
  call := some (.createPayment request)
  server := i
  phase :=
    match request.idempotencyKey with
    | none => .persisting request
    | some key =>
        match findByIdempotencyKey key table with
        | some payment => .ended (.returned (some (toResponse payment)))
        | none => .persisting request

/-- `updateStatus` up to its guard. -/
def Tx.updateStatus (table : List Payment) (i : ServerId) (id : UUID)
    (request : UpdateStatusRequest) : Tx where
  call := some (.updateStatus id request)
  server := i
  phase :=
    match loadForUpdate table id request with
    | .error e => .ended (.raised e)
    | .ok payment => .updating payment request

/-- `retryFailedPayments` up to its query. -/
def Tx.retryFailedPayments (table : List Payment) (i : ServerId) (cutoffTime : Instant) : Tx where
  call := some (.retryFailedPayments cutoffTime)
  server := i
  phase := .requeuing (findRetryablePayments cutoffTime table)

/-- `persistAndPublish` has saved the new entity. -/
def Tx.persisted (tx : Tx) (payment : Payment) : Tx :=
  { tx with
    phase := .flushing (some (toResponse payment))
    context := { inserted := [payment] } }

/-- `updateStatus` has run the setters on the loaded entity. -/
def Tx.statusApplied (tx : Tx) (payment : Payment) (request : UpdateStatusRequest) : Tx :=
  { tx with
    phase := .flushing (some (toResponse (applyStatus request payment)))
    context := { managed := [(payment, applyStatus request payment)] } }

/-- `retryFailedPayments` has re-queued one more entity. -/
def Tx.requeued (tx : Tx) (payment : Payment) (todo : List Payment) : Tx :=
  { tx with
    phase := .requeuing todo
    context := { tx.context with
      managed := tx.context.managed ++ [(payment, requeuePayment payment)] } }

def Tx.finish (tx : Tx) (outcome : Outcome) : Tx := { tx with phase := .ended outcome }

/-- The metrics `updateStatus` increments. -/
def Server.countStatus (server : Server) (newStatus : PaymentStatus) : Server :=
  if newStatus = .COMPLETED then { server with completed := server.completed + 1 }
  else if newStatus = .FAILED then { server with failed := server.failed + 1 }
  else server

/-! ## Steps -/

/-- The steps of the system.  Clocks, random values and the broker's answer come from outside. -/
inductive Action where
  | createPayment (t : TxId) (i : ServerId) (request : CreatePaymentRequest)
  | persistAndPublish (t : TxId) (env : Surroundings) (delivered : Bool)
  | updateStatus (t : TxId) (i : ServerId) (id : UUID) (request : UpdateStatusRequest)
  | applyAndPublish (t : TxId) (now : Instant) (delivered : Bool)
  | retryFailedPayments (t : TxId) (i : ServerId) (cutoffTime : Instant)
  | requeueAndPublish (t : TxId) (now : Instant) (delivered : Bool)
  | commit (t : TxId) (now : Instant)
  | abort (t : TxId)
  deriving DecidableEq, Repr

/-- The transaction that takes the step. -/
def Action.tx : Action → TxId
  | .createPayment t _ _ => t
  | .persistAndPublish t _ _ => t
  | .updateStatus t _ _ _ => t
  | .applyAndPublish t _ _ => t
  | .retryFailedPayments t _ _ => t
  | .requeueAndPublish t _ _ => t
  | .commit t _ => t
  | .abort t => t

/-- `publishPaymentEvent`: the broker may fail to take the message, which is only logged. -/
def published (delivered : Bool) (event : PaymentEvent) : List PaymentEvent :=
  if delivered then [event] else []

def Sys.setTx (s : Sys) (t : TxId) (tx : Tx) : Sys := { s with txs := Function.update s.txs t tx }

@[simp] theorem Sys.setTx_txs_self (s : Sys) (t : TxId) (tx : Tx) : (s.setTx t tx).txs t = tx :=
  Function.update_self ..

/-- Transaction `t` becomes `tx` after publishing `events`; its server's state becomes `server`. -/
def Sys.advance (s : Sys) (t : TxId) (tx : Tx) (server : Server) (events : List PaymentEvent) : Sys :=
  { s with
    txs := Function.update s.txs t tx
    servers := Function.update s.servers tx.server server
    topic := s.topic ++ events.map (Sent.mk t) }

/-- Flush and commit transaction `t`, whose method returns `response`. -/
def Sys.commitTx (s : Sys) (t : TxId) (now : Instant) (response : Option PaymentResponse) : Sys :=
  match flush t now (s.txs t).context s.db with
  | .ok db => { s with db := db }.setTx t ((s.txs t).finish (.returned response))
  | .error e => s.setTx t ((s.txs t).finish (.raised e))

/-- One step of one transaction. -/
def step (s : Sys) : Action → Option Sys
  | .createPayment t i request =>
      match (s.txs t).phase with
      | .idle => some (s.setTx t (.createPayment s.db.table i request))
      | _ => none
  | .persistAndPublish t env delivered =>
      match (s.txs t).phase with
      | .persisting request =>
          let server := s.servers (s.txs t).server
          match preparePayment request server.sequence env with
          -- the conversion raises before a reference is drawn: no counter moves
          | .error e => some (s.setTx t ((s.txs t).finish (.raised e)))
          | .ok (payment, sequence) => some
              (s.advance t ((s.txs t).persisted payment)
                { server with sequence := sequence, created := server.created + 1 }
                (published delivered (paymentEvent .PAYMENT_CREATED payment env.now)))
      | _ => none
  | .updateStatus t i id request =>
      match (s.txs t).phase with
      | .idle => some (s.setTx t (.updateStatus s.db.table i id request))
      | _ => none
  | .applyAndPublish t now delivered =>
      match (s.txs t).phase with
      | .updating payment request => some
          (s.advance t ((s.txs t).statusApplied payment request)
            ((s.servers (s.txs t).server).countStatus request.newStatus)
            (published delivered
              (paymentEvent .PAYMENT_STATUS_CHANGED (applyStatus request payment) now)))
      | _ => none
  | .retryFailedPayments t i cutoffTime =>
      match (s.txs t).phase with
      | .idle => some (s.setTx t (.retryFailedPayments s.db.table i cutoffTime))
      | _ => none
  | .requeueAndPublish t now delivered =>
      match (s.txs t).phase with
      | .requeuing (payment :: todo) => some
          (s.advance t ((s.txs t).requeued payment todo) (s.servers (s.txs t).server)
            (published delivered (paymentEvent .PAYMENT_RETRY (requeuePayment payment) now)))
      | _ => none
  | .commit t now =>
      match (s.txs t).phase with
      | .flushing response => some (s.commitTx t now response)
      -- the retry job returns nothing
      | .requeuing [] => some (s.commitTx t now none)
      | _ => none
  | .abort t =>
      match (s.txs t).phase with
      | .idle => none
      | .ended _ => none
      | _ => some (s.setTx t ((s.txs t).finish (.raised .transactionAborted)))

/-! ## What a step can do -/

/-- A method body that is done, with what it returns. -/
inductive ReadyToCommit : Phase → Option PaymentResponse → Prop
  | flushing (response : Option PaymentResponse) : ReadyToCommit (.flushing response) response
  | requeued : ReadyToCommit (.requeuing []) none

/-- `Moves db a tx srv tx' srv' db' events`: over the database `db`, action `a` takes the transaction
from `tx` to `tx'`, its server from `srv` to `srv'` and the database to `db'`, publishing `events`. -/
inductive Moves (db : Database) :
    Action → Tx → Server → Tx → Server → Database → List PaymentEvent → Prop
  | replayed {t : TxId} {i : ServerId} {request : CreatePaymentRequest} {tx : Tx} {srv : Server}
      {key : String} {payment : Payment} :
      tx.phase = .idle → request.idempotencyKey = some key →
      findByIdempotencyKey key db.table = some payment →
      Moves db (.createPayment t i request) tx srv
        ⟨some (.createPayment request), i, .ended (.returned (some (toResponse payment))), {}⟩ srv db []
  | missed {t : TxId} {i : ServerId} {request : CreatePaymentRequest} {tx : Tx} {srv : Server} :
      tx.phase = .idle →
      (∀ key, request.idempotencyKey = some key → findByIdempotencyKey key db.table = none) →
      Moves db (.createPayment t i request) tx srv
        ⟨some (.createPayment request), i, .persisting request, {}⟩ srv db []
  | conversionRaised {t : TxId} {env : Surroundings} {delivered : Bool} {tx : Tx} {srv : Server}
      {request : CreatePaymentRequest} {e : ServiceException} :
      tx.phase = .persisting request → preparePayment request srv.sequence env = .error e →
      Moves db (.persistAndPublish t env delivered) tx srv (tx.finish (.raised e)) srv db []
  | persisted {t : TxId} {env : Surroundings} {delivered : Bool} {tx : Tx} {srv : Server}
      {request : CreatePaymentRequest} {payment : Payment} {sequence : Nat} :
      tx.phase = .persisting request →
      preparePayment request srv.sequence env = .ok (payment, sequence) →
      Moves db (.persistAndPublish t env delivered) tx srv (tx.persisted payment)
        { srv with sequence := sequence, created := srv.created + 1 } db
        (published delivered (paymentEvent .PAYMENT_CREATED payment env.now))
  | updateRefused {t : TxId} {i : ServerId} {id : UUID} {request : UpdateStatusRequest} {tx : Tx}
      {srv : Server} {e : ServiceException} :
      tx.phase = .idle → loadForUpdate db.table id request = .error e →
      Moves db (.updateStatus t i id request) tx srv
        ⟨some (.updateStatus id request), i, .ended (.raised e), {}⟩ srv db []
  | updateLoaded {t : TxId} {i : ServerId} {id : UUID} {request : UpdateStatusRequest} {tx : Tx}
      {srv : Server} {payment : Payment} :
      tx.phase = .idle → loadForUpdate db.table id request = .ok payment →
      Moves db (.updateStatus t i id request) tx srv
        ⟨some (.updateStatus id request), i, .updating payment request, {}⟩ srv db []
  | statusApplied {t : TxId} {now : Instant} {delivered : Bool} {tx : Tx} {srv : Server}
      {payment : Payment} {request : UpdateStatusRequest} :
      tx.phase = .updating payment request →
      Moves db (.applyAndPublish t now delivered) tx srv (tx.statusApplied payment request)
        (srv.countStatus request.newStatus) db
        (published delivered
          (paymentEvent .PAYMENT_STATUS_CHANGED (applyStatus request payment) now))
  | retrySelected {t : TxId} {i : ServerId} {cutoffTime : Instant} {tx : Tx} {srv : Server} :
      tx.phase = .idle →
      Moves db (.retryFailedPayments t i cutoffTime) tx srv
        ⟨some (.retryFailedPayments cutoffTime), i,
          .requeuing (findRetryablePayments cutoffTime db.table), {}⟩ srv db []
  | requeued {t : TxId} {now : Instant} {delivered : Bool} {tx : Tx} {srv : Server}
      {payment : Payment} {todo : List Payment} :
      tx.phase = .requeuing (payment :: todo) →
      Moves db (.requeueAndPublish t now delivered) tx srv (tx.requeued payment todo) srv db
        (published delivered (paymentEvent .PAYMENT_RETRY (requeuePayment payment) now))
  | committed {t : TxId} {now : Instant} {tx : Tx} {srv : Server}
      {response : Option PaymentResponse} {db' : Database} :
      ReadyToCommit tx.phase response → flush t now tx.context db = .ok db' →
      Moves db (.commit t now) tx srv (tx.finish (.returned response)) srv db' []
  | refused {t : TxId} {now : Instant} {tx : Tx} {srv : Server}
      {response : Option PaymentResponse} {e : ServiceException} :
      ReadyToCommit tx.phase response → flush t now tx.context db = .error e →
      Moves db (.commit t now) tx srv (tx.finish (.raised e)) srv db []
  | aborted {t : TxId} {tx : Tx} {srv : Server} :
      tx.phase ≠ .idle → (∀ outcome, tx.phase ≠ .ended outcome) →
      Moves db (.abort t) tx srv (tx.finish (.raised .transactionAborted)) srv db []

/-- A step moves one transaction, its server, the database and the topic, and nothing else. -/
structure Stepped (s : Sys) (a : Action) (s' : Sys) (tx : Tx) (srv : Server) (db : Database)
    (events : List PaymentEvent) : Prop where
  moves : Moves s.db a (s.txs a.tx) (s.servers tx.server) tx srv db events
  db_eq : s'.db = db
  txs_eq : s'.txs = Function.update s.txs a.tx tx
  servers_eq : s'.servers = Function.update s.servers tx.server srv
  topic_eq : s'.topic = s.topic ++ events.map (Sent.mk a.tx)

section Cases

variable {s : Sys} {a : Action} {tx : Tx} {srv : Server} {events : List PaymentEvent}

/-- A step that only replaces its transaction. -/
theorem Stepped.setTx
    (h : Moves s.db a (s.txs a.tx) (s.servers tx.server) tx (s.servers tx.server) s.db []) :
    Stepped s a (s.setTx a.tx tx) tx (s.servers tx.server) s.db [] where
  moves := h
  db_eq := rfl
  txs_eq := rfl
  servers_eq := (Function.update_eq_self _ _).symm
  topic_eq := by simp [Sys.setTx]

/-- A step that publishes. -/
theorem Stepped.advance
    (h : Moves s.db a (s.txs a.tx) (s.servers tx.server) tx srv s.db events) :
    Stepped s a (s.advance a.tx tx srv events) tx srv s.db events where
  moves := h
  db_eq := rfl
  txs_eq := rfl
  servers_eq := rfl
  topic_eq := rfl

/-- A commit, refused or not. -/
theorem Stepped.commitTx {t : TxId} {now : Instant} {response : Option PaymentResponse}
    (h : ReadyToCommit (s.txs t).phase response) :
    ∃ tx srv db events, Stepped s (.commit t now) (s.commitTx t now response) tx srv db events := by
  unfold Sys.commitTx
  split
  · rename_i db hflush
    exact ⟨_, _, _, _,
      { moves := .committed h hflush
        db_eq := rfl
        txs_eq := rfl
        servers_eq := (Function.update_eq_self _ _).symm
        topic_eq := by simp [Sys.setTx] }⟩
  · rename_i e hflush
    exact ⟨_, _, _, _, .setTx (a := .commit t now) (.refused h hflush)⟩

/-- **Every step is one of the moves.** -/
theorem step_cases {s' : Sys} (h : step s a = some s') :
    ∃ tx srv db events, Stepped s a s' tx srv db events := by
  cases a with
  | createPayment t i request =>
      simp only [step] at h
      split at h
      · rename_i hidle
        obtain rfl := (Option.some.inj h).symm
        refine ⟨_, _, _, _, .setTx (a := .createPayment t i request) ?_⟩
        unfold Tx.createPayment
        split
        · rename_i hkey
          exact .missed hidle fun key h => by rw [hkey] at h; cases h
        · rename_i key hkey
          split
          · rename_i payment hfound
            exact .replayed hidle hkey hfound
          · rename_i hmissed
            refine .missed hidle fun key' h => ?_
            rw [hkey] at h
            obtain rfl := Option.some.inj h
            exact hmissed
      · cases h
  | persistAndPublish t env delivered =>
      simp only [step] at h
      split at h
      · rename_i request hphase
        split at h
        · rename_i e hraised
          obtain rfl := (Option.some.inj h).symm
          exact ⟨_, _, _, _, .setTx (a := .persistAndPublish t env delivered)
            (.conversionRaised hphase hraised)⟩
        · rename_i payment sequence hprepared
          obtain rfl := (Option.some.inj h).symm
          exact ⟨_, _, _, _, .advance (a := .persistAndPublish t env delivered)
            (.persisted hphase hprepared)⟩
      · cases h
  | updateStatus t i id request =>
      simp only [step] at h
      split at h
      · rename_i hidle
        obtain rfl := (Option.some.inj h).symm
        refine ⟨_, _, _, _, .setTx (a := .updateStatus t i id request) ?_⟩
        unfold Tx.updateStatus
        split
        · rename_i e hrefused
          exact .updateRefused hidle hrefused
        · rename_i payment hloaded
          exact .updateLoaded hidle hloaded
      · cases h
  | applyAndPublish t now delivered =>
      simp only [step] at h
      split at h
      · rename_i payment request hphase
        obtain rfl := (Option.some.inj h).symm
        exact ⟨_, _, _, _, .advance (a := .applyAndPublish t now delivered) (.statusApplied hphase)⟩
      · cases h
  | retryFailedPayments t i cutoffTime =>
      simp only [step] at h
      split at h
      · rename_i hidle
        obtain rfl := (Option.some.inj h).symm
        exact ⟨_, _, _, _, .setTx (a := .retryFailedPayments t i cutoffTime) (.retrySelected hidle)⟩
      · cases h
  | requeueAndPublish t now delivered =>
      simp only [step] at h
      split at h
      · rename_i payment todo hphase
        obtain rfl := (Option.some.inj h).symm
        exact ⟨_, _, _, _, .advance (a := .requeueAndPublish t now delivered) (.requeued hphase)⟩
      · cases h
  | commit t now =>
      simp only [step] at h
      split at h
      · rename_i response hphase
        obtain rfl := (Option.some.inj h).symm
        exact Stepped.commitTx (by rw [hphase]; exact .flushing response)
      · rename_i hphase
        obtain rfl := (Option.some.inj h).symm
        exact Stepped.commitTx (by rw [hphase]; exact .requeued)
      · cases h
  | abort t =>
      simp only [step] at h
      split at h
      · cases h
      · cases h
      · rename_i hidle hended
        obtain rfl := (Option.some.inj h).symm
        exact ⟨_, _, _, _, .setTx (a := .abort t)
          (.aborted (fun h => hidle h) fun outcome h => hended outcome h)⟩

end Cases

/-! ## A request to replay -/

/-- A GBP 1000.00 domestic payment, for concrete traces. -/
def sampleRequest (idempotencyKey : Option String) : CreatePaymentRequest where
  senderAccountId := "GB29NWBK60161331926819"
  receiverAccountId := "GB94BARC10201530093459"
  receiverBankCode := "BARCGB22"
  amount := ⟨100000, 2⟩
  currency := .GBP
  paymentType := .DOMESTIC
  description := some "Invoice"
  idempotencyKey := idempotencyKey

/-- What a create call reads from outside, for concrete traces. -/
def sampleSurroundings (id : UUID) : Surroundings where
  now := 0
  today := ⟨2024, 1, 15⟩
  suffix := id
  id := id
  auditor := "ops"

end GlobalPayments.Payments

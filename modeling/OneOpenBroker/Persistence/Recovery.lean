import OneOpenBroker.Core.FanOut

/-! Startup recovery, `persistence/recovery.py`: a snapshot is loaded, and the
journal records after it are applied to the runtime through the same engine
that served the live broker, with `persist` off. Of the runtime, recovery
touches the queue engine and the routing engine around it. -/
namespace OneOpenBroker.Persistence
open Collections OneOpenBroker.Core QueueEngine RoutingEngine

/-- `BrokerRuntime.snapshot`. -/
structure RuntimeSnapshot where
  queues : EngineSnapshot
  exchanges : List Exchange
  bindings : List Binding

def snapshot (r : RoutingEngine) : RuntimeSnapshot where
  queues := r.queues.snapshotState
  exchanges := r.exchanges.values
  bindings := r.bindings

/-- `RoutingEngine.restore_state`. -/
def restoreRouting (r : RoutingEngine) (state : RuntimeSnapshot) : RoutingEngine :=
  let r := declareExchange { r with exchanges := ∅, bindings := [] } defaultExchange .direct true false
  let r := state.exchanges.foldl (fun r ex => r.declareExchange ex.name ex.type ex.durable false) r
  state.bindings.foldl (fun r b => (r.bind b.exchange b.queue b.routingKey false).2) r

def restoreSnapshot (r : RoutingEngine) (state : RuntimeSnapshot) : RoutingEngine :=
  restoreRouting { r with queues := r.queues.restoreState state.queues } state

/-- A queue that a record names and that is not there is declared with the
defaults. -/
def declareMissing (r : RoutingEngine) (queue : String) (bound : Bool) : RoutingEngine :=
  if queue ∈ r.queues.queues then r
  else
    let r := { r with queues := r.queues.declareQueue queue {} false }
    if bound then r.onQueueDeclared queue false else r

/-- One record. A `MESSAGE_REQUEUE` without `from` and `to`, which is a retry,
and a `MESSAGE_DEAD` are passed over. -/
def applyRecord (r : RoutingEngine) : JournalOp → RoutingEngine
  | .queueDeclare name durable maxLength visibilityTimeout maxAttempts deadLetter =>
    let args : QueueArgs :=
      { durable, maxLength, visibilityTimeout := some visibilityTimeout
        maxAttempts := some maxAttempts, deadLetter }
    onQueueDeclared { r with queues := r.queues.declareQueue name args false } name false
  | .queueDelete name => { r with queues := (r.queues.deleteQueue name false).2 }
  | .exchangeDeclare name type durable => r.declareExchange name type durable false
  | .exchangeDelete name => (r.deleteExchange name false).2
  | .bind exchange queue routingKey =>
    ((declareMissing r queue false).bind exchange queue routingKey false).2
  | .unbind exchange queue routingKey => (r.unbind exchange queue routingKey false).2
  | .messagePublish message =>
    let r := declareMissing r message.queue true
    if message.id ∈ r.queues.byId then r
    else { r with queues := (r.queues.enqueue message false).2 }
  | .messageAck id _ => { r with queues := (r.queues.ack id false).2 }
  | .messageNack id _ requeue => { r with queues := (r.queues.nack id requeue false).2 }
  | .messageRequeue id _ dest => { r with queues := (r.queues.dlqRequeue dest id false).2 }
  | .messageRetry .. | .messageDead .. => r

/-- Apply the records that come after the snapshot. -/
def replay (r : RoutingEngine) (snapSeq : Nat) (records : List AofRecord) : RoutingEngine :=
  (records.filter (snapSeq < ·.seq)).foldl (fun r rec => applyRecord r rec.op) r

/-- A snapshot file: the journal sequence number it was written at and the state. -/
abbrev SnapshotFile := Nat × RuntimeSnapshot

/-- The runtime when every record is applied. -/
def recovered (r : RoutingEngine) (file : Option SnapshotFile) (records : List AofRecord) :
    RoutingEngine :=
  match file with
  | none => replay r 0 records
  | some (seq, state) => replay (restoreSnapshot r state) seq records

/-- `recover_into`: the sequence number to go on with, and the runtime after
one tick of its timers. -/
def recoverInto (r : RoutingEngine) (file : Option SnapshotFile) (records : List AofRecord) :
    Nat × RoutingEngine :=
  let r := recovered r file records
  let snapSeq := (file.map (·.1)).getD 0
  let lastSeq := ((records.filter (snapSeq < ·.seq)).getLast?.map (·.seq)).getD snapSeq
  (lastSeq, { r with queues := (r.queues.tick).2 })

/-! ## The queues of a recovery -/

/-- What a record does to the queue engine. -/
def applyToQueues (e : QueueEngine) : JournalOp → QueueEngine
  | .queueDeclare name durable maxLength visibilityTimeout maxAttempts deadLetter =>
    e.declareQueue name { durable, maxLength, visibilityTimeout := some visibilityTimeout
                          maxAttempts := some maxAttempts, deadLetter } false
  | .queueDelete name => (e.deleteQueue name false).2
  | .bind _ queue _ => e.declareQueue queue {} false
  | .messagePublish message =>
    let e := e.declareQueue message.queue {} false
    if message.id ∈ e.byId then e else (e.enqueue message false).2
  | .messageAck id _ => (e.ack id false).2
  | .messageNack id _ requeue => (e.nack id requeue false).2
  | .messageRequeue id _ dest => (e.dlqRequeue dest id false).2
  | .exchangeDeclare .. | .exchangeDelete .. | .unbind .. | .messageRetry .. | .messageDead .. => e

variable {r : RoutingEngine} {e : QueueEngine} {name queue exchange routingKey : String}

@[simp] theorem declareExchange_queues {type : ExchangeType} {durable : Bool} :
    (r.declareExchange name type durable false).queues = r.queues := by
  unfold declareExchange
  split <;> rfl

@[simp] theorem deleteExchange_queues : (r.deleteExchange name false).2.queues = r.queues := by
  unfold deleteExchange
  split
  · rfl
  · split <;> rfl

@[simp] theorem bind_queues : (r.bind exchange queue routingKey false).2.queues = r.queues := by
  unfold RoutingEngine.bind
  split <;> rfl

@[simp] theorem unbind_queues : (r.unbind exchange queue routingKey false).2.queues = r.queues := by
  unfold unbind
  split <;> rfl

@[simp] theorem onQueueDeclared_queues : (r.onQueueDeclared queue false).queues = r.queues :=
  bind_queues

theorem declareMissing_queues {bound : Bool} :
    (declareMissing r queue bound).queues = r.queues.declareQueue queue {} false := by
  unfold declareMissing
  by_cases known : queue ∈ r.queues.queues
  · simp [known, declareQueue]
  · rw [if_neg known]
    dsimp only
    split
    · rw [onQueueDeclared_queues]
    · rfl

/-- Recovery rebuilds the queues without looking at exchanges and bindings. -/
theorem applyRecord_queues (op : JournalOp) :
    (applyRecord r op).queues = applyToQueues r.queues op := by
  cases op with
  | queueDeclare => exact onQueueDeclared_queues
  | exchangeDeclare => exact declareExchange_queues
  | exchangeDelete name => exact deleteExchange_queues
  | bind exchange queue routingKey => exact bind_queues.trans declareMissing_queues
  | unbind exchange queue routingKey => exact unbind_queues
  | messagePublish message =>
    have declared : (declareMissing r message.queue true).queues =
        r.queues.declareQueue message.queue {} false := declareMissing_queues
    simp only [applyRecord, applyToQueues, declared]
    split
    · exact declared
    · rfl
  | queueDelete | messageAck | messageNack | messageRequeue | messageRetry | messageDead => rfl

theorem restoreSnapshot_queues {state : RuntimeSnapshot} :
    (restoreSnapshot r state).queues = r.queues.restoreState state.queues := by
  have exchanges : ∀ (list : List Exchange) (r : RoutingEngine),
      (list.foldl (fun r ex => r.declareExchange ex.name ex.type ex.durable false) r).queues =
        r.queues := by
    intro list
    induction list with
    | nil => exact fun _ => rfl
    | cons ex list ih => exact fun r => (ih _).trans declareExchange_queues
  have bindings : ∀ (list : List Binding) (r : RoutingEngine),
      (list.foldl (fun r b => (r.bind b.exchange b.queue b.routingKey false).2) r).queues =
        r.queues := by
    intro list
    induction list with
    | nil => exact fun _ => rfl
    | cons b list ih => exact fun r => (ih _).trans bind_queues
  unfold restoreSnapshot restoreRouting
  dsimp only
  rw [bindings, exchanges, declareExchange_queues]

/-- The queues after a list of journaled operations. -/
def rebuild (e : QueueEngine) (ops : List JournalOp) : QueueEngine := ops.foldl applyToQueues e

@[simp] theorem rebuild_append {first second : List JournalOp} :
    rebuild e (first ++ second) = rebuild (rebuild e first) second := List.foldl_append

theorem replay_queues (records : List AofRecord) (r : RoutingEngine) (snapSeq : Nat) :
    (replay r snapSeq records).queues =
      rebuild r.queues ((records.filter (snapSeq < ·.seq)).map (·.op)) := by
  unfold replay
  generalize records.filter (snapSeq < ·.seq) = later
  induction later generalizing r with
  | nil => rfl
  | cons rec later ih =>
    have step := ih (applyRecord r rec.op)
    rw [applyRecord_queues] at step
    exact step

end OneOpenBroker.Persistence

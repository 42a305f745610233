import OneOpenBroker.Core.QueueEngine
import OneOpenBroker.Untyped.Value

/-! The queue engine, `core/queue.py`, once more: as it runs on the metadata
that requests carry, of whatever type, and with the exceptions this raises.
A message keeps its id, its headers and its bound on the attempts as they
came, and a queue its limits; the names under which queues are stored are
texts, since `is_dlq` raises on any other. The journal is left out: its
records are written with ASCII escapes, which raises on no value of JSON. So
are the counters, and the fields that only the journal and the snapshots read. -/
namespace OneOpenBroker.Untyped
open Collections Programs
open OneOpenBroker.Core (AckResult Backoff EngineConfig EnqueueResult NackResult heapify heappush)

/-! ## Names of dead-letter queues -/

def dlqSuffix : Text := text ".DLQ"

def isDlq (queue : Text) : Bool := dlqSuffix.isSuffixOf queue

def dlqName (queue : Text) : Text := if isDlq queue then queue else queue ++ dlqSuffix

def originQueue (dlq : Text) : Text :=
  if isDlq dlq then dlq.take (dlq.length - dlqSuffix.length) else dlq

/-! ## Records -/

structure Message where
  id : Value
  queue : Text
  payload : List UInt8
  attempts : Nat := 0
  maxAttempts : Value
  priority : ℤ := 0
  headers : Value := .null
  availableAt : Option ℚ := none

structure InflightRecord where
  messageId : Key
  consumerId : Key
  visibilityDeadline : Moment

/-- A heap tuple `(-priority, seq, message_id)`. -/
structure ReadyEntry where
  negPriority : ℤ
  seq : Nat
  messageId : Key

def ReadyEntry.le (a b : ReadyEntry) : Prop :=
  a.negPriority < b.negPriority ∨ (a.negPriority = b.negPriority ∧ a.seq ≤ b.seq)

instance : DecidableRel ReadyEntry.le := fun a b =>
  inferInstanceAs (Decidable (a.negPriority < b.negPriority ∨ _))

/-- A heap tuple `(when, seq, queue, message_id)`. -/
structure TimedEntry where
  due : Moment
  seq : Nat
  queue : Text
  messageId : Key

def TimedEntry.le (a b : TimedEntry) : Prop := a.due < b.due ∨ (a.due = b.due ∧ a.seq ≤ b.seq)

instance : DecidableRel TimedEntry.le := fun a b => inferInstanceAs (Decidable (a.due < b.due ∨ _))

structure QueueSpec where
  name : Text
  maxLength : Value
  visibilityTimeout : Value
  maxAttempts : Value
  deadLetter : Bool

structure DurableQueue where
  spec : QueueSpec
  ready : List ReadyEntry := []
  delayedIds : Finset Key := ∅
  inflight : Dict Key InflightRecord := ∅
  dlqIds : List Key := []
  messages : Dict Key Message := ∅
  consumerIds : List Key := []
  rrIndex : Nat := 0

structure QueueEngine where
  config : EngineConfig
  clock : Nat → ℚ
  reads : Nat := 0
  queues : Dict Text DurableQueue := ∅
  byId : Dict Key Text := ∅
  recentAcks : List Key := []
  seq : Nat := 0
  visibilityHeap : List TimedEntry := []
  delayed : List TimedEntry := []

/-- The keyword arguments of `declare_queue` that callers pass on. -/
structure QueueArgs where
  maxLength : Value := .null
  visibilityTimeout : Value := .null
  maxAttempts : Value := .null

/-! ## Updates of one queue -/

namespace DurableQueue

def depth (queue : DurableQueue) : Nat :=
  queue.ready.length + queue.inflight.size + queue.delayedIds.card

def pushReady (queue : DurableQueue) (messageId : Key) (priority : ℤ) (seq : Nat) : DurableQueue :=
  { queue with ready := heappush ReadyEntry.le ⟨-priority, seq, messageId⟩ queue.ready }

/-- Store a message, or what an update made of the one that is stored. -/
def hold (queue : DurableQueue) (messageId : Key) (message : Message) : DurableQueue :=
  { queue with messages := queue.messages.set messageId message }

def delay (queue : DurableQueue) (messageId : Key) : DurableQueue :=
  { queue with delayedIds := insert messageId queue.delayedIds }

def deliver (queue : DurableQueue) (record : InflightRecord) : DurableQueue :=
  { queue with inflight := queue.inflight.set record.messageId record }

def endDelivery (queue : DurableQueue) (messageId : Key) : DurableQueue :=
  { queue with inflight := queue.inflight.erase messageId }

def discard (queue : DurableQueue) (messageId : Key) : DurableQueue :=
  { queue with messages := queue.messages.erase messageId }

/-- A message that `dlq_requeue` takes out of a DLQ. -/
def withdraw (queue : DurableQueue) (messageId : Key) : DurableQueue :=
  { queue with
    messages := queue.messages.erase messageId
    ready := heapify ReadyEntry.le (queue.ready.filter (·.messageId ≠ messageId))
    dlqIds := queue.dlqIds.filter (· ≠ messageId) }

end DurableQueue

namespace QueueEngine

def now : Program QueueEngine Raised ℚ :=
  modifyGet fun e => (e.clock e.reads, { e with reads := e.reads + 1 })

/-- Change the queue that is stored under a name. -/
def alter (e : QueueEngine) (name : Text) (change : DurableQueue → DurableQueue) : QueueEngine :=
  match e.queues.get? name with
  | none => e
  | some queue => { e with queues := e.queues.set name (change queue) }

/-! ## Queues -/

def makeSpec (e : QueueEngine) (name : Text) (args : QueueArgs) (deadLetter : Bool) : QueueSpec where
  name := name
  maxLength := args.maxLength.default
    (e.config.maxLength.elim .null fun n => .number (.int n))
  visibilityTimeout := args.visibilityTimeout.default (.number (.float e.config.visibilityTimeout))
  maxAttempts := args.maxAttempts.default (.number (.int e.config.maxAttempts))
  deadLetter := deadLetter && !isDlq name

/-- `declare_queue` with `dead_letter` off, which declares no second queue. -/
def declareLeaf (e : QueueEngine) (name : Text) (args : QueueArgs) : QueueEngine :=
  if name ∈ e.queues then e
  else { e with queues := e.queues.set name { spec := e.makeSpec name args false } }

def declareText (e : QueueEngine) (name : Text) (args : QueueArgs) : QueueEngine :=
  if name ∈ e.queues then e
  else
    let spec := e.makeSpec name args true
    let e := { e with queues := e.queues.set name { spec } }
    if spec.deadLetter then
      e.declareLeaf (dlqName name)
        { visibilityTimeout := spec.visibilityTimeout, maxAttempts := .number (.int 1) }
    else e

/-- `declare_queue`: on a name that is not a text `is_dlq` finds no `endswith`. -/
def declareQueue (name : Value) (args : QueueArgs) : Program QueueEngine Raised Text := do
  match ← MonadExcept.ofExcept name.hash with
  | .text t =>
    modify (·.declareText t args)
    return t
  | _ => throw .attributeError

def deleteLeaf (e : QueueEngine) (name : Text) : QueueEngine :=
  match e.queues.get? name with
  | none => e
  | some queue =>
    { e with queues := e.queues.erase name, byId := e.byId.eraseAll queue.messages.keys }

def deleteText (e : QueueEngine) (name : Text) : Bool × QueueEngine :=
  match e.queues.get? name with
  | none => (false, e)
  | some queue =>
    let e := e.deleteLeaf name
    (true, if queue.spec.deadLetter then e.deleteLeaf (dlqName name) else e)

def deleteQueue (name : Value) : Program QueueEngine Raised Bool := do
  match ← MonadExcept.ofExcept name.hash with
  | .text t => modifyGet (·.deleteText t)
  | _ => return false

/-- `get_queue`, with the name the queue is stored under. -/
def getQueue (name : Value) : Program QueueEngine Raised (Option (Text × DurableQueue)) := do
  match ← MonadExcept.ofExcept name.hash with
  | .text t => return ((← get).queues.get? t).map fun queue => (t, queue)
  | _ => return none

/-- `sorted` of the queue names. -/
def listQueues (e : QueueEngine) : List Text := e.queues.keys.insertionSort (Text.le · ·)

/-! ## Publishing and delivery -/

/-- `limit is not None and depth >= limit`. -/
def isFull (queue : DurableQueue) : Except Raised Bool :=
  match queue.spec.maxLength with
  | .null => .ok false
  | limit => limit.reachedBy queue.depth

/-- A delay that is already over is dropped from the message. -/
def dueMessage (message : Message) (now : ℚ) : Message :=
  match message.availableAt with
  | none => message
  | some due => if now < due then message else { message with availableAt := none }

/-- Put an accepted message in its queue, delayed or ready. -/
def accept (e : QueueEngine) (messageId : Key) (message : Message) : QueueEngine :=
  let e := { e with seq := e.seq + 1, byId := e.byId.set messageId message.queue }
  match message.availableAt with
  | some due =>
    { e.alter message.queue fun queue => (queue.hold messageId message).delay messageId with
      delayed := heappush TimedEntry.le ⟨Moment.of due, e.seq, message.queue, messageId⟩ e.delayed }
  | none => e.alter message.queue fun queue =>
    (queue.hold messageId message).pushReady messageId message.priority e.seq

def enqueue (message : Message) : Program QueueEngine Raised EnqueueResult := do
  match (← get).queues.get? message.queue with
  | none => return .notFound
  | some queue =>
    if ← MonadExcept.ofExcept (isFull queue) then return .queueFull
    else
      let now ← now
      let messageId ← MonadExcept.ofExcept message.id.hash
      modify (·.accept messageId (dueMessage message now))
      return .ok

/-- Pop ready entries until one names a message that is held and neither
inflight nor delayed. -/
def popDeliverable (queue : DurableQueue) :
    List ReadyEntry → Option (Key × Message) × List ReadyEntry
  | [] => (none, [])
  | entry :: rest =>
    match queue.messages.get? entry.messageId with
    | none => popDeliverable queue rest
    | some message =>
      if entry.messageId ∈ queue.inflight ∨ entry.messageId ∈ queue.delayedIds then
        popDeliverable queue rest
      else (some (entry.messageId, message), rest)

/-- File a delivery under its deadline. -/
def deliver (e : QueueEngine) (queueName : Text) (messageId consumerId : Key) (deadline : Moment) :
    QueueEngine :=
  let e := { e with
    seq := e.seq + 1
    visibilityHeap :=
      heappush TimedEntry.le ⟨deadline, e.seq + 1, queueName, messageId⟩ e.visibilityHeap }
  e.alter queueName (·.deliver ⟨messageId, consumerId, deadline⟩)

/-- The entry is off the ready heap before the deadline is computed. -/
def reserve (queueName : Text) (consumerId : Key) : Program QueueEngine Raised (Option Message) := do
  match (← get).queues.get? queueName with
  | none => return none
  | some queue =>
    let (found, rest) := popDeliverable queue queue.ready
    modify (·.alter queueName fun queue => { queue with ready := rest })
    match found with
    | none => return none
    | some (messageId, message) =>
      let now ← now
      let deadline ← MonadExcept.ofExcept (addSeconds now queue.spec.visibilityTimeout)
      modify (·.deliver queueName messageId consumerId deadline)
      return some message

/-- `inflight_consumer` of a message id. -/
def consumerOf (e : QueueEngine) (messageId : Key) : Option Key := do
  let queueName ← e.byId.get? messageId
  let queue ← e.queues.get? queueName
  let record ← queue.inflight.get? messageId
  return record.consumerId

def inflightConsumer (messageId : Value) : Program QueueEngine Raised (Option Key) := do
  let messageId ← MonadExcept.ofExcept messageId.hash
  return (← get).consumerOf messageId

/-! ## Settling a delivery -/

def rememberAck (e : QueueEngine) (messageId : Key) : QueueEngine :=
  let acks := if messageId ∈ e.recentAcks then e.recentAcks else e.recentAcks ++ [messageId]
  { e with recentAcks := acks.drop (acks.length - e.config.recentAckLimit) }

def ackKey (e : QueueEngine) (messageId : Key) : AckResult × QueueEngine :=
  if messageId ∈ e.recentAcks then (.alreadyAcked, e)
  else
    match e.byId.get? messageId with
    | none => (.notFound, e)
    | some queueName =>
      match e.queues.get? queueName with
      | none => (.notFound, e)
      | some queue =>
        if messageId ∈ queue.inflight then
          let e := e.alter queueName fun queue => (queue.endDelivery messageId).discard messageId
          (.ok, rememberAck { e with byId := e.byId.erase messageId } messageId)
        else (.notFound, e)

def ack (messageId : Value) : Program QueueEngine Raised AckResult := do
  let messageId ← MonadExcept.ofExcept messageId.hash
  modifyGet (·.ackKey messageId)

/-- `2 ** (attempts - 1)` becomes a float when it is multiplied by one. -/
def retryDelay (attempts : Nat) (mode : Backoff) (base : ℚ) : Except Raised ℚ :=
  match mode with
  | .fixed => .ok base
  | .exponential => (toFloat (2 ^ (attempts - 1))).map (base * ·)

def moveToDlq (e : QueueEngine) (name : Text) (deadLetter : Bool) (messageId : Key)
    (message : Message) : QueueEngine :=
  let e := { e.alter name (·.discard messageId) with byId := e.byId.erase messageId }
  if deadLetter then
    let dest := dlqName name
    let message := { message with queue := dest, availableAt := none }
    let e := e.declareLeaf dest {}
    let e := { e with seq := e.seq + 1, byId := e.byId.set messageId dest }
    e.alter dest fun queue =>
      { (queue.hold messageId message).pushReady messageId message.priority e.seq with
        dlqIds := queue.dlqIds ++ [messageId] }
  else e

/-- Put a failed message back on a delay. -/
def delayRetry (e : QueueEngine) (name : Text) (messageId : Key) (message : Message) (due : ℚ) :
    QueueEngine :=
  let e := { e with
    seq := e.seq + 1
    delayed := heappush TimedEntry.le ⟨Moment.of due, e.seq + 1, name, messageId⟩ e.delayed }
  e.alter name fun queue =>
    (queue.hold messageId { message with availableAt := some due }).delay messageId

/-- The attempt is counted on the stored message before it is compared. -/
def retryOrDead (name : Text) (deadLetter : Bool) (messageId : Key) (message : Message) :
    Program QueueEngine Raised Unit := do
  let message := { message with attempts := message.attempts + 1 }
  modify (·.alter name (·.hold messageId message))
  if ← MonadExcept.ofExcept (message.maxAttempts.reachedBy message.attempts) then
    modify (·.moveToDlq name deadLetter messageId message)
  else
    let config := (← get).config
    let delay ← MonadExcept.ofExcept
      (retryDelay message.attempts config.retryBackoff config.retryBaseDelay)
    let now ← now
    modify (·.delayRetry name messageId message (now + delay))

/-- The part of `nack` after a delivery was found. -/
def reject (queueName : Text) (queue : DurableQueue) (messageId : Key) (requeue : Bool) :
    Program QueueEngine Raised NackResult := do
  modify (·.alter queueName (·.endDelivery messageId))
  match queue.messages.get? messageId with
  | none => return .notFound
  | some message =>
    if requeue then retryOrDead queueName queue.spec.deadLetter messageId message
    else modify (·.moveToDlq queueName queue.spec.deadLetter messageId message)
    return .ok

def nack (messageId : Value) (requeue : Bool) : Program QueueEngine Raised NackResult := do
  let messageId ← MonadExcept.ofExcept messageId.hash
  let e ← get
  match e.byId.get? messageId with
  | none => return if messageId ∈ e.recentAcks then .notFound else .unknownDelivery
  | some queueName =>
    match e.queues.get? queueName with
    | none => return .notFound
    | some queue =>
      if messageId ∈ queue.inflight then reject queueName queue messageId requeue
      else return .unknownDelivery

/-- End a delivery without an answer from the consumer: the body shared by
`recover_consumer` and `_timeout_inflight`. -/
def failDelivery (name : Text) (messageId : Key) : Program QueueEngine Raised Nat := do
  match (← get).queues.get? name with
  | none => return 0
  | some queue =>
    modify (·.alter name (·.endDelivery messageId))
    match queue.messages.get? messageId with
    | none => return 0
    | some message =>
      retryOrDead name queue.spec.deadLetter messageId message
      return 1

/-- The deliveries of one consumer, in the order of the inflight table. -/
def heldBy (queue : DurableQueue) (consumerId : Key) : List Key :=
  (queue.inflight.values.filter (·.consumerId = consumerId)).map (·.messageId)

def failAll (name : Text) : List Key → Program QueueEngine Raised Nat
  | [] => return 0
  | messageId :: rest => do
    let failed ← failDelivery name messageId
    return (← failAll name rest) + failed

/-- The iteration over `self._queues.values()`, which compares the size of the
dictionary with the size at the start in every call of the iterator. -/
def recoverQueues (size : Nat) (consumerId : Key) : List Text → Program QueueEngine Raised Nat
  | [] => do
    if (← get).queues.size = size then return 0 else throw .runtimeError
  | name :: rest => do
    let e ← get
    if e.queues.size = size then
      let n ← failAll name ((e.queues.get? name).elim [] fun queue => heldBy queue consumerId)
      return (← recoverQueues size consumerId rest) + n
    else throw .runtimeError

def recoverConsumer (consumerId : Key) : Program QueueEngine Raised Nat := do
  let e ← get
  recoverQueues e.queues.size consumerId e.queues.keys

/-! ## Timers -/

def releaseOne (e : QueueEngine) (queueName : Text) (messageId : Key) : Nat × QueueEngine :=
  match e.queues.get? queueName with
  | none => (0, e)
  | some queue =>
    if messageId ∈ queue.delayedIds then
      let queue := { queue with delayedIds := queue.delayedIds.erase messageId }
      match queue.messages.get? messageId with
      | none => (0, e.alter queueName fun _ => queue)
      | some message =>
        if messageId ∈ queue.inflight then (0, e.alter queueName fun _ => queue)
        else
          let e := { e with seq := e.seq + 1 }
          (1, e.alter queueName fun _ =>
            (queue.hold messageId { message with availableAt := none }).pushReady messageId
              message.priority e.seq)
    else (0, e)

def releaseAll : List TimedEntry → QueueEngine → Nat × QueueEngine
  | [], e => (0, e)
  | entry :: rest, e =>
    let (released, e) := e.releaseOne entry.queue entry.messageId
    let (n, e) := releaseAll rest e
    (n + released, e)

/-- `_release_delayed`, in which nothing can raise. -/
def releaseDelayed (now : ℚ) (e : QueueEngine) : Nat × QueueEngine :=
  releaseAll (e.delayed.takeWhile (·.due ≤ Moment.of now))
    { e with delayed := e.delayed.dropWhile (·.due ≤ Moment.of now) }

/-- The inflight record of a message in a queue. -/
def record? (e : QueueEngine) (q : Text) (m : Key) : Option InflightRecord :=
  (e.queues.get? q).bind (·.inflight.get? m)

/-- The entry of a delivery is stale if the record has another deadline. -/
def timeoutEntry (entry : TimedEntry) : Program QueueEngine Raised Nat := do
  let record := (← get).record? entry.queue entry.messageId
  if record.map (·.visibilityDeadline) = some entry.due then
    failDelivery entry.queue entry.messageId
  else return 0

/-- The loop of `_timeout_inflight` over the entries of the visibility heap. -/
def timeoutEntries (now : ℚ) : List TimedEntry → Program QueueEngine Raised Nat
  | [] => return 0
  | entry :: rest =>
    if entry.due ≤ Moment.of now then do
      modify fun e => { e with visibilityHeap := rest }
      let failed ← timeoutEntry entry
      return (← timeoutEntries now rest) + failed
    else return 0

def tick : Program QueueEngine Raised Nat := do
  let ts ← now
  let released ← modifyGet (releaseDelayed ts)
  let expired ← timeoutEntries ts (← get).visibilityHeap
  return released + expired

/-! ## Dead letters -/

/-- `dlq_requeue` of a message that was found. -/
def requeueDead (origin : Text) (messageId : Key) (message : Message) :
    Program QueueEngine Raised Bool := do
  modify fun e => { e.alter (dlqName origin) (·.withdraw messageId) with
    byId := e.byId.erase messageId }
  let result ← enqueue { message with queue := origin, attempts := 0, availableAt := none }
  if result = .ok then return true
  else
    let message := { message with queue := dlqName origin, attempts := 0, availableAt := none }
    modify fun e =>
      let e := { e with seq := e.seq + 1, byId := e.byId.set messageId (dlqName origin) }
      e.alter (dlqName origin) fun queue =>
        (queue.hold messageId message).pushReady messageId message.priority e.seq
    return false

/-- `dlq_requeue`: `origin_queue` asks the name for its `endswith`. -/
def dlqRequeue (queueName messageId : Value) : Program QueueEngine Raised Bool := do
  match queueName with
  | .text t =>
    let origin := originQueue t
    let e ← get
    match e.queues.get? (dlqName origin), e.queues.get? origin with
    | some dlq, some _ =>
      let messageId ← MonadExcept.ofExcept messageId.hash
      match dlq.messages.get? messageId with
      | none => return false
      | some message => requeueDead origin messageId message
    | _, _ => return false
  | _ => throw .attributeError

end QueueEngine
end OneOpenBroker.Untyped

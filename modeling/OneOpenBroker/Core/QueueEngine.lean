import OneOpenBroker.Core.Dlq
import OneOpenBroker.Core.Message

/-! The durable queue engine, `core/queue.py`, as functions on its state. A
reference to a queue object is the queue's name together with its current
contents: every queue is stored under its own name. The clock is a sequence
of readings, one for each call of `now()`, and nothing is assumed of it. Times
are finite numbers and `retry_delay` returns one: `Core.FloatTimes` has the
engine with NaN among its times, `Core.Overflow` the one where the delay raises. -/
namespace OneOpenBroker.Core
open Collections

/-- The engine-wide defaults and retry policy. The numbers of seconds are finite. -/
structure EngineConfig where
  visibilityTimeout : ℚ := 300
  maxAttempts : Int := 3
  maxLength : Option Int := none
  retryBackoff : Backoff := .exponential
  retryBaseDelay : ℚ := 1
  recentAckLimit : Nat := 100000

structure QueueEngine where
  config : EngineConfig
  clock : Nat → ℚ
  reads : Nat := 0
  journal : Journal := {}
  queues : Dict String DurableQueue := ∅
  byId : Dict String String := ∅
  recentAcks : List String := []
  seq : Nat := 0
  visibilityHeap : List TimedEntry := []
  delayed : List TimedEntry := []

/-- The keyword arguments of `declare_queue`. -/
structure QueueArgs where
  durable : Bool := true
  maxLength : Option Int := none
  visibilityTimeout : Option ℚ := none
  maxAttempts : Option Int := none
  deadLetter : Bool := true

/-- The error Python raises when a dictionary grows under an iterator. -/
inductive RuntimeError where
  | dictionaryChangedSize
  deriving DecidableEq

/-! ## Updates of one queue -/

namespace DurableQueue

/-- Push a message on the ready heap under a sequence number. -/
def pushReady (queue : DurableQueue) (seq : Nat) (message : Message) : DurableQueue :=
  { queue with
    ready := heappush ReadyEntry.le ⟨-message.priority, seq, message.id⟩ queue.ready }

/-- Hold a message that was published to the queue or dead-lettered into it. -/
def hold (queue : DurableQueue) (message : Message) : DurableQueue :=
  { queue with
    messages := queue.messages.set message.id message
    stats := { queue.stats with published := queue.stats.published + 1 } }

def deliver (queue : DurableQueue) (rest : List ReadyEntry) (record : InflightRecord) :
    DurableQueue :=
  { queue with
    ready := rest
    inflight := queue.inflight.set record.messageId record
    stats := { queue.stats with delivered := queue.stats.delivered + 1 } }

/-- An acked message leaves the inflight table and the queue. -/
def settle (queue : DurableQueue) (messageId : String) : DurableQueue :=
  { queue with
    inflight := queue.inflight.erase messageId
    messages := queue.messages.erase messageId
    stats := { queue.stats with acked := queue.stats.acked + 1 } }

def endDelivery (queue : DurableQueue) (messageId : String) : DurableQueue :=
  { queue with inflight := queue.inflight.erase messageId }

def countNack (queue : DurableQueue) : DurableQueue :=
  { queue with stats := { queue.stats with nacked := queue.stats.nacked + 1 } }

/-- A dead message leaves the queue. -/
def discard (queue : DurableQueue) (messageId : String) : DurableQueue :=
  { queue with
    messages := queue.messages.erase messageId
    stats := { queue.stats with dead := queue.stats.dead + 1 } }

/-- A failed message waits for its retry. -/
def delay (queue : DurableQueue) (message : Message) : DurableQueue :=
  { queue with
    messages := queue.messages.set message.id message
    delayedIds := insert message.id queue.delayedIds
    stats := { queue.stats with retried := queue.stats.retried + 1 } }

/-- A message of a DLQ is taken out, from wherever it is but the inflight
table and the delayed ids. -/
def withdraw (queue : DurableQueue) (messageId : String) : DurableQueue :=
  { queue with
    messages := queue.messages.erase messageId
    ready := heapify ReadyEntry.le (queue.ready.filter (·.messageId ≠ messageId))
    dlqIds := queue.dlqIds.filter (· ≠ messageId) }

end DurableQueue

namespace QueueEngine

def now (e : QueueEngine) : ℚ × QueueEngine := (e.clock e.reads, { e with reads := e.reads + 1 })

/-- `journal.append` under the `persist` flag. -/
def append (e : QueueEngine) (persist : Bool) (op : JournalOp) : QueueEngine :=
  if persist then { e with journal := e.journal.append op } else e

def putQueue (e : QueueEngine) (name : String) (queue : DurableQueue) : QueueEngine :=
  { e with queues := e.queues.set name queue }

/-- Store a queue with a message pushed ready under the next sequence number. -/
def pushReady (e : QueueEngine) (name : String) (queue : DurableQueue) (message : Message) :
    QueueEngine :=
  { e with seq := e.seq + 1, queues := e.queues.set name (queue.pushReady (e.seq + 1) message) }

/-- `DelayedHeap.push` under the next sequence number. -/
def pushDelayed (e : QueueEngine) (name messageId : String) (due : ℚ) : QueueEngine :=
  { e with
    seq := e.seq + 1
    delayed := heappush TimedEntry.le ⟨due, e.seq + 1, name, messageId⟩ e.delayed }

/-! ## Queues -/

def makeSpec (e : QueueEngine) (name : String) (args : QueueArgs) : QueueSpec where
  name := name
  durable := args.durable
  maxLength := args.maxLength.orElse fun _ => e.config.maxLength
  visibilityTimeout := args.visibilityTimeout.getD e.config.visibilityTimeout
  maxAttempts := args.maxAttempts.getD e.config.maxAttempts
  deadLetter := args.deadLetter && !isDlq name

def declareRecord (spec : QueueSpec) (durable : Bool) : JournalOp :=
  .queueDeclare spec.name durable spec.maxLength spec.visibilityTimeout spec.maxAttempts
    spec.deadLetter

/-- `declare_queue` of a queue without dead-lettering, which declares no
second queue. The DLQ of every queue is declared this way. -/
def declareLeaf (e : QueueEngine) (name : String) (args : QueueArgs) (persist : Bool) : QueueEngine :=
  if name ∈ e.queues then e
  else
    let spec := e.makeSpec name { args with deadLetter := false }
    (e.putQueue name { spec }).append persist (declareRecord spec args.durable)

def declareQueue (e : QueueEngine) (name : String) (args : QueueArgs) (persist : Bool := true) :
    QueueEngine :=
  if name ∈ e.queues then e
  else
    let spec := e.makeSpec name args
    let e := e.putQueue name { spec }
    let e :=
      if spec.deadLetter then
        e.declareLeaf (dlqName name)
          { visibilityTimeout := some spec.visibilityTimeout, maxAttempts := some 1 } persist
      else e
    e.append persist (declareRecord spec args.durable)

/-- Take one queue out and forget the ids of its messages. -/
def removeQueue (e : QueueEngine) (name : String) (queue : DurableQueue) (persist : Bool) :
    QueueEngine :=
  append { e with queues := e.queues.erase name, byId := e.byId.eraseAll queue.messages.keys }
    persist (.queueDelete name)

/-- `delete_queue` of a DLQ: its own DLQ name is its name, so the call nested
in it finds nothing. -/
def deleteLeaf (e : QueueEngine) (name : String) (persist : Bool) : QueueEngine :=
  match e.queues.get? name with
  | none => e
  | some queue => e.removeQueue name queue persist

def deleteQueue (e : QueueEngine) (name : String) (persist : Bool := true) : Bool × QueueEngine :=
  match e.queues.get? name with
  | none => (false, e)
  | some queue =>
    let e := e.removeQueue name queue persist
    (true, if queue.spec.deadLetter then e.deleteLeaf (dlqName name) persist else e)

/-! ## Publishing and delivery -/

/-- A delay that is already over is dropped from the message. -/
def dueMessage (message : Message) (now : ℚ) : Message :=
  match message.availableAt with
  | none => message
  | some due => if now < due then message else { message with availableAt := none }

/-- Put an accepted message in its queue, delayed or ready. -/
def accept (e : QueueEngine) (queue : DurableQueue) (message : Message) : QueueEngine :=
  let queue := queue.hold message
  let e := { e with byId := e.byId.set message.id message.queue }
  match message.availableAt with
  | some due =>
    (e.putQueue message.queue { queue with
      delayedIds := insert message.id queue.delayedIds }).pushDelayed message.queue message.id due
  | none => e.pushReady message.queue queue message

def enqueue (e : QueueEngine) (message : Message) (persist : Bool := true) :
    EnqueueResult × QueueEngine :=
  match e.queues.get? message.queue with
  | none => (.notFound, e)
  | some queue =>
    if queue.isFull then (.queueFull, e)
    else
      let (now, e) := e.now
      let message := dueMessage message now
      (.ok, (e.accept queue message).append persist (.messagePublish message))

/-- Pop ready entries until one names a message that is held and neither
inflight nor delayed; entries before it are stale. -/
def popDeliverable (queue : DurableQueue) :
    List ReadyEntry → Option (String × Message) × List ReadyEntry
  | [] => (none, [])
  | entry :: rest =>
    match queue.messages.get? entry.messageId with
    | none => popDeliverable queue rest
    | some message =>
      if entry.messageId ∈ queue.inflight ∨ entry.messageId ∈ queue.delayedIds then
        popDeliverable queue rest
      else (some (entry.messageId, message), rest)

def reserve (e : QueueEngine) (queueName consumerId : String) : Option Message × QueueEngine :=
  match e.queues.get? queueName with
  | none => (none, e)
  | some queue =>
    match popDeliverable queue queue.ready with
    | (none, rest) => (none, e.putQueue queueName { queue with ready := rest })
    | (some (messageId, message), rest) =>
      let (now, e) := e.now
      let deadline := now + queue.spec.visibilityTimeout
      let record : InflightRecord :=
        { messageId, queue := queueName, consumerId, deliveryTime := now
          visibilityDeadline := deadline }
      let e := { e with
        seq := e.seq + 1
        visibilityHeap :=
          heappush TimedEntry.le ⟨deadline, e.seq + 1, queueName, messageId⟩ e.visibilityHeap }
      (some message, e.putQueue queueName (queue.deliver rest record))

def inflightConsumer (e : QueueEngine) (messageId : String) : Option String := do
  let queueName ← e.byId.get? messageId
  let queue ← e.queues.get? queueName
  let record ← queue.inflight.get? messageId
  return record.consumerId

/-! ## Settling a delivery -/

def rememberAck (e : QueueEngine) (messageId : String) : QueueEngine :=
  let acks := if messageId ∈ e.recentAcks then e.recentAcks else e.recentAcks ++ [messageId]
  { e with recentAcks := acks.drop (acks.length - e.config.recentAckLimit) }

def ack (e : QueueEngine) (messageId : String) (persist : Bool := true) : AckResult × QueueEngine :=
  if messageId ∈ e.recentAcks then (.alreadyAcked, e)
  else
    match e.byId.get? messageId with
    | none => (.notFound, e)
    | some queueName =>
      match e.queues.get? queueName with
      | none => (.notFound, e)
      | some queue =>
        if messageId ∈ queue.inflight then
          let e := e.putQueue queueName (queue.settle messageId)
          let e := { e with byId := e.byId.erase messageId }
          (.ok, (e.rememberAck messageId).append persist (.messageAck messageId queueName))
        else (.notFound, e)

/-- Put a dead message in the queue it was dead-lettered to. -/
def bury (e : QueueEngine) (destName : String) (message : Message) : QueueEngine :=
  match e.queues.get? destName with
  | none => e
  | some dest =>
    pushReady { e with byId := e.byId.set message.id destName } destName
      { dest.hold message with dlqIds := dest.dlqIds ++ [message.id] } message

def moveToDlq (e : QueueEngine) (name : String) (queue : DurableQueue) (message : Message)
    (persist : Bool) : QueueEngine :=
  let e := e.putQueue name (queue.discard message.id)
  let e := { e with byId := e.byId.erase message.id }
  let e := e.append persist (.messageDead message.id name message.attempts message.payload)
  if queue.spec.deadLetter then
    let destName := dlqName name
    let e := e.declareLeaf destName {} false
    e.bury destName { message with queue := destName, availableAt := none }
  else e

/-- Put a failed message back on a delay. -/
def delayRetry (e : QueueEngine) (name : String) (queue : DurableQueue) (message : Message)
    (persist : Bool) : QueueEngine :=
  let delay := retryDelay message.attempts e.config.retryBackoff e.config.retryBaseDelay
  let (now, e) := e.now
  let due := now + delay
  let message := { message with availableAt := some due }
  ((e.putQueue name (queue.delay message)).pushDelayed name message.id due).append persist
    (.messageRetry message.id name due message.attempts)

def retryOrDead (e : QueueEngine) (name : String) (queue : DurableQueue) (message : Message)
    (persist : Bool) : QueueEngine :=
  let message := { message with attempts := message.attempts + 1 }
  if message.maxAttempts ≤ message.attempts then e.moveToDlq name queue message persist
  else e.delayRetry name queue message persist

def nack (e : QueueEngine) (messageId : String) (requeue : Bool := true) (persist : Bool := true) :
    NackResult × QueueEngine :=
  match e.byId.get? messageId with
  | none => (if messageId ∈ e.recentAcks then .notFound else .unknownDelivery, e)
  | some queueName =>
    match e.queues.get? queueName with
    | none => (.notFound, e)
    | some queue =>
      if messageId ∈ queue.inflight then
        let queue := queue.endDelivery messageId
        match queue.messages.get? messageId with
        | none => (.notFound, e.putQueue queueName queue)
        | some message =>
          let queue := queue.countNack
          let e := (e.putQueue queueName queue).append persist
            (.messageNack messageId queueName requeue)
          (.ok,
            if requeue then e.retryOrDead queueName queue message persist
            else e.moveToDlq queueName queue message persist)
      else (.unknownDelivery, e)

/-- End a delivery without an answer from the consumer: the body shared by
`recover_consumer` and `_timeout_inflight`. The flag says that a message was
retried or dead-lettered. -/
def failDelivery (e : QueueEngine) (name messageId : String) (persist : Bool) : Bool × QueueEngine :=
  match e.queues.get? name with
  | none => (false, e)
  | some queue =>
    let queue := queue.endDelivery messageId
    let e := e.putQueue name queue
    match queue.messages.get? messageId with
    | none => (false, e)
    | some message => (true, e.retryOrDead name queue message persist)

/-- The deliveries of one consumer, in the order of the inflight table. -/
def heldBy (queue : DurableQueue) (consumerId : String) : List String :=
  (queue.inflight.values.filter (·.consumerId = consumerId)).map (·.messageId)

def failAll (e : QueueEngine) (name : String) (persist : Bool) : List String → Nat × QueueEngine
  | [] => (0, e)
  | messageId :: rest =>
    let (failed, e) := e.failDelivery name messageId persist
    let (n, e) := e.failAll name persist rest
    (n + failed.toNat, e)

/-- The iteration over `self._queues.values()`. Every call of the iterator,
the one that ends the loop included, first compares the dictionary's size
with the size at the start; dead-lettering may have declared a queue. -/
def recoverQueues (size : Nat) (consumerId : String) (persist : Bool) :
    List String → QueueEngine → Except RuntimeError Nat × QueueEngine
  | [], e => (if e.queues.size = size then .ok 0 else .error .dictionaryChangedSize, e)
  | name :: rest, e =>
    if e.queues.size = size then
      match e.queues.get? name with
      | none => recoverQueues size consumerId persist rest e
      | some queue =>
        let (n, e) := e.failAll name persist (heldBy queue consumerId)
        let (result, e) := recoverQueues size consumerId persist rest e
        (result.map (· + n), e)
    else (.error .dictionaryChangedSize, e)

def recoverConsumer (e : QueueEngine) (consumerId : String) (persist : Bool := true) :
    Except RuntimeError Nat × QueueEngine :=
  recoverQueues e.queues.size consumerId persist e.queues.keys e

/-! ## Timers -/

def releaseOne (e : QueueEngine) (queueName messageId : String) : Nat × QueueEngine :=
  match e.queues.get? queueName with
  | none => (0, e)
  | some queue =>
    if messageId ∈ queue.delayedIds then
      let queue := { queue with delayedIds := queue.delayedIds.erase messageId }
      match queue.messages.get? messageId with
      | none => (0, e.putQueue queueName queue)
      | some message =>
        if messageId ∈ queue.inflight then (0, e.putQueue queueName queue)
        else
          let message := { message with availableAt := none }
          let queue := { queue with messages := queue.messages.set messageId message }
          (1, e.pushReady queueName queue message)
    else (0, e)

def releaseAll : List TimedEntry → QueueEngine → Nat × QueueEngine
  | [], e => (0, e)
  | entry :: rest, e =>
    let (released, e) := e.releaseOne entry.queue entry.messageId
    let (n, e) := releaseAll rest e
    (n + released, e)

/-- `pop_due` takes every due entry off the delayed heap before the first of
them is released. -/
def releaseDelayed (e : QueueEngine) (now : ℚ) : Nat × QueueEngine :=
  releaseAll (e.delayed.takeWhile (·.due ≤ now))
    { e with delayed := e.delayed.dropWhile (·.due ≤ now) }

/-- The loop of `_timeout_inflight` over the visibility heap, which nothing in
its body pushes to. An entry whose deadline is not the record's is stale. -/
def timeoutEntries (now : ℚ) : List TimedEntry → QueueEngine → Nat × QueueEngine
  | [], e => (0, { e with visibilityHeap := [] })
  | entry :: rest, e =>
    if entry.due ≤ now then
      match (e.queues.get? entry.queue).bind (·.inflight.get? entry.messageId) with
      | none => timeoutEntries now rest e
      | some record =>
        if record.visibilityDeadline = entry.due then
          let (failed, e) := e.failDelivery entry.queue entry.messageId true
          let (n, e) := timeoutEntries now rest e
          (n + failed.toNat, e)
        else timeoutEntries now rest e
    else (0, { e with visibilityHeap := entry :: rest })

def timeoutInflight (e : QueueEngine) (now : ℚ) : Nat × QueueEngine :=
  timeoutEntries now e.visibilityHeap e

def tick (e : QueueEngine) (now : Option ℚ := none) : Nat × QueueEngine :=
  let (ts, e) := match now with
    | none => e.now
    | some ts => (ts, e)
  let (released, e) := e.releaseDelayed ts
  let (expired, e) := e.timeoutInflight ts
  (released + expired, e)

/-! ## Dead letters -/

def dlqRequeue (e : QueueEngine) (queueName messageId : String) (persist : Bool := true) :
    Bool × QueueEngine :=
  let origin := originQueue queueName
  match e.queues.get? (dlqName origin), e.queues.get? origin with
  | some dlq, some _ =>
    match dlq.messages.get? messageId with
    | none => (false, e)
    | some message =>
      let dlq := dlq.withdraw messageId
      let e := e.putQueue (dlqName origin) dlq
      let e := { e with byId := e.byId.erase messageId }
      let message := { message with queue := origin, attempts := 0, availableAt := none }
      match e.enqueue message false with
      | (.ok, e) => (true, e.append persist (.messageRequeue messageId (dlqName origin) origin))
      | (_, e) =>
        let message := { message with queue := dlqName origin }
        let dlq := { dlq with messages := dlq.messages.set messageId message }
        let e := { e with byId := e.byId.set messageId (dlqName origin) }
        (false, e.pushReady (dlqName origin) dlq message)
  | _, _ => (false, e)

end QueueEngine
end OneOpenBroker.Core

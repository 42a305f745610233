import OneOpenBroker.Core.EngineRuns

/-! Connected consumers and fair delivery, `core/qos.py` and
`core/consumers.py`. The registry keeps the consumers and their prefetch
windows; which consumers take turns on a queue is kept with the queue, so
every function here works on the registry and the queue engine together. -/
namespace OneOpenBroker.Core
open Collections

/-! ## Prefetch windows -/

structure QoS where
  prefetchCount : Int := 1
  unackedCount : Nat := 0
  deriving DecidableEq

namespace QoS

def canDeliver (qos : QoS) : Bool :=
  decide (qos.prefetchCount ≤ 0 ∨ (qos.unackedCount : Int) < qos.prefetchCount)

def onDeliver (qos : QoS) : Bool × QoS :=
  if qos.canDeliver then (true, { qos with unackedCount := qos.unackedCount + 1 }) else (false, qos)

def onAck (qos : QoS) : QoS := { qos with unackedCount := qos.unackedCount - 1 }

def setPrefetch (qos : QoS) (count : Int) : QoS := { qos with prefetchCount := max 0 count }

end QoS

/-! ## The registry -/

structure Consumer where
  consumerId : String
  connectionId : String
  queues : List String
  qos : QoS := {}
  tag : String := ""
  cancelled : Bool := false
  deriving DecidableEq

def Consumer.unackedCount (consumer : Consumer) : Nat := consumer.qos.unackedCount

/-- The consumers by id, and the ids that each connection registered. -/
structure ConsumerManager where
  consumers : Dict String Consumer := ∅
  byConnection : Dict String (List String) := ∅

namespace ConsumerManager

/-- The consumer takes turns on a queue, which is declared if need be. -/
def join (consumerId : String) (e : QueueEngine) (name : String) : QueueEngine :=
  let e := e.declareQueue name {}
  match e.queues.get? name with
  | none => e
  | some queue =>
    if consumerId ∈ queue.consumerIds then e
    else e.putQueue name { queue with consumerIds := queue.consumerIds ++ [consumerId] }

def register (c : ConsumerManager) (e : QueueEngine) (consumerId connectionId : String)
    (queues : List String) (prefetchCount : Int := 1) (tag : String := "") :
    ConsumerManager × QueueEngine :=
  let consumer : Consumer :=
    { consumerId, connectionId, queues, qos := { prefetchCount }, tag }
  let known := (c.byConnection.get? connectionId).getD []
  ({ consumers := c.consumers.set consumerId consumer
     byConnection := c.byConnection.set connectionId (known.insert consumerId) },
    queues.foldl (join consumerId) e)

/-- Change the window of one consumer. -/
def updateQos (c : ConsumerManager) (consumerId : String) (change : QoS → QoS) : ConsumerManager :=
  match c.consumers.get? consumerId with
  | none => c
  | some consumer =>
    { c with consumers := c.consumers.set consumerId { consumer with qos := change consumer.qos } }

def qos (c : ConsumerManager) (consumerId : String) (prefetchCount : Int) : Bool × ConsumerManager :=
  (decide (consumerId ∈ c.consumers), c.updateQos consumerId (·.setPrefetch prefetchCount))

def onAck (c : ConsumerManager) (consumerId : String) : ConsumerManager :=
  c.updateQos consumerId QoS.onAck

/-- The consumer takes no more turns on a queue. -/
def leave (consumerId : String) (e : QueueEngine) (name : String) : QueueEngine :=
  match e.queues.get? name with
  | none => e
  | some queue => e.putQueue name { queue with consumerIds := queue.consumerIds.erase consumerId }

/-- Strike an id from the set of a connection; an empty set is dropped. -/
def strike (byConnection : Dict String (List String)) (connectionId consumerId : String) :
    Dict String (List String) :=
  match byConnection.get? connectionId with
  | none => byConnection
  | some ids =>
    if ids.erase consumerId = [] then byConnection.erase connectionId
    else byConnection.set connectionId (ids.erase consumerId)

/-- `cancel` with `recover` on, as every caller has it. -/
def cancel (c : ConsumerManager) (e : QueueEngine) (consumerId : String) :
    Except RuntimeError Bool × ConsumerManager × QueueEngine :=
  match c.consumers.get? consumerId with
  | none => (.ok false, c, e)
  | some consumer =>
    let c : ConsumerManager :=
      { consumers := c.consumers.erase consumerId
        byConnection := strike c.byConnection consumer.connectionId consumerId }
    let (result, e) := (consumer.queues.foldl (leave consumerId) e).recoverConsumer consumerId
    (result.map fun _ => true, c, e)

/-- The loop over the consumers of a connection. An error ends it. -/
def cancelAll : List String → ConsumerManager → QueueEngine →
    Except RuntimeError Nat × ConsumerManager × QueueEngine
  | [], c, e => (.ok 0, c, e)
  | consumerId :: rest, c, e =>
    match c.cancel e consumerId with
    | (.error raised, c, e) => (.error raised, c, e)
    | (.ok cancelled, c, e) =>
      let (result, c, e) := cancelAll rest c e
      (result.map (· + cancelled.toNat), c, e)

/-- What every cancellation keeps holds after the loop, wherever it ends. -/
theorem cancelAll_rule {I : ConsumerManager → QueueEngine → Prop}
    (cancels : ∀ c e consumerId, I c e → I (c.cancel e consumerId).2.1 (c.cancel e consumerId).2.2)
    (ids : List String) {c : ConsumerManager} {e : QueueEngine} (inv : I c e) :
    I (cancelAll ids c e).2.1 (cancelAll ids c e).2.2 := by
  induction ids generalizing c e with
  | nil => exact inv
  | cons consumerId rest ih =>
    have first := cancels c e consumerId inv
    unfold cancelAll
    rcases shape : c.cancel e consumerId with ⟨_ | cancelled, c', e'⟩
    · rw [shape] at first
      exact first
    · rw [shape] at first
      exact ih first

/-- The consumers of a connection are kept in a set, so they are cancelled in
an order that is not known: the given one, if it is an order of the set. -/
def disconnectConnection (c : ConsumerManager) (e : QueueEngine) (connectionId : String)
    (order : List String) : Except RuntimeError Nat × ConsumerManager × QueueEngine :=
  let ids := (c.byConnection.get? connectionId).getD []
  cancelAll (if order.Perm ids then order else ids) c e

/-- The turns from an index on, up to the first consumer that is registered
and has room in its window: the index after them, and that consumer. -/
def nextConsumer (c : ConsumerManager) (ids : List String) : Nat → Nat → Nat × Option (String × Consumer)
  | 0, index => (index, none)
  | turns + 1, index =>
    match ids[index % ids.length]? with
    | none => (index + 1, none)
    | some consumerId =>
      match c.consumers.get? consumerId with
      | none => c.nextConsumer ids turns (index + 1)
      | some consumer =>
        if !consumer.cancelled && consumer.qos.canDeliver then (index + 1, some (consumerId, consumer))
        else c.nextConsumer ids turns (index + 1)

/-- The consumer whose turn it is on a queue. -/
def nextOn (c : ConsumerManager) (queue : DurableQueue) : Nat × Option (String × Consumer) :=
  c.nextConsumer queue.consumerIds queue.consumerIds.length queue.rrIndex

def tryReserve (c : ConsumerManager) (e : QueueEngine) (queueName : String) :
    Option (Consumer × Message) × ConsumerManager × QueueEngine :=
  match e.queues.get? queueName with
  | none => (none, c, e)
  | some queue =>
    let (index, turn) := c.nextOn queue
    let e := e.putQueue queueName { queue with rrIndex := index }
    match turn with
    | none => (none, c, e)
    | some (consumerId, consumer) =>
      match e.reserve queueName consumerId with
      | (none, e) => (none, c, e)
      | (some message, e) =>
        (some ({ consumer with qos := consumer.qos.onDeliver.2 }, message),
          c.updateQos consumerId fun qos => qos.onDeliver.2, e)

/-- `drain_queue`, as far as it gets in a number of rounds of its loop. -/
def drainQueue : Nat → ConsumerManager → QueueEngine → String →
    Option (List (Consumer × Message) × ConsumerManager × QueueEngine)
  | 0, _, _, _ => none
  | rounds + 1, c, e, queueName =>
    match c.tryReserve e queueName with
    | (none, c, e) => some ([], c, e)
    | (some item, c, e) =>
      (drainQueue rounds c e queueName).map fun (delivered, after) => (item :: delivered, after)

end ConsumerManager
end OneOpenBroker.Core

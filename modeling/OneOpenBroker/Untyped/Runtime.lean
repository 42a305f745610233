import OneOpenBroker.Core.Consumers
import OneOpenBroker.Untyped.QueueEngine

/-! The routing tables, `core/routing.py`, and the consumer registry,
`core/consumers.py`, on untyped metadata, with the part of the server's state
that the handler reads. Exchanges, consumers and connections are kept under
their keys; a binding's queue is a text, since only the name of an existing
queue is bound. -/
namespace OneOpenBroker.Untyped
open Collections Programs
open OneOpenBroker.Core (EngineConfig EnqueueResult ExchangeType QoS)

structure Binding where
  exchange : Key
  queue : Text
  routingKey : Key
  deriving DecidableEq

structure Consumer where
  consumerId : Value
  connectionId : String
  queues : List Value
  qos : QoS := {}
  cancelled : Bool := false

/-- The state that the commands work on: `broker/runtime.py`. -/
structure Runtime where
  queues : QueueEngine
  exchanges : Dict Key ExchangeType := ∅
  bindings : List Binding := []
  consumers : Dict Key Consumer := ∅
  byConnection : Dict String (List Key) := ∅

/-- The runtime with the windows of the connections' contexts and their
senders, whose answers are a sequence of which nothing is assumed. -/
structure Broker extends Runtime where
  prefetch : Dict String ℤ := ∅
  senders : List String := []
  takes : Nat → Bool
  sent : Nat := 0

abbrev Task := Program Broker Raised

/-- A hashed key, or `TypeError`. -/
def hashed (value : Value) : Task Key := MonadExcept.ofExcept value.hash

def onQueues {α : Type} (program : Program QueueEngine Raised α) : Task α :=
  Program.zoom (fun b => b.queues) (fun b e => { b with queues := e }) program

/-! ## Routing -/

def defaultExchange : Value := .text (text "")

/-- `Exchange.__post_init__` looks the type up in a set of two texts. -/
def exchangeType (type : Value) : Except Raised ExchangeType := do
  let key ← type.hash
  if key = .text (text "direct") then return .direct
  else if key = .text (text "fanout") then return .fanout
  else throw .valueError

def declareExchange (name type : Value) : Task Unit := do
  let key ← hashed name
  if key ∈ (← get).exchanges then return
  else
    let type ← MonadExcept.ofExcept (exchangeType type)
    modify fun b => { b with exchanges := b.exchanges.set key type }

def deleteExchange (name : Value) : Task Bool := do
  let key ← hashed name
  if key = .text (text "") then return false
  else if key ∈ (← get).exchanges then
    modify fun b => { b with
      exchanges := b.exchanges.erase key
      bindings := b.bindings.filter (·.exchange ≠ key) }
    return true
  else return false

def bind (exchange queue routingKey : Value) : Task Bool := do
  let exchange ← hashed exchange
  if exchange ∈ (← get).exchanges then
    match ← onQueues (QueueEngine.getQueue queue) with
    | none => return false
    | some (name, _) =>
      let routingKey ← hashed routingKey
      modify fun b => { b with bindings := b.bindings.insert ⟨exchange, name, routingKey⟩ }
      return true
  else return false

/-- The binding is hashed before the set is searched; one whose queue is not a
text is not in it. -/
def unbind (exchange queue routingKey : Value) : Task Bool := do
  let exchange ← hashed exchange
  let queue ← hashed queue
  let routingKey ← hashed routingKey
  match queue with
  | .text name =>
    if (⟨exchange, name, routingKey⟩ : Binding) ∈ (← get).bindings then
      modify fun b => { b with bindings := b.bindings.erase ⟨exchange, name, routingKey⟩ }
      return true
    else return false
  | _ => return false

def onQueueDeclared (queue : Text) : Task Unit := do
  let _ ← bind defaultExchange (.text queue) (.text queue)

def sortedNames (names : List Text) : List Text := names.dedup.insertionSort (Text.le · ·)

/-- `==` with a routing key that cannot be hashed holds of no bound key. -/
def routeTargets (b : Broker) (exchange : Key) (routingKey : Value) : List Text :=
  match b.exchanges.get? exchange with
  | none => []
  | some .fanout => sortedNames ((b.bindings.filter (·.exchange = exchange)).map (·.queue))
  | some .direct => sortedNames ((b.bindings.filter fun binding =>
      binding.exchange = exchange ∧ routingKey.hash.toOption = some binding.routingKey).map (·.queue))

/-- The arguments of `publish`. -/
structure PublishArgs where
  payload : List UInt8
  exchange : Value
  routingKey : Value
  queue : Value
  maxAttempts : Value
  priority : ℤ
  headers : Value
  messageId : Value

/-- The message that is created for one target. -/
def messageFor (config : EngineConfig) (args : PublishArgs) (alone : Bool) (uuid : Text → String)
    (target : Text) : Message where
  id := (if alone then args.messageId else .null).or (.text (text (uuid target)))
  queue := target
  payload := args.payload
  maxAttempts := args.maxAttempts.or (.number (.int config.maxAttempts))
  priority := args.priority
  headers := args.headers

/-- The loop over the targets: the last id, the queues reached, and a result. -/
def fanOut (message : Text → Message) :
    List Text → List Text → Value → Task (Value × List Text × EnqueueResult)
  | [], routed, lastId => return (lastId, routed, if routed = [] then .notFound else .ok)
  | target :: rest, routed, lastId => do
    match ← onQueues (QueueEngine.enqueue (message target)) with
    | .queueFull => return ((message target).id, routed, .queueFull)
    | .ok => fanOut message rest (routed ++ [target]) (message target).id
    | .notFound => fanOut message rest routed lastId

/-- A queue that does not exist is declared and bound on the default exchange. -/
def ensureQueue (queue : Value) : Task Unit := do
  match ← onQueues (QueueEngine.getQueue queue) with
  | some _ => return
  | none =>
    let name ← onQueues (QueueEngine.declareQueue queue {})
    onQueueDeclared name

/-- The part of `publish` once the exchange and the routing key are known. -/
def route (args : PublishArgs) (exchange routingKey : Value) (uuid : Text → String) :
    Task (Value × List Text × EnqueueResult) := do
  let exchange ← hashed exchange
  let b ← get
  if exchange ∈ b.exchanges then
    let targets := routeTargets b exchange routingKey
    let message := messageFor b.queues.config args (targets.length = 1) uuid
    if targets = [] then return (.text (text ""), [], .notFound)
    else fanOut message targets [] (.text (text ""))
  else return (.text (text ""), [], .notFound)

def publish (args : PublishArgs) (uuid : Text → String) : Task (Value × List Text × EnqueueResult) := do
  if args.queue.truthy && !args.exchange.truthy then
    ensureQueue args.queue
    route args defaultExchange (args.routingKey.or args.queue) uuid
  else route args (args.exchange.default defaultExchange) args.routingKey uuid

/-! ## Consumers -/

/-- The consumer takes turns on a queue, which is declared if need be. -/
def join (consumerId : Key) (name : Value) : Task Unit := do
  let name ← onQueues (QueueEngine.declareQueue name {})
  onQueues <| modify (·.alter name fun queue =>
    if consumerId ∈ queue.consumerIds then queue
    else { queue with consumerIds := queue.consumerIds ++ [consumerId] })

def register (consumerId : Value) (connectionId : String) (queues : List Value) (prefetchCount : ℤ) :
    Task Unit := do
  let key ← hashed consumerId
  modify fun b => { b with
    consumers := b.consumers.set key { consumerId, connectionId, queues, qos := { prefetchCount } }
    byConnection := b.byConnection.set connectionId
      (((b.byConnection.get? connectionId).getD []).insert key) }
  forM queues (join key)

/-- Change the window of one consumer. -/
def updateQos (b : Broker) (consumerId : Key) (change : QoS → QoS) : Broker :=
  match b.consumers.get? consumerId with
  | none => b
  | some consumer =>
    { b with consumers := b.consumers.set consumerId { consumer with qos := change consumer.qos } }

/-- `ConsumerManager.qos`. -/
def setPrefetch (consumerId : Value) (count : ℤ) : Task Bool := do
  let key ← hashed consumerId
  let b ← get
  set (updateQos b key (·.setPrefetch count))
  return decide (key ∈ b.consumers)

def onAck (b : Broker) (consumerId : Key) : Broker := updateQos b consumerId QoS.onAck

/-- Strike an id from the set of a connection; an empty set is dropped. -/
def strike (byConnection : Dict String (List Key)) (connectionId : String) (consumerId : Key) :
    Dict String (List Key) :=
  match byConnection.get? connectionId with
  | none => byConnection
  | some ids =>
    if ids.erase consumerId = [] then byConnection.erase connectionId
    else byConnection.set connectionId (ids.erase consumerId)

/-- The consumer takes no more turns on a queue. -/
def leave (consumerId : Key) (name : Value) : Program QueueEngine Raised Unit := do
  match ← QueueEngine.getQueue name with
  | none => return
  | some (name, _) =>
    modify (·.alter name fun queue =>
      { queue with consumerIds := queue.consumerIds.erase consumerId })

/-- `cancel` of a consumer that is registered. -/
def withdraw (key : Key) (consumer : Consumer) : Task Unit := do
  modify fun b => { b with
    consumers := b.consumers.erase key
    byConnection := strike b.byConnection consumer.connectionId key }
  onQueues do
    forM consumer.queues (leave key)
    let _ ← QueueEngine.recoverConsumer key

def cancel (consumerId : Value) : Task Bool := do
  let key ← hashed consumerId
  match (← get).consumers.get? key with
  | none => return false
  | some consumer =>
    withdraw key consumer
    return true

/-- The consumers of a connection, cancelled in the order of the set, which is
not known: the given one, if it is an order of the set. -/
def disconnect (connectionId : String) (order : List Key) : Task Unit := do
  let ids := ((← get).byConnection.get? connectionId).getD []
  forM (if order.Perm ids then order else ids) fun key => do
    match (← get).consumers.get? key with
    | none => return
    | some consumer => withdraw key consumer

/-- The turns from an index on, up to the first consumer that is registered
and has room in its window: the index after them, and that consumer. -/
def nextConsumer (consumers : Dict Key Consumer) (ids : List Key) :
    Nat → Nat → Nat × Option (Key × Consumer)
  | 0, index => (index, none)
  | turns + 1, index =>
    match ids[index % ids.length]? with
    | none => (index + 1, none)
    | some consumerId =>
      match consumers.get? consumerId with
      | none => nextConsumer consumers ids turns (index + 1)
      | some consumer =>
        if !consumer.cancelled && consumer.qos.canDeliver then (index + 1, some (consumerId, consumer))
        else nextConsumer consumers ids turns (index + 1)

def tryReserve (queueName : Value) : Task (Option (Key × Consumer × Message)) := do
  match ← onQueues (QueueEngine.getQueue queueName) with
  | none => return none
  | some (name, queue) =>
    let (index, turn) :=
      nextConsumer (← get).consumers queue.consumerIds queue.consumerIds.length queue.rrIndex
    onQueues <| modify (·.alter name fun queue => { queue with rrIndex := index })
    match turn with
    | none => return none
    | some (consumerId, consumer) =>
      match ← onQueues (QueueEngine.reserve name consumerId) with
      | none => return none
      | some message =>
        modify (updateQos · consumerId fun qos => qos.onDeliver.2)
        return some (consumerId, consumer, message)

end OneOpenBroker.Untyped

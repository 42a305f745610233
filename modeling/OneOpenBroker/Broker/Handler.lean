import OneOpenBroker.Core.Consumers
import OneOpenBroker.Core.FanOut
import OneOpenBroker.Pubsub.Channels

/-! Command dispatch, `broker/handler.py`, with the ticker and the cleanup of
`broker/server.py`. A request is its metadata after the keys were looked up;
an empty string stands for a key that is missing, as the code treats both
alike. Whether a sender takes a frame is not known, so the outcomes of the
sends are a sequence of which nothing is assumed. -/
namespace OneOpenBroker.Broker
open Collections OneOpenBroker.Core Pubsub

inductive ErrorCode where
  | invalidCommand | notFound | queueFull | notConsumer | unknownDelivery | alreadyAcked
  | internalError
  deriving DecidableEq

/-- The fields of a successful response. -/
inductive Body where
  | none
  | exchange (name type : String)
  | queue (name : String)
  | published (id : String) (routed : List String)
  | empty
  | message (message : Message) (consumerId : String)
  | consumer (consumerId : String) (prefetch : Int)
  | prefetch (prefetch : Int)
  | channel (channel : String)
  | delivered (delivered : Nat) (slow : List String)

inductive Reply where
  | ok (body : Body)
  | err (code : ErrorCode) (message : String)

/-- The text of `uuid.uuid4()`. -/
structure Uuid where
  text : String
  nonempty : text ≠ ""

/-- An id as good as any other. -/
def Uuid.u1 : Uuid := ⟨"u1", by decide⟩

/-- The commands that change something, with the metadata they read. -/
inductive Command where
  | declareExchange (name type : String)
  | deleteExchange (name : String)
  | declareQueue (name : String) (maxLength : Option Int) (visibilityTimeout : Option ℚ)
      (maxAttempts : Option Int)
  | deleteQueue (name : String)
  | bind (exchange queue routingKey : String)
  | unbind (exchange queue routingKey : String)
  | publish (args : PublishArgs) (stamp : String → Stamp)
  | get (queue consumerId : String) (prefetch : Option Int)
  | consume (queues : List String) (queue consumerId : String) (prefetch : Option Int)
      (tag : String) (uuid : Uuid)
  | cancel (consumerId : String)
  | ack (messageId : String)
  | nack (messageId : String) (requeue : Bool)
  | qos (prefetch : Int) (consumerId : String)
  | subscribe (channel : String)
  | unsubscribe (channel : String)
  | publishChannel (channel : String)
  | dlqRequeue (queue messageId : String)

/-- What became of a message that was reserved: the body of a GET response, a
frame that the sender took, or a frame that it did not take. -/
inductive Outcome where
  | pulled | pushed | refused
  deriving DecidableEq

/-- A reserved message on its way to a client, with the number of records in the
journal at that time. -/
structure Handover where
  queue : String
  messageId : String
  consumerId : String
  connectionId : String
  outcome : Outcome
  journaled : Nat
  deriving DecidableEq

/-- The handler with its runtime, the senders of the server and the prefetch
default of every connection. The last two fields only record what happened:
the hand-overs, newest first, and which connection issued CONSUME on which
queue. -/
structure Handler where
  routing : RoutingEngine
  consumers : ConsumerManager := {}
  pubsub : PubSubEngine := {}
  senders : List String := []
  prefetch : Dict String Int := ∅
  lastSlow : List String := []
  sends : Nat → Bool
  sent : Nat := 0
  handovers : List Handover := []
  consumed : List (String × String) := []

namespace Handler

def queues (h : Handler) : QueueEngine := h.routing.queues

def withQueues (h : Handler) (e : QueueEngine) : Handler :=
  { h with routing := { h.routing with queues := e } }

/-- `ctx.prefetch`. -/
def prefetchOf (h : Handler) (connectionId : String) : Int := (h.prefetch.get? connectionId).getD 0

/-! ## Delivery -/

/-- Send a frame to a connection, if it has a sender. -/
def send (h : Handler) (connectionId : String) : Bool × Handler :=
  if connectionId ∈ h.senders then (h.sends h.sent, { h with sent := h.sent + 1 }) else (false, h)

def hand (h : Handler) (queue : String) (consumer : Consumer) (message : Message)
    (outcome : Outcome) : Handler :=
  let handover : Handover :=
    { queue, messageId := message.id, consumerId := consumer.consumerId
      connectionId := consumer.connectionId, outcome, journaled := h.queues.journal.records.length }
  { h with handovers := handover :: h.handovers }

def tryReserve (h : Handler) (queue : String) : Option (Consumer × Message) × Handler :=
  let (item, c, e) := h.consumers.tryReserve h.queues queue
  (item, withQueues { h with consumers := c } e)

def onAck (h : Handler) (consumerId : String) : Handler :=
  { h with consumers := h.consumers.onAck consumerId }

/-- A frame that was not taken: the broker itself rejects the delivery. -/
def refuse (h : Handler) (queue : String) (consumer : Consumer) (message : Message) : Handler :=
  let h := h.hand queue consumer message .refused
  (h.withQueues (h.queues.nack message.id true).2).onAck consumer.consumerId

/-- Rounds of the loop of `pump_queue`. -/
def pumpRounds : Nat → Handler → String → Handler
  | 0, h, _ => h
  | rounds + 1, h, queue =>
    match h.tryReserve queue with
    | (none, h) => h
    | (some (consumer, message), h) =>
      match h.send consumer.connectionId with
      | (true, h) => pumpRounds rounds (h.hand queue consumer message .pushed) queue
      | (false, h) => h.refuse queue consumer message

/-- The loop itself: it has no result as long as the rounds do not end it. -/
def pumpLoop : Nat → Handler → String → Option Handler
  | 0, _, _ => none
  | rounds + 1, h, queue =>
    match h.tryReserve queue with
    | (none, h) => some h
    | (some (consumer, message), h) =>
      match h.send consumer.connectionId with
      | (true, h) => pumpLoop rounds (h.hand queue consumer message .pushed) queue
      | (false, h) => some (h.refuse queue consumer message)

def readyCount (h : Handler) (queue : String) : Nat :=
  ((h.queues.queues.get? queue).map (·.readyCount)).getD 0

/-- Every round but the last takes an entry off the ready heap, so the loop
ends within one round more than there are entries. -/
def pumpQueue (h : Handler) (queue : String) : Handler := pumpRounds (h.readyCount queue + 1) h queue

def pumpAll (h : Handler) (queues : List String) : Handler := queues.foldl pumpQueue h

/-! ## Commands -/

/-- The exchange types by name. -/
def exchangeType (type : String) : Option ExchangeType :=
  if type = "direct" then some .direct else if type = "fanout" then some .fanout else none

/-- A type that is not supported is an error only for a name that is new. -/
def cmdDeclareExchange (h : Handler) (name type : String) : Reply × Handler :=
  let type := if type = "" then "direct" else type
  match exchangeType type with
  | some kind => (.ok (.exchange name type), { h with routing := h.routing.declareExchange name kind })
  | none =>
    if name ∈ h.routing.exchanges then (.ok (.exchange name type), h)
    else (.err .invalidCommand "V1 supports only direct and fanout exchanges", h)

def cmdDeleteExchange (h : Handler) (name : String) : Reply × Handler :=
  match h.routing.deleteExchange name with
  | (true, routing) => (.ok .none, { h with routing })
  | (false, routing) => (.err .notFound "exchange not found", { h with routing })

def cmdDeclareQueue (h : Handler) (name : String) (maxLength : Option Int)
    (visibilityTimeout : Option ℚ) (maxAttempts : Option Int) : Reply × Handler :=
  if name = "" then (.err .invalidCommand "name required", h)
  else
    let h := h.withQueues
      (h.queues.declareQueue name { maxLength, visibilityTimeout, maxAttempts })
    (.ok (.queue name), { h with routing := h.routing.onQueueDeclared name })

def cmdDeleteQueue (h : Handler) (name : String) : Reply × Handler :=
  match h.queues.deleteQueue name with
  | (true, e) => (.ok .none, h.withQueues e)
  | (false, e) => (.err .notFound "queue not found", h.withQueues e)

def cmdBind (h : Handler) (exchange queue routingKey : String) : Reply × Handler :=
  match h.routing.bind exchange queue routingKey with
  | (true, routing) => (.ok .none, { h with routing })
  | (false, routing) => (.err .notFound "exchange or queue not found", { h with routing })

def cmdUnbind (h : Handler) (exchange queue routingKey : String) : Reply × Handler :=
  match h.routing.unbind exchange queue routingKey with
  | (true, routing) => (.ok .none, { h with routing })
  | (false, routing) => (.err .notFound "binding not found", { h with routing })

def cmdPublish (h : Handler) (args : PublishArgs) (stamp : String → Stamp) : Reply × Handler :=
  match h.routing.publish args stamp with
  | ((id, routed, result), routing) =>
    let h := { h with routing }
    if result = .queueFull then (.err .queueFull "queue is full", h)
    else if result = .notFound ∨ routed = [] then (.err .notFound "not bound", h)
    else (.ok (.published id routed), h.pumpAll routed)

def register (h : Handler) (consumerId connectionId : String) (queues : List String)
    (prefetch : Int) (tag : String := "") : Handler :=
  let (c, e) := h.consumers.register h.queues consumerId connectionId queues prefetch tag
  withQueues { h with consumers := c } e

/-- The consumer that a GET without a consumer id reads with. -/
def getConsumerId (connectionId queue : String) : String := "get-" ++ connectionId ++ "-" ++ queue

/-- The consumer of a GET is registered, or its window is set. -/
def getConsumer (h : Handler) (connectionId queue consumerId : String) (prefetch : Int) : Handler :=
  if consumerId ∈ h.consumers.consumers then
    if prefetch = 0 then h
    else { h with consumers := h.consumers.updateQos consumerId (·.setPrefetch prefetch) }
  else h.register consumerId connectionId [queue] prefetch

def cmdGet (h : Handler) (connectionId queue consumerId : String) (prefetch : Option Int) :
    Reply × Handler :=
  if queue = "" then (.err .invalidCommand "queue required", h)
  else
    let consumerId := if consumerId = "" then getConsumerId connectionId queue else consumerId
    let prefetch := prefetch.getD (h.prefetchOf connectionId)
    match (h.getConsumer connectionId queue consumerId prefetch).tryReserve queue with
    | (none, h) => (.ok .empty, h)
    | (some (consumer, message), h) =>
      (.ok (.message message consumer.consumerId), h.hand queue consumer message .pulled)

/-- Declare a queue that CONSUME names and that does not exist. -/
def ensureQueue (h : Handler) (name : String) : Handler :=
  if name ∈ h.queues.queues then h
  else
    let h := h.withQueues (h.queues.declareQueue name {})
    { h with routing := h.routing.onQueueDeclared name }

/-- The queues of a CONSUME: a list of names, or one name. -/
def consumeQueues (queues : List String) (queue : String) : List String :=
  if queues ≠ [] then queues else if queue ≠ "" then [queue] else []

def cmdConsume (h : Handler) (connectionId : String) (queues : List String)
    (queue consumerId : String) (prefetch : Option Int) (tag : String) (uuid : Uuid) :
    Reply × Handler :=
  let queues := consumeQueues queues queue
  if queues = [] then (.err .invalidCommand "queue required", h)
  else
    let h := { h with consumed := queues.map (connectionId, ·) ++ h.consumed }
    let h := queues.foldl ensureQueue h
    let consumerId := if consumerId = "" then uuid.text else consumerId
    let prefetch := prefetch.getD (orNumber (h.prefetchOf connectionId) 1)
    let h := h.register consumerId connectionId queues prefetch tag
    (.ok (.consumer consumerId prefetch), h.pumpAll queues)

def cmdCancel (h : Handler) (consumerId : String) : Reply × Handler :=
  if consumerId = "" then (.err .invalidCommand "consumer_id required", h)
  else
    let (result, c, e) := h.consumers.cancel h.queues consumerId
    let h := withQueues { h with consumers := c } e
    match result with
    | .error _ => (.err .internalError "internal error", h)
    | .ok false => (.err .notConsumer "unknown consumer", h)
    | .ok true => (.ok .none, h)

/-- After a settled delivery the consumer's queues are pumped. -/
def settled (h : Handler) (consumerId : String) : Handler :=
  if consumerId = "" then h
  else
    let h := h.onAck consumerId
    match h.consumers.consumers.get? consumerId with
    | none => h
    | some consumer => h.pumpAll consumer.queues

def cmdAck (h : Handler) (messageId : String) : Reply × Handler :=
  if messageId = "" then (.err .invalidCommand "message_id required", h)
  else
    let consumerId := (h.queues.inflightConsumer messageId).getD ""
    let (result, e) := h.queues.ack messageId
    let h := h.withQueues e
    match result with
    | .alreadyAcked => (.err .alreadyAcked "already acked", h)
    | .notFound => (.err .notFound "unknown delivery", h)
    | .ok => (.ok .none, h.settled consumerId)

def cmdNack (h : Handler) (messageId : String) (requeue : Bool) : Reply × Handler :=
  if messageId = "" then (.err .invalidCommand "message_id required", h)
  else
    let consumerId := (h.queues.inflightConsumer messageId).getD ""
    let (result, e) := h.queues.nack messageId requeue
    let h := h.withQueues e
    if result = .ok then (.ok .none, h.settled consumerId)
    else (.err .unknownDelivery "unknown delivery", h)

def cmdQos (h : Handler) (connectionId : String) (prefetch : Int) (consumerId : String) :
    Reply × Handler :=
  let h := { h with prefetch := h.prefetch.set connectionId prefetch }
  if consumerId ≠ "" then
    let (known, c) := h.consumers.qos consumerId prefetch
    if known then (.ok (.prefetch prefetch), { h with consumers := c })
    else (.err .notConsumer "unknown consumer", { h with consumers := c })
  else
    let own := h.consumers.consumers.keys.filter fun id =>
      (h.consumers.consumers.get? id).any (·.connectionId = connectionId)
    let c := own.foldl (fun c id => c.updateQos id (·.setPrefetch prefetch)) h.consumers
    (.ok (.prefetch prefetch), { h with consumers := c })

def cmdSubscribe (h : Handler) (connectionId channel : String) : Reply × Handler :=
  if channel = "" then (.err .invalidCommand "channel required", h)
  else (.ok (.channel channel), { h with pubsub := h.pubsub.subscribe connectionId channel })

def cmdUnsubscribe (h : Handler) (connectionId channel : String) : Reply × Handler :=
  (.ok .none, { h with pubsub := (h.pubsub.unsubscribe connectionId channel).2 })

/-- Send a frame to each of several connections in turn. -/
def sendAll : List String → Handler → List Bool × Handler
  | [], h => ([], h)
  | connectionId :: rest, h =>
    let (sent, h) := h.send connectionId
    let (outcomes, h) := sendAll rest h
    (sent :: outcomes, h)

def cmdPublishChannel (h : Handler) (channel : String) : Reply × Handler :=
  if channel = "" then (.err .invalidCommand "channel required", h)
  else
    let (outcomes, h) := sendAll (h.pubsub.subscribers channel) h
    let (delivered, slow) := h.pubsub.publish channel outcomes
    (.ok (.delivered delivered slow), { h with lastSlow := slow })

def cmdDlqRequeue (h : Handler) (queue messageId : String) : Reply × Handler :=
  if messageId = "" then (.err .invalidCommand "message_id required", h)
  else
    match h.queues.dlqRequeue queue messageId with
    | (false, e) => (.err .notFound "message not in dlq", h.withQueues e)
    | (true, e) => (.ok .none, (h.withQueues e).pumpQueue queue)

def handle (h : Handler) (connectionId : String) : Command → Reply × Handler
  | .declareExchange name type => h.cmdDeclareExchange name type
  | .deleteExchange name => h.cmdDeleteExchange name
  | .declareQueue name maxLength visibilityTimeout maxAttempts =>
    h.cmdDeclareQueue name maxLength visibilityTimeout maxAttempts
  | .deleteQueue name => h.cmdDeleteQueue name
  | .bind exchange queue routingKey => h.cmdBind exchange queue routingKey
  | .unbind exchange queue routingKey => h.cmdUnbind exchange queue routingKey
  | .publish args stamp => h.cmdPublish args stamp
  | .get queue consumerId prefetch => h.cmdGet connectionId queue consumerId prefetch
  | .consume queues queue consumerId prefetch tag uuid =>
    h.cmdConsume connectionId queues queue consumerId prefetch tag uuid
  | .cancel consumerId => h.cmdCancel consumerId
  | .ack messageId => h.cmdAck messageId
  | .nack messageId requeue => h.cmdNack messageId requeue
  | .qos prefetch consumerId => h.cmdQos connectionId prefetch consumerId
  | .subscribe channel => h.cmdSubscribe connectionId channel
  | .unsubscribe channel => h.cmdUnsubscribe connectionId channel
  | .publishChannel channel => h.cmdPublishChannel channel
  | .dlqRequeue queue messageId => h.cmdDlqRequeue queue messageId

/-! ## The server's side -/

/-- `sorted` of the queue names. -/
def listQueues (e : QueueEngine) : List String := RoutingEngine.sortedNames e.queues.keys

/-- One round of `_ticker`. -/
def ticker (h : Handler) : Handler :=
  let h := h.withQueues h.queues.tick.2
  h.pumpAll (listQueues h.queues)

/-- A new connection gets a sender and a context of its own. -/
def connect (h : Handler) (connectionId : String) : Handler :=
  { h with senders := h.senders.insert connectionId, prefetch := h.prefetch.erase connectionId }

/-- The cleanup of `_drop`. The flag says that it ran to its end. -/
def drop (h : Handler) (connectionId : String) (order : List String) : Bool × Handler :=
  let h := { h with
    senders := h.senders.erase connectionId
    pubsub := h.pubsub.disconnect connectionId }
  let (result, c, e) := h.consumers.disconnectConnection h.queues connectionId order
  (result.isOk, withQueues { h with consumers := c } e)

end Handler
end OneOpenBroker.Broker

import OneOpenBroker.Untyped.Runtime

/-! Command dispatch, `broker/handler.py`, on a request's metadata as it came,
and the ticker and the cleanup of `broker/server.py`. A response is written
as UTF-8, so building one raises on a lone surrogate; `handle` turns whatever
a command raises into `INTERNAL_ERROR`. The commands that only read, and those
on the connection or the channels alone, are one parameter: they leave the
runtime as it is, whatever they answer. -/
namespace OneOpenBroker.Untyped
open Collections Programs

inductive ErrorCode where
  | invalidCommand | notFound | queueFull | notConsumer | unknownDelivery | alreadyAcked
  | unauthorized | forbidden | internalError
  deriving DecidableEq

inductive Reply where
  | ok (extra : List (String × Value))
  | err (code : ErrorCode) (message : Text)

abbrev Metadata := Dict Text Value

/-- `meta.get(key)`. -/
def field (request : Metadata) (key : String) : Value := (request.get? (text key)).getD .null

/-- What the broker takes from Python and its other modules: `str.lower`, `int`
of a text, `str` of a value, which spells out a surrogate inside a list, and
the answers of the commands that leave the runtime as it is. -/
structure Host where
  lower : Text → Text
  int : Text → Option ℤ
  str : Value → Text
  str_encodable : ∀ value, (∀ t, value ≠ .text t) → Text.encodable (str value) = true
  reads : Text → Metadata → Broker → Except Raised Reply

/-- `int(value)`. -/
def Host.toInt (host : Host) : Value → Except Raised ℤ
  | .bool b => .ok b.toNat
  | .number (.int n) => .ok n
  | .number (.float q) => .ok (if 0 ≤ q then ⌊q⌋ else ⌈q⌉)
  | .number (.inf _) => .error .overflowError
  | .text t =>
    match host.int t with
    | none => .error .valueError
    | some n => .ok n
  | _ => .error .typeError

/-! ## Frames -/

/-- A frame with this metadata is built, if it can be encoded. -/
def encode (extra : List (String × Value)) : Task Unit :=
  if extra.all (·.2.encodable) then pure () else throw .unicodeEncodeError

/-- `_ok`. -/
def respond (extra : List (String × Value)) : Task Reply := do
  encode extra
  return .ok extra

/-- `_err`. -/
def fail (code : ErrorCode) (message : Text) : Task Reply := do
  encode [("message", .text message)]
  return .err code message

/-- Send a frame to a connection, if it has a sender. -/
def send (connectionId : String) : Task Bool :=
  modifyGet fun b =>
    if connectionId ∈ b.senders then (b.takes b.sent, { b with sent := b.sent + 1 }) else (false, b)

/-! ## Delivery -/

/-- A message as the DELIVER frame and the response of GET carry it. -/
def delivery (consumer : Consumer) (message : Message) : List (String × Value) := [
  ("message_id", message.id), ("queue", .text message.queue),
  ("attempts", .number (.int message.attempts)), ("headers", message.headers),
  ("consumer_id", consumer.consumerId)]

/-- Rounds of the loop of `pump_queue`. -/
def pumpRounds : Nat → Value → Task Unit
  | 0, _ => throw .unfinished
  | rounds + 1, queueName => do
    match ← tryReserve queueName with
    | none => return
    | some (key, consumer, message) =>
      encode (("priority", .number (.int message.priority)) :: delivery consumer message)
      if ← send consumer.connectionId then pumpRounds rounds queueName
      else
        let _ ← onQueues (QueueEngine.nack message.id true)
        modify (onAck · key)

/-- The length of a queue's ready heap. -/
def readyCount (b : Broker) : Value → Nat
  | .text t => (b.queues.queues.get? t).elim 0 (·.ready.length)
  | _ => 0

/-- Every round but the last takes an entry off the ready heap. -/
def pumpQueue (queueName : Value) : Task Unit := do
  pumpRounds (readyCount (← get) queueName + 1) queueName

/-! ## Commands -/

def cmdDeclareExchange (request : Metadata) : Task Reply := do
  let name := (field request "name").or (.text (text ""))
  let type := (field request "type").or (.text (text "direct"))
  match ← Program.attempt (declareExchange name type) with
  | .ok _ => respond [("name", name), ("type", type)]
  | .error .valueError =>
    fail .invalidCommand (text "V1 supports only direct and fanout exchanges")
  | .error raised => throw raised

def cmdDeleteExchange (request : Metadata) : Task Reply := do
  if ← deleteExchange ((field request "name").or (.text (text ""))) then respond []
  else fail .notFound (text "exchange not found")

def cmdDeclareQueue (request : Metadata) : Task Reply := do
  let name := field request "name"
  if name.truthy then
    let queue ← onQueues (QueueEngine.declareQueue name
      { maxLength := field request "max_length"
        visibilityTimeout := field request "visibility_timeout"
        maxAttempts := field request "max_attempts" })
    onQueueDeclared queue
    respond [("name", name)]
  else fail .invalidCommand (text "name required")

def cmdDeleteQueue (request : Metadata) : Task Reply := do
  if ← onQueues (QueueEngine.deleteQueue ((field request "name").or (.text (text "")))) then
    respond []
  else fail .notFound (text "queue not found")

def cmdBind (request : Metadata) : Task Reply := do
  let empty := Value.text (text "")
  if ← bind ((field request "exchange").or empty) ((field request "queue").or empty)
      ((field request "routing_key").or empty) then respond []
  else fail .notFound (text "exchange or queue not found")

def cmdUnbind (request : Metadata) : Task Reply := do
  let empty := Value.text (text "")
  if ← unbind ((field request "exchange").or empty) ((field request "queue").or empty)
      ((field request "routing_key").or empty) then respond []
  else fail .notFound (text "binding not found")

/-- The arguments that `cmd_publish` passes on. -/
def publishArgs (request : Metadata) (payload : List UInt8) (priority : ℤ) : PublishArgs where
  payload := payload
  exchange := field request "exchange"
  routingKey := (field request "routing_key").or (.text (text ""))
  queue := field request "queue"
  maxAttempts := field request "max_attempts"
  priority := priority
  headers := field request "headers"
  messageId := field request "message_id"

def cmdPublish (host : Host) (request : Metadata) (payload : List UInt8) (uuid : Text → String) :
    Task Reply := do
  let priority ← MonadExcept.ofExcept
    (host.toInt ((field request "priority").or (.number (.int 0))))
  let (messageId, routed, result) ← publish (publishArgs request payload priority) uuid
  if result = .queueFull then fail .queueFull (text "queue is full")
  else if result = .notFound ∨ routed = [] then fail .notFound (text "not bound")
  else
    forM routed fun name => pumpQueue (.text name)
    respond [("id", messageId), ("routed", .list (routed.map .text))]

/-- `f"get-{connection_id}-{queue}"`. -/
def getConsumerId (host : Host) (connectionId : String) (queue : Value) : Text :=
  text "get-" ++ text connectionId ++ text "-" ++
    match queue with
    | .text t => t
    | queue => host.str queue

/-- `ctx.prefetch`. -/
def prefetchOf (b : Broker) (connectionId : String) : ℤ := (b.prefetch.get? connectionId).getD 0

/-- `int(meta["prefetch"])`, or a default where there is none. -/
def prefetchArg (host : Host) (request : Metadata) (fallback : ℤ) : Except Raised ℤ :=
  match field request "prefetch" with
  | .null => .ok fallback
  | prefetch => host.toInt prefetch

/-- The consumer of a GET is registered, or its window is set. -/
def getConsumer (consumerId : Value) (connectionId : String) (queue : Value) (prefetch : ℤ) :
    Task Unit := do
  let key ← hashed consumerId
  if key ∈ (← get).consumers then
    if prefetch = 0 then return else modify (updateQos · key (·.setPrefetch prefetch))
  else register consumerId connectionId [queue] prefetch

def cmdGet (host : Host) (connectionId : String) (request : Metadata) : Task Reply := do
  let queue := field request "queue"
  if queue.truthy then
    let consumerId := (field request "consumer_id").or
      (.text (getConsumerId host connectionId queue))
    let prefetch ← MonadExcept.ofExcept
      (prefetchArg host request (prefetchOf (← get) connectionId))
    getConsumer consumerId connectionId queue prefetch
    match ← tryReserve queue with
    | none => respond [("empty", .bool true)]
    | some (_, consumer, message) => respond (("empty", .bool false) :: delivery consumer message)
  else fail .invalidCommand (text "queue required")

/-- The queues of a CONSUME. -/
def consumeQueues (request : Metadata) : Value :=
  (field request "queues").or
    (.list (if (field request "queue").truthy then [field request "queue"] else []))

/-- `int(ctx.prefetch or 1)`. -/
def consumePrefetch (b : Broker) (connectionId : String) : ℤ :=
  if prefetchOf b connectionId = 0 then 1 else prefetchOf b connectionId

def cmdConsume (host : Host) (connectionId : String) (request : Metadata) (uuid : String) :
    Task Reply := do
  if (consumeQueues request).truthy then
    let names ← MonadExcept.ofExcept (consumeQueues request).iterate
    forM names ensureQueue
    let consumerId := (field request "consumer_id").or (.text (text uuid))
    let prefetch ← MonadExcept.ofExcept
      (prefetchArg host request (consumePrefetch (← get) connectionId))
    register consumerId connectionId names prefetch
    forM names pumpQueue
    respond [("consumer_id", consumerId), ("prefetch", .number (.int prefetch))]
  else fail .invalidCommand (text "queue required")

def cmdCancel (request : Metadata) : Task Reply := do
  let consumerId := field request "consumer_id"
  if consumerId.truthy then
    if ← cancel consumerId then respond []
    else fail .notConsumer (text "unknown consumer")
  else fail .invalidCommand (text "consumer_id required")

/-- After a settled delivery the consumer's queues are pumped. -/
def settled (consumerId : Option Key) : Task Unit := do
  match consumerId with
  | none => return
  | some key =>
    if key.truthy then
      modify (onAck · key)
      match (← get).consumers.get? key with
      | none => return
      | some consumer => forM consumer.queues pumpQueue
    else return

/-- `meta.get("message_id") or meta.get("id")`. -/
def messageIdOf (request : Metadata) : Value := (field request "message_id").or (field request "id")

def cmdAck (request : Metadata) : Task Reply := do
  let messageId := messageIdOf request
  if messageId.truthy then
    let consumerId ← onQueues (QueueEngine.inflightConsumer messageId)
    match ← onQueues (QueueEngine.ack messageId) with
    | .alreadyAcked => fail .alreadyAcked (text "already acked")
    | .notFound => fail .notFound (text "unknown delivery")
    | .ok =>
      settled consumerId
      respond []
  else fail .invalidCommand (text "message_id required")

def cmdNack (request : Metadata) : Task Reply := do
  let messageId := messageIdOf request
  if messageId.truthy then
    let requeue := ((request.get? (text "requeue")).getD (.bool true)).truthy
    let consumerId ← onQueues (QueueEngine.inflightConsumer messageId)
    if (← onQueues (QueueEngine.nack messageId requeue)) = .ok then
      settled consumerId
      respond []
    else fail .unknownDelivery (text "unknown delivery")
  else fail .invalidCommand (text "message_id required")

/-- The windows of a connection's consumers are set. -/
def setWindows (b : Broker) (connectionId : String) (prefetch : ℤ) : Broker :=
  let own := b.consumers.keys.filter fun id =>
    (b.consumers.get? id).any (·.connectionId = connectionId)
  own.foldl (fun b id => updateQos b id (·.setPrefetch prefetch)) b

def cmdQos (host : Host) (connectionId : String) (request : Metadata) : Task Reply := do
  let prefetch ← MonadExcept.ofExcept
    (host.toInt ((field request "prefetch").or (.number (.int 0))))
  modify fun b => { b with prefetch := b.prefetch.set connectionId prefetch }
  let consumerId := field request "consumer_id"
  if consumerId.truthy then
    if ← setPrefetch consumerId prefetch then respond [("prefetch", .number (.int prefetch))]
    else fail .notConsumer (text "unknown consumer")
  else
    modify (setWindows · connectionId prefetch)
    respond [("prefetch", .number (.int prefetch))]

def cmdDlqRequeue (request : Metadata) : Task Reply := do
  let name := ((field request "queue").or (field request "name")).or (.text (text ""))
  let messageId := messageIdOf request
  if messageId.truthy then
    if ← onQueues (QueueEngine.dlqRequeue name messageId) then
      pumpQueue name
      respond []
    else fail .notFound (text "message not in dlq")
  else fail .invalidCommand (text "message_id required")

/-! ## Dispatch -/

/-- A request with what the handler draws for it: an id for each target of a
publish, the one for the empty text serving CONSUME. -/
structure Request where
  connectionId : String
  metadata : Metadata
  payload : List UInt8 := []
  uuid : Text → String

/-- The methods that work on the runtime, by the name after `cmd_`. -/
def methods (host : Host) (request : Request) : List (Text × Task Reply) := [
  (text "declare_exchange", cmdDeclareExchange request.metadata),
  (text "delete_exchange", cmdDeleteExchange request.metadata),
  (text "declare_queue", cmdDeclareQueue request.metadata),
  (text "delete_queue", cmdDeleteQueue request.metadata),
  (text "bind", cmdBind request.metadata),
  (text "unbind", cmdUnbind request.metadata),
  (text "publish", cmdPublish host request.metadata request.payload request.uuid),
  (text "get", cmdGet host request.connectionId request.metadata),
  (text "consume", cmdConsume host request.connectionId request.metadata (request.uuid [])),
  (text "cancel", cmdCancel request.metadata),
  (text "ack", cmdAck request.metadata),
  (text "nack", cmdNack request.metadata),
  (text "qos", cmdQos host request.connectionId request.metadata),
  (text "dlq_requeue", cmdDlqRequeue request.metadata)]

/-- The other methods there are. -/
def readMethods : List Text :=
  ["ping", "auth", "info", "stats", "queue_info", "list_queues", "list_consumers", "subscribe",
    "unsubscribe", "publish_channel", "list_channels", "dlq_info"].map text

/-- `getattr(self, f"cmd_{cmd.lower()}")`, called. -/
def dispatch (host : Host) (request : Request) : Task Reply :=
  match field request.metadata "cmd" with
  | .text cmd =>
    match (methods host request).lookup (host.lower cmd) with
    | some method => method
    | none =>
      if host.lower cmd ∈ readMethods then do
        MonadExcept.ofExcept (host.reads (host.lower cmd) request.metadata (← get))
      else fail .invalidCommand (text "unknown command " ++ cmd)
  | _ => throw .attributeError

/-- `handle`, with what `authorize` said: a refusal, or none. -/
def handle (host : Host) (refusal : Option (ErrorCode × Text)) (request : Request) : Task Reply := do
  if (field request.metadata "cmd").truthy then
    match refusal with
    | some (code, message) => fail code message
    | none =>
      match ← Program.attempt (dispatch host request) with
      | .ok reply => return reply
      | .error _ => fail .internalError (text "internal error")
  else fail .invalidCommand (text "missing cmd")

/-! ## The server's side -/

/-- One round of `_ticker`, up to what it raises. -/
def ticker : Task Unit := do
  let _ ← onQueues QueueEngine.tick
  forM (QueueEngine.listQueues (← get).queues) fun name => pumpQueue (.text name)

/-- The cleanup of `_drop`. -/
def drop (connectionId : String) (order : List Key) : Task Unit := do
  modify fun b => { b with senders := b.senders.erase connectionId }
  disconnect connectionId order

inductive Event where
  | connect (connectionId : String)
  | request (refusal : Option (ErrorCode × Text)) (request : Request)
  | drop (connectionId : String) (order : List Key)
  | ticker

namespace Broker

/-- The broker as it starts, with the default exchange. -/
def created (config : Core.EngineConfig) (clock : Nat → ℚ) (takes : Nat → Bool) : Broker where
  queues := { config, clock }
  exchanges := (∅ : Dict Key Core.ExchangeType).set (.text (text "")) .direct
  takes := takes

/-- The state after an event, whether or not something was raised in it. -/
def step (host : Host) (b : Broker) : Event → Broker
  | .connect connectionId =>
    { b with
      senders := b.senders.insert connectionId
      prefetch := b.prefetch.erase connectionId }
  | .request refusal request => ((handle host refusal request).exec b).2
  | .drop connectionId order => ((Untyped.drop connectionId order).exec b).2
  | .ticker => (Program.exec Untyped.ticker b).2

end Broker
end OneOpenBroker.Untyped

import OneOpenBroker.Core.DeadLetters
import OneOpenBroker.Broker.Handler
import OneOpenBroker.Security.Auth

/-! The commands that read: `monitoring/introspection.py`, `broker_stats` of
`monitoring/metrics.py`, and the counters of `pubsub/channels.py`, which
`list_channels` brings into being as it reads them. What the process itself
shows at a moment, its counters of bytes and connections, the sizes of files,
the age of consumers and how a heap is laid out, is a reading that comes with
the request. -/
namespace OneOpenBroker.Security
open Programs Program Collections OneOpenBroker.Untyped

structure ChannelStats where
  published : Nat := 0
  fanout : Nat := 0
  slowDrops : Nat := 0

/-- The handler and its runtime, with the counters of the channels. -/
structure Runtime where
  handler : Broker.Handler
  stats : Dict String ChannelStats := ∅
  totalPublished : Nat := 0
  totalFanout : Nat := 0

structure Reading where
  version : Text
  host : Text
  port : ℤ
  uptime : ℚ
  connections : Nat
  totalConnections : Nat
  bytesReceived : Nat
  bytesSent : Nat
  aofSize : Nat
  snapshotSize : Nat
  age : String → ℚ
  lastActivity : String → ℚ
  layout : List Core.ReadyEntry → List Core.ReadyEntry

/-! ## Values -/

def string (s : String) : Value := .text (text s)

def integer (n : ℤ) : Value := .number (.int n)

def float (q : ℚ) : Value := .number (.float q)

/-- A dictionary with these entries. -/
def dict (entries : List (String × Value)) : Value := .dict (entries.map fun entry => (text entry.1, entry.2))

mutual

/-- Headers as they were read. -/
def json : Protocol.Json → Value
  | .null => .null
  | .bool b => .bool b
  | .num q => if q.den = 1 then integer q.num else float q
  | .str s => string s
  | .arr items => .list (jsonItems items)
  | .obj fields => .dict (jsonFields fields)

def jsonItems : List Protocol.Json → List Value
  | [] => []
  | item :: rest => json item :: jsonItems rest

def jsonFields : List (String × Protocol.Json) → List (Text × Value)
  | [] => []
  | (key, value) :: rest => (text key, json value) :: jsonFields rest

end

/-! ## Queues -/

/-- What `queue_info` says of a queue. -/
structure QueueInfo where
  name : String
  ready : Nat
  inflight : Nat
  delayed : Nat
  dlq : Nat
  consumers : Nat
  stats : Core.QueueStats
  spec : Core.QueueSpec

def queueInfo (e : Core.QueueEngine) (name : String) : Option QueueInfo :=
  (e.queues.get? name).map fun queue =>
    { name
      ready := queue.readyCount
      inflight := queue.inflightCount
      delayed := queue.delayedCount
      dlq :=
        if Core.isDlq name then 0
        else ((e.queues.get? (Core.dlqName name)).map (·.readyCount)).getD 0
      consumers := queue.consumerIds.length
      stats := queue.stats
      spec := queue.spec }

def QueueInfo.entries (info : QueueInfo) : List (String × Value) := [
  ("name", string info.name), ("ready", integer info.ready), ("inflight", integer info.inflight),
  ("delayed", integer info.delayed), ("dlq", integer info.dlq),
  ("consumers", integer info.consumers), ("published", integer info.stats.published),
  ("delivered", integer info.stats.delivered), ("acked", integer info.stats.acked),
  ("nacked", integer info.stats.nacked), ("retried", integer info.stats.retried),
  ("dead", integer info.stats.dead), ("visibility_timeout", float info.spec.visibilityTimeout),
  ("max_attempts", integer info.spec.maxAttempts),
  ("max_length", info.spec.maxLength.elim .null integer)]

def listQueues (e : Core.QueueEngine) : List QueueInfo :=
  (Broker.Handler.listQueues e).filterMap (queueInfo e)

/-- `self._queues.get(name)`, for the queue's name. -/
def queueNamed (e : Core.QueueEngine) (name : Value) : Except Raised (Option String) :=
  match name with
  | .text t => .ok (e.queues.keys.find? fun queue => text queue = t)
  | .list _ | .dict _ => .error .typeError
  | _ => .ok none

/-- The answer that is made of a listing. -/
def dlqEntries (info : Core.QueueEngine.DlqInfo) : List (String × Value) := [
  ("queue", string info.queue), ("dlq", string info.dlq), ("count", integer info.count),
  ("messages", .list (info.messages.map fun entry => dict [
    ("id", string entry.id), ("queue", string entry.queue), ("attempts", integer entry.attempts),
    ("created_at", float entry.createdAt), ("headers", entry.headers.elim .null json)]))]

/-- The name of the DLQ that `dlq_info` looks up. -/
def dlqTarget : Value → Except Raised Value
  | .text t => .ok (.text (Untyped.dlqName t))
  | _ => .error .attributeError

/-! ## Consumers and channels -/

def listConsumers (h : Broker.Handler) (reading : Reading) : List Value :=
  h.consumers.consumers.values.map fun consumer => dict [
    ("consumer_id", string consumer.consumerId), ("connection_id", string consumer.connectionId),
    ("queues", .list (consumer.queues.map string)), ("prefetch", integer consumer.qos.prefetchCount),
    ("unacked", integer consumer.unackedCount), ("age", float (reading.age consumer.consumerId)),
    ("last_activity", float (reading.lastActivity consumer.consumerId)),
    ("tag", string consumer.tag)]

/-- `self._stats[name]` makes an entry where there is none. -/
def touch (stats : Dict String ChannelStats) (name : String) : Dict String ChannelStats :=
  if name ∈ stats then stats else stats.set name {}

namespace Runtime

/-- The names that `list_channels` goes through. -/
def channelNames (r : Runtime) : List String :=
  Core.RoutingEngine.sortedNames (r.handler.pubsub.subs.keys ++ r.stats.keys)

def listChannels (r : Runtime) : List Value × Runtime :=
  let stats := r.channelNames.foldl touch r.stats
  (r.channelNames.map fun name =>
    let counters := (stats.get? name).getD {}
    dict [("channel", string name), ("subscribers", integer (r.handler.pubsub.subscribers name).length),
      ("published", integer counters.published), ("fanout", integer counters.fanout)],
   { r with stats })

/-- `broker_stats`. -/
def brokerStats (r : Runtime) (reading : Reading) : List (String × Value) × Runtime :=
  let infos := listQueues r.handler.queues
  let total (count : QueueInfo → Nat) : Value := integer (infos.map count).sum
  let (channels, r') := r.listChannels
  ([("uptime", float reading.uptime), ("connections", integer reading.connections),
    ("total_connections", integer reading.totalConnections),
    ("consumers", integer r.handler.consumers.consumers.size),
    ("queues", integer r.handler.queues.queues.size), ("channels", integer channels.length),
    ("published", total (·.stats.published)), ("delivered", total (·.stats.delivered)),
    ("acked", total (·.stats.acked)), ("nacked", total (·.stats.nacked)),
    ("retried", total (·.stats.retried)), ("dead", total (·.stats.dead)),
    ("ready", total (·.ready)), ("inflight", total (·.inflight)), ("delayed", total (·.delayed)),
    ("dlq", total fun info => if Core.isDlq info.name then info.ready else 0),
    ("pubsub_published", integer r.totalPublished), ("pubsub_fanout", integer r.totalFanout),
    ("bytes_received", integer reading.bytesReceived), ("bytes_sent", integer reading.bytesSent),
    ("aof_size", integer reading.aofSize), ("snapshot_size", integer reading.snapshotSize)], r')

end Runtime

/-! ## The methods -/

/-- A request as the broker sees it, with what the methods that do not only
read do on it. -/
structure Asked where
  metadata : Metadata
  reading : Reading
  commands : Text → Program Runtime Raised Reply

namespace Asked

def cmdInfo (asked : Asked) : Program Runtime Raised Reply :=
  respond [("version", .text asked.reading.version), ("host", .text asked.reading.host),
    ("port", integer asked.reading.port)]

def cmdStats (asked : Asked) : Program Runtime Raised Reply := do
  respond (← modifyGet fun r => r.brokerStats asked.reading)

def cmdQueueInfo (asked : Asked) : Program Runtime Raised Reply := do
  let e := (← get).handler.queues
  let name ← MonadExcept.ofExcept (queueNamed e ((field asked.metadata "name").or (.text [])))
  match name.bind (queueInfo e) with
  | none => fail .notFound (text "queue not found")
  | some info => respond info.entries

def cmdListQueues : Program Runtime Raised Reply := do
  respond [("queues", .list ((listQueues (← get).handler.queues).map fun info => dict info.entries))]

def cmdListConsumers (asked : Asked) : Program Runtime Raised Reply := do
  respond [("consumers", .list (listConsumers (← get).handler asked.reading))]

def cmdListChannels : Program Runtime Raised Reply := do
  respond [("channels", .list (← modifyGet Runtime.listChannels))]

def cmdDlqInfo (asked : Asked) : Program Runtime Raised Reply := do
  let e := (← get).handler.queues
  let name := ((field asked.metadata "queue").or (field asked.metadata "name")).or (.text [])
  let target ← MonadExcept.ofExcept (dlqTarget name)
  let dlq ← MonadExcept.ofExcept (queueNamed e target)
  match dlq.bind (e.dlqInfo asked.reading.layout) with
  | none => fail .notFound (text "queue not found")
  | some info => respond (dlqEntries info)

/-- The methods that read, by the name after `cmd_`. -/
def readers (asked : Asked) : List (Text × Program Runtime Raised Reply) := [
  (text "info", asked.cmdInfo), (text "stats", asked.cmdStats),
  (text "queue_info", asked.cmdQueueInfo), (text "list_queues", cmdListQueues),
  (text "list_consumers", asked.cmdListConsumers), (text "list_channels", cmdListChannels),
  (text "dlq_info", asked.cmdDlqInfo)]

def request (asked : Asked) : Handler.Request Runtime where
  metadata := asked.metadata
  call name := (asked.readers.lookup name).getD (asked.commands name)

end Asked
end OneOpenBroker.Security

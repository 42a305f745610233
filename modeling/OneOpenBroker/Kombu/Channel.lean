import OneOpenBroker.Broker.Ownership

/-! The channel of `kombu_transport/transport.py` on a broker. Of kombu itself
the channel uses the serializer, the queues that an exchange and a routing key
resolve to, and the table `_delivered` of its QoS: `reject` with requeueing puts
the stored message to each of the queues and then drops the tag, and `ack`
drops the tag. -/
namespace OneOpenBroker.Kombu
open Collections OneOpenBroker.Core OneOpenBroker.Broker

/-- A message of kombu: where it was published to, the header `x-oneopen-id`,
and the rest, which the channel does not look at. -/
structure VirtualMessage where
  exchange : String
  routingKey : String
  oneopenId : Option String := none
  content : List UInt8
  deriving DecidableEq

/-- What the channel uses of kombu, with the id of its connection to the broker. -/
structure Transport where
  dumps : VirtualMessage → List UInt8
  loads : List UInt8 → Option VirtualMessage
  lookup : String → String → List String
  connectionId : String

/-- The channel with its broker. For each copy that a requeueing published it is
kept of which message it is a copy. -/
structure Channel where
  handler : Handler
  delivered : Dict Nat VirtualMessage := ∅
  copyOf : Dict String String := ∅

/-- A call of the channel, or anything that happens at the broker meanwhile. The
stamps are those of the messages that the broker makes of the puts. -/
inductive ChannelStep where
  | basicPublish (message : VirtualMessage) (stamps : Nat → String → Stamp)
  | basicGet (queue : String) (tag : Nat)
  | basicAck (tag : Nat)
  | basicReject (tag : Nat) (requeue : Bool) (stamps : Nat → String → Stamp)
  | broker (event : Event)

/-- What a call that puts a message leaves: whether it came to its end, and the
ids of the messages that the broker took. -/
structure Put where
  done : Bool
  ids : List String := []
  handler : Handler

namespace Channel

variable (t : Transport)

/-- The arguments of a PUBLISH that names a queue. -/
def putArgs (queue : String) (message : VirtualMessage) : PublishArgs :=
  { payload := t.dumps message, queue := some queue }

/-- `_put`. An error response is raised. -/
def put (h : Handler) (queue : String) (message : VirtualMessage) (stamp : String → Stamp) : Put :=
  let routed := (h.routing.publish (putArgs t queue message) stamp).1.2.1
  let (reply, h) := h.cmdPublish (putArgs t queue message) stamp
  { done := match reply with | .ok _ => true | .err _ _ => false
    ids := routed.map fun target => (stamp target).uuid
    handler := h }

/-- The loop over the queues, which an error ends. -/
def putAll (message : VirtualMessage) : List String → (Nat → String → Stamp) → Handler → Put
  | [], _, h => { done := true, handler := h }
  | queue :: rest, stamps, h =>
    let first := put t h queue message (stamps 0)
    if first.done then
      let others := putAll message rest (fun n => stamps (n + 1)) first.handler
      { others with ids := first.ids ++ others.ids }
    else first

def basicPublish (c : Channel) (message : VirtualMessage) (stamps : Nat → String → Stamp) : Channel :=
  let queues := t.lookup message.exchange message.routingKey
  { c with handler := (putAll t message queues stamps c.handler).handler }

/-- `basic_get`: the message that `_get` returns is stored under its tag. -/
def basicGet (c : Channel) (queue : String) (tag : Nat) : Channel :=
  match c.handler.cmdGet t.connectionId queue "" none with
  | (.ok (.message got _), handler) =>
    match t.loads got.payload with
    | none => { c with handler }
    | some decoded =>
      let message := { decoded with oneopenId := some got.id }
      { c with handler, delivered := c.delivered.set tag message }
  | (_, handler) => { c with handler }

/-- `_oneopen_id`. -/
def oneopenId (c : Channel) (tag : Nat) : Option String := (c.delivered.get? tag).bind (·.oneopenId)

/-- An error response to the ACK is swallowed. -/
def basicAck (c : Channel) (tag : Nat) : Channel :=
  let handler := match c.oneopenId tag with
    | none => c.handler
    | some id => if id = "" then c.handler else (c.handler.cmdAck id).2
  { c with handler, delivered := c.delivered.erase tag }

/-- The broker after the NACK of a reject, whose error response is swallowed. -/
def nacked (c : Channel) (tag : Nat) (requeue : Bool) : Handler :=
  match c.oneopenId tag with
  | none => c.handler
  | some id => if id = "" then c.handler else (c.handler.cmdNack id requeue).2

/-- The message that a message is a copy of, or itself. -/
def original (c : Channel) (id : String) : String := (c.copyOf.get? id).getD id

/-- The ids are those of copies of a message. -/
def copied (c : Channel) (task : String) (ids : List String) : Channel :=
  { c with copyOf := ids.foldl (fun copyOf id => copyOf.set id task) c.copyOf }

/-- What the requeueing of a stored message puts. -/
def restore (c : Channel) (tag : Nat) (message : VirtualMessage) (stamps : Nat → String → Stamp) : Put :=
  putAll t message (t.lookup message.exchange message.routingKey) stamps (c.nacked tag true)

/-- `basic_reject`. With a tag that is not stored kombu raises a `KeyError`, and
an error of a put leaves the tag. -/
def basicReject (c : Channel) (tag : Nat) (requeue : Bool) (stamps : Nat → String → Stamp) : Channel :=
  if requeue then
    match c.delivered.get? tag with
    | none => { c with handler := c.nacked tag true }
    | some message =>
      let restored := c.restore t tag message stamps
      let c := c.copied (c.original (message.oneopenId.getD "")) restored.ids
      { c with
        handler := restored.handler
        delivered := if restored.done then c.delivered.erase tag else c.delivered }
  else { c with handler := c.nacked tag false, delivered := c.delivered.erase tag }

def step (c : Channel) : ChannelStep → Channel
  | .basicPublish message stamps => c.basicPublish t message stamps
  | .basicGet queue tag => c.basicGet t queue tag
  | .basicAck tag => c.basicAck tag
  | .basicReject tag requeue stamps => c.basicReject t tag requeue stamps
  | .broker event => { c with handler := c.handler.step event }

/-! ## Copies -/

/-- The ids of the messages that the broker holds, in whatever queue. -/
def held (e : QueueEngine) : Finset String := (e.queues.values.flatMap (·.messages.keys)).toFinset

/-- How many messages the broker holds of a task: the original and its copies. -/
def copies (c : Channel) (task : String) : Nat :=
  ((held c.handler.queues).filter (c.original · = task)).card

/-- The broker drops a message at its next failure: it is out on its last
attempt, from a queue without a DLQ, and no other queue has it. -/
def givesUp (e : QueueEngine) (id : String) : Bool :=
  match (e.byId.get? id).bind e.queues.get? with
  | none => false
  | some queue =>
    match queue.messages.get? id with
    | none => false
    | some message => id ∈ queue.inflight && message.maxAttempts ≤ message.attempts + 1 &&
      !queue.spec.deadLetter && filedAlone e message

/-- How many copies the NACK of a reject takes from the broker. -/
def dropped (c : Channel) (tag : Nat) : Nat :=
  match c.oneopenId tag with
  | none => 0
  | some id => if id ≠ "" ∧ givesUp c.handler.queues id then 1 else 0

/-- The default exchange routes the name of a queue to no other queue. -/
def Unshared (r : RoutingEngine) (queue : String) : Prop :=
  ∀ target ∈ r.routeTargets defaultExchange queue, target = queue

/-- A reject that requeues finds no queue to put its message to, or it finds one,
after a NACK that drops the message. -/
def Balanced (c : Channel) : ChannelStep → Prop
  | .basicReject tag true _ => ∀ message, c.delivered.get? tag = some message →
    t.lookup message.exchange message.routingKey = [] ∨
      ∃ queue, t.lookup message.exchange message.routingKey = [queue] ∧
        Unshared c.handler.routing queue ∧ c.dropped tag = 1
  | _ => True

/-- A reject that requeues leaves no more copies of its task than there were. -/
def NoMore (c : Channel) : ChannelStep → Prop
  | .basicReject tag true stamps => ∀ id, c.oneopenId tag = some id →
    (c.step t (.basicReject tag true stamps)).copies (c.original id) ≤ c.copies (c.original id)
  | _ => True

end Channel
end OneOpenBroker.Kombu

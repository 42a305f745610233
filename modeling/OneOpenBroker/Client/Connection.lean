import OneOpenBroker.Library.Dict
import OneOpenBroker.Protocol.Json

/-! The protocol client, `client/connection.py`: requests that wait for their
responses, and a read loop that hands events to two queues which everything
that uses the client shares. Frames are given by what the loop looks at; of the
order in which their bytes come in it sees no more than the order of frames. -/
namespace OneOpenBroker.Client
open Collections

/-- The metadata and the payload of a `DELIVER` event. -/
structure Delivery where
  messageId : String
  queue : String
  payload : List UInt8
  attempts : Nat := 0
  headers : Option Protocol.Json := none
  consumerId : String := ""

/-- A `PUBSUB_MESSAGE` event. The last field only records which iterator was
active on the channel when the event came in. -/
structure PubSubMessage where
  channel : String
  payload : List UInt8
  owner : Option Nat := none
  deriving DecidableEq

/-- What a response says: its `ok`, and the consumer of a `CONSUME`. -/
structure Answer where
  ok : Bool
  consumerId : String := ""

/-- The frames that a client reads. A malformed one has metadata that do not
parse. -/
inductive Incoming where
  | heartbeat (requestId : Nat)
  | response (requestId : Nat) (answer : Answer)
  | deliver (delivery : Delivery)
  | pubsubMessage (message : PubSubMessage)
  | other
  | malformed

/-- The commands of a client that are told apart here. -/
inductive Request where
  | consume (queue : String) (prefetch : Int)
  | subscribe (channel : String)
  | unsubscribe (channel : String)
  | other

/-- The frames that a client writes. -/
inductive Outgoing where
  | heartbeat (requestId : Nat)
  | command (requestId : Nat) (cmd : Request)

/-- `ProtocolClient`. The futures of `_pending` that are not done, and those
that are done: with an answer, or with a `BrokerError`. -/
structure ProtocolClient where
  connected : Bool := true
  reading : Bool := true
  rid : Nat := 0
  pending : List Nat := []
  done : Dict Nat (Option Answer) := ∅
  deliveries : List Delivery := []
  pubsub : List PubSubMessage := []
  written : List Outgoing := []

namespace ProtocolClient

/-- The part of `request` before its future is awaited. It raises when there is
no connection. -/
def request (c : ProtocolClient) (cmd : Request) : Option Nat × ProtocolClient :=
  if c.connected then
    let rid := c.rid + 1
    (some rid, { c with rid, pending := c.pending ++ [rid], written := c.written ++ [.command rid cmd] })
  else (none, c)

/-- The future of a request is done. -/
def settle (c : ProtocolClient) (rid : Nat) (result : Option Answer) : ProtocolClient :=
  if rid ∈ c.pending then
    { c with pending := c.pending.filter (· ≠ rid), done := c.done.set rid result }
  else c

/-- The end of `_read_loop`: all requests that wait fail. -/
def stopReading (c : ProtocolClient) : ProtocolClient :=
  { c.pending.foldl (fun c rid => c.settle rid none) c with reading := false }

/-- A round of the loop over the frames. -/
def readFrame (c : ProtocolClient) : Incoming → ProtocolClient
  | .heartbeat requestId =>
    if c.connected then { c with written := c.written ++ [.heartbeat requestId] } else c
  | .response requestId answer => c.settle requestId (some answer)
  | .deliver delivery => { c with deliveries := c.deliveries ++ [delivery] }
  | .pubsubMessage message => { c with pubsub := c.pubsub ++ [message] }
  | .other => c
  | .malformed => c.stopReading

/-- A frame that comes in is read while the loop runs. -/
def receive (c : ProtocolClient) (frame : Incoming) : ProtocolClient :=
  if c.reading then c.readFrame frame else c

def close (c : ProtocolClient) : ProtocolClient := { c.stopReading with connected := false }

/-- The answer of a request that is done and was accepted. -/
def accepted (c : ProtocolClient) (rid : Nat) : Option Answer :=
  match c.done.get? rid with
  | some (some answer) => if answer.ok then some answer else none
  | _ => none

/-! ## The queues -/

variable {c : ProtocolClient} {cmd : Request} {rid : Nat} {result : Option Answer}

@[simp] theorem request_deliveries (cmd : Request) : (c.request cmd).2.deliveries = c.deliveries := by
  unfold request
  split <;> rfl

@[simp] theorem request_pubsub (cmd : Request) : (c.request cmd).2.pubsub = c.pubsub := by
  unfold request
  split <;> rfl

@[simp] theorem settle_deliveries : (c.settle rid result).deliveries = c.deliveries := by
  unfold settle
  split <;> rfl

@[simp] theorem settle_pubsub : (c.settle rid result).pubsub = c.pubsub := by
  unfold settle
  split <;> rfl

@[simp] theorem settle_written : (c.settle rid result).written = c.written := by
  unfold settle
  split <;> rfl

theorem settleAll_queues (rids : List Nat) (c : ProtocolClient) :
    (rids.foldl (fun c rid => c.settle rid none) c).deliveries = c.deliveries ∧
      (rids.foldl (fun c rid => c.settle rid none) c).pubsub = c.pubsub ∧
      (rids.foldl (fun c rid => c.settle rid none) c).written = c.written := by
  induction rids generalizing c with
  | nil => exact ⟨rfl, rfl, rfl⟩
  | cons rid rest ih => simpa using ih (c.settle rid none)

@[simp] theorem stopReading_deliveries : c.stopReading.deliveries = c.deliveries :=
  (settleAll_queues c.pending c).1

@[simp] theorem stopReading_pubsub : c.stopReading.pubsub = c.pubsub :=
  (settleAll_queues c.pending c).2.1

@[simp] theorem stopReading_written : c.stopReading.written = c.written :=
  (settleAll_queues c.pending c).2.2

@[simp] theorem close_deliveries : c.close.deliveries = c.deliveries := stopReading_deliveries

@[simp] theorem close_pubsub : c.close.pubsub = c.pubsub := stopReading_pubsub

/-- The deliveries that a frame brings. -/
def deliveriesOf (c : ProtocolClient) : Incoming → List Delivery
  | .deliver delivery => if c.reading then [delivery] else []
  | _ => []

/-- The messages of channels that a frame brings. -/
def messagesOf (c : ProtocolClient) : Incoming → List PubSubMessage
  | .pubsubMessage message => if c.reading then [message] else []
  | _ => []

/-- What a frame is answered with. -/
def answersTo (c : ProtocolClient) : Incoming → List Outgoing
  | .heartbeat requestId => if c.reading && c.connected then [.heartbeat requestId] else []
  | _ => []

/-- A frame adds to the queues and to what is written. -/
theorem receive_brings (frame : Incoming) :
    (c.receive frame).deliveries = c.deliveries ++ c.deliveriesOf frame ∧
      (c.receive frame).pubsub = c.pubsub ++ c.messagesOf frame ∧
      (c.receive frame).written = c.written ++ c.answersTo frame := by
  unfold receive
  by_cases reading : c.reading
  · rw [if_pos reading]
    cases frame with
    | heartbeat requestId =>
      by_cases connected : c.connected <;>
        simp [readFrame, deliveriesOf, messagesOf, answersTo, reading, connected]
    | _ => simp [readFrame, deliveriesOf, messagesOf, answersTo, reading]
  · cases frame <;> simp [deliveriesOf, messagesOf, answersTo, reading]

theorem receive_deliveries (frame : Incoming) :
    (c.receive frame).deliveries = c.deliveries ++ c.deliveriesOf frame := (receive_brings frame).1

theorem receive_pubsub (frame : Incoming) :
    (c.receive frame).pubsub = c.pubsub ++ c.messagesOf frame := (receive_brings frame).2.1

theorem receive_written (frame : Incoming) :
    (c.receive frame).written = c.written ++ c.answersTo frame := (receive_brings frame).2.2

end ProtocolClient
end OneOpenBroker.Client

import OneOpenBroker.Client.Connection
import OneOpenBroker.Library.Runs

/-! The client of applications, `client/async_client.py`: calls of `consume`
and iterators of `subscribe`. A step is what one task does between two awaits,
so the tasks interleave in every order that the event loop allows, and in
others. All calls take from one queue of deliveries, all iterators from one
queue of messages. -/
namespace OneOpenBroker.Client
open Collections Systems

/-- `ReceivedMessage`. -/
structure ReceivedMessage where
  id : String
  queue : String
  payload : List UInt8
  attempts : Nat
  headers : Option Protocol.Json
  consumerId : String

/-- Where a call of `consume` is. -/
inductive Call where
  | requesting (queue : String) (rid : Nat)
  | waiting (queue : String)
  | ended

/-- A call that returned: its argument, the event it took, and its result. -/
structure Returned where
  call : Nat
  queue : String
  delivery : Delivery
  message : ReceivedMessage

/-- Where an iterator is: its first request, at the queue, at its `yield`, or in
its `finally`. -/
inductive Stage where
  | subscribing (rid : Nat)
  | waiting
  | yielded
  | unsubscribing (rid : Nat)
  | ended
  deriving DecidableEq

structure Iteration where
  channel : String
  stage : Stage
  deriving DecidableEq

/-- The loop of the iterator runs. -/
def Iteration.active (iteration : Iteration) : Bool :=
  iteration.stage = .waiting || iteration.stage = .yielded

/-- `AsyncBroker`, with the calls and the iterators by number. The last fields
only record what came in, what was returned and what was yielded. -/
structure AsyncBroker where
  proto : ProtocolClient := {}
  consumers : Dict String String := ∅
  calls : Dict Nat Call := ∅
  iterations : Dict Nat Iteration := ∅
  arrived : List Delivery := []
  returned : List Returned := []
  received : List PubSubMessage := []
  yields : List (Nat × PubSubMessage) := []

/-- What happens next: a frame comes in or the connection ends, a request times
out, or a task goes on. -/
inductive ClientStep where
  | receive (frame : Incoming)
  | endOfStream
  | close
  | timeout (rid : Nat)
  | consume (call : Nat) (queue : String) (prefetch : Int)
  | answered (call : Nat)
  | wake (call : Nat)
  | cancel (call : Nat)
  | subscribe (iterator : Nat) (channel : String)
  | subscribed (iterator : Nat)
  | wakeIterator (iterator : Nat)
  | next (iterator : Nat)
  | finish (iterator : Nat)
  | unsubscribed (iterator : Nat)

namespace AsyncBroker

/-! ## Consuming -/

def toMessage (queue : String) (delivery : Delivery) : ReceivedMessage where
  id := delivery.messageId
  queue := if delivery.queue = "" then queue else delivery.queue
  payload := delivery.payload
  attempts := delivery.attempts
  headers := delivery.headers
  consumerId := delivery.consumerId

/-- The end of `consume`: it takes the oldest delivery, whatever its queue, or
waits for one. -/
def take (b : AsyncBroker) (call : Nat) (queue : String) : AsyncBroker :=
  match b.proto.deliveries with
  | [] => { b with calls := b.calls.set call (.waiting queue) }
  | delivery :: rest =>
    { b with
      proto := { b.proto with deliveries := rest }
      calls := b.calls.set call .ended
      returned := b.returned ++ [⟨call, queue, delivery, toMessage queue delivery⟩] }

def consume (b : AsyncBroker) (call : Nat) (queue : String) (prefetch : Int) : AsyncBroker :=
  if queue ∈ b.consumers then b.take call queue
  else
    match b.proto.request (.consume queue prefetch) with
    | (some rid, proto) => { b with proto, calls := b.calls.set call (.requesting queue rid) }
    | (none, proto) => { b with proto, calls := b.calls.set call .ended }

/-- The response to its `CONSUME` is there, or a `BrokerError`. -/
def answered (b : AsyncBroker) (call : Nat) (queue : String) (rid : Nat) : AsyncBroker :=
  match b.proto.accepted rid with
  | some answer => { b with consumers := b.consumers.set queue answer.consumerId }.take call queue
  | none => { b with calls := b.calls.set call .ended }

/-! ## Subscribing -/

def stage (b : AsyncBroker) (iterator : Nat) (iteration : Iteration) (stage : Stage) : AsyncBroker :=
  { b with iterations := b.iterations.set iterator { iteration with stage } }

/-- The loop of `subscribe`: it takes messages until one is of its channel, and
yields this one. -/
def pull (b : AsyncBroker) (iterator : Nat) (iteration : Iteration) : AsyncBroker :=
  match b.proto.pubsub.dropWhile (·.channel ≠ iteration.channel) with
  | [] => { b with proto := { b.proto with pubsub := [] } }.stage iterator iteration .waiting
  | message :: rest =>
    { b with
      proto := { b.proto with pubsub := rest }
      yields := b.yields ++ [(iterator, message)] }.stage iterator iteration .yielded

def subscribe (b : AsyncBroker) (iterator : Nat) (channel : String) : AsyncBroker :=
  match b.proto.request (.subscribe channel) with
  | (some rid, proto) => { b with proto }.stage iterator ⟨channel, .subscribing rid⟩ (.subscribing rid)
  | (none, proto) => { b with proto }.stage iterator ⟨channel, .ended⟩ .ended

def subscribed (b : AsyncBroker) (iterator : Nat) (iteration : Iteration) (rid : Nat) : AsyncBroker :=
  match b.proto.accepted rid with
  | some _ => b.pull iterator iteration
  | none => b.stage iterator iteration .ended

/-- The `finally` of `subscribe`, which lets go of a `BrokerError`. -/
def finish (b : AsyncBroker) (iterator : Nat) (iteration : Iteration) : AsyncBroker :=
  match b.proto.request (.unsubscribe iteration.channel) with
  | (some rid, proto) => { b with proto }.stage iterator iteration (.unsubscribing rid)
  | (none, proto) => { b with proto }.stage iterator iteration .ended

/-- The iterator that is active on a channel. -/
def activeOn (b : AsyncBroker) (channel : String) : Option Nat :=
  b.iterations.keys.find? fun iterator =>
    (b.iterations.get? iterator).any fun iteration => iteration.active && iteration.channel = channel

/-! ## Steps -/

/-- The owner of a message is noted down. -/
def owned (b : AsyncBroker) : Incoming → Incoming
  | .pubsubMessage message => .pubsubMessage { message with owner := b.activeOn message.channel }
  | frame => frame

def receive (b : AsyncBroker) (frame : Incoming) : AsyncBroker :=
  { b with
    proto := b.proto.receive (b.owned frame)
    arrived := b.arrived ++ b.proto.deliveriesOf (b.owned frame)
    received := b.received ++ b.proto.messagesOf (b.owned frame) }

def step (b : AsyncBroker) : ClientStep → AsyncBroker
  | .receive frame => b.receive frame
  | .endOfStream => { b with proto := b.proto.stopReading }
  | .close => { b with proto := b.proto.close }
  | .timeout rid => { b with proto := b.proto.settle rid none }
  | .consume call queue prefetch => if call ∈ b.calls then b else b.consume call queue prefetch
  | .answered call =>
    match b.calls.get? call with
    | some (.requesting queue rid) => if rid ∈ b.proto.done then b.answered call queue rid else b
    | _ => b
  | .wake call =>
    match b.calls.get? call with
    | some (.waiting queue) => b.take call queue
    | _ => b
  | .cancel call => if call ∈ b.calls then { b with calls := b.calls.set call .ended } else b
  | .subscribe iterator channel =>
    if iterator ∈ b.iterations then b else b.subscribe iterator channel
  | .subscribed iterator =>
    match b.iterations.get? iterator with
    | some ⟨channel, .subscribing rid⟩ =>
      if rid ∈ b.proto.done then b.subscribed iterator ⟨channel, .subscribing rid⟩ rid else b
    | _ => b
  | .wakeIterator iterator =>
    match b.iterations.get? iterator with
    | some ⟨channel, .waiting⟩ => b.pull iterator ⟨channel, .waiting⟩
    | _ => b
  | .next iterator =>
    match b.iterations.get? iterator with
    | some ⟨channel, .yielded⟩ => b.pull iterator ⟨channel, .yielded⟩
    | _ => b
  | .finish iterator =>
    match b.iterations.get? iterator with
    | some iteration =>
      if iteration.active then b.finish iterator iteration
      else
        match iteration.stage with
        | .subscribing _ => b.stage iterator iteration .ended
        | _ => b
    | none => b
  | .unsubscribed iterator =>
    match b.iterations.get? iterator with
    | some ⟨channel, .unsubscribing rid⟩ =>
      if rid ∈ b.proto.done then b.stage iterator ⟨channel, .unsubscribing rid⟩ .ended else b
    | _ => b

end AsyncBroker
end OneOpenBroker.Client

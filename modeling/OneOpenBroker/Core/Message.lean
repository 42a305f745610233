import Mathlib.Algebra.Order.Ring.Rat
import Mathlib.Data.Finset.Card
import Mathlib.Data.List.Sort
import OneOpenBroker.Library.Dict
import OneOpenBroker.Protocol.Json

/-! The broker's records: messages, deliveries, queues and journal entries.
Times are rationals in place of floating-point seconds, and a message is one
object that at most one queue holds, so a change to a held message is a
change of the entry that holds it. -/
namespace OneOpenBroker.Core
open Collections Protocol

/-- `core/message.py`. The payload is opaque bytes. -/
structure Message where
  id : String
  queue : String
  payload : List UInt8
  createdAt : ℚ
  attempts : Int := 0
  maxAttempts : Int := 3
  priority : Int := 0
  headers : Option Json := none
  availableAt : Option ℚ := none
  exchange : String := ""
  routingKey : String := ""

/-- `core/inflight.py`: one delivery that is neither acked nor failed. -/
structure InflightRecord where
  messageId : String
  queue : String
  consumerId : String
  deliveryTime : ℚ
  visibilityDeadline : ℚ

inductive AckResult where
  | ok | notFound | alreadyAcked
  deriving DecidableEq

inductive NackResult where
  | ok | notFound | unknownDelivery
  deriving DecidableEq

inductive EnqueueResult where
  | ok | queueFull | notFound
  deriving DecidableEq

/-- `queues.retry_backoff`, which the configuration restricts to these two. -/
inductive Backoff where
  | fixed | exponential
  deriving DecidableEq

/-- `core/retry.py`, where it returns a number. Under exponential backoff it
raises from the 1025th attempt on, which is in `Core.Overflow`. -/
def retryDelay (attempts : Int) (mode : Backoff) (base : ℚ) : ℚ :=
  let attempts := if attempts < 1 then 1 else attempts
  match mode with
  | .fixed => base
  | .exponential => base * 2 ^ (attempts - 1).toNat

/-- A heap tuple `(-priority, seq, message_id)`. The counter never repeats a
value, so the comparison never reaches the third component. -/
structure ReadyEntry where
  negPriority : Int
  seq : Nat
  messageId : String

def ReadyEntry.le (a b : ReadyEntry) : Prop :=
  a.negPriority < b.negPriority ∨ (a.negPriority = b.negPriority ∧ a.seq ≤ b.seq)

instance : DecidableRel ReadyEntry.le := fun a b =>
  inferInstanceAs (Decidable (a.negPriority < b.negPriority ∨ _))

/-- A heap tuple `(when, seq, queue, message_id)` of the visibility heap or of
the delayed heap. -/
structure TimedEntry where
  due : ℚ
  seq : Nat
  queue : String
  messageId : String

def TimedEntry.le (a b : TimedEntry) : Prop := a.due < b.due ∨ (a.due = b.due ∧ a.seq ≤ b.seq)

instance : DecidableRel TimedEntry.le := fun a b => inferInstanceAs (Decidable (a.due < b.due ∨ _))

/-- `heapq.heappush`: a heap is kept as its elements in order, so that the
minimum is at the front. -/
abbrev heappush {α : Type} (le : α → α → Prop) [DecidableRel le] (entry : α) (heap : List α) : List α :=
  heap.orderedInsert le entry

/-- `heapq.heapify`. -/
abbrev heapify {α : Type} (le : α → α → Prop) [DecidableRel le] (entries : List α) : List α :=
  entries.insertionSort le

theorem mem_heappush {α : Type} {le : α → α → Prop} [DecidableRel le] {x entry : α} {heap : List α} :
    x ∈ heappush le entry heap ↔ x = entry ∨ x ∈ heap := List.mem_orderedInsert le

/-- The counters of `QueueStats` that the engine updates. -/
structure QueueStats where
  published : Nat := 0
  delivered : Nat := 0
  acked : Nat := 0
  nacked : Nat := 0
  retried : Nat := 0
  dead : Nat := 0

structure QueueSpec where
  name : String
  durable : Bool := true
  maxLength : Option Int := none
  visibilityTimeout : ℚ := 300
  maxAttempts : Int := 3
  deadLetter : Bool := true

structure DurableQueue where
  spec : QueueSpec
  ready : List ReadyEntry := []
  delayedIds : Finset String := ∅
  inflight : Dict String InflightRecord := ∅
  dlqIds : List String := []
  messages : Dict String Message := ∅
  stats : QueueStats := {}
  consumerIds : List String := []
  rrIndex : Nat := 0

namespace DurableQueue

def readyCount (queue : DurableQueue) : Nat := queue.ready.length

def inflightCount (queue : DurableQueue) : Nat := queue.inflight.size

def delayedCount (queue : DurableQueue) : Nat := queue.delayedIds.card

def depth (queue : DurableQueue) : Nat := queue.readyCount + queue.inflightCount + queue.delayedCount

/-- The capacity test of `enqueue`. -/
def isFull (queue : DurableQueue) : Bool :=
  match queue.spec.maxLength with
  | none => false
  | some limit => decide (limit ≤ queue.depth)

end DurableQueue

/-- The exchange types that `Exchange.__post_init__` accepts. -/
inductive ExchangeType where
  | direct | fanout
  deriving DecidableEq

/-- One journal operation with the metadata its record carries. The engine
writes `MESSAGE_REQUEUE` in two shapes, told apart by the keys `from` and
`to`: a retry, and a move out of a DLQ. -/
inductive JournalOp where
  | queueDeclare (name : String) (durable : Bool) (maxLength : Option Int) (visibilityTimeout : ℚ)
      (maxAttempts : Int) (deadLetter : Bool)
  | queueDelete (name : String)
  | exchangeDeclare (name : String) (type : ExchangeType) (durable : Bool)
  | exchangeDelete (name : String)
  | bind (exchange queue routingKey : String)
  | unbind (exchange queue routingKey : String)
  | messagePublish (message : Message)
  | messageAck (id queue : String)
  | messageNack (id queue : String) (requeue : Bool)
  | messageRetry (id queue : String) (availableAt : ℚ) (attempts : Int)
  | messageRequeue (id source dest : String)
  | messageDead (id queue : String) (attempts : Int) (payload : List UInt8)

structure AofRecord where
  seq : Nat
  op : JournalOp

/-- The sequence counter of the writer and every record appended so far. -/
structure Journal where
  seq : Nat := 0
  records : List AofRecord := []

def Journal.append (journal : Journal) (op : JournalOp) : Journal :=
  { seq := journal.seq + 1, records := journal.records ++ [⟨journal.seq + 1, op⟩] }

/-- The operations of the appended records, oldest first. -/
def Journal.ops (journal : Journal) : List JournalOp := journal.records.map AofRecord.op

@[simp] theorem Journal.ops_append (journal : Journal) (op : JournalOp) :
    (journal.append op).ops = journal.ops ++ [op] := by
  simp [Journal.ops, Journal.append]

end OneOpenBroker.Core

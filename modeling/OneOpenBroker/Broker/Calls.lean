import OneOpenBroker.Broker.HandlerRuns
import OneOpenBroker.Broker.WorkConservation
import OneOpenBroker.Core.Timeouts
import Mathlib.Logic.Relation

/-! The handler on top of its runtime. Whatever a client or the server asks for
becomes calls on the consumer registry and on the queue engine, so a run of the
handler is a run of calls, and what holds in every state that calls lead to
holds in every state of the handler. -/
namespace OneOpenBroker.Core
open Collections QueueEngine

namespace ConsumerManager

variable {c : ConsumerManager} {e : QueueEngine} {id name : String} {P : QueueEngine → Prop}
  {allowed : QueueEngine → EngineOp → Prop}

/-! ## What the calls ask of the engine -/

/-- What a call may do to the engine: run an operation that is allowed, note a
record, or change who takes turns on a queue. The operations that the registry
asks for by itself neither publish nor run the clock. -/
structure Asked (allowed : QueueEngine → EngineOp → Prop) (P : QueueEngine → Prop) : Prop where
  own : ∀ e op, (∀ message, op ≠ .enqueue message) → (∀ now, op ≠ .tick now) → allowed e op
  step : ∀ e persist op, e.Named → allowed e op → P e → P (e.step persist op)
  note : ∀ e op, P e → P (e.append true op)
  seat : ∀ e name queue, e.queues.get? name = some queue → P e → ∀ consumerIds rrIndex,
    P (e.putQueue name { queue with consumerIds, rrIndex })

section Asked

variable (asked : Asked allowed P)
include asked

theorem Asked.joins (queues : List String) (named : e.Named) (start : P e) :
    P (queues.foldl (join id) e) := by
  induction queues generalizing e with
  | nil => exact start
  | cons name rest ih =>
    have declared : P (e.declareQueue name {}) :=
      asked.step e true (.declareQueue name {}) named (asked.own _ _ (by simp) (by simp)) start
    refine ih (join_named named) ?_
    unfold join
    dsimp only
    split
    · exact declared
    · rename_i queue found
      split
      · exact declared
      · exact asked.seat _ name queue found declared _ queue.rrIndex

theorem Asked.leaves (queues : List String) (start : P e) : P (queues.foldl (leave id) e) := by
  induction queues generalizing e with
  | nil => exact start
  | cons name rest ih =>
    refine ih ?_
    unfold leave
    split
    · exact start
    · rename_i queue found
      exact asked.seat e name queue found start _ queue.rrIndex

theorem Asked.cancel (named : e.Named) (start : P e) : P (c.cancel e id).2.2 := by
  unfold ConsumerManager.cancel
  split
  · exact start
  · rename_i consumer found
    have left : (consumer.queues.foldl (leave id) e).Named :=
      (leaves_alike id consumer.queues e).named named
    exact asked.step _ true (.recoverConsumer id) left (asked.own _ _ (by simp) (by simp))
      (asked.leaves consumer.queues start)

theorem Asked.tryReserve (named : e.Named) (start : P e) : P (c.tryReserve e name).2.2 := by
  unfold ConsumerManager.tryReserve
  split
  · exact start
  · rename_i queue found
    dsimp only
    have turned := asked.seat e name queue found start queue.consumerIds (c.nextOn queue).1
    split
    · exact turned
    · rename_i consumerId consumer chosen
      have reserved := asked.step _ true (.reserve name consumerId)
        (seated_named named found (c.nextOn queue).1) (asked.own _ _ (by simp) (by simp)) turned
      change P (QueueEngine.reserve _ name consumerId).2 at reserved
      split <;> rename_i shape <;> rw [shape] at reserved <;> exact reserved

/-- What the operations of the engine and the changes of its turns keep, every
call keeps. -/
theorem Asked.call (intact : Intact c e) (start : P e) (call : Call)
    (ok : ∀ persist op, call = .engine persist op → allowed e op) : P (c.after e call).2 := by
  cases call with
  | engine persist op => exact asked.step e persist op intact.named (ok persist op rfl) start
  | note op => exact asked.note e op start
  | register consumerId connectionId queues prefetchCount tag =>
    exact asked.joins queues intact.named start
  | qos consumerId prefetchCount => exact start
  | onAck consumerId => exact start
  | cancel consumerId => exact asked.cancel intact.named start
  | disconnectConnection connectionId order =>
    have both : Intact (c.disconnectConnection e connectionId order).2.1
        (c.disconnectConnection e connectionId order).2.2 ∧
        P (c.disconnectConnection e connectionId order).2.2 :=
      cancelAll_rule (I := fun c e => Intact c e ∧ P e)
        (fun c e id inv => ⟨cancel_intact inv.1, asked.cancel inv.1.named inv.2⟩) _ ⟨intact, start⟩
    exact both.2
  | tryReserve queueName => exact asked.tryReserve intact.named start

end Asked

/-! ## Deadlines -/

theorem ordered_asked : Asked (fun _ _ => True) QueueEngine.Ordered where
  own _ _ _ _ := trivial
  step _ _ op named _ ordered := step_ordered named ordered op
  note _ _ ordered := ordered
  seat _ _ _ _ ordered _ _ := ordered

/-- The heap of the deadlines stays in order. -/
theorem Reachable.ordered (reached : Reachable c e) : e.Ordered := by
  induction reached with
  | start config clock => exact List.Pairwise.nil
  | call reached call ordered => exact ordered_asked.call reached.intact ordered call fun _ _ _ => trivial
  | rotate _ _ _ ordered => exact ordered
  | restart _ _ _ _ => simp [QueueEngine.Ordered, restore_heap]

end ConsumerManager
end OneOpenBroker.Core

namespace OneOpenBroker.Broker.Handler
open Collections OneOpenBroker.Core QueueEngine ConsumerManager

variable {g : Guards} {h h' : Handler}

/-- One call on the registry or on its engine. -/
def Called (s s' : ConsumerManager × QueueEngine) : Prop := ∃ call, s.1.after s.2 call = s'

/-- The registry and the engine of `h'` are those of `h` after some calls. -/
def Follows (h h' : Handler) : Prop :=
  Relation.ReflTransGen Called (h.consumers, h.queues) (h'.consumers, h'.queues)

theorem Follows.call {start : Handler} (follows : Follows start h) (call : Call)
    (after : h.consumers.after h.queues call = (h'.consumers, h'.queues)) : Follows start h' :=
  Relation.ReflTransGen.tail follows ⟨call, after⟩

theorem Follows.credit {start : Handler} (follows : Follows start h) (consumerId : String) :
    Follows start (h.credited consumerId) := by
  unfold credited
  split
  · exact follows
  · exact follows.call (.onAck consumerId) rfl

theorem Follows.took {start : Handler} {queue id m : String} {consumer : Consumer}
    {message : Message} {e' : QueueEngine} {sent : Nat} {outcome : Outcome}
    (follows : Follows start h) (takes : h.consumers.Takes h.queues queue id consumer m message e') :
    Follows start (h.took queue id consumer message e' sent outcome) := by
  apply follows.call (.tryReserve queue)
  change (h.consumers.tryReserve h.queues queue).2 = _
  rw [takes.result]
  rfl

/-- Commands, the ticker and the cleanup are made of such calls. -/
theorem follows_upheld (g : Guards) (start : Handler) : Upheld g (Follows start) where
  frame h h' inv queues consumers _ _ := by
    unfold Follows
    rw [queues, consumers]
    exact inv
  idle h queue e' inv nothing _ := by
    apply inv.call (.tryReserve queue)
    change (h.consumers.tryReserve h.queues queue).2 = _
    rw [nothing]
    rfl
  record h op inv _ := inv.call (.note op) rfl
  declare h name args inv := inv.call (.engine true (.declareQueue name args)) rfl
  delete h name inv _ := inv.call (.engine true (.deleteQueue name)) rfl
  enqueue h message _ inv _ _ _ := inv.call (.engine true (.enqueue message)) rfl
  requeue h queue m inv := inv.call (.engine true (.dlqRequeue queue m)) rfl
  tick h inv _ := inv.call (.engine true (.tick none)) rfl
  ack h m inv _ := by
    have acked : Follows start (h.withQueues (h.queues.ack m).2) := inv.call (.engine true (.ack m)) rfl
    exact acked.credit _
  nack h m requeue inv _ := by
    have nacked : Follows start (h.withQueues (h.queues.nack m requeue).2) :=
      inv.call (.engine true (.nack m requeue)) rfl
    exact nacked.credit _
  refusedNack h m requeue inv _ := inv.call (.engine true (.nack m requeue)) rfl
  register h id connectionId queues prefetch tag inv _ _ :=
    inv.call (.register id connectionId queues prefetch tag) rfl
  window h id count inv := inv.call (.qos id count) rfl
  cancel h id inv := inv.call (.cancel id) rfl
  issue _ _ inv := inv
  pull h queue id consumer m message e' inv takes := inv.took takes
  pump h queue inv _ := by
    apply pumpQueue_loop (L := Follows start) (I := Follows start) _ _ _ inv
    · intro h e' inv nothing _
      apply inv.call (.tryReserve queue)
      change (h.consumers.tryReserve h.queues queue).2 = _
      rw [nothing]
      rfl
    · exact fun h id consumer m message e' sent inv takes => inv.took takes
    · intro h id consumer m message e' sent inv takes
      have took : Follows start (h.took queue id consumer message e' sent .refused) := inv.took takes
      generalize h.took queue id consumer message e' sent .refused = h' at took
      have nacked : Follows start (h'.withQueues (h'.queues.nack message.id true).2) :=
        took.call (.engine true (.nack message.id true)) rfl
      exact nacked.call (.onAck consumer.consumerId) rfl

/-- Every step of the handler is a run of calls. -/
theorem step_follows (h : Handler) (event : Event) : Follows h (h.step event) :=
  (follows_upheld {} h).step Relation.ReflTransGen.refl (Guards.event_free h event)

theorem calls_reachable {s s' : ConsumerManager × QueueEngine}
    (calls : Relation.ReflTransGen Called s s') (reached : ConsumerManager.Reachable s.1 s.2) :
    ConsumerManager.Reachable s'.1 s'.2 := by
  induction calls with
  | refl => exact reached
  | tail _ called ih =>
    obtain ⟨call, rfl⟩ := called
    exact ih.call call

/-- The registry and the engine of a broker are in a state that calls lead to. -/
theorem Reachable.registry (reached : Reachable g h) :
    ConsumerManager.Reachable h.consumers h.queues := by
  induction reached with
  | start config clock sends => exact .start config clock
  | step _ event _ ih => exact calls_reachable (step_follows _ event) ih

end OneOpenBroker.Broker.Handler

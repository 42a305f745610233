import OneOpenBroker.Core.Cleanup
import OneOpenBroker.Core.Overflow

/-! Cancelling consumers where a retry may overflow. A consumer is off the
registry before its deliveries are recovered, so an exception of the recovery
leaves the rest of them inflight for nobody, and the other consumers of a
connection that is cleaned up stay registered. Where every delay is a number
nothing of this happens. -/
namespace OneOpenBroker.Core.ConsumerManager
open Collections QueueEngine

/-- `cancel` on the engine that raises. -/
def raisingCancel (c : ConsumerManager) (e : QueueEngine) (consumerId : String) :
    Except EngineError Bool × ConsumerManager × QueueEngine :=
  match c.consumers.get? consumerId with
  | none => (.ok false, c, e)
  | some consumer =>
    let c : ConsumerManager :=
      { consumers := c.consumers.erase consumerId
        byConnection := strike c.byConnection consumer.connectionId consumerId }
    let (result, e) := Raising.recoverConsumer (consumer.queues.foldl (leave consumerId) e) consumerId
    (result.map fun _ => true, c, e)

/-- The loop of `disconnect_connection`, which an exception ends. -/
def raisingCancelAll : List String → ConsumerManager → QueueEngine →
    Except EngineError Nat × ConsumerManager × QueueEngine
  | [], c, e => (.ok 0, c, e)
  | consumerId :: rest, c, e =>
    match c.raisingCancel e consumerId with
    | (.error raised, c, e) => (.error raised, c, e)
    | (.ok cancelled, c, e) =>
      let (result, c, e) := raisingCancelAll rest c e
      (result.map (· + cancelled.toNat), c, e)

def raisingDisconnect (c : ConsumerManager) (e : QueueEngine) (connectionId : String)
    (order : List String) : Except EngineError Nat × ConsumerManager × QueueEngine :=
  let ids := (c.byConnection.get? connectionId).getD []
  raisingCancelAll (if order.Perm ids then order else ids) c e

variable {c : ConsumerManager} {e : QueueEngine} {id connectionId : String}
  {kind : String → InflightRecord → Prop} {order ids : List String}

/-! ## Where every delay is a number -/

theorem leaves_config (queues : List String) : (queues.foldl (leave id) e).config = e.config := by
  induction queues generalizing e with
  | nil => rfl
  | cons name rest ih =>
    have first : (leave id e name).config = e.config := by
      unfold leave
      split <;> rfl
    exact ih.trans first

theorem leaves_clear (clear : Clear kind e) (queues : List String) :
    Clear kind (queues.foldl (leave id) e) := by
  have alike := leaves_alike id queues e
  intro q m record message there here held
  rw [leaves_config]
  exact clear q m record message (alike.records ▸ there) here (alike.messages ▸ held)

theorem cancel_clear (named : e.Named) (clear : Clear kind e) : Clear kind (c.cancel e id).2.2 := by
  unfold cancel
  split
  · exact clear
  · rename_i consumer found
    have left : (consumer.queues.foldl (leave id) e).Named :=
      (leaves_alike id consumer.queues e).named named
    have swept : ((consumer.queues.foldl (leave id) e).recoverConsumer id).2.Named ∧
        Clear kind ((consumer.queues.foldl (leave id) e).recoverConsumer id).2 :=
      recoverConsumer_preserves (I := fun e => e.Named ∧ Clear kind e) (fun _ inv => inv.1)
        (fun _ _ _ _ inv _ _ => ⟨failDelivery_named inv.1, failDelivery_clear inv.1 inv.2⟩)
        ⟨left, leaves_clear clear consumer.queues⟩
    exact swept.2

theorem cancel_agrees (named : e.Named) (delays : HasDelays e (.recoverConsumer id)) :
    c.raisingCancel e id = ((c.cancel e id).1.mapError .runtime, (c.cancel e id).2) := by
  unfold raisingCancel cancel
  cases found : c.consumers.get? id with
  | none => rfl
  | some consumer =>
    have left : (consumer.queues.foldl (leave id) e).Named :=
      (leaves_alike id consumer.queues e).named named
    dsimp only
    rw [recoverConsumer_agrees left (leaves_clear delays consumer.queues)]
    cases ((consumer.queues.foldl (leave id) e).recoverConsumer id).1 <;> rfl

/-- No retry that the cleanup of some consumers asks for overflows. -/
theorem cancelAll_agrees (named : e.Named)
    (clear : Clear (fun _ record => record.consumerId ∈ ids) e) (among : ∀ id ∈ order, id ∈ ids) :
    raisingCancelAll order c e = ((cancelAll order c e).1.mapError .runtime, (cancelAll order c e).2) := by
  induction order generalizing c e with
  | nil => rfl
  | cons id rest ih =>
    have mine : HasDelays e (.recoverConsumer id) := by
      intro q m record message there here held
      obtain rfl : record.consumerId = id := here
      exact clear q m record message there (among _ List.mem_cons_self) held
    have later : ∀ id ∈ rest, id ∈ ids := fun other member => among other (List.mem_cons_of_mem _ member)
    have kept : (c.cancel e id).2.2.Named ∧
        Clear (fun _ record => record.consumerId ∈ ids) (c.cancel e id).2.2 :=
      ⟨cancel_named named, cancel_clear named clear⟩
    unfold raisingCancelAll cancelAll
    rw [cancel_agrees named mine]
    rcases shape : c.cancel e id with ⟨_ | cancelled, c', e'⟩ <;> rw [shape] at kept
    · rfl
    · have next := ih (c := c') kept.1 kept.2 later
      dsimp only [Except.mapError]
      rw [next]
      cases (cancelAll rest c' e').1 <;> rfl

theorem disconnect_agrees (named : e.Named)
    (clear : Clear (fun _ record => record.consumerId ∈ c.listed connectionId) e) :
    c.raisingDisconnect e connectionId order =
      ((c.disconnectConnection e connectionId order).1.mapError .runtime,
        (c.disconnectConnection e connectionId order).2) := by
  refine cancelAll_agrees named clear fun id member => ?_
  split at member
  · rename_i perm
    exact perm.mem_iff.mp member
  · exact member

end OneOpenBroker.Core.ConsumerManager

import OneOpenBroker.Client.AsyncClient

/-! Which call gets which delivery. The deliveries of all queues come in one
queue of the client, and a call of `consume` takes the oldest of them without a
look at where it is from. -/
namespace OneOpenBroker.Client
open Collections Systems

namespace AsyncBroker

/-- The queue that is named by the call which takes a delivery in a step, if
there is one to take. -/
def taker (b : AsyncBroker) : ClientStep → Option String
  | .consume call queue _ => if call ∉ b.calls ∧ queue ∈ b.consumers then some queue else none
  | .answered call =>
    match b.calls.get? call with
    | some (.requesting queue rid) =>
      if rid ∈ b.proto.done ∧ (b.proto.accepted rid).isSome then some queue else none
    | _ => none
  | .wake call =>
    match b.calls.get? call with
    | some (.waiting queue) => some queue
    | _ => none
  | _ => none

/-- A call takes its turn when the oldest delivery is of the queue it names. -/
def OwnTurn (b : AsyncBroker) (step : ClientStep) : Prop :=
  ∀ queue ∈ b.taker step, ∀ delivery ∈ b.proto.deliveries.head?, delivery.queue = queue

/-- What was returned was delivered from the queue that the call names. -/
def Right (b : AsyncBroker) : Prop :=
  ∀ r ∈ b.returned, r.delivery.queue = r.queue ∧ r.message = toMessage r.queue r.delivery

/-- Every delivery is returned by one call, in the order of arrival, or it is
still in the queue. -/
structure OnceInOrder (b : AsyncBroker) : Prop where
  order : b.arrived = b.returned.map (·.delivery) ++ b.proto.deliveries
  calls : (b.returned.map (·.call)).Nodup

/-- The same, and the calls that returned are at their end. -/
structure Settled (b : AsyncBroker) : Prop extends OnceInOrder b where
  ended : ∀ r ∈ b.returned, b.calls.get? r.call = some .ended

/-- What a step does with the deliveries: some come in, or a call that names a
queue takes the oldest. -/
inductive Delivers (b : AsyncBroker) (queue? : Option String) (b' : AsyncBroker) : Prop where
  | stays (came : List Delivery) (arrived : b'.arrived = b.arrived ++ came)
      (deliveries : b'.proto.deliveries = b.proto.deliveries ++ came)
      (returned : b'.returned = b.returned)
      (ended : ∀ call, b.calls.get? call = some .ended → b'.calls.get? call = some .ended)
      (idle : queue? = none ∨ b.proto.deliveries = [])
  | takes (call : Nat) (queue : String) (delivery : Delivery) (rest : List Delivery)
      (who : queue? = some queue) (first : b.proto.deliveries = delivery :: rest)
      (arrived : b'.arrived = b.arrived) (deliveries : b'.proto.deliveries = rest)
      (returned : b'.returned = b.returned ++ [⟨call, queue, delivery, toMessage queue delivery⟩])
      (fresh : b.calls.get? call ≠ some .ended)
      (calls : b'.calls = b.calls.set call .ended)

variable {b b' : AsyncBroker} {call : Nat} {queue : String} {state : Call} {queue? : Option String}

/-! ## One step -/

theorem ended_set (fresh : b.calls.get? call ≠ some .ended) (other : Nat)
    (ended : b.calls.get? other = some .ended) : (b.calls.set call state).get? other = some .ended := by
  rw [Dict.get?_set_ne]
  · exact ended
  · rintro rfl
    exact fresh ended

theorem take_delivers (fresh : b.calls.get? call ≠ some .ended) :
    Delivers b (some queue) (b.take call queue) := by
  unfold take
  cases shape : b.proto.deliveries with
  | nil =>
    exact .stays [] (List.append_nil _).symm (by simp [shape]) rfl (ended_set fresh) (.inr shape)
  | cons delivery rest =>
    exact .takes call queue delivery rest rfl shape rfl rfl rfl fresh rfl

/-- A step that leaves the deliveries where they are. -/
theorem Delivers.same (proto : b'.proto.deliveries = b.proto.deliveries)
    (arrived : b'.arrived = b.arrived) (returned : b'.returned = b.returned)
    (ended : ∀ call, b.calls.get? call = some .ended → b'.calls.get? call = some .ended) :
    Delivers b none b' :=
  .stays [] (by simp [arrived]) (by simp [proto]) returned ended (.inl rfl)

theorem Delivers.refl (b : AsyncBroker) : Delivers b none b := .same rfl rfl rfl fun _ ended => ended

theorem consume_delivers {prefetch : Int} (unknown : call ∉ b.calls) :
    Delivers b (b.taker (.consume call queue prefetch)) (b.consume call queue prefetch) := by
  have fresh : b.calls.get? call ≠ some .ended := by
    rw [Dict.get?_eq_none.mpr unknown]
    exact nofun
  unfold taker consume
  dsimp only
  by_cases known : queue ∈ b.consumers
  · rw [if_pos ⟨unknown, known⟩, if_pos known]
    exact take_delivers fresh
  · rw [if_neg fun both => known both.2, if_neg known]
    have same := ProtocolClient.request_deliveries (c := b.proto) (.consume queue prefetch)
    rcases shape : b.proto.request (.consume queue prefetch) with ⟨_ | rid, proto⟩
    · rw [shape] at same
      exact .same same rfl rfl (ended_set fresh)
    · rw [shape] at same
      exact .same same rfl rfl (ended_set fresh)

theorem answered_delivers {rid : Nat} (at_request : b.calls.get? call = some (.requesting queue rid))
    (done : rid ∈ b.proto.done) :
    Delivers b (b.taker (.answered call)) (b.answered call queue rid) := by
  have fresh : b.calls.get? call ≠ some .ended := by rw [at_request]; simp
  unfold taker answered
  simp only [at_request, done, true_and]
  cases accepted : b.proto.accepted rid with
  | none => exact .same rfl rfl rfl (ended_set fresh)
  | some answer =>
    have took : Delivers { b with consumers := b.consumers.set queue answer.consumerId } (some queue)
        ({ b with consumers := b.consumers.set queue answer.consumerId }.take call queue) :=
      take_delivers fresh
    cases took with
    | stays came arrived deliveries returned ended idle =>
      exact .stays came arrived deliveries returned ended idle
    | takes call queue delivery rest who first arrived deliveries returned fresh calls =>
      exact .takes call queue delivery rest who first arrived deliveries returned fresh calls

theorem pull_keeps (iterator : Nat) (iteration : Iteration) :
    Delivers b none (b.pull iterator iteration) := by
  unfold pull
  split
  · exact .same rfl rfl rfl fun _ ended => ended
  · exact .same rfl rfl rfl fun _ ended => ended

theorem subscribe_keeps (iterator : Nat) (channel : String) :
    Delivers b none (b.subscribe iterator channel) := by
  have same := ProtocolClient.request_deliveries (c := b.proto) (.subscribe channel)
  unfold subscribe
  rcases shape : b.proto.request (.subscribe channel) with ⟨_ | rid, proto⟩ <;> rw [shape] at same
  · exact .same same rfl rfl fun _ ended => ended
  · exact .same same rfl rfl fun _ ended => ended

theorem subscribed_keeps (iterator : Nat) (iteration : Iteration) (rid : Nat) :
    Delivers b none (b.subscribed iterator iteration rid) := by
  unfold subscribed
  split
  · exact pull_keeps iterator iteration
  · exact .same rfl rfl rfl fun _ ended => ended

theorem finish_keeps (iterator : Nat) (iteration : Iteration) :
    Delivers b none (b.finish iterator iteration) := by
  have same := ProtocolClient.request_deliveries (c := b.proto) (.unsubscribe iteration.channel)
  unfold finish
  rcases shape : b.proto.request (.unsubscribe iteration.channel) with ⟨_ | rid, proto⟩ <;>
    rw [shape] at same
  · exact .same same rfl rfl fun _ ended => ended
  · exact .same same rfl rfl fun _ ended => ended

theorem step_delivers (b : AsyncBroker) (step : ClientStep) :
    Delivers b (b.taker step) (b.step step) := by
  cases step with
  | receive frame =>
    exact .stays _ rfl (ProtocolClient.receive_deliveries _) rfl (fun _ ended => ended) (.inl rfl)
  | endOfStream => exact .same (by simp [AsyncBroker.step]) rfl rfl fun _ ended => ended
  | close => exact .same (by simp [AsyncBroker.step]) rfl rfl fun _ ended => ended
  | timeout rid => exact .same (by simp [AsyncBroker.step]) rfl rfl fun _ ended => ended
  | consume call queue prefetch =>
    unfold AsyncBroker.step
    dsimp only
    split
    · rename_i known
      rw [taker, if_neg fun both => both.1 known]
      exact .refl b
    · exact consume_delivers ‹_›
  | answered call =>
    unfold AsyncBroker.step
    dsimp only
    split
    · rename_i queue rid at_request
      split
      · exact answered_delivers at_request ‹_›
      · rename_i undone
        simp only [taker, at_request, undone, false_and, if_false]
        exact .refl b
    · simp only [taker]
      exact .refl b
  | wake call =>
    unfold AsyncBroker.step
    dsimp only
    split
    · rename_i queue waiting
      rw [taker, waiting]
      exact take_delivers (by simp [waiting])
    · simp only [taker]
      exact .refl b
  | cancel call =>
    unfold AsyncBroker.step
    dsimp only
    split
    · refine .same rfl rfl rfl fun other ended => ?_
      rw [Dict.get?_set]
      split
      · rfl
      · exact ended
    · exact .refl b
  | subscribe iterator channel =>
    unfold AsyncBroker.step
    dsimp only
    split
    · exact .refl b
    · exact subscribe_keeps iterator channel
  | subscribed iterator =>
    unfold AsyncBroker.step
    dsimp only
    split
    · split
      · exact subscribed_keeps iterator _ _
      · exact .refl b
    · exact .refl b
  | wakeIterator iterator =>
    unfold AsyncBroker.step
    dsimp only
    split
    · exact pull_keeps iterator _
    · exact .refl b
  | next iterator =>
    unfold AsyncBroker.step
    dsimp only
    split
    · exact pull_keeps iterator _
    · exact .refl b
  | finish iterator =>
    unfold AsyncBroker.step
    dsimp only
    split
    · split
      · exact finish_keeps iterator _
      · split
        · exact .same rfl rfl rfl fun _ ended => ended
        · exact .refl b
    · exact .refl b
  | unsubscribed iterator =>
    unfold AsyncBroker.step
    dsimp only
    split
    · split
      · exact .same rfl rfl rfl fun _ ended => ended
      · exact .refl b
    · exact .refl b

/-! ## Runs -/

theorem settled_empty : Settled {} := ⟨⟨rfl, List.nodup_nil⟩, by simp⟩

theorem Delivers.settled (delivers : Delivers b queue? b') (settled : Settled b) : Settled b' := by
  cases delivers with
  | stays came arrived deliveries returned ended =>
    refine ⟨⟨?_, ?_⟩, fun r member => ?_⟩
    · rw [arrived, returned, deliveries, settled.order, List.append_assoc]
    · rw [returned]
      exact settled.calls
    · rw [returned] at member
      exact ended _ (settled.ended r member)
  | takes call queue delivery rest _ first arrived deliveries returned fresh calls =>
    have apart : call ∉ b.returned.map (·.call) := by
      intro member
      obtain ⟨r, listed, rfl⟩ := List.mem_map.mp member
      exact fresh (settled.ended r listed)
    refine ⟨⟨?_, ?_⟩, fun r member => ?_⟩
    · rw [arrived, returned, deliveries, settled.order, first]
      simp
    · rw [returned, List.map_append, List.map_singleton, ← List.concat_eq_append]
      exact settled.calls.concat apart
    · rw [returned, List.mem_append, List.mem_singleton] at member
      rw [calls]
      rcases member with before | rfl
      · exact ended_set fresh _ (settled.ended r before)
      · exact Dict.get?_set_self

/-- What was returned stays right exactly if the call had its turn. -/
theorem Delivers.right_iff {step : ClientStep} (delivers : Delivers b (b.taker step) b')
    (right : Right b) : Right b' ↔ OwnTurn b step := by
  unfold OwnTurn
  cases delivers with
  | stays came _ _ returned _ idle =>
    refine iff_of_true (by rwa [Right, returned]) fun queue named delivery first => ?_
    rcases idle with nobody | nothing
    · simp [nobody] at named
    · simp [nothing] at first
  | takes call queue delivery rest who first _ _ returned =>
    simp only [Right, returned, who, first, List.mem_append, List.mem_singleton, Option.mem_def,
      List.head?_cons, Option.some.injEq, forall_eq']
    constructor
    · intro right'
      exact (right' _ (.inr rfl)).1
    · rintro own r (before | rfl)
      · exact right r before
      · exact ⟨own, rfl⟩

/-- **Which call gets which delivery.** In every run every delivery is returned
once and in order; the calls get deliveries of their own queues throughout
exactly if each has its turn when the oldest delivery is of its queue. -/
theorem consume_right_iff (steps : List ClientStep) :
    (∀ early, early <+: steps → Right (run step {} early) ∧ OnceInOrder (run step {} early)) ↔
      Allowed step OwnTurn {} steps := by
  refine always_iff (I := fun b => Right b ∧ OnceInOrder b) (J := Settled) (A := fun _ => True)
    (fun b step _ settled => (step_delivers b step).settled settled) (fun b step _ settled inv => ?_)
    ⟨fun _ member => (nomatch member), settled_empty.toOnceInOrder⟩ settled_empty (fun _ _ => trivial)
  have delivers := step_delivers b step
  rw [← delivers.right_iff inv.1]
  exact and_iff_left (delivers.settled settled).toOnceInOrder

/-- Two calls wait, the event is of the queue of the second. -/
theorem consume_crosses : ¬ ∀ early, early <+: [
      ClientStep.consume 1 "qa" 1, .receive (.response 1 { ok := true, consumerId := "a" }), .answered 1,
      .consume 2 "qb" 1, .receive (.response 2 { ok := true, consumerId := "b" }), .answered 2,
      .receive (.deliver { messageId := "m", queue := "qb", payload := [1] }), .wake 1] →
    Right (run step {} early) ∧ OnceInOrder (run step {} early) := by
  intro right
  have crossed : "qb" = "qa" := ((right _ List.prefix_rfl).1 _ (List.mem_singleton.mpr rfl)).1
  exact absurd crossed (by decide)

end AsyncBroker
end OneOpenBroker.Client

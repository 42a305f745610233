import OneOpenBroker.Broker.Publishable

/-! Dangling bindings. The queues are kept by one engine and the bindings by
another, so what takes an exchange or a queue away has to clean the bindings.
Deleting an exchange does. Deleting a queue does not, nor for the DLQ that goes
along with it: the bindings wait for a queue of that name to come back. -/
namespace OneOpenBroker.Core.RoutingEngine
open Collections QueueEngine

/-- Every binding names an exchange and a queue that exist. -/
structure Anchored (r : RoutingEngine) : Prop where
  exchange : ∀ b ∈ r.bindings, b.exchange ∈ r.exchanges
  queue : ∀ b ∈ r.bindings, b.queue ∈ r.queues.queues

variable {r r' : RoutingEngine} {name q exchange queue routingKey : String} {args : QueueArgs}
  {persist durable : Bool} {type : ExchangeType}

/-- More queues, and the same exchanges and bindings. -/
theorem Anchored.keep (anchored : Anchored r) (exchanges : r'.exchanges = r.exchanges)
    (bindings : r'.bindings = r.bindings)
    (stays : ∀ q ∈ r.queues.queues, q ∈ r'.queues.queues) : Anchored r' := by
  constructor
  · rw [exchanges, bindings]
    exact anchored.exchange
  · rw [bindings]
    exact fun b member => stays _ (anchored.queue b member)

/-- A queue that is gone is a target of no exchange, so it has none when it
comes back. -/
theorem Anchored.no_target (anchored : Anchored r) (gone : q ∉ r.queues.queues)
    (exchange routingKey : String) : q ∉ r.routeTargets exchange routingKey := by
  intro target
  obtain ⟨_, _, b, member, _, _, rfl⟩ := mem_routeTargets.mp target
  exact gone (anchored.queue b member)

theorem declareExchange_anchored (anchored : Anchored r) :
    Anchored (r.declareExchange name type durable persist) := by
  unfold declareExchange
  split
  · exact anchored
  · refine ⟨fun b member => Dict.mem_set.mpr (.inr (anchored.exchange b member)), fun b member => ?_⟩
    have there := anchored.queue b member
    simpa [append] using there

theorem deleteExchange_anchored (anchored : Anchored r) :
    Anchored (r.deleteExchange name persist).2 := by
  unfold deleteExchange
  split
  · exact anchored
  · split
    · constructor
      · intro b member
        obtain ⟨before, other⟩ := List.mem_filter.mp member
        exact Dict.mem_erase.mpr ⟨by simpa using other, anchored.exchange b before⟩
      · intro b member
        have there := anchored.queue b (List.mem_filter.mp member).1
        simpa [append] using there
    · exact anchored

theorem bind_anchored (anchored : Anchored r) :
    Anchored (r.bind exchange queue routingKey persist).2 := by
  unfold RoutingEngine.bind
  split
  · rename_i known
    constructor
    · intro b member
      rcases List.mem_insert_iff.mp member with rfl | before
      · exact known.1
      · exact anchored.exchange b before
    · intro b member
      have there : b.queue ∈ r.queues.queues := by
        rcases List.mem_insert_iff.mp member with rfl | before
        · exact known.2
        · exact anchored.queue b before
      simpa [append] using there
  · exact anchored

theorem unbind_anchored (anchored : Anchored r) :
    Anchored (r.unbind exchange queue routingKey persist).2 := by
  unfold unbind
  split
  · refine ⟨fun b member => anchored.exchange b (List.mem_of_mem_erase member), fun b member => ?_⟩
    have there := anchored.queue b (List.mem_of_mem_erase member)
    simpa [append] using there
  · exact anchored

theorem declared_anchored (anchored : Anchored r) : Anchored
    ({ r with queues := r.queues.declareQueue name args persist }.onQueueDeclared q persist) :=
  bind_anchored (anchored.keep rfl rfl fun _ there => declareQueue_seats.stays there)

theorem ensureQueue_anchored {args : PublishArgs} (anchored : Anchored r) :
    Anchored (r.ensureQueue args persist).1 := by
  unfold ensureQueue
  split
  · exact anchored
  · split
    · dsimp only
      split
      · exact anchored
      · exact declared_anchored anchored
    · exact anchored

/-- Deleting a queue leaves no dangling binding exactly if none leads to a
queue that goes with it. -/
theorem deleteQueue_anchored_iff (anchored : Anchored r) :
    Anchored { r with queues := (r.queues.deleteQueue name persist).2 } ↔
      ∀ b ∈ r.bindings, ¬ r.queues.Deletes name b.queue := by
  classical
  have there (q : String) : q ∈ (r.queues.deleteQueue name persist).2.queues ↔
      ¬ r.queues.Deletes name q ∧ q ∈ r.queues.queues := by
    rw [← not_iff_not, ← spec?_none, deleteQueue_spec?]
    split
    · rename_i deletes
      simp [deletes]
    · rename_i kept
      simp [kept, spec?_none]
  constructor
  · exact fun after b member => ((there b.queue).mp (after.queue b member)).1
  · exact fun unbound => ⟨anchored.exchange,
      fun b member => (there b.queue).mpr ⟨unbound b member, anchored.queue b member⟩⟩

end OneOpenBroker.Core.RoutingEngine

namespace OneOpenBroker.Broker.Handler
open Collections OneOpenBroker.Core QueueEngine RoutingEngine ConsumerManager Systems

/-- A queue is deleted only if no binding leads to it, or to the DLQ that is
deleted along with it. -/
def DeletesUnbound (h : Handler) : Event → Prop
  | .command _ (.deleteQueue name) => ∀ b ∈ h.routing.bindings, ¬ h.queues.Deletes name b.queue
  | _ => True

variable {h h' : Handler} {connectionId queue id name : String} {names : List String}

theorem Quiet.anchored (quiet : Quiet h h') (anchored : h.routing.Anchored) : h'.routing.Anchored :=
  anchored.keep quiet.exchanges quiet.bindings fun _ there => quiet.seats.stays there

theorem ensureQueues_anchored (names : List String) (anchored : h.routing.Anchored) :
    (names.foldl ensureQueue h).routing.Anchored := by
  induction names generalizing h with
  | nil => exact anchored
  | cons name rest ih =>
    refine ih ?_
    unfold ensureQueue
    split
    · exact anchored
    · exact declared_anchored anchored

theorem register_anchored {prefetch : Int} {tag : String} (anchored : h.routing.Anchored) :
    (h.register id connectionId names prefetch tag).routing.Anchored :=
  anchored.keep rfl rfl (register_enters (h := h)).stays

theorem cancelled_anchored (named : h.queues.Named) (anchored : h.routing.Anchored) :
    (h.cancelled id).routing.Anchored := by
  obtain ⟨exchanges, bindings⟩ := cancelled_tables id h
  exact anchored.keep exchanges bindings (cancelled_queues named).1

theorem cancelAll_anchored (ids : List String) (named : h.queues.Named)
    (anchored : h.routing.Anchored) :
    (withQueues { h with consumers := (cancelAll ids h.consumers h.queues).2.1 }
      (cancelAll ids h.consumers h.queues).2.2).routing.Anchored :=
  (cancelAll_keeps (I := fun h' => h'.routing.Anchored ∧ h'.queues.Named)
    (fun _ _ ⟨anchored, named⟩ => ⟨cancelled_anchored named anchored, cancel_named named⟩)
    ids ⟨anchored, named⟩).1

/-! ## Commands -/

theorem cmdConsume_anchored {consumerId tag : String} {prefetch : Option Int} {uuid : Uuid}
    (anchored : h.routing.Anchored) :
    (h.cmdConsume connectionId names queue consumerId prefetch tag uuid).2.routing.Anchored := by
  unfold cmdConsume
  dsimp only
  split
  · exact anchored
  · have ready := ensureQueues_anchored (h := { h with
      consumed := (consumeQueues names queue).map (connectionId, ·) ++ h.consumed })
      (consumeQueues names queue) anchored
    exact pumpAll_quiet.anchored (register_anchored ready)

theorem cmdGet_anchored {consumerId : String} {prefetch : Option Int} (anchored : h.routing.Anchored) :
    (h.cmdGet connectionId queue consumerId prefetch).2.routing.Anchored := by
  by_cases unnamed : queue = ""
  · unfold cmdGet
    rw [if_pos unnamed]
    exact anchored
  · have reader : (h.getConsumer connectionId queue (readerOf connectionId queue consumerId)
        (prefetch.getD (h.prefetchOf connectionId))).routing.Anchored := by
      unfold getConsumer
      split
      · split
        · exact anchored
        · exact anchored.keep rfl rfl fun _ there => there
      · exact register_anchored anchored
    exact (cmdGet_quiet unnamed).anchored reader

/-- Whatever the command, the exchanges it leaves have no stale bindings; only a
deletion of a queue leaves bindings behind. -/
theorem handle_anchored_iff {command : Command} (named : h.queues.Named)
    (anchored : h.routing.Anchored) : (h.handle connectionId command).2.routing.Anchored ↔
      DeletesUnbound h (.command connectionId command) := by
  cases command with
  | deleteQueue name =>
    have deleted : (h.withQueues (h.queues.deleteQueue name).2).routing.Anchored ↔
        ∀ b ∈ h.routing.bindings, ¬ h.queues.Deletes name b.queue := deleteQueue_anchored_iff anchored
    change (h.cmdDeleteQueue name).2.routing.Anchored ↔ _
    unfold cmdDeleteQueue
    split <;> rename_i shape <;> rw [shape] at deleted <;> exact deleted
  | declareExchange name type =>
    refine iff_of_true ?_ trivial
    change (h.cmdDeclareExchange name type).2.routing.Anchored
    unfold cmdDeclareExchange
    dsimp only
    split
    · exact declareExchange_anchored anchored
    · split <;> exact anchored
  | deleteExchange name =>
    have deleted : (h.routing.deleteExchange name).2.Anchored := deleteExchange_anchored anchored
    refine iff_of_true ?_ trivial
    change (h.cmdDeleteExchange name).2.routing.Anchored
    unfold cmdDeleteExchange
    split <;> rename_i shape <;> rw [shape] at deleted <;> exact deleted
  | declareQueue name maxLength visibilityTimeout maxAttempts =>
    refine iff_of_true ?_ trivial
    change (h.cmdDeclareQueue name maxLength visibilityTimeout maxAttempts).2.routing.Anchored
    unfold cmdDeclareQueue
    split
    · exact anchored
    · exact declared_anchored anchored
  | bind exchange queue routingKey =>
    have bound : (h.routing.bind exchange queue routingKey).2.Anchored := bind_anchored anchored
    refine iff_of_true ?_ trivial
    change (h.cmdBind exchange queue routingKey).2.routing.Anchored
    unfold cmdBind
    split <;> rename_i shape <;> rw [shape] at bound <;> exact bound
  | unbind exchange queue routingKey =>
    have unbound : (h.routing.unbind exchange queue routingKey).2.Anchored := unbind_anchored anchored
    refine iff_of_true ?_ trivial
    change (h.cmdUnbind exchange queue routingKey).2.routing.Anchored
    unfold cmdUnbind
    split <;> rename_i shape <;> rw [shape] at unbound <;> exact unbound
  | publish args stamp =>
    have ensured : (h.routing.ensureQueue args true).1.Anchored := ensureQueue_anchored anchored
    have quiet : Quiet { h with routing := (h.routing.ensureQueue args true).1 }
        (h.cmdPublish args stamp).2 := cmdPublish_quiet
    exact iff_of_true (quiet.anchored ensured) trivial
  | get queue consumerId prefetch => exact iff_of_true (cmdGet_anchored anchored) trivial
  | consume queues queue consumerId prefetch tag uuid =>
    exact iff_of_true (cmdConsume_anchored anchored) trivial
  | cancel consumerId =>
    have done : (h.cancelled consumerId).routing.Anchored := cancelled_anchored named anchored
    refine iff_of_true ?_ trivial
    unfold cancelled at done
    change (h.cmdCancel consumerId).2.routing.Anchored
    unfold cmdCancel
    split
    · exact anchored
    · dsimp only
      split <;> exact done
  | ack messageId => exact iff_of_true (cmdAck_quiet.anchored anchored) trivial
  | nack messageId requeue => exact iff_of_true (cmdNack_quiet.anchored anchored) trivial
  | qos prefetch consumerId => exact iff_of_true (cmdQos_quiet.anchored anchored) trivial
  | subscribe channel => exact iff_of_true (cmdSubscribe_quiet.anchored anchored) trivial
  | unsubscribe channel => exact iff_of_true anchored trivial
  | publishChannel channel => exact iff_of_true (cmdPublishChannel_quiet.anchored anchored) trivial
  | dlqRequeue queue messageId => exact iff_of_true (cmdDlqRequeue_quiet.anchored anchored) trivial

theorem step_anchored_iff {event : Event} (named : h.queues.Named) (anchored : h.routing.Anchored) :
    (h.step event).routing.Anchored ↔ DeletesUnbound h event := by
  cases event with
  | command connectionId command => exact handle_anchored_iff named anchored
  | ticker => exact iff_of_true (ticker_quiet.anchored anchored) trivial
  | connect connectionId => exact iff_of_true anchored trivial
  | drop connectionId order =>
    exact iff_of_true (cancelAll_anchored (if order.Perm (h.consumers.listed connectionId) then order
      else h.consumers.listed connectionId) named anchored) trivial

/-! ## Runs -/

/-- A broker in which no binding dangles, nor waits for a queue to come back. -/
def NoDangling (h : Handler) : Prop :=
  h.routing.Anchored ∧ ∀ q, q ∉ h.queues.queues → ∀ exchange routingKey,
    q ∉ h.routing.routeTargets exchange routingKey

theorem noDangling_iff : NoDangling h ↔ h.routing.Anchored :=
  ⟨And.left, fun anchored => ⟨anchored, fun _ gone => anchored.no_target gone⟩⟩

/-- **Dangling bindings.** In a run of any commands, ticker rounds, connections
and drops, no binding dangles in any state exactly if no queue is deleted that
a binding leads to, or whose DLQ is deleted along with it and has one. -/
theorem no_dangling_iff (config : EngineConfig) (clock : Nat → ℚ) (sends : Nat → Bool)
    {events : List Event} :
    (∀ before, before <+: events → NoDangling (run step (created config clock sends) before)) ↔
      Allowed step DeletesUnbound (created config clock sends) events := by
  refine always_iff (J := Ordered) (I := NoDangling) (A := fun _ => True) ?_ ?_ ?_
    (Reachable.start config clock sends).ordered fun _ _ => trivial
  · exact fun h event _ ordered => ordered_kept.step ordered (Guards.event_free h event)
  · intro h event _ ordered clean
    rw [noDangling_iff, step_anchored_iff ordered.named clean.1]
  · exact noDangling_iff.mpr ⟨(fun _ member => nomatch member), (fun _ member => nomatch member)⟩

/-- A queue that is bound to a fanout exchange is deleted and, by a publish to
its name, declared again. -/
def deletedBound : List Event := [
  .command "c1" (.declareExchange "logs" "fanout"),
  .command "c1" (.declareQueue "jobs" none none none),
  .command "c1" (.bind "logs" "jobs" ""),
  .command "c1" (.deleteQueue "jobs")]

/-- What the new queue gets through the binding of the old one. -/
theorem deleted_still_bound :
    ¬ NoDangling (run step (created {} (fun _ => 0) fun _ => true) deletedBound) ∧
    (let h := run step (created {} (fun _ => 0) fun _ => true) (deletedBound ++
      [.command "c1" (.publish { payload := [1], queue := some "jobs" } fun _ => ⟨"u1", 0⟩)])
    (h.routing.publish { payload := [2], exchange := some "logs" } fun _ => ⟨"u2", 0⟩).1 =
      ("u2", ["jobs"], .ok)) := by
  refine ⟨fun clean => ?_, by decide +kernel⟩
  have bound : (⟨"logs", "jobs", ""⟩ : Binding) ∈
      (run step (created {} (fun _ => 0) fun _ => true) deletedBound).routing.bindings := by
    decide +kernel
  have there := clean.1.queue _ bound
  revert there
  decide +kernel

end OneOpenBroker.Broker.Handler

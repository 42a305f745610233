import OneOpenBroker.Broker.Ownership
import OneOpenBroker.Core.Rota

/-! What the commands change in the tables that say who reads what and where
messages go: the consumers, the turns on the queues, the exchanges and the
bindings. Delivery and settling leave all of them as they are, but for the
windows, the turns, and queues for dead letters that come into being. A command
that changes more does so in its first steps, and the rest of it is quiet. -/
namespace OneOpenBroker.Broker.Handler
open Collections OneOpenBroker.Core QueueEngine ConsumerManager

/-- The connection and the queues of a registered consumer. -/
def roster (h : Handler) (id : String) : Option (String × List String) :=
  (h.consumers.consumers.get? id).map fun consumer => (consumer.connectionId, consumer.queues)

/-- Nothing changed but messages, windows and turns, and queues for dead
letters that are new. -/
structure Quiet (h h' : Handler) : Prop where
  roster : h'.roster = h.roster
  listed : h'.consumers.byConnection = h.consumers.byConnection
  seats : Seats DeadLetters h.queues h'.queues
  unasked : Unasked h.queues h'.queues
  exchanges : h'.routing.exchanges = h.routing.exchanges
  bindings : h'.routing.bindings = h.routing.bindings

variable {h h' h'' : Handler} {e : QueueEngine} {connectionId queue id m : String}
  {queues : List String} {consumer : Consumer} {message : Message} {e' : QueueEngine}

theorem Quiet.refl (h : Handler) : Quiet h h := ⟨rfl, rfl, .refl _ _, .refl _, rfl, rfl⟩

theorem Quiet.trans (first : Quiet h h') (second : Quiet h' h'') : Quiet h h'' :=
  ⟨second.roster.trans first.roster, second.listed.trans first.listed,
    first.seats.trans second.seats, first.unasked.trans second.unasked,
    second.exchanges.trans first.exchanges,
    second.bindings.trans first.bindings⟩

theorem Quiet.of_eq (routing : h'.routing = h.routing) (consumers : h'.consumers = h.consumers) :
    Quiet h h' := by
  constructor
  · unfold Handler.roster
    rw [consumers]
  · rw [consumers]
  · unfold Handler.queues
    rw [routing]
    exact .refl _ _
  · unfold Handler.queues
    rw [routing]
    exact .refl _
  · rw [routing]
  · rw [routing]

theorem withQueues_quiet (seats : Seats DeadLetters h.queues e) (unasked : Unasked h.queues e) :
    Quiet h (h.withQueues e) :=
  ⟨rfl, rfl, seats, unasked, rfl, rfl⟩

theorem updateQos_roster {change : QoS → QoS} :
    roster { h with consumers := h.consumers.updateQos id change } = h.roster := by
  funext other
  unfold roster
  dsimp only
  rw [updateQos_get?]
  split
  · rename_i same
    rw [same, Option.map_map]
    rfl
  · rfl

theorem window_quiet (id : String) (change : QoS → QoS) :
    Quiet h { h with consumers := h.consumers.updateQos id change } :=
  ⟨updateQos_roster, updateQos_byConnection, .refl _ _, .refl _, rfl, rfl⟩

theorem onAck_quiet : Quiet h (h.onAck id) := window_quiet id QoS.onAck

/-! ## The delivery loop -/

theorem took_quiet {sent : Nat} {outcome : Outcome}
    (takes : h.consumers.Takes h.queues queue id consumer m message e') :
    Quiet h (h.took queue id consumer message e' sent outcome) := by
  have seats : Seats DeadLetters h.queues (h.consumers.tryReserve h.queues queue).2.2 :=
    tryReserve_seats
  rw [takes.result] at seats
  exact ⟨updateQos_roster, updateQos_byConnection, seats, .of_specs takes.specs, rfl, rfl⟩

theorem rejected_quiet : Quiet h (h.rejected m id) :=
  (withQueues_quiet nack_keeps.seats nack_unasked).trans onAck_quiet

theorem pumpQueue_quiet : Quiet h (h.pumpQueue queue) := by
  apply pumpQueue_loop (L := Quiet h) (I := Quiet h) _ _ _ (.refl h)
  · intro h' e' quiet nothing _
    have seats : Seats DeadLetters h'.queues (h'.consumers.tryReserve h'.queues queue).2.2 :=
      tryReserve_seats
    have unasked : Unasked h'.queues (h'.consumers.tryReserve h'.queues queue).2.2 :=
      tryReserve_unasked
    rw [nothing] at seats unasked
    exact quiet.trans (withQueues_quiet seats unasked)
  · exact fun h' id consumer m message e' sent quiet takes => quiet.trans (took_quiet takes)
  · exact fun h' id consumer m message e' sent quiet takes =>
      (quiet.trans (took_quiet takes)).trans rejected_quiet

theorem pumpAll_quiet : Quiet h (h.pumpAll queues) := by
  induction queues generalizing h with
  | nil => exact .refl h
  | cons queue rest ih => exact pumpQueue_quiet.trans ih

theorem settled_quiet : Quiet h (h.settled id) := by
  unfold settled
  split
  · exact .refl h
  · dsimp only
    split
    · exact onAck_quiet
    · exact onAck_quiet.trans pumpAll_quiet

theorem ticker_quiet : Quiet h h.ticker :=
  (withQueues_quiet tick_keeps.seats tick_unasked).trans pumpAll_quiet

/-! ## The commands that only deliver and settle -/

theorem cmdAck_quiet : Quiet h (h.cmdAck m).2 := by
  have acked : Quiet h (h.withQueues (h.queues.ack m).2) := withQueues_quiet ack_keeps.seats ack_unasked
  unfold cmdAck
  split
  · exact .refl h
  · dsimp only
    split
    · exact acked
    · exact acked
    · exact acked.trans settled_quiet

theorem cmdNack_quiet {requeue : Bool} : Quiet h (h.cmdNack m requeue).2 := by
  have nacked : Quiet h (h.withQueues (h.queues.nack m requeue).2) :=
    withQueues_quiet nack_keeps.seats nack_unasked
  unfold cmdNack
  split
  · exact .refl h
  · dsimp only
    split
    · exact nacked.trans settled_quiet
    · exact nacked

theorem windows_quiet {ids : List String} {count : Int} : Quiet h { h with
    consumers := ids.foldl (fun c id => c.updateQos id (·.setPrefetch count)) h.consumers } := by
  induction ids generalizing h with
  | nil => exact .of_eq rfl rfl
  | cons id rest ih =>
    have first : Quiet h { h with consumers := h.consumers.updateQos id (·.setPrefetch count) } :=
      window_quiet id (·.setPrefetch count)
    exact first.trans ih

theorem cmdQos_quiet {prefetch : Int} : Quiet h (h.cmdQos connectionId prefetch id).2 := by
  have issued : Quiet h { h with prefetch := h.prefetch.set connectionId prefetch } := .of_eq rfl rfl
  unfold cmdQos
  dsimp only
  split
  · have changed := issued.trans (window_quiet id (·.setPrefetch prefetch))
    unfold ConsumerManager.qos
    dsimp only
    split <;> exact changed
  · exact issued.trans windows_quiet

theorem cmdSubscribe_quiet {channel : String} : Quiet h (h.cmdSubscribe connectionId channel).2 := by
  unfold cmdSubscribe
  split
  · exact .refl h
  · exact .of_eq rfl rfl

theorem cmdPublishChannel_quiet {channel : String} : Quiet h (h.cmdPublishChannel channel).2 := by
  unfold cmdPublishChannel
  split
  · exact .refl h
  · obtain ⟨sent, shape⟩ := sendAll_frame (h.pubsub.subscribers channel) h
    dsimp only
    rw [shape]
    exact .of_eq rfl rfl

theorem cmdDlqRequeue_quiet : Quiet h (h.cmdDlqRequeue queue m).2 := by
  have moved : Quiet h (h.withQueues (h.queues.dlqRequeue queue m).2) :=
    withQueues_quiet dlqRequeue_keeps.seats dlqRequeue_unasked
  unfold cmdDlqRequeue
  split
  · exact .refl h
  · split <;> rename_i shape <;> rw [shape] at moved
    · exact moved
    · exact moved.trans pumpQueue_quiet

/-! ## The commands that are quiet after their first steps -/

/-- A publish first declares the queue that it names. -/
theorem cmdPublish_quiet {args : PublishArgs} {stamp : String → Stamp} :
    Quiet { h with routing := (h.routing.ensureQueue args true).1 } (h.cmdPublish args stamp).2 := by
  have published : Quiet { h with routing := (h.routing.ensureQueue args true).1 }
      { h with routing := (h.routing.publish args stamp).2 } := by
    unfold RoutingEngine.publish
    rcases h.routing.ensureQueue args true with ⟨r, exchange, routingKey⟩
    dsimp only
    split
    · split
      · exact .refl _
      · refine ⟨rfl, rfl, ?_, ?_, rfl, rfl⟩
        · exact RoutingEngine.fanOut_preserves (I := Seats DeadLetters r.queues)
            (fun _ _ seats => seats.trans enqueue_keeps.seats) (.refl _ _)
        · exact RoutingEngine.fanOut_preserves (I := Unasked r.queues)
            (fun _ _ unasked => unasked.trans enqueue_unasked) (.refl _)
    · exact .refl _
  unfold cmdPublish
  rcases shape : h.routing.publish args stamp with ⟨⟨_, routed, result⟩, routing⟩
  rw [shape] at published
  dsimp only
  split
  · exact published
  · split
    · exact published
    · exact published.trans pumpAll_quiet

/-- The consumer that a GET reads with. -/
def readerOf (connectionId queue consumerId : String) : String :=
  if consumerId = "" then getConsumerId connectionId queue else consumerId

/-- A GET first registers its consumer, or sets its window. -/
theorem cmdGet_quiet {consumerId : String} {prefetch : Option Int} (named : queue ≠ "") :
    Quiet (h.getConsumer connectionId queue (readerOf connectionId queue consumerId)
      (prefetch.getD (h.prefetchOf connectionId))) (h.cmdGet connectionId queue consumerId prefetch).2 := by
  unfold cmdGet
  rw [if_neg named]
  dsimp only
  generalize ready : h.getConsumer connectionId queue (readerOf connectionId queue consumerId)
    (prefetch.getD (h.prefetchOf connectionId)) = h'
  have ready' : h.getConsumer connectionId queue
      (if consumerId = "" then getConsumerId connectionId queue else consumerId)
      (prefetch.getD (h.prefetchOf connectionId)) = h' := ready
  rw [ready']
  have seats : Seats DeadLetters h'.queues (h'.consumers.tryReserve h'.queues queue).2.2 :=
    tryReserve_seats
  have unasked : Unasked h'.queues (h'.consumers.tryReserve h'.queues queue).2.2 :=
    tryReserve_unasked
  rcases tryReserve_cases h'.consumers h'.queues queue with ⟨e', nothing, _⟩ |
    ⟨id', consumer, m, message, e', takes⟩
  · rw [tryReserve_none nothing]
    rw [nothing] at seats unasked
    exact withQueues_quiet seats unasked
  · rw [tryReserve_some takes]
    exact took_quiet takes

/-- The window of a consumer that reads again is set. -/
theorem getConsumer_known {prefetch : Int} (known : id ∈ h.consumers.consumers) :
    Quiet h (h.getConsumer connectionId queue id prefetch) := by
  unfold getConsumer
  rw [if_pos known]
  split
  · exact .refl h
  · exact window_quiet id _

end OneOpenBroker.Broker.Handler

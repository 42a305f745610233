import OneOpenBroker.Broker.HandlerRuns

/-! The channels beside the queues. Commands on queues, the pumps and the
ticker leave the subscriptions and the list of slow subscribers as they are. -/
namespace OneOpenBroker.Broker.Handler
open Collections OneOpenBroker.Core Pubsub

variable {h : Handler} {connectionId queue : String} {queues : List String}

/-- The subscriptions, and the subscribers that the last PUBLISH_CHANNEL found slow. -/
def channelState (h : Handler) : PubSubEngine × List String := (h.pubsub, h.lastSlow)

theorem pumpQueue_channelState : (h.pumpQueue queue).channelState = h.channelState := by
  apply pumpQueue_rule (L := fun h' => h'.channelState = h.channelState)
    (I := fun h' => h'.channelState = h.channelState) _ _ _ rfl
  · exact fun _ _ same _ => same
  · exact fun _ _ _ _ _ _ _ same _ => same
  · exact fun _ _ _ _ _ _ _ same _ => same

theorem pumpAll_channelState : (h.pumpAll queues).channelState = h.channelState := by
  induction queues generalizing h with
  | nil => rfl
  | cons queue rest ih => exact (ih (h := h.pumpQueue queue)).trans pumpQueue_channelState

theorem settled_channelState {consumerId : String} :
    (h.settled consumerId).channelState = h.channelState := by
  unfold settled
  split
  · rfl
  · dsimp only
    split
    · rfl
    · exact pumpAll_channelState

theorem getConsumer_channelState {consumerId : String} {prefetch : Int} :
    (h.getConsumer connectionId queue consumerId prefetch).channelState = h.channelState := by
  unfold getConsumer
  split
  · split <;> rfl
  · rfl

theorem ensureQueues_channelState : (queues.foldl ensureQueue h).channelState = h.channelState := by
  induction queues generalizing h with
  | nil => rfl
  | cons name rest ih =>
    have ensured : (h.ensureQueue name).channelState = h.channelState := by
      unfold ensureQueue
      split <;> rfl
    exact (ih (h := h.ensureQueue name)).trans ensured

theorem sendAll_channelState (connections : List String) :
    (sendAll connections h).2.channelState = h.channelState := by
  obtain ⟨sent, shape⟩ := sendAll_frame connections h
  rw [shape]
  rfl

theorem ticker_channelState : h.ticker.channelState = h.channelState := pumpAll_channelState

/-- Only the commands on channels touch their state. -/
theorem handle_channelState {command : Command} (not_subscribe : ∀ channel, command ≠ .subscribe channel)
    (not_unsubscribe : ∀ channel, command ≠ .unsubscribe channel)
    (not_publish : ∀ channel, command ≠ .publishChannel channel) :
    (h.handle connectionId command).2.channelState = h.channelState := by
  cases command with
  | declareExchange name type =>
    change (h.cmdDeclareExchange name type).2.channelState = _
    unfold cmdDeclareExchange
    dsimp only
    split
    · rfl
    · split <;> rfl
  | deleteExchange name =>
    change (h.cmdDeleteExchange name).2.channelState = _
    unfold cmdDeleteExchange
    split <;> rfl
  | declareQueue name maxLength visibilityTimeout maxAttempts =>
    change (h.cmdDeclareQueue name maxLength visibilityTimeout maxAttempts).2.channelState = _
    unfold cmdDeclareQueue
    split <;> rfl
  | deleteQueue name =>
    change (h.cmdDeleteQueue name).2.channelState = _
    unfold cmdDeleteQueue
    split <;> rfl
  | bind exchange queue routingKey =>
    change (h.cmdBind exchange queue routingKey).2.channelState = _
    unfold cmdBind
    split <;> rfl
  | unbind exchange queue routingKey =>
    change (h.cmdUnbind exchange queue routingKey).2.channelState = _
    unfold cmdUnbind
    split <;> rfl
  | publish args stamp =>
    change (h.cmdPublish args stamp).2.channelState = _
    unfold cmdPublish
    dsimp only
    split
    · rfl
    · split
      · rfl
      · exact pumpAll_channelState
  | get queue consumerId prefetch =>
    change (h.cmdGet connectionId queue consumerId prefetch).2.channelState = _
    unfold cmdGet
    split
    · rfl
    · dsimp only
      split
      · rename_i shape
        exact (congrArg (·.2.channelState) shape).symm.trans getConsumer_channelState
      · rename_i shape
        exact (congrArg (·.2.channelState) shape).symm.trans getConsumer_channelState
  | consume queues queue consumerId prefetch tag uuid =>
    change (h.cmdConsume connectionId queues queue consumerId prefetch tag uuid).2.channelState = _
    unfold cmdConsume
    dsimp only
    split
    · rfl
    · exact pumpAll_channelState.trans ensureQueues_channelState
  | cancel consumerId =>
    change (h.cmdCancel consumerId).2.channelState = _
    unfold cmdCancel
    split
    · rfl
    · dsimp only
      split <;> rfl
  | ack messageId =>
    change (h.cmdAck messageId).2.channelState = _
    unfold cmdAck
    split
    · rfl
    · dsimp only
      split
      · rfl
      · rfl
      · exact settled_channelState
  | nack messageId requeue =>
    change (h.cmdNack messageId requeue).2.channelState = _
    unfold cmdNack
    split
    · rfl
    · dsimp only
      split
      · exact settled_channelState
      · rfl
  | qos prefetch consumerId =>
    change (h.cmdQos connectionId prefetch consumerId).2.channelState = _
    unfold cmdQos
    dsimp only
    split
    · split <;> rfl
    · rfl
  | subscribe channel => exact absurd rfl (not_subscribe channel)
  | unsubscribe channel => exact absurd rfl (not_unsubscribe channel)
  | publishChannel channel => exact absurd rfl (not_publish channel)
  | dlqRequeue queue messageId =>
    change (h.cmdDlqRequeue queue messageId).2.channelState = _
    unfold cmdDlqRequeue
    split
    · rfl
    · split
      · rfl
      · exact pumpQueue_channelState

/-- Only SUBSCRIBE and UNSUBSCRIBE touch the subscriptions. -/
theorem handle_pubsub {command : Command} (not_subscribe : ∀ channel, command ≠ .subscribe channel)
    (not_unsubscribe : ∀ channel, command ≠ .unsubscribe channel) :
    (h.handle connectionId command).2.pubsub = h.pubsub := by
  by_cases publishes : ∃ channel, command = .publishChannel channel
  · obtain ⟨channel, rfl⟩ := publishes
    change (h.cmdPublishChannel channel).2.pubsub = _
    unfold cmdPublishChannel
    split
    · rfl
    · exact congrArg Prod.fst (sendAll_channelState (h.pubsub.subscribers channel))
  · have same : (h.handle connectionId command).2.channelState = h.channelState :=
      handle_channelState not_subscribe not_unsubscribe fun channel same => publishes ⟨channel, same⟩
    exact congrArg Prod.fst same

/-- Only PUBLISH_CHANNEL touches the list of slow subscribers. -/
theorem handle_lastSlow {command : Command} (not_publish : ∀ channel, command ≠ .publishChannel channel) :
    (h.handle connectionId command).2.lastSlow = h.lastSlow := by
  by_cases subscribes : ∃ channel, command = .subscribe channel
  · obtain ⟨channel, rfl⟩ := subscribes
    change (h.cmdSubscribe connectionId channel).2.lastSlow = _
    unfold cmdSubscribe
    split <;> rfl
  · by_cases unsubscribes : ∃ channel, command = .unsubscribe channel
    · obtain ⟨channel, rfl⟩ := unsubscribes
      rfl
    · have same : (h.handle connectionId command).2.channelState = h.channelState :=
        handle_channelState (fun channel same => subscribes ⟨channel, same⟩)
          (fun channel same => unsubscribes ⟨channel, same⟩) not_publish
      exact congrArg Prod.snd same

end OneOpenBroker.Broker.Handler

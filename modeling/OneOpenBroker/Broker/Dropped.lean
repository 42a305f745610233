import OneOpenBroker.Broker.Channels
import OneOpenBroker.Broker.Ownership
import OneOpenBroker.Broker.ServerRuns
import OneOpenBroker.Pubsub.Subscriptions

/-! What a dropped connection leaves behind. The cleanup takes its consumers
and subscriptions out once, and the read loop may still handle frames that it
had read before. A frame that registers something is then never cleaned up. -/
namespace OneOpenBroker.Broker
open Collections OneOpenBroker.Core QueueEngine ConsumerManager Pubsub

namespace Handler

variable {h : Handler} {connectionId gone queue id m : String} {queues : List String}

/-! ## Consumers of a connection -/

/-- No consumer of the connection is registered. -/
structure Far (gone : String) (h : Handler) : Prop where
  ordered : Ordered h
  absent : ∀ id consumer, h.consumers.consumers.get? id = some consumer →
    consumer.connectionId ≠ gone

/-- No registration is for the connection. -/
def farGuards (gone : String) : Guards where
  register := fun _ connectionId _ _ => connectionId ≠ gone

theorem Far.windowed (far : Far gone h) (id : String) (change : QoS → QoS) :
    Far gone { h with consumers := h.consumers.updateQos id change } := by
  refine ⟨⟨far.ordered.named, far.ordered.enrolled.updateQos id change⟩, fun id consumer found => ?_⟩
  obtain ⟨before, known, _, home, _⟩ := updateQos_some found
  rw [home]
  exact far.absent id before known

theorem Far.stepped (far : Far gone h) (op : EngineOp) :
    Far gone (h.withQueues (h.queues.step true op)) :=
  ⟨⟨step_named far.ordered.named op, far.ordered.enrolled⟩, far.absent⟩

theorem Far.took {consumer : Consumer} {message : Message} {e' : QueueEngine} {sent : Nat}
    {outcome : Outcome} (far : Far gone h)
    (takes : h.consumers.Takes h.queues queue id consumer m message e') :
    Far gone (h.took queue id consumer message e' sent outcome) :=
  ⟨took_ordered far.ordered takes, (far.windowed id fun qos => qos.onDeliver.2).absent⟩

theorem Far.credit (far : Far gone h) (consumerId : String) : Far gone (h.credited consumerId) := by
  unfold credited
  split
  · exact far
  · exact far.windowed consumerId QoS.onAck

theorem far_kept (gone : String) : Kept (farGuards gone) (Far gone) where
  frame h h' inv queues consumers _ _ :=
    ⟨⟨queues ▸ inv.ordered.named, consumers ▸ inv.ordered.enrolled⟩, consumers ▸ inv.absent⟩
  alike h e' inv alike := ⟨⟨alike.named inv.ordered.named, inv.ordered.enrolled⟩, inv.absent⟩
  record h op inv _ := ⟨⟨inv.ordered.named, inv.ordered.enrolled⟩, inv.absent⟩
  declare h name args inv := inv.stepped (.declareQueue name args)
  delete h name inv _ := inv.stepped (.deleteQueue name)
  enqueue h message _ inv _ _ _ := inv.stepped (.enqueue message)
  requeue h queue m inv := inv.stepped (.dlqRequeue queue m)
  tick h inv _ := inv.stepped (.tick none)
  ack h m inv _ := (inv.stepped (.ack m)).credit _
  nack h m requeue inv _ := (inv.stepped (.nack m requeue)).credit _
  refusedNack h m requeue inv _ := inv.stepped (.nack m requeue)
  register h id connectionId queues prefetch tag inv _ ok := by
    refine ⟨⟨inv.ordered.named, inv.ordered.enrolled.register h.queues⟩, fun other consumer found => ?_⟩
    change (h.consumers.register h.queues id connectionId queues prefetch tag).1.consumers.get? other =
      some consumer at found
    rw [register_get?] at found
    split at found
    · obtain rfl := Option.some.inj found
      exact of_decide_eq_true ok
    · exact inv.absent other consumer found
  window h id count inv := inv.windowed id (·.setPrefetch count)
  cancel h id inv := by
    refine ⟨⟨cancel_named inv.ordered.named, inv.ordered.enrolled.cancel⟩, fun other consumer found => ?_⟩
    change (h.consumers.cancel h.queues id).2.1.consumers.get? other = some consumer at found
    rw [cancel_get?] at found
    split at found
    · cases found
    · exact inv.absent other consumer found
  issue _ _ inv := ⟨⟨inv.ordered.named, inv.ordered.enrolled⟩, inv.absent⟩
  pull _ _ _ _ _ _ _ inv takes := inv.took takes
  pump h queue inv _ := by
    apply pumpQueue_rule _ _ _ inv
    · exact fun h e' inv alike => ⟨⟨alike.named inv.ordered.named, inv.ordered.enrolled⟩, inv.absent⟩
    · exact fun h id consumer m message e' sent inv takes => inv.took takes
    · intro h id consumer m message e' sent inv takes
      have took : Far gone (h.took queue id consumer message e' sent .refused) := inv.took takes
      exact (took.stepped (.nack message.id true)).windowed consumer.consumerId QoS.onAck

/-! ## Subscriptions -/

/-- What a command does to the subscriptions. -/
theorem handle_subscriptions (connectionId : String) (linked : h.pubsub.Linked) (command : Command) :
    (h.handle connectionId command).2.pubsub.Linked ∧
      ∀ other channel, other ∈ (h.handle connectionId command).2.pubsub.subscribers channel →
        other ∈ h.pubsub.subscribers channel ∨
          other = connectionId ∧ ∃ name, name ≠ "" ∧ command = .subscribe name := by
  by_cases subscribes : ∃ channel, command = .subscribe channel
  · obtain ⟨channel, rfl⟩ := subscribes
    change (h.cmdSubscribe connectionId channel).2.pubsub.Linked ∧ ∀ other name,
      other ∈ (h.cmdSubscribe connectionId channel).2.pubsub.subscribers name → _
    unfold cmdSubscribe
    split
    · exact ⟨linked, fun _ _ subscribed => .inl subscribed⟩
    · rename_i named
      refine ⟨linked.subscribe, fun other name subscribed => ?_⟩
      rcases PubSubEngine.mem_subscribe.mp subscribed with before | ⟨here, _⟩
      · exact .inl before
      · exact .inr ⟨here, channel, named, rfl⟩
  · by_cases unsubscribes : ∃ channel, command = .unsubscribe channel
    · obtain ⟨channel, rfl⟩ := unsubscribes
      refine ⟨linked.unsubscribe, fun other name subscribed => .inl ?_⟩
      exact ((PubSubEngine.mem_unsubscribe linked.distinct).mp subscribed).1
    · rw [handle_pubsub (fun channel same => subscribes ⟨channel, same⟩)
        fun channel same => unsubscribes ⟨channel, same⟩]
      exact ⟨linked, fun _ _ subscribed => .inl subscribed⟩

end Handler

/-- The handling of the frame registers something for the connection. -/
def Frame.registers (h : Handler) (connectionId : String) : Frame → Bool
  | .command (.subscribe channel) => channel ≠ ""
  | .command request => h.registers connectionId request
  | .inert => false

theorem Frame.registers_command {h : Handler} {connectionId : String} {request : Command}
    (registers : h.registers connectionId request = true) :
    Frame.registers h connectionId (.command request) = true := by
  cases request with
  | subscribe channel => cases registers
  | _ => exact registers

namespace Server

variable {s : Server} {h : Handler} {gone connectionId : String} {rest : List Frame}

/-- No frame that registers something is handled for a connection that was
dropped, and no cleanup is cut short before it comes to a consumer of the
connection; the ticker runs only where each message that the queues hold may fail
once more without an overflow of its delay. -/
def Tidy (s : Server) : ServerEvent → Prop
  | .serve _ => ∀ connectionId frame rest, s.running = some (connectionId, frame :: rest) →
    connectionId ∈ s.dropped → frame.registers s.handler connectionId = false
  | .leave connectionId order | .dropSlow connectionId order => connectionId ∈ s.connections →
    Passes s.handler.consumers s.handler.queues connectionId order
  | .ticker => s.handler.queues.Retriable
  | _ => True

/-- Nothing is left of the dropped connections. -/
structure Clean (h : Handler) (dropped : List String) : Prop where
  ordered : Handler.Ordered h
  linked : h.pubsub.Linked
  consumers : ∀ gone ∈ dropped, ∀ id consumer, h.consumers.consumers.get? id = some consumer →
    consumer.connectionId ≠ gone
  subscriptions : ∀ gone ∈ dropped, ∀ channel, gone ∉ h.pubsub.subscribers channel

theorem Clean.far {dropped : List String} (clean : Clean h dropped) (member : gone ∈ dropped) :
    Handler.Far gone h := ⟨clean.ordered, clean.consumers gone member⟩

/-- Handling a frame that does not register anything for a dropped connection. -/
theorem Clean.handleFrame {frame : Frame} (clean : Clean s.handler s.dropped)
    (idle : connectionId ∈ s.dropped → frame.registers s.handler connectionId = false) :
    Clean (s.handleFrame connectionId frame).2 s.dropped := by
  cases frame with
  | inert => exact clean
  | command command =>
    have free : ∀ gone ∈ s.dropped,
        (Handler.farGuards gone).command s.handler connectionId command = true := by
      intro gone member
      apply Guards.command_free (fun _ _ => rfl) (fun _ _ => rfl) (fun _ _ => rfl)
      intro registers _ _ _
      apply decide_eq_true
      rintro rfl
      have quiet := idle member
      rw [Frame.registers_command registers] at quiet
      cases quiet
    have ordered : Handler.Ordered (s.handler.handle connectionId command).2 :=
      Handler.ordered_kept.command clean.ordered
        (Guards.command_free (fun _ _ => rfl) (fun _ _ => rfl) (fun _ _ => rfl) fun _ _ _ _ => rfl)
    obtain ⟨linked, subscribed⟩ := Handler.handle_subscriptions connectionId clean.linked command
    refine ⟨ordered, linked, fun gone member => ?_, fun gone member channel there => ?_⟩
    · exact ((Handler.far_kept gone).command (clean.far member) (free gone member)).absent
    · rcases subscribed gone channel there with before | ⟨rfl, name, named, rfl⟩
      · exact clean.subscriptions gone member channel before
      · have quiet := idle member
        simp [Frame.registers, named] at quiet

/-- The cleanup of a connection adds it to those of which nothing is left. -/
theorem Clean.drop {dropped order : List String} (clean : Clean h dropped)
    (passes : Passes h.consumers h.queues connectionId order) :
    Clean (h.drop connectionId order).2 (connectionId :: dropped) := by
  have ordered : Handler.Ordered (h.step (.drop connectionId order)) :=
    Handler.ordered_kept.step clean.ordered rfl
  refine ⟨ordered, clean.linked.disconnect, fun gone member => ?_, fun gone member channel there => ?_⟩
  · rcases List.mem_cons.mp member with rfl | earlier
    · exact disconnect_clears clean.ordered.named clean.ordered.enrolled passes
    · have far : Handler.Far gone (h.step (.drop connectionId order)) :=
        (Handler.far_kept gone).step (clean.far earlier) rfl
      exact far.absent
  · obtain ⟨before, differ⟩ := (PubSubEngine.mem_disconnect clean.linked).mp there
    rcases List.mem_cons.mp member with rfl | earlier
    · exact differ rfl
    · exact clean.subscriptions gone earlier channel before

theorem clean_kept : Kept Tidy fun s => Clean s.handler s.dropped where
  frame s s' inv queues consumers pubsub _ _ dropped := by
    rw [dropped]
    exact ⟨⟨queues ▸ inv.ordered.named, consumers ▸ inv.ordered.enrolled⟩, pubsub ▸ inv.linked,
      consumers ▸ inv.consumers, pubsub ▸ inv.subscriptions⟩
  answer s connectionId frame rest room inv running ok := by
    have handled := inv.handleFrame (ok connectionId frame rest running)
    unfold Server.answer
    generalize s.handleFrame connectionId frame = result at handled ⊢
    obtain ⟨success, h⟩ := result
    dsimp only
    split
    · exact handled
    · exact handled
  drop s connectionId order inv ok := by
    unfold Server.drop
    split
    · rename_i connected
      exact inv.drop (ok.elim (fun tidy => tidy connected) fun tidy => tidy connected)
    · exact inv
  ticker s inv _ := by
    have ordered : Handler.Ordered (s.handler.step .ticker) :=
      Handler.ordered_kept.step inv.ordered (Guards.ticker_free (fun _ => rfl) fun _ _ => rfl)
    have pubsub : (s.handler.step .ticker).pubsub = s.handler.pubsub :=
      congrArg Prod.fst Handler.ticker_channelState
    refine ⟨ordered, pubsub ▸ inv.linked, fun gone member => ?_, pubsub ▸ inv.subscriptions⟩
    have far : Handler.Far gone (s.handler.step .ticker) :=
      (Handler.far_kept gone).step (inv.far member) (Guards.ticker_free (fun _ => rfl) fun _ _ => rfl)
    exact far.absent
  take _ inv := inv
  write _ _ inv := inv
  resolve _ inv := inv

/-- A dropped connection leaves nothing behind: in every run that meets the
conditions, no consumer and no subscription of a connection that was dropped
is left in any later state. -/
theorem dropped_leaves_nothing (reached : Reachable Tidy s) (dropped : gone ∈ s.dropped) :
    (∀ id consumer, s.handler.consumers.consumers.get? id = some consumer →
      consumer.connectionId ≠ gone) ∧
    ∀ channel, gone ∉ s.handler.pubsub.subscribers channel := by
  have clean : Clean s.handler s.dropped := by
    apply clean_kept.reachable _ reached
    intro config clock sends fsync
    exact ⟨⟨Dict.all_empty, fun _ _ found => (nomatch found), fun _ _ found => (nomatch found)⟩,
      PubSubEngine.linked_empty, fun _ member => (nomatch member), fun _ member => (nomatch member)⟩
  exact ⟨clean.consumers gone dropped, clean.subscriptions gone dropped⟩

/-- A subscriber goes away. -/
def leavingEvents : List ServerEvent := [
  .accept "c1", .receive "c1" [.command (.subscribe "news")], .serve true, .leave "c1" []]

/-- The subscriber `c1` is slow, and is dropped while it awaits the record of
the first of two frames. -/
def ghostEvents : List ServerEvent := [
  .accept "c1", .accept "c2",
  .receive "c1" [.command (.subscribe "news")], .serve true,
  .receive "c2" [.command (.publishChannel "news")], .serve true,
  .receive "c1" [
    .command (.publish { payload := [1], queue := some "jobs" } fun _ => ⟨"m1", 0⟩),
    .command (.consume ["jobs"] "" "worker" none "" .u1)],
  .serve true, .dropSlow "c1" [], .take, .write true, .resolve, .resume "c1", .serve true]

def slowServer : Server := started {} (fun _ => 0) (fun n => n ≠ 0) .always

theorem dropped_leaves_nothing_leaving :
    (Systems.run Server.step slowServer leavingEvents).dropped = ["c1"] ∧
    ∀ channel, "c1" ∉
      (Systems.run Server.step slowServer leavingEvents).handler.pubsub.subscribers channel := by
  have dropped : (Systems.run Server.step slowServer leavingEvents).dropped = ["c1"] := by
    decide +kernel
  have reached : Reachable Tidy (Systems.run Server.step slowServer leavingEvents) := by
    apply Reachable.run (.start _ _ _ _)
    refine ⟨trivial, trivial, ?_, ?_, trivial⟩
    · exact fun _ _ _ _ member => nomatch member
    · exact fun _ => List.Pairwise.nil
  exact ⟨dropped, (dropped_leaves_nothing reached (dropped ▸ List.mem_cons_self)).2⟩

/-- The consumer that `c1` registers after it was dropped stays. -/
theorem ghost_consumer :
    Reachable (fun _ _ => True) (Systems.run Server.step slowServer ghostEvents) ∧
    (Systems.run Server.step slowServer ghostEvents).connections = ["c2"] ∧
    (Systems.run Server.step slowServer ghostEvents).dropped = ["c1"] ∧
    ((Systems.run Server.step slowServer ghostEvents).handler.consumers.consumers.get? "worker").map
      (·.connectionId) = some "c1" := by
  refine ⟨Reachable.run (.start _ _ _ _) ?_, by decide +kernel, by decide +kernel, by decide +kernel⟩
  simp [Systems.Allowed, ghostEvents]

end Server
end OneOpenBroker.Broker

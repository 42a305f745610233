import OneOpenBroker.Broker.HandlerRuns
import OneOpenBroker.Core.Cleanup

/-! Whose deliveries the messages read by GET are. A GET registers a consumer
for its connection and then reserves for the consumer whose turn it is on the
queue, which may be one of another connection. The message is then recovered
when that other connection goes away. -/
namespace OneOpenBroker.Broker
open Collections OneOpenBroker.Core QueueEngine ConsumerManager

namespace Handler

variable {h h' : Handler} {connectionId queue m consumerId : String} {message : Message}

/-! ## What holds in every run -/

/-- Messages are filed under their own names, and consumers are listed for
the connections that registered them. -/
structure Ordered (h : Handler) : Prop where
  named : h.queues.Named
  enrolled : Enrolled h.consumers

theorem took_ordered {id : String} {consumer : Consumer} {e' : QueueEngine} {sent : Nat}
    {outcome : Outcome} (ordered : Ordered h)
    (takes : h.consumers.Takes h.queues queue id consumer m message e') :
    Ordered (h.took queue id consumer message e' sent outcome) :=
  ⟨takes.named ordered.named, ordered.enrolled.updateQos id fun qos => qos.onDeliver.2⟩

theorem credited_ordered (ordered : Ordered h) : Ordered (h.credited consumerId) := by
  unfold credited
  split
  · exact ordered
  · exact ⟨ordered.named, ordered.enrolled.updateQos consumerId QoS.onAck⟩

theorem ordered_kept : Kept {} Ordered where
  frame h h' inv queues consumers _ _ := ⟨queues ▸ inv.named, consumers ▸ inv.enrolled⟩
  alike h e' inv alike := ⟨alike.named inv.named, inv.enrolled⟩
  record h op inv _ := ⟨inv.named, inv.enrolled⟩
  declare h name args inv := ⟨step_named inv.named (.declareQueue name args), inv.enrolled⟩
  delete h name inv _ := ⟨step_named inv.named (.deleteQueue name), inv.enrolled⟩
  enqueue h message _ inv _ _ _ := ⟨step_named inv.named (.enqueue message), inv.enrolled⟩
  requeue h queue m inv := ⟨step_named inv.named (.dlqRequeue queue m), inv.enrolled⟩
  tick h inv _ := by
    have ticked : (h.queues.step true (.tick none)).Named := step_named inv.named (.tick none)
    exact ⟨ticked, inv.enrolled⟩
  ack h m inv _ := credited_ordered ⟨step_named inv.named (.ack m), inv.enrolled⟩
  nack h m requeue inv _ := credited_ordered ⟨step_named inv.named (.nack m requeue), inv.enrolled⟩
  refusedNack h m requeue inv _ := ⟨step_named inv.named (.nack m requeue), inv.enrolled⟩
  register h id connectionId queues prefetch tag inv _ _ := ⟨inv.named, inv.enrolled.register h.queues⟩
  window h id count inv := ⟨inv.named, inv.enrolled.updateQos id (·.setPrefetch count)⟩
  cancel h id inv := ⟨cancel_named inv.named, inv.enrolled.cancel⟩
  issue _ _ inv := ⟨inv.named, inv.enrolled⟩
  pull _ _ _ _ _ _ _ inv takes := took_ordered inv takes
  pump h queue inv _ := by
    apply pumpQueue_rule _ _ _ inv
    · exact fun h e' inv alike => ⟨alike.named inv.named, inv.enrolled⟩
    · exact fun h id consumer m message e' sent inv takes => took_ordered inv takes
    · intro h id consumer m message e' sent inv takes
      have took : Ordered (h.took queue id consumer message e' sent .refused) := took_ordered inv takes
      exact ⟨step_named took.named (.nack message.id true),
        took.enrolled.updateQos consumer.consumerId QoS.onAck⟩

theorem credited_queues : (h.credited consumerId).queues = h.queues := by
  unfold credited
  split <;> rfl

/-- What the operations of the engine keep, the calls of the broker keep. -/
theorem engine_kept {g : Guards} {P : QueueEngine → Prop} (alike : ∀ e e', P e → Alike e e' → P e')
    (append : ∀ e op, P e → RoutingRecord e op → P (e.append true op))
    (takes : ∀ (c : ConsumerManager) e queue id consumer m message e', P e →
      c.Takes e queue id consumer m message e' → P e')
    (step : ∀ e op, e.Named → P e → (∀ message, op ≠ .enqueue message) → P (e.step true op))
    (enqueue : ∀ e message, e.Named → P e → g.enqueue e message = true → P (e.enqueue message).2) :
    Kept g fun h => Ordered h ∧ P h.queues where
  frame h h' inv queues consumers handovers consumed :=
    ⟨ordered_kept.frame h h' inv.1 queues consumers handovers consumed, queues ▸ inv.2⟩
  alike h e' inv same := ⟨ordered_kept.alike h e' inv.1 same, alike _ _ inv.2 same⟩
  record h op inv known := ⟨ordered_kept.record h op inv.1 known, append _ op inv.2 known⟩
  declare h name args inv :=
    ⟨ordered_kept.declare h name args inv.1, step _ (.declareQueue name args) inv.1.named inv.2 nofun⟩
  delete h name inv _ :=
    ⟨ordered_kept.delete h name inv.1 rfl, step _ (.deleteQueue name) inv.1.named inv.2 nofun⟩
  enqueue h message queue inv pristine accepts ok :=
    ⟨ordered_kept.enqueue h message queue inv.1 pristine accepts rfl,
      enqueue _ message inv.1.named inv.2 ok⟩
  requeue h queue m inv :=
    ⟨ordered_kept.requeue h queue m inv.1, step _ (.dlqRequeue queue m) inv.1.named inv.2 nofun⟩
  tick h inv _ := ⟨ordered_kept.tick h inv.1 rfl, step _ (.tick none) inv.1.named inv.2 nofun⟩
  ack h m inv done := ⟨ordered_kept.ack h m inv.1 done,
    credited_queues.symm ▸ step _ (.ack m) inv.1.named inv.2 nofun⟩
  nack h m requeue inv done := ⟨ordered_kept.nack h m requeue inv.1 done,
    credited_queues.symm ▸ step _ (.nack m requeue) inv.1.named inv.2 nofun⟩
  refusedNack h m requeue inv failed := ⟨ordered_kept.refusedNack h m requeue inv.1 failed,
    step _ (.nack m requeue) inv.1.named inv.2 nofun⟩
  register h id connectionId queues prefetch tag inv nonempty _ :=
    ⟨ordered_kept.register h id connectionId queues prefetch tag inv.1 nonempty rfl, inv.2⟩
  window h id count inv := ⟨ordered_kept.window h id count inv.1, inv.2⟩
  cancel h id inv := by
    refine ⟨ordered_kept.cancel h id inv.1, ?_⟩
    change P (h.consumers.cancel h.queues id).2.2
    rcases cancel_cases h.consumers h.queues id with ⟨_, shape⟩ | ⟨_, e', _, same, shape⟩
    · rw [shape]
      exact inv.2
    · rw [shape]
      exact step _ (.recoverConsumer id) (same.named inv.1.named) (alike _ _ inv.2 same) nofun
  issue h pairs inv := ⟨ordered_kept.issue h pairs inv.1, inv.2⟩
  pull h queue id consumer m message e' inv took :=
    ⟨took_ordered inv.1 took, takes _ _ _ _ _ _ _ _ inv.2 took⟩
  pump h queue inv _ := by
    refine pumpQueue_rule (L := fun h => Ordered h ∧ P h.queues) (I := fun h => Ordered h ∧ P h.queues)
      ?_ ?_ ?_ inv
    · exact fun h e' inv same => ⟨ordered_kept.alike h e' inv.1 same, alike _ _ inv.2 same⟩
    · exact fun h id consumer m message e' sent inv took =>
        ⟨took_ordered inv.1 took, takes _ _ _ _ _ _ _ _ inv.2 took⟩
    · intro h id consumer m message e' sent inv took
      have ordered : Ordered (h.took queue id consumer message e' sent .refused) := took_ordered inv.1 took
      have kept : P e' := takes _ _ _ _ _ _ _ _ inv.2 took
      exact ⟨⟨step_named ordered.named (.nack message.id true),
          ordered.enrolled.updateQos consumer.consumerId QoS.onAck⟩,
        step _ (.nack message.id true) ordered.named kept nofun⟩

theorem Reachable.ordered (reached : Reachable {} h) : Ordered h :=
  ordered_kept.reachable (fun _ _ _ => ⟨Dict.all_empty, fun _ _ found => (nomatch found),
    fun _ _ found => (nomatch found)⟩) reached

/-! ## Reads -/

/-- The delivery is out to a consumer of the connection, and dropping a
connection, with its consumers cancelled in whatever order, ends it if and
only if it is this one. -/
def OwnedBy (h : Handler) (connectionId queue messageId : String) : Prop :=
  ∃ record consumer, h.queues.record? queue messageId = some record ∧
    h.consumers.consumers.get? record.consumerId = some consumer ∧
    consumer.connectionId = connectionId ∧
    ∀ other order, (h.drop other order).2.queues.record? queue messageId = none ↔ other = connectionId

/-- The consumer whose turn it is on the queue is one of the connection's,
no other connection has registered its id, and no delivery that the cleanup of
the connection may come to before declares a queue. -/
def ReadsOwn (h : Handler) (connectionId queue : String) : Prop :=
  ∃ stored id consumer, h.queues.queues.get? queue = some stored ∧
    h.consumers.TurnOf stored.consumerIds stored.consumerIds.length stored.rrIndex id ∧
    h.consumers.consumers.get? id = some consumer ∧ consumer.connectionId = connectionId ∧
    (∀ other, id ∈ h.consumers.listed other → other = connectionId) ∧
    Safe h.queues (InTheWay h.consumers h.queues (h.consumers.listed connectionId) id queue)

/-- The state in which a GET without a consumer id reserves: the consumer of
the connection is registered, or its window is set. -/
def reader (h : Handler) (connectionId queue : String) (prefetch : Option Int) : Handler :=
  h.getConsumer connectionId queue (getConsumerId connectionId queue)
    (prefetch.getD (h.prefetchOf connectionId))

theorem get_takes {prefetch : Option Int}
    (replied : h.handle connectionId (.get queue "" prefetch) =
      (.ok (.message message consumerId), h')) :
    ∃ id consumer m e', (h.reader connectionId queue prefetch).consumers.Takes
        (h.reader connectionId queue prefetch).queues queue id consumer m message e' ∧
      h' = (h.reader connectionId queue prefetch).took queue id consumer message e'
        (h.reader connectionId queue prefetch).sent .pulled := by
  change h.cmdGet connectionId queue "" prefetch = _ at replied
  unfold cmdGet at replied
  split at replied
  · cases replied
  · dsimp only at replied
    rw [if_pos rfl] at replied
    generalize registered : h.getConsumer connectionId queue (getConsumerId connectionId queue)
      (prefetch.getD (h.prefetchOf connectionId)) = ready at replied
    have same : h.reader connectionId queue prefetch = ready := registered
    rw [same]
    rcases tryReserve_cases ready.consumers ready.queues queue with ⟨e', nothing, _⟩ |
      ⟨id, consumer, m, message', e', takes⟩
    · rw [tryReserve_none nothing] at replied
      cases replied
    · rw [tryReserve_some takes] at replied
      simp only [Prod.mk.injEq, Reply.ok.injEq, Body.message.injEq] at replied
      obtain ⟨⟨rfl, _⟩, rfl⟩ := replied
      exact ⟨id, consumer, m, e', takes, rfl⟩

/-- Exactly when a message that is read by GET is the connection's own, as long as
the retries have their delays. -/
theorem get_owned_iff {prefetch : Option Int} (reached : Reachable delayGuards h)
    (replied : h.handle connectionId (.get queue "" prefetch) =
      (.ok (.message message consumerId), h')) :
    h'.OwnedBy connectionId queue message.id ↔
      (h.reader connectionId queue prefetch).ReadsOwn connectionId queue := by
  have ordered : Ordered (h.reader connectionId queue prefetch) :=
    ordered_kept.reader reached.free.ordered getConsumerId_nonempty fun _ => rfl
  obtain ⟨id, consumer, m, e', takes, rfl⟩ := get_takes replied
  generalize h.reader connectionId queue prefetch = ready at ordered takes ⊢
  have after : Ordered (ready.took queue id consumer message e' ready.sent .pulled) :=
    took_ordered ordered takes
  have same : message.id = m := (ordered.named.filed takes.held).1
  subst same
  obtain ⟨record, owner, _, records⟩ := takes.records
  obtain ⟨stored, found, chosen⟩ := takes.turn
  have exactly := takes.disconnect_exactly_iff ordered.named ordered.enrolled
  have there : e'.record? queue message.id = some record := by rw [records, if_pos ⟨rfl, rfl⟩]
  have entry : (ready.consumers.updateQos id fun qos => qos.onDeliver.2).consumers.get?
      record.consumerId = some { consumer with qos := consumer.qos.onDeliver.2 } := by
    rw [owner, updateQos_get?, if_pos rfl, takes.registered]
    rfl
  constructor
  · rintro ⟨record', entry', there', registered, mine, drops⟩
    obtain rfl := Option.some.inj (there.symm.trans there')
    obtain rfl := Option.some.inj (entry.symm.trans registered)
    subst mine
    obtain ⟨only, safe⟩ := exactly.mp drops
    exact ⟨stored, id, consumer, found, nextConsumer_iff.mp ⟨consumer, chosen⟩, takes.registered, rfl,
      only, safe⟩
  · rintro ⟨stored', id', consumer', found', turn, registered, rfl, only, safe⟩
    obtain rfl := Option.some.inj (found.symm.trans found')
    obtain ⟨other, chosen'⟩ := nextConsumer_iff.mpr turn
    have same : some (id, consumer) = some (id', other) := chosen.symm.trans chosen'
    obtain ⟨rfl, rfl⟩ := Prod.mk.inj (Option.some.inj same)
    obtain rfl := Option.some.inj (takes.registered.symm.trans registered)
    refine ⟨record, _, there, entry, ?_, exactly.mpr ⟨only, safe⟩⟩
    rfl

/-- Two messages for `jobs`, one of which a consumer of `c1` has when its
window is opened for the other. -/
def openedEvents : List Event := [
  .connect "c1",
  .command "c1" (.consume ["jobs"] "" "worker" (some 1) "" .u1),
  .command "c3" (.publish { payload := [1], queue := some "jobs" } fun _ => ⟨"m1", 0⟩),
  .command "c3" (.publish { payload := [2], queue := some "jobs" } fun _ => ⟨"m2", 0⟩),
  .command "c1" (.qos 2 "worker")]

def afterEvents (events : List Event) : Handler :=
  Systems.run step (created {} (fun _ => 0) fun _ => true) events

theorem get_owned_iff_opened : ∃ message,
    ((afterEvents openedEvents).handle "c2" (.get "jobs" "" none)).1 =
      .ok (.message message "worker") ∧
    (((afterEvents openedEvents).handle "c2" (.get "jobs" "" none)).2.OwnedBy "c2" "jobs" message.id ↔
      ((afterEvents openedEvents).reader "c2" "jobs" none).ReadsOwn "c2" "jobs") := by
  have reached : Reachable delayGuards (afterEvents openedEvents) :=
    Reachable.run (.start _ _ _) (by decide +kernel)
  exact ⟨_, rfl, get_owned_iff reached (Prod.ext rfl rfl)⟩

/-- The message that `c2` reads is out to the consumer of `c1`. -/
theorem stolen_read : Reachable {} (afterEvents openedEvents) ∧
    (∃ message, ((afterEvents openedEvents).handle "c2" (.get "jobs" "" none)).1 =
      .ok (.message message "worker") ∧ message.id = "m2") ∧
    ¬ ((afterEvents openedEvents).handle "c2" (.get "jobs" "" none)).2.OwnedBy "c2" "jobs" "m2" := by
  refine ⟨Reachable.run (.start _ _ _) (by decide +kernel), ⟨_, rfl, rfl⟩, ?_⟩
  rintro ⟨record, consumer, there, registered, mine, _⟩
  have holder : (((afterEvents openedEvents).handle "c2" (.get "jobs" "" none)).2.queues.record?
      "jobs" "m2").map (·.consumerId) = some "worker" := by decide +kernel
  have home : (((afterEvents openedEvents).handle "c2" (.get "jobs" "" none)).2.consumers.consumers.get?
      "worker").map (·.connectionId) = some "c1" := by decide +kernel
  rw [there, Option.map_some, Option.some.injEq] at holder
  rw [holder] at registered
  rw [registered, Option.map_some, Option.some.injEq, mine] at home
  exact absurd home (by decide)

end Handler
end OneOpenBroker.Broker

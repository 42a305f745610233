import OneOpenBroker.Broker.Ownership
import OneOpenBroker.Broker.Prefetch

/-! Pushes to connections that only pull. GET registers its consumer like any
other, so it takes turns in the delivery loop as well. It is not pushed to as
long as its window is full whenever the loop runs with a message to deliver. -/
namespace OneOpenBroker.Broker
open Collections OneOpenBroker.Core QueueEngine ConsumerManager

namespace Handler

variable {h h' : Handler} {queue m consumerId : String} {message : Message} {consumer : Consumer}

/-- The consumer belongs to a connection that never issued CONSUME on the queue. If
it takes turns there, GET has registered it, whatever its id was registered for since. -/
def PullOnly (h : Handler) (queue : String) (consumer : Consumer) : Prop :=
  (consumer.connectionId, queue) ∉ h.consumed

instance : Decidable (h.PullOnly queue consumer) := inferInstanceAs (Decidable (¬ _))

/-- The last hand-over of a message of a queue. -/
def latest (h : Handler) (queue messageId : String) : Option Handover :=
  h.handovers.find? fun handover => handover.queue = queue ∧ handover.messageId = messageId

/-! ## The conditions -/

/-- No message of the queue can be delivered. -/
def nothingReady (h : Handler) (queue : String) : Bool :=
  (h.queues.queues.get? queue).all fun stored => (popDeliverable stored stored.ready).1.isNone

/-- The pull-only consumers that take turns on the queue have no room. -/
def pullersFull (h : Handler) (queue : String) : Bool :=
  (h.queues.queues.get? queue).all fun stored => stored.consumerIds.all fun id =>
    (h.consumers.consumers.get? id).all fun consumer =>
      !decide (h.PullOnly queue consumer) || !consumer.qos.canDeliver

end Handler

/-- A consumer id that has deliveries in a queue is registered only for a connection
that issued CONSUME on it, and wherever the delivery loop runs with a message to
deliver, no pull-only consumer has room for it. -/
def pullGuards : Guards where
  register := fun h connectionId id _ => (h.queues.deliveries id).all fun place =>
    h.consumed.contains (connectionId, place.1)
  pump := fun h queue => h.nothingReady queue || h.pullersFull queue

namespace Handler

variable {h h' : Handler} {queue q m id consumerId : String} {message : Message}
  {consumer : Consumer} {e' : QueueEngine} {sent : Nat} {outcome : Outcome}

/-! ## What the conditions keep -/

/-- What was pushed was pushed to connections that issued CONSUME, and what a
pull-only consumer has was read by GET. -/
structure Pulled (h : Handler) : Prop where
  ordered : Ordered h
  pushes : ∀ handover ∈ h.handovers, handover.outcome ≠ .pulled →
    (handover.connectionId, handover.queue) ∈ h.consumed
  records : ∀ q m record consumer, h.queues.record? q m = some record →
    h.consumers.consumers.get? record.consumerId = some consumer → h.PullOnly q consumer →
    ∃ handover, h.latest q m = some handover ∧ handover.outcome = .pulled ∧
      handover.consumerId = record.consumerId

/-- A step without a hand-over: there are no new deliveries, and consumers
change in nothing but their windows. -/
theorem Pulled.fewer (pulled : Pulled h) (ordered : Ordered h') (handovers : h'.handovers = h.handovers)
    (consumed : ∀ pair ∈ h.consumed, pair ∈ h'.consumed)
    (records : ∀ q m record, h'.queues.record? q m = some record → h.queues.record? q m = some record)
    (consumers : ∀ id consumer, h'.consumers.consumers.get? id = some consumer →
      ∃ before, h.consumers.consumers.get? id = some before ∧
        consumer.connectionId = before.connectionId) :
    Pulled h' where
  ordered := ordered
  pushes handover member pushed := by
    rw [handovers] at member
    exact consumed _ (pulled.pushes handover member pushed)
  records q m record consumer there registered only := by
    obtain ⟨before, known, home⟩ := consumers _ consumer registered
    unfold latest
    rw [handovers]
    apply pulled.records q m record before (records q m record there) known
    unfold PullOnly at only ⊢
    rw [home] at only
    exact fun member => only (consumed _ member)

theorem Pulled.engine (pulled : Pulled h) (named : e'.Named)
    (records : ∀ q m record, e'.record? q m = some record → h.queues.record? q m = some record) :
    Pulled (h.withQueues e') :=
  pulled.fewer ⟨named, pulled.ordered.enrolled⟩ rfl (fun _ member => member) records
    fun _ consumer found => ⟨consumer, found, rfl⟩

theorem Pulled.stepped (pulled : Pulled h) (op : EngineOp) (other : ∀ name id, op ≠ .reserve name id) :
    Pulled (h.withQueues (h.queues.step true op)) :=
  pulled.engine (step_named pulled.ordered.named op)
    fun _ _ _ there => step_fewer pulled.ordered.named op other there

theorem Pulled.windowed (pulled : Pulled h) (id : String) (change : QoS → QoS) :
    Pulled { h with consumers := h.consumers.updateQos id change } := by
  have ordered : Ordered { h with consumers := h.consumers.updateQos id change } :=
    ⟨pulled.ordered.named, pulled.ordered.enrolled.updateQos id change⟩
  apply pulled.fewer ordered rfl (fun _ member => member) (fun _ _ _ there => there)
  intro id consumer found
  obtain ⟨before, known, _, home, _⟩ := updateQos_some found
  exact ⟨before, known, home⟩

theorem Pulled.credit (pulled : Pulled h) (consumerId : String) : Pulled (h.credited consumerId) := by
  unfold credited
  split
  · exact pulled
  · exact pulled.windowed consumerId QoS.onAck

/-- A hand-over. Unless it is the body of a GET response, it has to be to a
consumer that is not pull-only. -/
theorem Pulled.took (pulled : Pulled h)
    (takes : h.consumers.Takes h.queues queue id consumer m message e')
    (fair : outcome ≠ .pulled → ¬ h.PullOnly queue consumer) :
    Pulled (h.took queue id consumer message e' sent outcome) := by
  have key : consumer.consumerId = id := pulled.ordered.enrolled.keyed id consumer takes.registered
  have same : message.id = m := (pulled.ordered.named.filed takes.held).1
  subst same
  refine ⟨took_ordered pulled.ordered takes, ?_, ?_⟩
  · intro handover member pushed
    rcases List.mem_cons.mp member with rfl | earlier
    · by_contra never
      exact fair pushed never
    · exact pulled.pushes handover earlier pushed
  · intro q m record current there registered only
    obtain ⟨made, owner, _, records⟩ := takes.records
    change e'.record? q m = some record at there
    obtain ⟨before, known, _, home, _⟩ := updateQos_some registered
    have only' : h.PullOnly q before := by
      unfold PullOnly at only ⊢
      rw [home] at only
      exact only
    rw [records] at there
    split at there
    · rename_i here
      obtain ⟨rfl, rfl⟩ := here
      obtain rfl := Option.some.inj there
      rw [owner, takes.registered] at known
      obtain rfl := Option.some.inj known
      by_cases body : outcome = .pulled
      · refine ⟨_, List.find?_cons_of_pos (by simp), body, ?_⟩
        exact key.trans owner.symm
      · exact absurd only' (fair body)
    · rename_i elsewhere
      obtain ⟨handover, last, body, reader⟩ := pulled.records q m record before there known only'
      refine ⟨handover, ?_, body, reader⟩
      unfold latest
      rw [← last]
      apply List.find?_cons_of_neg
      simp only [decide_eq_true_eq, not_and]
      intro sameQueue sameMessage
      exact elsewhere ⟨sameQueue.symm, sameMessage.symm⟩

/-! ## The delivery loop -/

theorem nothingReady_idle (nothing : h.nothingReady queue = true) :
    ¬ h.consumers.Takes h.queues queue id consumer m message e' := by
  intro takes
  obtain ⟨stored, entry, found, listed, fresh⟩ := takes.ready
  unfold nothingReady at nothing
  rw [found, Option.all_some, Option.isNone_iff_eq_none] at nothing
  rcases popped : popDeliverable stored stored.ready with ⟨item, rest⟩
  rw [popped] at nothing
  dsimp only at nothing
  subst nothing
  exact fresh ((popDeliverable_none popped).2 entry listed)

theorem pullersFull_iff : h.pullersFull queue = true ↔
    ∀ stored id consumer, h.queues.queues.get? queue = some stored → id ∈ stored.consumerIds →
      h.consumers.consumers.get? id = some consumer → h.PullOnly queue consumer →
      consumer.qos.canDeliver = false := by
  unfold pullersFull
  simp only [Option.all_eq_true, List.all_eq_true, Bool.or_eq_true, Bool.not_eq_true',
    decide_eq_false_iff_not]
  constructor
  · intro all stored id consumer found turn registered only
    exact (all stored found id turn consumer registered).resolve_left fun never => never only
  · intro all stored found id turn consumer registered
    by_cases only : h.PullOnly queue consumer
    · exact .inr (all stored id consumer found turn registered only)
    · exact .inl only

/-- A push leaves less room than before. -/
theorem took_pullersFull (full : h.pullersFull queue = true)
    (takes : h.consumers.Takes h.queues queue id consumer m message e') :
    (h.took queue id consumer message e' sent outcome).pullersFull queue = true := by
  rw [pullersFull_iff] at full ⊢
  intro stored' other current found' turn registered only
  obtain ⟨stored, after, found, there, members, _⟩ := takes.shorter
  have same : after = stored' := Option.some.inj (there.symm.trans found')
  rw [← same, members] at turn
  change (h.consumers.updateQos id fun qos => qos.onDeliver.2).consumers.get? other = some current
    at registered
  rw [updateQos_get?] at registered
  split at registered
  · rename_i here
    obtain ⟨before, known, rfl⟩ := Option.map_eq_some_iff.mp registered
    have shut := full stored other before found turn (here ▸ known) only
    simp only [QoS.onDeliver, shut, Bool.false_eq_true, if_false]
  · exact full stored other current found turn registered only

/-- A reservation that the delivery loop makes under the conditions is not for
a pull-only consumer. -/
theorem takes_fair (ready : h.nothingReady queue = true ∨ h.pullersFull queue = true)
    (takes : h.consumers.Takes h.queues queue id consumer m message e') :
    h.pullersFull queue = true ∧ ¬ h.PullOnly queue consumer := by
  rcases ready with nothing | full
  · exact absurd takes (nothingReady_idle nothing)
  · refine ⟨full, fun only => ?_⟩
    obtain ⟨stored, found, chosen⟩ := takes.turn
    obtain ⟨member, registered, _⟩ := nextConsumer_some (Prod.ext (by rfl) chosen)
    have shut := pullersFull_iff.mp full stored id consumer found member registered only
    rw [takes.room] at shut
    cases shut

theorem pulled_kept : Kept pullGuards Pulled where
  frame h h' inv queues consumers handovers consumed := by
    apply inv.fewer ⟨queues ▸ inv.ordered.named, consumers ▸ inv.ordered.enrolled⟩ handovers
      (fun _ member => consumed ▸ member) (fun _ _ _ there => queues ▸ there)
    intro id consumer found
    exact ⟨consumer, consumers ▸ found, rfl⟩
  alike h e' inv alike := inv.engine (alike.named inv.ordered.named) fun _ _ _ there =>
    alike.records ▸ there
  record h op inv _ := inv.engine inv.ordered.named fun _ _ _ there => there
  declare h name args inv := inv.stepped (.declareQueue name args) fun _ _ same => by cases same
  delete h name inv _ := inv.stepped (.deleteQueue name) fun _ _ same => by cases same
  enqueue h message _ inv _ _ _ := inv.stepped (.enqueue message) fun _ _ same => by cases same
  requeue h queue m inv := inv.stepped (.dlqRequeue queue m) fun _ _ same => by cases same
  tick h inv _ := inv.stepped (.tick none) fun _ _ same => by cases same
  ack h m inv _ := (inv.stepped (.ack m) fun _ _ same => by cases same).credit _
  nack h m requeue inv _ := (inv.stepped (.nack m requeue) fun _ _ same => by cases same).credit _
  refusedNack h m requeue inv _ := inv.stepped (.nack m requeue) fun _ _ same => by cases same
  register h id connectionId queues prefetch tag inv _ ok := by
    refine ⟨⟨inv.ordered.named, inv.ordered.enrolled.register h.queues⟩, inv.pushes, ?_⟩
    intro q m record consumer there registered only
    change (h.consumers.register h.queues id connectionId queues prefetch tag).1.consumers.get?
      record.consumerId = some consumer at registered
    rw [register_get?] at registered
    split at registered
    · rename_i own
      obtain rfl := Option.some.inj registered
      have issued := List.all_eq_true.mp ok (q, m) (mem_deliveries.mpr ⟨record, there, own⟩)
      exact absurd (List.contains_iff_mem.mp issued) only
    · exact inv.records q m record consumer there registered only
  window h id count inv := inv.windowed id (·.setPrefetch count)
  cancel h id inv := by
    have ordered : Ordered (h.cancelled id) :=
      ⟨cancel_named inv.ordered.named, inv.ordered.enrolled.cancel⟩
    apply inv.fewer ordered rfl (fun _ member => member) (fun _ _ _ there => cancel_fewer there)
    intro other consumer found
    change (h.consumers.cancel h.queues id).2.1.consumers.get? other = some consumer at found
    rw [cancel_get?] at found
    split at found
    · cases found
    · exact ⟨consumer, found, rfl⟩
  issue h pairs inv := by
    have ordered : Ordered { h with consumed := pairs ++ h.consumed } :=
      ⟨inv.ordered.named, inv.ordered.enrolled⟩
    apply inv.fewer ordered rfl (fun _ member => List.mem_append_right _ member)
      (fun _ _ _ there => there)
    intro id consumer found
    exact ⟨consumer, found, rfl⟩
  pull _ _ _ _ _ _ _ inv takes := inv.took takes fun pushed => absurd rfl pushed
  pump h queue inv ok := by
    have ready : h.nothingReady queue = true ∨ h.pullersFull queue = true := by
      rw [← Bool.or_eq_true]
      exact ok
    apply pumpQueue_rule
      (L := fun h => Pulled h ∧ (h.nothingReady queue = true ∨ h.pullersFull queue = true))
      (I := Pulled) _ _ _ ⟨inv, ready⟩
    · intro h e' both alike
      exact both.1.engine (alike.named both.1.ordered.named) fun _ _ _ there => alike.records ▸ there
    · intro h id consumer m message e' sent both takes
      obtain ⟨full, fair⟩ := takes_fair both.2 takes
      exact ⟨both.1.took takes fun _ => fair, .inr (took_pullersFull full takes)⟩
    · intro h id consumer m message e' sent both takes
      have took : Pulled (h.took queue id consumer message e' sent .refused) :=
        both.1.took takes fun _ => (takes_fair both.2 takes).2
      exact (took.stepped (.nack message.id true) fun _ _ same => by cases same).windowed
        consumer.consumerId QoS.onAck

/-- A message is published and then read by GET. -/
def readEvents : List Event := [
  .connect "c1",
  .command "c2" (.publish { payload := [1], queue := some "jobs" } fun _ => ⟨"m1", 0⟩),
  .command "c1" (.get "jobs" "" none)]

/-- The next message. -/
def pollEvents : List Event := readEvents ++
  [.command "c2" (.publish { payload := [2], queue := some "jobs" } fun _ => ⟨"m2", 0⟩)]

end Handler
end OneOpenBroker.Broker

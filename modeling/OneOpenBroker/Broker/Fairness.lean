import OneOpenBroker.Broker.Quiet
import OneOpenBroker.Library.Rotation

/-! Fair delivery. The consumers of a queue take turns, and the index of the next
turn moves on with every turn that is tried. The delivery loop ends with a turn
that finds nothing, so each of its runs skips one consumer, and whether the
consumers get equally many messages depends on how many messages the runs find. -/
namespace OneOpenBroker.Broker.Handler
open Collections OneOpenBroker.Core QueueEngine ConsumerManager Systems Rotation

/-! ## What is delivered to whom -/

/-- How many messages of the queue a log of hand-overs has pushed to the consumer. -/
def deliveredTo (q id : String) (log : List Handover) : Nat :=
  log.countP fun handover =>
    handover.queue = q ∧ handover.consumerId = id ∧ handover.outcome = .pushed

/-- At every moment between two states the consumers of the queue have been
delivered equally many of its messages since the first, up to one. -/
def FairSince (h h' : Handler) (q : String) (ids : List String) : Prop :=
  ∀ later earlier, h'.handovers = later ++ earlier ++ h.handovers →
    ∀ id ∈ ids, ∀ other ∈ ids, deliveredTo q id earlier ≤ deliveredTo q other earlier + 1

/-- No send of a message of the queue failed between two states. -/
def Accepted (h h' : Handler) (q : String) : Prop :=
  ∀ news, h'.handovers = news ++ h.handovers → ∀ handover ∈ news, handover.queue = q →
    handover.outcome ≠ .refused

/-- The consumers are registered with an unlimited window. -/
def Unlimited (c : ConsumerManager) (ids : List String) : Prop :=
  ∀ id ∈ ids, ∃ consumer, c.consumers.get? id = some consumer ∧ consumer.consumerId = id ∧
    consumer.cancelled = false ∧ consumer.qos.prefetchCount ≤ 0

/-- The consumers take turns on the queue, and `index` is the next turn. -/
structure Turned (h : Handler) (q : String) (ids : List String) (index : Nat) : Prop where
  rota : h.queues.rota? q = some (ids, index)
  unlimited : Unlimited h.consumers ids

/-- The messages of a queue that the delivery loop finds: the ready ones that
are held and neither out nor delayed. -/
def found (queue : DurableQueue) : Finset String :=
  (queue.ready.map (·.messageId)).toFinset.filter fun id =>
    id ∈ queue.messages ∧ id ∉ queue.inflight ∧ id ∉ queue.delayedIds

/-- How many messages a run of the loop over the queue would find now. -/
def foundCount (e : QueueEngine) (q : String) : Nat :=
  ((e.queues.get? q).map fun queue => (found queue).card).getD 0

/-- How many messages each run of the loop over `q` finds when it starts, in a
sequence of runs over several queues. -/
def pumpSizes (q : String) : List String → Handler → List Nat
  | [], _ => []
  | queue :: rest, h =>
    (if queue = q then [foundCount h.queues q] else []) ++ pumpSizes q rest (h.pumpQueue queue)

/-- The same for the runs of an event. -/
def eventSizes (q : String) (h : Handler) : Event → List Nat
  | .command _ (.publish args stamp) =>
    let ((_, routed, result), routing) := h.routing.publish args stamp
    if result = .ok then pumpSizes q routed { h with routing } else []
  | .ticker =>
    let e := h.queues.tick.2
    pumpSizes q (listQueues e) (h.withQueues e)
  | _ => []

def runSizes (q : String) : Handler → List Event → List Nat
  | _, [] => []
  | h, event :: rest => eventSizes q h event ++ runSizes q (h.step event) rest

/-- The event is a PUBLISH command or a round of the ticker. -/
def Working : Event → Prop
  | .command _ (.publish ..) => True
  | .ticker => True
  | _ => False

variable {h h' h'' : Handler} {c : ConsumerManager} {e e' : QueueEngine} {q queue id m : String}
  {ids : List String} {index : Nat} {consumer : Consumer} {message : Message}

/-! ## One turn -/

/-- Delivering a message takes it out of those that are found. -/
theorem found_deliver {stored : DurableQueue} {rest : List ReadyEntry} {record : InflightRecord}
    (popped : popDeliverable stored stored.ready = (some (id, message), rest))
    (same : record.messageId = id) :
    (found (stored.deliver rest record)).card + 1 = (found stored).card := by
  obtain ⟨held, idle, awake, skipped, entry, split, named, stale⟩ := popDeliverable_some popped
  have there : id ∈ found stored := by
    have listed : entry ∈ stored.ready := by rw [split]; simp
    simp only [found, Finset.mem_filter, List.mem_toFinset, List.mem_map]
    exact ⟨⟨entry, listed, named⟩, Dict.mem_of_get? held, idle, awake⟩
  have less : found (stored.deliver rest record) = (found stored).erase id := by
    ext m
    simp only [found, Finset.mem_filter, List.mem_toFinset, List.mem_map, Finset.mem_erase,
      DurableQueue.deliver, Dict.mem_set, same, not_or, split, List.mem_append, List.mem_cons]
    constructor
    · rintro ⟨⟨later, member, rfl⟩, here, ⟨differ, out⟩, late⟩
      exact ⟨differ, ⟨later, .inr (.inr member), rfl⟩, here, out, late⟩
    · rintro ⟨differ, ⟨later, member, rfl⟩, here, out, late⟩
      refine ⟨⟨later, ?_, rfl⟩, here, ⟨differ, out⟩, late⟩
      rcases member with early | rfl | member
      · rcases stale later early with gone | busy | waiting
        · exact absurd here gone
        · exact absurd busy out
        · exact absurd waiting late
      · exact absurd named differ
      · exact member
  rw [less, Finset.card_erase_of_mem there]
  have := Finset.card_pos.mpr ⟨id, there⟩
  omega

theorem found_nothing {stored : DurableQueue} (stale : ∀ entry ∈ stored.ready, Stale stored entry) :
    (found stored).card = 0 := by
  rw [Finset.card_eq_zero, Finset.eq_empty_iff_forall_notMem]
  intro m member
  simp only [found, Finset.mem_filter, List.mem_toFinset, List.mem_map] at member
  obtain ⟨⟨entry, listed, rfl⟩, here, out, late⟩ := member
  rcases stale entry listed with gone | busy | waiting
  · exact gone here
  · exact out busy
  · exact late waiting

/-- With unlimited windows it is the turn of the consumer at the index. -/
theorem nextOn_unlimited {stored : DurableQueue} (unlimited : Unlimited c stored.consumerIds)
    (some : stored.consumerIds ≠ []) :
    ∃ consumer, c.consumers.get? (stored.consumerIds.getD (stored.rrIndex % stored.consumerIds.length) "") =
        Option.some consumer ∧
      consumer.consumerId = stored.consumerIds.getD (stored.rrIndex % stored.consumerIds.length) "" ∧
      c.nextOn stored = (stored.rrIndex + 1, Option.some
        (stored.consumerIds.getD (stored.rrIndex % stored.consumerIds.length) "", consumer)) := by
  have positive : 0 < stored.consumerIds.length := List.length_pos_iff.mpr some
  have inside := Nat.mod_lt stored.rrIndex positive
  have here : stored.consumerIds[stored.rrIndex % stored.consumerIds.length]? =
      Option.some (stored.consumerIds.getD (stored.rrIndex % stored.consumerIds.length) "") := by
    rw [List.getD_eq_getElem?_getD, List.getElem?_eq_getElem inside, Option.getD_some]
  generalize stored.consumerIds.getD (stored.rrIndex % stored.consumerIds.length) "" = turn at here ⊢
  obtain ⟨consumer, known, own, active, free⟩ := unlimited turn (List.mem_of_getElem? here)
  refine ⟨consumer, known, own, ?_⟩
  have room : consumer.qos.canDeliver = true := by simp [QoS.canDeliver, free]
  unfold nextOn
  obtain ⟨turns, length⟩ : ∃ turns, stored.consumerIds.length = turns + 1 :=
    ⟨stored.consumerIds.length - 1, by omega⟩
  rw [length] at here ⊢
  simp only [nextConsumer, length, here, known, active, room, Bool.not_false, Bool.and_self, if_true]

/-- What a turn comes to, given the consumer whose turn it is. -/
theorem tryReserve_eq {stored : DurableQueue} (known : e.queues.get? q = some stored) {next : Nat}
    (turn : c.nextOn stored = (next, some (id, consumer))) :
    let reserved := (e.putQueue q { stored with rrIndex := next }).reserve q id
    (reserved.1 = none → c.tryReserve e q = (none, c, reserved.2)) ∧
      ∀ message, reserved.1 = some message → c.tryReserve e q =
        (some ({ consumer with qos := consumer.qos.onDeliver.2 }, message),
          c.updateQos id fun qos => qos.onDeliver.2, reserved.2) := by
  dsimp only
  unfold ConsumerManager.tryReserve
  rw [known]
  dsimp only
  rw [turn]
  dsimp only
  rcases (e.putQueue q { stored with rrIndex := next }).reserve q id with ⟨item, after⟩
  dsimp only
  constructor
  · rintro rfl
    rfl
  · rintro message rfl
    rfl

/-- A turn finds a message for the consumer at the index, or nothing is there
to be found. The index moves on either way. -/
theorem tryReserve_turn (rota : e.rota? q = some (ids, index)) (unlimited : Unlimited c ids)
    (nonempty : ids ≠ []) : (c.tryReserve e q).2.2.rota? q = some (ids, index + 1) ∧
    ((c.tryReserve e q).1 = none ∧ foundCount e q = 0 ∨
      ∃ consumer message, (c.tryReserve e q).1 = some (consumer, message) ∧
        consumer.consumerId = ids.getD (index % ids.length) "" ∧
        foundCount (c.tryReserve e q).2.2 q + 1 = foundCount e q) := by
  obtain ⟨stored, known, shape⟩ := Option.map_eq_some_iff.mp rota
  obtain ⟨rfl, rfl⟩ := Prod.mk.inj shape
  obtain ⟨consumer, registered, own, turn⟩ := nextOn_unlimited unlimited nonempty
  have count : foundCount e q = (found stored).card := by simp [foundCount, known]
  obtain ⟨idle, taken⟩ := tryReserve_eq known turn
  generalize stored.consumerIds.getD (stored.rrIndex % stored.consumerIds.length) "" = id at *
  generalize base : e.putQueue q { stored with rrIndex := stored.rrIndex + 1 } = middle at idle taken
  have there : middle.queues.get? q = some { stored with rrIndex := stored.rrIndex + 1 } := by
    rw [← base]
    exact Dict.get?_set_self
  have kept : (middle.reserve q id).2.rota? q = some (stored.consumerIds, stored.rrIndex + 1) := by
    have keeps : Keeps (fun _ => False) middle (middle.reserve q id).2 := reserve_keeps
    rcases keeps q with same | ⟨impossible, _⟩
    · rw [same, rota?_of_get there]
    · exact impossible.elim
  rcases reserve_cases middle q id with
    ⟨stored', m, message, rest, reserves⟩ | ⟨nothing, ⟨_, missing⟩ | ⟨stored', known', stale, _⟩⟩
  · have same := reserves.found
    rw [there] at same
    obtain rfl := Option.some.inj same
    rw [taken message reserves.result]
    refine ⟨kept, .inr ⟨_, message, rfl, own, ?_⟩⟩
    rw [count]
    dsimp only
    unfold foundCount
    rw [reserves.queues, Dict.get?_set_self]
    exact found_deliver reserves.popped rfl
  · rw [there] at missing
    cases missing
  · rw [there] at known'
    obtain rfl := Option.some.inj known'
    rw [idle nothing]
    exact ⟨kept, .inl ⟨rfl, count.trans (found_nothing stale)⟩⟩

/-- Turns on one queue are not turns on another. -/
theorem tryReserve_other (other : q ≠ queue) : (c.tryReserve e queue).2.2.rota? q = e.rota? q := by
  unfold ConsumerManager.tryReserve
  cases found : e.queues.get? queue with
  | none => rfl
  | some stored =>
    dsimp only
    rcases c.nextOn stored with ⟨next, turn⟩
    have turned : (e.putQueue queue { stored with rrIndex := next }).rota? q = e.rota? q := by
      rw [rota?_of_set (e := e) rfl, if_neg other]
    cases turn with
    | none => exact turned
    | some pair =>
      obtain ⟨id, consumer⟩ := pair
      have keeps : Keeps (fun _ => False) _
        ((e.putQueue queue { stored with rrIndex := next }).reserve queue id).2 := reserve_keeps
      have same := (keeps q).resolve_right fun impossible => impossible.1.elim
      dsimp only
      split <;> rename_i shape <;> rw [shape] at same <;> exact same.trans turned

theorem updateQos_unlimited {change : QoS → QoS}
    (keeps : ∀ qos, (change qos).prefetchCount = qos.prefetchCount) (unlimited : Unlimited c ids) :
    Unlimited (c.updateQos id change) ids := by
  intro other member
  obtain ⟨consumer, known, own, active, free⟩ := unlimited other member
  rw [updateQos_get?]
  split
  · rename_i same
    rw [← same, known]
    exact ⟨_, rfl, own, active, by rw [keeps]; exact free⟩
  · exact ⟨consumer, known, own, active, free⟩

theorem onDeliver_prefetch (qos : QoS) : qos.onDeliver.2.prefetchCount = qos.prefetchCount := by
  unfold QoS.onDeliver
  split <;> rfl

/-! ## Who is served -/

/-- Whom the messages of the queue were pushed to, in order. -/
def receivers (q : String) (log : List Handover) : List String :=
  (log.filterMap fun handover =>
    if handover.queue = q ∧ handover.outcome = .pushed then some handover.consumerId else none).reverse

theorem receivers_append {later earlier : List Handover} :
    receivers q (later ++ earlier) = receivers q earlier ++ receivers q later := by
  simp [receivers, List.filterMap_append]

theorem receivers_pushed {handover : Handover} (here : handover.queue = q)
    (pushed : handover.outcome = .pushed) : receivers q [handover] = [handover.consumerId] := by
  simp [receivers, here, pushed]

theorem receivers_count (log : List Handover) : (receivers q log).count id = deliveredTo q id log := by
  rw [receivers, List.count_reverse, List.count, List.countP_filterMap]
  apply List.countP_congr
  intro handover _
  by_cases fits : handover.queue = q ∧ handover.outcome = .pushed
  · simp [fits]
  · simp only [if_neg fits, decide_eq_true_eq]
    refine iff_of_false (by simp) ?_
    rintro ⟨here, _, pushed⟩
    exact fits ⟨here, pushed⟩

/-- The deliveries are fair exactly if those who are served take balanced turns. -/
theorem fairSince_iff {news : List Handover} (log : h'.handovers = news ++ h.handovers) :
    FairSince h h' q ids ↔ Balanced ids (receivers q news) := by
  constructor
  · intro fair part early id member other member'
    rw [receivers, ← List.reverse_reverse part, List.reverse_prefix] at early
    obtain ⟨earlier, ⟨later, split⟩, same⟩ := List.suffix_filterMap_iff.mp early
    have shape : part = receivers q earlier := by
      rw [receivers, ← same, List.reverse_reverse]
    rw [shape, receivers_count, receivers_count]
    exact fair later earlier (by rw [log, split]) id member other member'
  · intro balanced later earlier shape id member other member'
    rw [log, List.append_left_inj] at shape
    rw [← receivers_count, ← receivers_count]
    refine balanced _ ?_ id member other member'
    rw [shape, receivers_append]
    exact List.prefix_append _ _

/-- The loop served the consumers in turn, in runs over the queue of the given
sizes, if none of them refused. -/
def Serves (q : String) (ids : List String) (sizes : List Nat) (h h' : Handler) : Prop :=
  ∃ news, h'.handovers = news ++ h.handovers ∧
    ((∀ handover ∈ news, handover.queue = q → handover.outcome ≠ .refused) →
      ∀ index, Turned h q ids index → Turned h' q ids (index + sizes.sum + sizes.length) ∧
        receivers q news = (turns index sizes).map fun turn => ids.getD (turn % ids.length) "")

variable {sizes sizes' : List Nat}

theorem Serves.trans (first : Serves q ids sizes h h') (second : Serves q ids sizes' h' h'') :
    Serves q ids (sizes ++ sizes') h h'' := by
  obtain ⟨news, log, served⟩ := first
  obtain ⟨news', log', served'⟩ := second
  refine ⟨news' ++ news, by rw [log', log, List.append_assoc], fun taken index turned => ?_⟩
  obtain ⟨middle, order⟩ := served
    (fun handover member => taken handover (List.mem_append_right _ member)) index turned
  obtain ⟨last, order'⟩ := served'
    (fun handover member => taken handover (List.mem_append_left _ member)) _ middle
  constructor
  · rw [List.sum_append, List.length_append]
    convert last using 1
    omega
  · rw [receivers_append, order, order', turns_append, List.map_append]

/-- Nothing is handed over, and the turns stay. -/
theorem Serves.rest (log : h'.handovers = h.handovers)
    (rota : ∀ index, h.queues.rota? q = some (ids, index) → h'.queues.rota? q = some (ids, index))
    (unlimited : Unlimited h.consumers ids → Unlimited h'.consumers ids) : Serves q ids [] h h' :=
  ⟨[], log, fun _ index turned => ⟨⟨rota index turned.rota, unlimited turned.unlimited⟩, rfl⟩⟩

theorem Serves.refl (h : Handler) : Serves q ids [] h h := .rest rfl (fun _ rota => rota) id

/-- What keeps the turns on a queue where somebody takes turns. -/
theorem keeps_serves {may : String → Prop} (keeps : Keeps may h.queues e) :
    Serves q ids [] h (h.withQueues e) := by
  refine .rest rfl (fun index rota => ?_) fun unlimited => unlimited
  rcases keeps q with same | ⟨_, absent, _⟩
  · exact same.trans rota
  · rw [rota] at absent
    cases absent

theorem onAck_serves : Serves q ids [] h (h.onAck id) := by
  have limits (qos : QoS) : qos.onAck.prefetchCount = qos.prefetchCount := rfl
  exact .rest rfl (fun _ rota => rota) (updateQos_unlimited limits)

/-! ## The loop -/

theorem took_log (h : Handler) (queue id : String) (consumer : Consumer) (message : Message)
    (e' : QueueEngine) (sent : Nat) (outcome : Outcome) : ∃ handover : Handover,
      (h.took queue id consumer message e' sent outcome).handovers = handover :: h.handovers ∧
        handover.queue = queue ∧ handover.consumerId = consumer.consumerId ∧
        handover.outcome = outcome :=
  ⟨_, rfl, rfl, rfl, rfl⟩

/-- A run over another queue. -/
theorem pumpQueue_other (other : q ≠ queue) : Serves q ids [] h (h.pumpQueue queue) := by
  have took {h : Handler} {id : String} {consumer : Consumer} {m : String} {message : Message}
      {e' : QueueEngine} {sent : Nat} {outcome : Outcome}
      (takes : h.consumers.Takes h.queues queue id consumer m message e') :
      Serves q ids [] h (h.took queue id consumer message e' sent outcome) := by
    obtain ⟨handover, log, there, _⟩ := took_log h queue id consumer message e' sent outcome
    refine ⟨[handover], log, fun _ index turned => ⟨⟨?_, ?_⟩, ?_⟩⟩
    · have same : (h.consumers.tryReserve h.queues queue).2.2.rota? q = h.queues.rota? q :=
        tryReserve_other other
      rw [takes.result] at same
      exact same.trans turned.rota
    · exact updateQos_unlimited onDeliver_prefetch turned.unlimited
    · simp [receivers, turns, there, Ne.symm other]
  apply pumpQueue_loop (L := Serves q ids [] h) (I := Serves q ids [] h) _ _ _ (.refl h)
  · intro h' e' served nothing _
    refine served.trans (.rest rfl (fun index rota => ?_) fun unlimited => unlimited)
    have same : (h'.consumers.tryReserve h'.queues queue).2.2.rota? q = h'.queues.rota? q :=
      tryReserve_other other
    rw [nothing] at same
    exact same.trans rota
  · exact fun h' id consumer m message e' sent served takes => served.trans (took takes)
  · intro h' id consumer m message e' sent served takes
    exact (served.trans (took takes)).trans ((keeps_serves nack_keeps).trans onAck_serves)

/-- A run over the queue takes a turn for every message that it finds, and one
more that finds nothing. -/
theorem pumpQueue_serves (nonempty : ids ≠ []) :
    Serves q ids [foundCount h.queues q] h (h.pumpQueue q) := by
  generalize size : h.readyCount q = n
  induction n using Nat.strongRecOn generalizing h with
  | ind n ih =>
    rcases pumpQueue_eq h q with ⟨e', nothing, _, shape⟩ |
      ⟨id, consumer, m, message, e', sent, takes, shape | shape⟩
    · refine ⟨[], by rw [shape]; rfl, fun _ index turned => ?_⟩
      obtain ⟨moved, ⟨_, none⟩ | ⟨_, _, impossible, _⟩⟩ :=
        tryReserve_turn turned.rota turned.unlimited nonempty
      · rw [nothing] at moved
        rw [shape, none]
        exact ⟨⟨moved, turned.unlimited⟩, rfl⟩
      · rw [nothing] at impossible
        cases impossible
    · have fewer : (h.took q id consumer message e' sent .pushed).readyCount q < h.readyCount q :=
        took_readyCount takes
      obtain ⟨handover, first, here, mine, pushed⟩ := took_log h q id consumer message e' sent .pushed
      rw [shape]
      -- The rest of the run is a run too, from one turn later.
      have after : ∀ h', h.took q id consumer message e' sent .pushed = h' →
          Serves q ids [foundCount h'.queues q] h' (h'.pumpQueue q) := by
        rintro h' rfl
        exact ih _ (by omega) rfl
      generalize next : h.took q id consumer message e' sent .pushed = h' at *
      obtain ⟨news, log, served⟩ := after h' rfl
      refine ⟨news ++ [handover], by rw [log, first, List.append_assoc]; rfl, fun taken index turned => ?_⟩
      obtain ⟨moved, ⟨impossible, _⟩ | ⟨_, _, result, own, count⟩⟩ :=
        tryReserve_turn turned.rota turned.unlimited nonempty
      · rw [takes.result] at impossible
        cases impossible
      · rw [takes.result] at moved result count
        obtain ⟨rfl, rfl⟩ := Prod.mk.inj (Option.some.inj result)
        have less : foundCount h'.queues q + 1 = foundCount h.queues q := by
          rw [← next]
          exact count
        have turned' : Turned h' q ids (index + 1) := by
          rw [← next]
          exact ⟨moved, updateQos_unlimited onDeliver_prefetch turned.unlimited⟩
        obtain ⟨last, order⟩ := served
          (fun handover member => taken handover (List.mem_append_left _ member)) _ turned'
        constructor
        · convert last using 1
          simp only [List.sum_cons, List.sum_nil, List.length_cons, List.length_nil]
          omega
        · have turn : handover.consumerId = ids.getD (index % ids.length) "" := mine.trans own
          rw [receivers_append, order, receivers_pushed here pushed, turn, ← less]
          simp only [turns, List.append_nil, List.range'_succ, List.map_cons, List.singleton_append]
    · obtain ⟨handover, first, here, _, refused⟩ := took_log h q id consumer message e' sent .refused
      refine ⟨[handover], by rw [shape]; exact first, fun taken => ?_⟩
      exact absurd refused (taken handover (List.mem_singleton_self _) here)

theorem pumpAll_serves (nonempty : ids ≠ []) (queues : List String) :
    Serves q ids (pumpSizes q queues h) h (h.pumpAll queues) := by
  induction queues generalizing h with
  | nil => exact .refl h
  | cons queue rest ih =>
    rw [pumpSizes]
    by_cases same : queue = q
    · subst same
      rw [if_pos rfl]
      exact (pumpQueue_serves nonempty).trans ih
    · rw [if_neg same]
      exact (pumpQueue_other (Ne.symm same)).trans ih

/-! ## Events -/

/-- Publishing leaves the turns as they are. -/
theorem publish_keeps (r : RoutingEngine) (args : PublishArgs) (stamp : String → Stamp) :
    Keeps (fun _ => True) r.queues (r.publish args stamp).2.queues := by
  have ensured : Keeps (fun _ => True) r.queues (r.ensureQueue args true).1.queues := by
    unfold RoutingEngine.ensureQueue
    split
    · exact .refl _ _
    · dsimp only
      split
      · split
        · exact .refl _ _
        · rename_i name _ _ _
          have declared : Keeps (fun _ => True) r.queues (r.queues.declareQueue name {}) :=
            declareQueue_keeps trivial trivial
          have bound := (Persistence.routing_preserves
            (r := { r with queues := r.queues.declareQueue name {} })
            (I := Keeps (fun _ => True) (r.queues.declareQueue name {}))
            (fun _ _ _ keeps => keeps.trans (.of_queues append_queues)) (.refl _ _)).2.2.1
            defaultExchange name name
          exact declared.trans bound
      · exact .refl _ _
  unfold RoutingEngine.publish
  rcases shape : r.ensureQueue args true with ⟨r', exchange, routingKey⟩
  rw [shape] at ensured
  dsimp only at ensured ⊢
  split
  · split
    · exact ensured
    · exact RoutingEngine.fanOut_preserves (I := Keeps (fun _ => True) r.queues)
        (fun _ _ keeps => keeps.trans enqueue_keeps) ensured
  · exact ensured

theorem step_serves {event : Event} (nonempty : ids ≠ []) (works : Working event) :
    Serves q ids (eventSizes q h event) h (h.step event) := by
  cases event with
  | command connectionId command =>
    cases command with
    | publish args stamp =>
      have published : Serves q ids [] h { h with routing := (h.routing.publish args stamp).2 } := by
        refine .rest rfl (fun index rota => ?_) id
        rcases publish_keeps h.routing args stamp q with same | ⟨_, absent, _⟩
        · exact same.trans rota
        · rw [show h.routing.queues.rota? q = some (ids, index) from rota] at absent
          cases absent
      change Serves q ids _ h (h.cmdPublish args stamp).2
      rcases shape : h.routing.publish args stamp with ⟨⟨_, routed, result⟩, routing⟩
      rw [shape] at published
      simp only [cmdPublish, eventSizes, shape]
      dsimp only at published
      cases result with
      | ok =>
        simp only [reduceCtorEq, if_false, if_true, false_or]
        split
        · rename_i nobody
          rw [nobody]
          exact published
        · exact published.trans (pumpAll_serves nonempty routed)
      | queueFull => exact published
      | notFound => exact published
    | _ => exact works.elim
  | ticker => exact (keeps_serves tick_keeps).trans (pumpAll_serves nonempty _)
  | connect connectionId => exact works.elim
  | drop connectionId order => exact works.elim

theorem run_serves {events : List Event} (nonempty : ids ≠ [])
    (work : ∀ event ∈ events, Working event) :
    Serves q ids (runSizes q h events) h (run step h events) := by
  induction events generalizing h with
  | nil => exact .refl h
  | cons event rest ih =>
    obtain ⟨works, later⟩ := List.forall_mem_cons.mp work
    exact (step_serves nonempty works).trans (ih later)

/-- **Fair delivery.** While consumers with unlimited windows take turns on a
queue, messages are published and the ticker runs, they are served equally often
at every moment exactly if the runs of the delivery loop find messages in such
numbers that in every round of the turns used no consumer's turn comes twice. -/
theorem fair_delivery_iff {events : List Event} (turned : Turned h q ids index)
    (nonempty : ids ≠ []) (distinct : ids.Nodup) (work : ∀ event ∈ events, Working event)
    (taken : Accepted h (run step h events) q) :
    FairSince h (run step h events) q ids ↔
      DistinctRounds ids.length ((turns 0 (runSizes q h events)).map (· % ids.length)) := by
  have serves : Serves q ids (runSizes q h events) h (run step h events) := run_serves nonempty work
  obtain ⟨news, log, served⟩ := serves
  obtain ⟨_, order⟩ := served (taken news log) index turned
  rw [fairSince_iff log, order]
  exact turns_balanced_iff distinct nonempty

/-- Two consumers with unlimited windows on one queue. -/
def twoConsumers : Handler := run step (created {} (fun _ => 0) fun _ => true)
  [.connect "c1", .command "c1" (.consume [] "jobs" "first" (some 0) "" Uuid.u1),
    .command "c1" (.consume [] "jobs" "second" (some 0) "" Uuid.u1)]

def publishJob (uuid : String) : Event :=
  .command "c2" (.publish { payload := [1], queue := some "jobs" } fun _ => ⟨uuid, 0⟩)

theorem twoConsumers_turned : Turned twoConsumers "jobs" ["first", "second"] 2 := by
  refine ⟨by decide +kernel, fun id member => ?_⟩
  have registered : ∀ id ∈ ["first", "second"], ((twoConsumers.consumers.consumers.get? id).any
      fun consumer => consumer.consumerId = id ∧ consumer.cancelled = false ∧
        consumer.qos.prefetchCount ≤ 0) = true := by decide +kernel
  obtain ⟨consumer, known, shape⟩ := (Option.any_eq_true _ _).mp (registered id member)
  exact ⟨consumer, known, by simpa using shape⟩

theorem fair_delivery_iff_one : FairSince twoConsumers (run step twoConsumers [publishJob "m1"])
    "jobs" ["first", "second"] ↔ DistinctRounds 2 [0] := by
  have taken : Accepted twoConsumers (run step twoConsumers [publishJob "m1"]) "jobs" := by
    intro news log handover member _
    have pushed : ∀ handover ∈ (run step twoConsumers [publishJob "m1"]).handovers,
        handover.outcome ≠ .refused := by decide +kernel
    exact pushed handover (by rw [log]; exact List.mem_append_left _ member)
  have sizes : runSizes "jobs" twoConsumers [publishJob "m1"] = [1] := by decide +kernel
  have fair := fair_delivery_iff twoConsumers_turned (by decide) (by decide)
    (List.forall_mem_singleton.mpr (show Working (publishJob "m1") from trivial)) taken
  rw [sizes] at fair
  exact fair

/-- Two messages that are published one at a time both go to the first consumer. -/
theorem one_at_a_time_not_fair :
    Turned twoConsumers "jobs" ["first", "second"] 2 ∧
    Accepted twoConsumers (run step twoConsumers [publishJob "m1", publishJob "m2"]) "jobs" ∧
    ¬ FairSince twoConsumers (run step twoConsumers [publishJob "m1", publishJob "m2"])
      "jobs" ["first", "second"] := by
  refine ⟨twoConsumers_turned, fun news log handover member _ => ?_, fun fair => ?_⟩
  · have pushed : ∀ handover ∈ (run step twoConsumers [publishJob "m1", publishJob "m2"]).handovers,
        handover.outcome ≠ .refused := by decide +kernel
    exact pushed handover (by rw [log]; exact List.mem_append_left _ member)
  · have start : twoConsumers.handovers = [] := by decide +kernel
    have counts := fair [] (run step twoConsumers [publishJob "m1", publishJob "m2"]).handovers
      (by rw [start, List.nil_append, List.append_nil]) "first" (by simp) "second" (by simp)
    revert counts
    decide +kernel

end OneOpenBroker.Broker.Handler

import OneOpenBroker.Core.Index
import OneOpenBroker.Core.Overflow

/-! Exclusive placement. A held message is in one place of its queue: on the
ready heap, in the inflight table or among the delayed ids. The invariant
counts the places of each id, so every operation is a small sum; a message
between two places is in none. Requeueing a message out of a DLQ takes it off
the ready heap only, which is where the invariant needs it to be. -/
namespace OneOpenBroker.Core.QueueEngine
open Collections Systems

def readyIds (queue : DurableQueue) : List String := queue.ready.map (·.messageId)

/-- How often an id is placed in a queue. -/
def places (queue : DurableQueue) (m : String) : Nat :=
  (readyIds queue).count m + (if m ∈ queue.inflight then 1 else 0) +
    (if m ∈ queue.delayedIds then 1 else 0)

/-- Every held message has one place and nothing else has any. -/
def Balanced (queue : DurableQueue) : Prop :=
  ∀ m, places queue m = if m ∈ queue.messages then 1 else 0

/-- The same but for one message, which has no place at the moment. -/
def Lifted (id : String) (queue : DurableQueue) : Prop :=
  places queue id = 0 ∧ ∀ m, m ≠ id → places queue m = if m ∈ queue.messages then 1 else 0

/-- What exclusive placement says of an engine. -/
structure Exclusive (e : QueueEngine) : Prop where
  nodup : ∀ q queue, e.queues.get? q = some queue → (readyIds queue).Nodup
  disjoint : ∀ q queue, e.queues.get? q = some queue → ∀ m,
    (m ∈ readyIds queue → m ∉ queue.inflight ∧ m ∉ queue.delayedIds) ∧
    (m ∈ queue.inflight → m ∉ queue.delayedIds)
  union : ∀ q queue, e.queues.get? q = some queue → ∀ m,
    m ∈ queue.messages ↔ m ∈ readyIds queue ∨ m ∈ queue.inflight ∨ m ∈ queue.delayedIds
  depth : ∀ q queue, e.queues.get? q = some queue → queue.depth = queue.messages.size
  index : ∀ q m, e.byId.get? m = some q ↔
    ∃ queue, e.queues.get? q = some queue ∧ m ∈ queue.messages
  unique : ∀ q q' m record record', e.record? q m = some record → e.record? q' m = some record' →
    q = q' ∧ record = record'

variable {queue : DurableQueue} {q id m name : String} {message : Message} {e e' : QueueEngine}
  {msg : Message} {persist requeue : Bool}

theorem mem_readyIds : m ∈ readyIds queue ↔ ∃ entry ∈ queue.ready, entry.messageId = m := List.mem_map

/-! ## Counting places -/

theorem count_pushReady (queue : DurableQueue) (seq : Nat) (message : Message) (m : String) :
    (readyIds (queue.pushReady seq message)).count m =
    (readyIds queue).count m + if m = message.id then 1 else 0 := by
  have shuffled : (readyIds (queue.pushReady seq message)).Perm (message.id :: readyIds queue) :=
    (List.perm_orderedInsert _ _ _).map _
  rw [shuffled.count_eq, List.count_cons]
  by_cases same : m = message.id
  · simp [same]
  · have differ : message.id ≠ m := fun back => same back.symm
    simp [same, differ]

/-- Places depend on the three structures at one id. -/
theorem places_congr {queue queue' : DurableQueue}
    (ready : (readyIds queue').count m = (readyIds queue).count m)
    (inflight : m ∈ queue'.inflight ↔ m ∈ queue.inflight)
    (delayed : m ∈ queue'.delayedIds ↔ m ∈ queue.delayedIds) : places queue' m = places queue m := by
  unfold places
  simp only [ready, inflight, delayed]

theorem places_pushReady {seq : Nat} : places (queue.pushReady seq message) m =
    places queue m + if m = message.id then 1 else 0 := by
  have counted := count_pushReady queue seq message m
  have same : (queue.pushReady seq message).inflight = queue.inflight ∧
      (queue.pushReady seq message).delayedIds = queue.delayedIds := ⟨rfl, rfl⟩
  unfold places
  rw [counted, same.1, same.2]
  omega

theorem Balanced.ready (balanced : Balanced queue) (there : m ∈ readyIds queue) :
    m ∈ queue.messages ∧ m ∉ queue.inflight ∧ m ∉ queue.delayedIds := by
  have counted := List.count_pos_iff.mpr there
  have total := balanced m
  unfold places at total
  refine ⟨?_, ?_, ?_⟩ <;> grind

theorem Balanced.bound (balanced : Balanced queue) (m : String) : places queue m ≤ 1 := by
  rw [balanced m]
  split <;> omega

theorem Balanced.absent (balanced : Balanced queue) (absent : m ∉ queue.messages) :
    places queue m = 0 := by
  rw [balanced m, if_neg absent]

theorem Balanced.lifted (balanced : Balanced queue) (absent : id ∉ queue.messages) :
    Lifted id queue :=
  ⟨balanced.absent absent, fun m _ => balanced m⟩

theorem Balanced.fresh {spec : QueueSpec} {stats : QueueStats} : Balanced { spec, stats } := by
  intro m
  simp [places, readyIds]

/-- Nothing on the ready heap of a balanced queue is stale. -/
theorem Balanced.not_stale (balanced : Balanced queue) {entry : ReadyEntry}
    (there : entry ∈ queue.ready) : ¬ Stale queue entry := by
  obtain ⟨held, idle, awake⟩ := balanced.ready (mem_readyIds.mpr ⟨entry, there, rfl⟩)
  rintro (gone | flying | waiting)
  · exact gone held
  · exact idle flying
  · exact awake waiting

/-- A message without a place is stored and gets one on the ready heap. -/
theorem Lifted.pushReady (lifted : Lifted message.id queue) (held : message.id ∈ queue.messages)
    (seq : Nat) : Balanced (queue.pushReady seq message) := by
  intro m
  have same : (queue.pushReady seq message).messages = queue.messages := rfl
  rw [places_pushReady, same]
  by_cases here : m = message.id
  · subst here
    rw [lifted.1, if_pos rfl, if_pos held]
  · rw [lifted.2 m here, if_neg here, Nat.add_zero]

/-- It gets one among the delayed ids. -/
theorem Lifted.await (lifted : Lifted id queue) (held : id ∈ queue.messages) :
    Balanced { queue with delayedIds := insert id queue.delayedIds } := by
  intro m
  by_cases here : m = id
  · subst here
    have none := lifted.1
    unfold places at none
    simp only [places, readyIds, Finset.mem_insert_self, if_true, held] at none ⊢
    omega
  · have total := lifted.2 m here
    simpa [places, readyIds, here] using total

/-- Storing a message under an id changes the places of no other. -/
theorem Lifted.store (lifted : Lifted id queue) (messages : Dict String Message)
    (same : ∀ m, m ≠ id → (m ∈ messages ↔ m ∈ queue.messages)) :
    Lifted id { queue with messages := messages } := by
  refine ⟨lifted.1, fun m differ => ?_⟩
  have total := lifted.2 m differ
  simp only [same m differ]
  exact total

theorem Lifted.drop (lifted : Lifted id queue) (gone : id ∉ queue.messages) : Balanced queue := by
  intro m
  by_cases here : m = id
  · subst here
    rw [lifted.1, if_neg gone]
  · exact lifted.2 m here

/-! ## One queue -/

theorem Balanced.accepted {seq : Nat} (balanced : Balanced queue)
    (absent : message.id ∉ queue.messages) : Balanced (accepted queue seq message) := by
  have held : Lifted message.id (queue.hold message) :=
    (balanced.lifted absent).store (queue.messages.set message.id message)
      fun m differ => by simp [differ]
  have stored : message.id ∈ (queue.hold message).messages := by simp [DurableQueue.hold]
  unfold QueueEngine.accepted
  split
  · exact held.await stored
  · exact held.pushReady stored seq

theorem Balanced.graved {seq : Nat} (balanced : Balanced queue)
    (absent : message.id ∉ queue.messages) : Balanced (graved queue seq message) := by
  have held : Lifted message.id { queue.hold message with dlqIds := queue.dlqIds ++ [message.id] } :=
    (balanced.lifted absent).store (queue.messages.set message.id message)
      fun m differ => by simp [differ]
  exact held.pushReady (by simp [DurableQueue.hold]) seq

theorem Balanced.refit {saved : SavedMessage} {seq : Nat} (balanced : Balanced queue)
    (absent : saved.message.id ∉ queue.messages) : Balanced (refit queue seq saved) := by
  have held : Lifted saved.message.id
      { queue with messages := queue.messages.set saved.message.id saved.message } :=
    (balanced.lifted absent).store _ fun m differ => by simp [differ]
  have stored : saved.message.id ∈ queue.messages.set saved.message.id saved.message := by simp
  unfold QueueEngine.refit
  cases saved.state with
  | delayed => exact held.await stored
  | inflight => exact held.pushReady stored seq
  | ready => exact held.pushReady stored seq
  | dead => exact held.pushReady stored seq

/-- What a balanced queue delivers is its first ready entry. -/
theorem Balanced.popped (balanced : Balanced queue) {rest : List ReadyEntry}
    (popped : popDeliverable queue queue.ready = (some (id, message), rest)) :
    ∃ entry, queue.ready = entry :: rest ∧ entry.messageId = id ∧
      queue.messages.get? id = some message := by
  obtain ⟨held, _, _, skipped, entry, split, named, stale⟩ := popDeliverable_some popped
  cases skipped with
  | nil => exact ⟨entry, split, named, held⟩
  | cons head tail =>
    have there : head ∈ queue.ready := split ▸ List.mem_cons_self
    exact absurd (stale head List.mem_cons_self) (balanced.not_stale there)

/-- A delivery moves one entry from the ready heap to the inflight table. -/
theorem Balanced.deliver {rest : List ReadyEntry} {record : InflightRecord}
    (balanced : Balanced queue) (same : record.messageId = id)
    (popped : popDeliverable queue queue.ready = (some (id, message), rest)) :
    Balanced (queue.deliver rest record) := by
  obtain ⟨entry, split, named, held⟩ := balanced.popped popped
  have heap : readyIds queue = id :: rest.map (·.messageId) := by
    rw [readyIds, split, List.map_cons, named]
  obtain ⟨_, idle, awake⟩ := balanced.ready (heap ▸ List.mem_cons_self)
  intro m
  have total := balanced m
  have flying : m ∈ (queue.deliver rest record).inflight ↔ m = id ∨ m ∈ queue.inflight := by
    simp [DurableQueue.deliver, same]
  unfold places at total ⊢
  rw [heap, List.count_cons] at total
  have ready : readyIds (queue.deliver rest record) = rest.map (·.messageId) := rfl
  have waiting : (queue.deliver rest record).delayedIds = queue.delayedIds := rfl
  have messages : (queue.deliver rest record).messages = queue.messages := rfl
  rw [ready, waiting, messages]
  by_cases here : m = id
  · subst here
    simp only [flying, idle, awake, beq_self_eq_true, if_true, if_false] at total ⊢
    simpa using total
  · have apart : ¬ id = m := fun same => here same.symm
    simpa [flying, here, apart] using total

/-- A delayed message is held and is not out for delivery. -/
theorem Balanced.delayed (balanced : Balanced queue) (marked : id ∈ queue.delayedIds) :
    id ∈ queue.messages ∧ id ∉ queue.inflight := by
  have total := balanced id
  unfold places at total
  rw [if_pos marked] at total
  constructor
  · by_contra gone
    rw [if_neg gone] at total
    omega
  · intro flying
    rw [if_pos flying] at total
    split at total <;> omega

theorem Balanced.drained (balanced : Balanced queue)
    (stale : ∀ entry ∈ queue.ready, Stale queue entry) : queue.ready = [] := by
  cases heap : queue.ready with
  | nil => rfl
  | cons entry rest =>
    have there : entry ∈ queue.ready := heap ▸ List.mem_cons_self
    exact absurd (stale entry there) (balanced.not_stale there)

/-- An ended delivery leaves its message without a place. -/
theorem Balanced.endDelivery (balanced : Balanced queue) (inflight : id ∈ queue.inflight) :
    Lifted id (queue.endDelivery id) := by
  have ready : readyIds (queue.endDelivery id) = readyIds queue := rfl
  have waiting : (queue.endDelivery id).delayedIds = queue.delayedIds := rfl
  constructor
  · have bound := balanced.bound id
    have none : id ∉ (queue.endDelivery id).inflight := by simp [DurableQueue.endDelivery]
    unfold places at bound ⊢
    rw [if_pos inflight] at bound
    rw [if_neg none, ready, waiting]
    omega
  · intro m differ
    have same : places (queue.endDelivery id) m = places queue m :=
      places_congr (by rw [ready]) (by simp [DurableQueue.endDelivery, differ]) (by rw [waiting])
    rw [same]
    exact balanced m

theorem Lifted.discard (lifted : Lifted id queue) : Balanced (queue.discard id) := by
  have dropped : Lifted id { queue with messages := queue.messages.erase id } :=
    lifted.store _ fun m differ => by simp [differ]
  exact dropped.drop (by simp)

theorem Lifted.delay (lifted : Lifted message.id queue) : Balanced (queue.delay message) := by
  have held : Lifted message.id { queue with messages := queue.messages.set message.id message } :=
    lifted.store _ fun m differ => by simp [differ]
  exact held.await (by simp)

theorem Balanced.settle (balanced : Balanced queue) (inflight : id ∈ queue.inflight) :
    Balanced (queue.settle id) :=
  (balanced.endDelivery inflight).discard

/-- A message that is taken out of a DLQ while it is ready has no place there any more. -/
theorem Balanced.withdraw (balanced : Balanced queue) (idle : id ∉ queue.inflight)
    (awake : id ∉ queue.delayedIds) : Lifted id (queue.withdraw id) := by
  have counted : ∀ m, (readyIds (queue.withdraw id)).count m =
      if m = id then 0 else (readyIds queue).count m := by
    intro m
    have shuffled : (readyIds (queue.withdraw id)).Perm
        ((queue.ready.filter (·.messageId ≠ id)).map (·.messageId)) :=
      (List.perm_insertionSort _ _).map _
    have filtered : (queue.ready.filter (·.messageId ≠ id)).map (·.messageId) =
        (readyIds queue).filter (· ≠ id) := by
      rw [readyIds, List.filter_map]
      rfl
    rw [shuffled.count_eq, filtered]
    by_cases here : m = id
    · subst here
      rw [if_pos rfl]
      exact List.count_eq_zero.mpr (by simp)
    · rw [if_neg here]
      exact List.count_filter (by simpa using here)
  constructor
  · unfold places
    have flying : (queue.withdraw id).inflight = queue.inflight := rfl
    have waiting : (queue.withdraw id).delayedIds = queue.delayedIds := rfl
    rw [counted, flying, waiting, if_pos rfl, if_neg idle, if_neg awake]
  · intro m differ
    have total := balanced m
    unfold places at total ⊢
    rw [counted, if_neg differ]
    simpa [DurableQueue.withdraw, differ] using total

/-- A due message moves from the delayed ids to the ready heap. -/
theorem Balanced.release (balanced : Balanced queue) (marked : id ∈ queue.delayedIds) :
    Lifted id { queue with delayedIds := queue.delayedIds.erase id } := by
  constructor
  · have bound := balanced.bound id
    unfold places at bound ⊢
    rw [if_pos marked] at bound
    rw [if_neg (Finset.notMem_erase id _)]
    simp only [readyIds] at bound ⊢
    omega
  · intro m differ
    have same : places { queue with delayedIds := queue.delayedIds.erase id } m = places queue m :=
      places_congr rfl Iff.rfl (by simp [differ])
    rw [same]
    exact balanced m

/-! ## One step -/

/-- The invariant of the runs in which placement is exclusive. -/
structure Sound (e : QueueEngine) : Prop extends Filed e where
  balanced : Dict.All (fun _ => Balanced) e.queues

theorem Sound.lone (sound : e.Sound) (there : id ∈ queue.messages)
    (found : e.queues.get? name = some queue) (differ : q ≠ name) : e.message? q id = none := by
  obtain ⟨message, held⟩ := Dict.mem_iff.mp there
  exact sound.indexed.lone ((message?_of_get found).trans held) differ

/-- A delivery is of a held message. -/
theorem Sound.carried (sound : e.Sound) (found : e.queues.get? name = some queue)
    (inflight : id ∈ queue.inflight) : id ∈ queue.messages := by
  by_contra absent
  have none : places queue id = 0 := (sound.balanced name queue found).absent absent
  unfold places at none
  rw [if_pos inflight] at none
  omega

/-- A failure whose message is in no place puts it in one, in its queue or in the DLQ. -/
theorem conclude_balanced (found : e.queues.get? name = some queue)
    (others : Dict.AllBut name (fun _ => Balanced) e.queues) (lifted : Lifted id queue)
    (same : message.id = id) (lone : ∀ q, q ≠ name → e.message? q id = none) :
    Dict.All (fun _ => Balanced) (e.conclude name queue message requeue persist).queues := by
  have filed : (failed message requeue).id = id := same
  rcases conclude_cases e name queue message requeue persist with ⟨_, shape⟩ | ⟨_, _, shape⟩
  · rw [shape]
    refine all_moveToDlq others ?_ .fresh (fun dest balanced view => balanced.graved ?_)
    · rw [filed]
      exact lifted.discard
    · have ids : (buried name (failed message requeue)).id = id := same
      rw [ids, ← Dict.get?_eq_none, view, discarded_message? found, filed]
      split
      · rfl
      · rename_i apart
        exact lone _ fun here => apart ⟨here, rfl⟩
  · rw [shape, delayRetry_queues]
    refine others.set ?_
    subst filed
    exact Lifted.delay lifted

theorem failDelivery_sound (sound : e.Sound) {record : InflightRecord}
    (flying : e.record? name id = some record) : (e.failDelivery name id persist).2.Sound := by
  refine ⟨failDelivery_filed sound.toFiled, ?_⟩
  obtain ⟨queue, found, inflight⟩ := record?_some.mp flying
  have inside : id ∈ queue.inflight := Dict.mem_of_get? inflight
  have held : id ∈ queue.messages := sound.carried found inside
  have lifted := (sound.balanced name queue found).endDelivery inside
  rcases failDelivery_cases e name id persist with ⟨absent, _⟩ | ⟨other, same, gone, _⟩ |
    ⟨other, message, same, there, shape⟩
  · rw [absent] at found
    cases found
  · rw [same] at found
    cases found
    exact absurd held gone
  · rw [same] at found
    cases found
    rw [shape]
    refine conclude_balanced Dict.get?_set_self sound.balanced.but.stored lifted
      ((sound.named name queue same).messages id message there).1 fun q differ => ?_
    obtain ⟨messages, _⟩ := endDelivery_observe id same
      (show (e.putQueue name (queue.endDelivery id)).queues = _ from rfl)
    rw [messages]
    exact sound.lone held same differ

theorem nack_sound (sound : e.Sound) : (e.nack id requeue persist).2.Sound := by
  refine ⟨⟨nack_named sound.named, nack_indexed sound.toFiled⟩, ?_⟩
  rcases nack_cases e id requeue persist with ⟨name, queue, message, nacks⟩ |
    ⟨_, same | ⟨name, queue, indexed, found, gone, _⟩⟩
  · have lifted : Lifted id (queue.endDelivery id).countNack :=
      (sound.balanced name queue nacks.found).endDelivery nacks.inflight
    have known : (e.nacked id requeue persist name queue).queues.get? name =
        some (queue.endDelivery id).countNack := by
      rw [nacked_queues, Dict.get?_set_self]
    have others : Dict.AllBut name (fun _ => Balanced)
        (e.nacked id requeue persist name queue).queues := by
      rw [nacked_queues]
      exact sound.balanced.but.stored
    rw [nacks.shape]
    refine conclude_balanced known others lifted
      ((sound.named name queue nacks.found).messages id message nacks.held).1 fun q differ => ?_
    rw [nacks.observe.1]
    exact sound.lone (Dict.mem_of_get? nacks.held) nacks.found differ
  · rw [same]
    exact sound.balanced
  · obtain ⟨message, held⟩ := sound.indexed.held name id indexed
    rw [message?_of_get found] at held
    exact absurd (Dict.mem_of_get? held) gone

theorem enqueue_sound (sound : e.Sound) (fresh : ¬ e.Held message.id) :
    (e.enqueue message persist).2.Sound := by
  refine ⟨step_filed sound.toFiled (.enqueue message) fresh, ?_⟩
  rcases enqueue_cases e message persist with ⟨queue, accepts⟩ | ⟨_, same⟩
  · rw [accepts.queues]
    refine sound.balanced.set ((sound.balanced _ _ accepts.1).accepted fun there => fresh ?_)
    rw [dueMessage_id] at there
    obtain ⟨old, held⟩ := Dict.mem_iff.mp there
    exact ⟨message.queue, old, (message?_of_get accepts.1).trans held⟩
  · rw [same]
    exact sound.balanced

theorem reserve_sound {queueName consumerId : String} (sound : e.Sound) :
    (e.reserve queueName consumerId).2.Sound := by
  have filed : (e.step true (.reserve queueName consumerId)).Filed :=
    step_filed sound.toFiled _ trivial
  refine ⟨filed, ?_⟩
  rcases reserve_cases e queueName consumerId with ⟨queue, id, message, rest, reserves⟩ |
    ⟨_, ⟨same, _⟩ | ⟨queue, found, stale, shape⟩⟩
  · rw [reserves.queues]
    exact sound.balanced.set ((sound.balanced _ _ reserves.found).deliver rfl reserves.popped)
  · rw [same]
    exact sound.balanced
  · have empty := (sound.balanced _ _ found).drained stale
    rw [shape]
    refine sound.balanced.set ?_
    rw [← empty]
    exact sound.balanced _ _ found

theorem ack_sound (sound : e.Sound) : (e.ack id persist).2.Sound := by
  refine ⟨step_filed sound.toFiled (.ack id) trivial, ?_⟩
  rcases ack_cases e id persist with ⟨name, queue, settles⟩ | ⟨_, same⟩
  · rw [settles.queues]
    exact sound.balanced.set ((sound.balanced _ _ settles.found).settle settles.inflight)
  · rw [same]
    exact sound.balanced

theorem releaseOne_sound (sound : e.Sound) : (e.releaseOne name id).2.Sound := by
  refine ⟨releaseOne_filed sound.toFiled, ?_⟩
  rcases releaseOne_cases e name id with ⟨_, shape⟩ | ⟨queue, found, marked, elsewhere, _⟩ |
    ⟨queue, message, found, marked, held, _, shape⟩
  · rw [shape]
    exact sound.balanced
  · obtain ⟨held, idle⟩ := (sound.balanced _ _ found).delayed marked
    exact elsewhere.elim (fun gone => absurd held gone) (fun flying => absurd flying idle)
  · have filed : (strip message).id = id := ((sound.named _ _ found).messages id message held).1
    have woken : Lifted id { queue with
        delayedIds := queue.delayedIds.erase id
        messages := queue.messages.set id (strip message) } :=
      ((sound.balanced _ _ found).release marked).store (queue.messages.set id (strip message))
        fun m differ => by simp [differ]
    rw [shape]
    refine sound.balanced.set ?_
    rw [← filed] at woken ⊢
    exact woken.pushReady (by simp) _

/-- The requeue of a message that the DLQ has neither out for delivery nor delayed. -/
def Settled (e : QueueEngine) (queueName id : String) : Prop :=
  ∀ dlq message, e.Withdraws queueName id dlq message → id ∉ dlq.inflight ∧ id ∉ dlq.delayedIds

theorem settled_iff {queueName : String} : e.Settled queueName id ↔
    ∀ dlq ∈ e.queues.get? (requeueSource queueName), originQueue queueName ∈ e.queues →
      id ∈ dlq.messages → id ∉ dlq.inflight ∧ id ∉ dlq.delayedIds := by
  constructor
  · intro settled dlq source dest held
    obtain ⟨message, held⟩ := Dict.mem_iff.mp held
    exact settled dlq message ⟨source, Dict.mem_iff.mp dest, held⟩
  · intro settled dlq message draws
    exact settled dlq draws.source (Dict.mem_iff.mpr draws.dest) (Dict.mem_of_get? draws.held)

instance (e : QueueEngine) (queueName id : String) : Decidable (e.Settled queueName id) :=
  decidable_of_iff' _ settled_iff

theorem dlqRequeue_sound {queueName : String} (sound : e.Sound) (settled : e.Settled queueName id) :
    (e.dlqRequeue queueName id persist).2.Sound := by
  refine ⟨step_filed sound.toFiled (.dlqRequeue queueName id) trivial, ?_⟩
  rcases dlqRequeue_cases e queueName id persist with nothing | ⟨dlq, message, draws⟩
  · rw [nothing]
    exact sound.balanced
  · obtain ⟨idle, awake⟩ := settled dlq message draws
    have filed : message.id = id := (sound.named.filed draws.heldThere).1
    have drawn : Lifted id (dlq.withdraw id) := (sound.balanced _ _ draws.source).withdraw idle awake
    have gone : id ∉ (dlq.withdraw id).messages := by simp [DurableQueue.withdraw]
    rcases draws.result persist with ⟨dest, accepts, shape⟩ | ⟨_, shape⟩
    · have taken : Dict.All (fun _ => Balanced) (e.withdrawn queueName id dlq).queues :=
        sound.balanced.set (drawn.drop gone)
      rw [shape, append_queues, accepts.queues]
      have absent := draws.absent sound.toFiled accepts
      exact taken.set ((taken _ _ accepts.1).accepted absent)
    · rw [shape, putBack_queues]
      have filled : Lifted id (refilled queueName id dlq message) :=
        drawn.store ((dlq.messages.erase id).set id (returned queueName message))
          fun m differ => by simp [DurableQueue.withdraw, differ]
      refine sound.balanced.but.stored.set ?_
      subst filed
      exact filled.pushReady (by simp [refilled, returned, requeued]) _

/-! ## Runs -/

/-- No id is published while it is held, and a message is requeued out of a
DLQ only while it is ready there. -/
def ReadyRequeues (e : QueueEngine) : EngineOp → Prop
  | .enqueue message => ¬ e.Held message.id
  | .dlqRequeue queueName messageId => e.Settled queueName messageId
  | _ => True

instance : DecidableRel ReadyRequeues := fun e op =>
  match op with
  | .enqueue message => inferInstanceAs (Decidable (¬ e.Held message.id))
  | .dlqRequeue queueName messageId => inferInstanceAs (Decidable (e.Settled queueName messageId))
  | .declareQueue .. | .deleteQueue .. | .reserve .. | .ack .. | .nack .. | .recoverConsumer ..
  | .tick .. => inferInstanceAs (Decidable True)

theorem step_sound (sound : e.Sound) (op : EngineOp) (ok : ReadyRequeues e op) :
    (e.step persist op).Sound := by
  cases op with
  | declareQueue name args =>
    exact ⟨step_filed sound.toFiled (.declareQueue name args) trivial,
      all_declareQueue sound.balanced fun _ _ => .fresh⟩
  | deleteQueue name =>
    exact ⟨step_filed sound.toFiled (.deleteQueue name) trivial, all_deleteQueue sound.balanced⟩
  | enqueue message => exact enqueue_sound sound ok
  | reserve queueName consumerId => exact reserve_sound sound
  | ack messageId => exact ack_sound sound
  | nack messageId requeue => exact nack_sound sound
  | recoverConsumer consumerId =>
    exact recoverConsumer_preserves (fun _ sound => sound.named)
      (fun _ _ _ _ sound flying _ => failDelivery_sound sound flying) sound
  | tick now =>
    exact tick_preserves (fun _ _ _ sound => releaseOne_sound sound)
      (fun _ _ _ _ sound flying _ => failDelivery_sound sound flying)
      (fun _ _ _ _ sound =>
        ⟨⟨sound.named, sound.indexed.filed, sound.indexed.held⟩, sound.balanced⟩)
      sound
  | dlqRequeue queueName messageId => exact dlqRequeue_sound sound ok

theorem restore_sound {saved : QueueEngine} (sound : saved.Sound) :
    (e.restoreState saved.snapshotState).Sound := by
  obtain ⟨filed, balanced⟩ := restore_preserves (e := e) sound.toFiled
    (I := fun e => Dict.All (fun _ => Balanced) e.queues) Dict.all_empty
    (fun e spec stats balanced _ => balanced.set .fresh)
    (fun e name queue message balanced found fresh _ => by
      rw [restoreMessage_queues]
      refine balanced.set ((balanced _ _ found).refit fun there => fresh ?_)
      obtain ⟨old, held⟩ := Dict.mem_iff.mp there
      exact ⟨name, old, (message?_of_get found).trans held⟩)
  exact ⟨filed, balanced⟩

theorem Reachable.sound (reached : Reachable ReadyRequeues e) : e.Sound := by
  induction reached with
  | start config clock => exact ⟨cleared_filed { config, clock } 0, Dict.all_empty⟩
  | step _ _ op ok sound => exact step_sound sound op ok
  | restore _ _ _ kept => exact restore_sound kept

/-- The ids in the places of a queue, each as often as it is placed. -/
def placedIds (queue : DurableQueue) : Multiset String :=
  ↑(readyIds queue) + ↑queue.inflight.keys + queue.delayedIds.val

theorem count_placedIds (queue : DurableQueue) (m : String) :
    (placedIds queue).count m = places queue m := by
  rw [placedIds, Multiset.count_add, Multiset.count_add, Multiset.coe_count, Multiset.coe_count,
    queue.inflight.keys_nodup.count, Multiset.count_eq_of_nodup queue.delayedIds.nodup]
  simp only [Dict.mem_keys, Finset.mem_val]
  rfl

theorem card_placedIds (queue : DurableQueue) : (placedIds queue).card = queue.depth := by
  rw [placedIds, Multiset.card_add, Multiset.card_add, Multiset.coe_card, Multiset.coe_card,
    Dict.length_keys, readyIds, List.length_map]
  rfl

theorem card_messages (queue : DurableQueue) :
    (queue.messages.keys : Multiset String).card = queue.messages.size := by
  rw [Multiset.coe_card, Dict.length_keys]

theorem balanced_iff_placedIds : Balanced queue ↔ placedIds queue = queue.messages.keys := by
  rw [Multiset.ext]
  refine forall_congr' fun m => ?_
  rw [count_placedIds, Multiset.coe_count, queue.messages.keys_nodup.count]
  rfl

/-- Where every held message has a place, the ids of the messages are among
those in the places. -/
theorem messages_le_placedIds (placed : ∀ m ∈ queue.messages, 1 ≤ places queue m) :
    (queue.messages.keys : Multiset String) ≤ placedIds queue := by
  refine (Multiset.le_iff_subset (Multiset.coe_nodup.mpr queue.messages.keys_nodup)).mpr fun m held => ?_
  rw [← Multiset.count_pos, count_placedIds]
  exact placed m held

theorem size_le_depth (placed : ∀ m ∈ queue.messages, 1 ≤ places queue m) :
    queue.messages.size ≤ queue.depth := by
  rw [← card_placedIds, ← card_messages]
  exact Multiset.card_le_card (messages_le_placedIds placed)

theorem balanced_iff_depth (placed : ∀ m ∈ queue.messages, 1 ≤ places queue m) :
    Balanced queue ↔ queue.depth = queue.messages.size := by
  rw [balanced_iff_placedIds, ← card_placedIds, ← card_messages]
  refine ⟨congrArg Multiset.card, fun same => ?_⟩
  exact (Multiset.eq_of_le_of_card_le (messages_le_placedIds placed) same.le).symm

/-- The three counts of a balanced queue add up to its messages. -/
theorem Balanced.depth (balanced : Balanced queue) : queue.depth = queue.messages.size := by
  rw [← card_placedIds, ← card_messages, balanced_iff_placedIds.mp balanced]

theorem Sound.exclusive (sound : e.Sound) : e.Exclusive := by
  refine ⟨?_, ?_, ?_, ?_, ?_, ?_⟩
  · intro q queue found
    refine List.nodup_iff_count_le_one.mpr fun m => ?_
    have bound := (sound.balanced q queue found).bound m
    unfold places at bound
    omega
  · intro q queue found m
    have balanced := sound.balanced q queue found
    exact ⟨fun ready => (balanced.ready ready).2,
      fun flying waiting => (balanced.delayed waiting).2 flying⟩
  · intro q queue found m
    have balanced := sound.balanced q queue found
    constructor
    · intro held
      have total := balanced m
      unfold places at total
      rw [if_pos held] at total
      by_contra nowhere
      rw [not_or, not_or] at nowhere
      rw [if_neg nowhere.2.1, if_neg nowhere.2.2, List.count_eq_zero.mpr nowhere.1] at total
      omega
    · rintro (ready | flying | waiting)
      · exact (balanced.ready ready).1
      · exact sound.carried found flying
      · exact (balanced.delayed waiting).1
  · exact fun q queue found => (sound.balanced q queue found).depth
  · intro q m
    constructor
    · intro there
      obtain ⟨message, held⟩ := sound.indexed.held q m there
      obtain ⟨queue, found, inside⟩ := message?_some.mp held
      exact ⟨queue, found, Dict.mem_of_get? inside⟩
    · rintro ⟨queue, found, inside⟩
      obtain ⟨message, held⟩ := Dict.mem_iff.mp inside
      exact sound.indexed.filed q m message ((message?_of_get found).trans held)
  · intro q q' m record record' first second
    have filed : ∀ q record, e.record? q m = some record → e.byId.get? m = some q := by
      intro q record flying
      obtain ⟨queue, found, inside⟩ := record?_some.mp flying
      obtain ⟨message, held⟩ := Dict.mem_iff.mp (sound.carried found (Dict.mem_of_get? inside))
      exact sound.indexed.filed q m message ((message?_of_get found).trans held)
    have same : q = q' := Option.some.inj ((filed q record first).symm.trans (filed q' record' second))
    subst same
    exact ⟨rfl, Option.some.inj (first.symm.trans second)⟩

/-- A requeue keeps placement exclusive exactly when the message is ready in the DLQ. -/
theorem dlqRequeue_exclusive {queueName : String} (sound : e.Sound) :
    (e.dlqRequeue queueName id persist).2.Exclusive ↔ e.Settled queueName id := by
  refine ⟨fun exclusive dlq message draws => ?_, fun settled => (dlqRequeue_sound sound settled).exclusive⟩
  have filed : message.id = id := (sound.named.filed draws.heldThere).1
  -- A place that the withdrawal left behind clashes with the message's new state.
  have clash : ∀ queue, (e.dlqRequeue queueName id persist).2.queues.get?
        (requeueSource queueName) = some queue →
      queue.inflight = dlq.inflight → queue.delayedIds = dlq.delayedIds →
      id ∉ queue.messages ∨ id ∈ readyIds queue → id ∉ dlq.inflight ∧ id ∉ dlq.delayedIds := by
    intro queue found flying waiting moved
    rw [← flying, ← waiting]
    rcases moved with gone | ready
    · have nowhere := mt (exclusive.union _ queue found id).mpr gone
      rw [not_or, not_or] at nowhere
      exact nowhere.2
    · exact (exclusive.disjoint _ queue found id).1 ready
  rcases draws.result persist with ⟨dest, accepts, shape⟩ | ⟨_, shape⟩
  · rw [shape, append_queues, accepts.queues] at clash
    by_cases same : requeueSource queueName = originQueue queueName
    · have there : dest = dlq.withdraw id := by
        have found := accepts.1
        change (e.queues.set (requeueSource queueName) (dlq.withdraw id)).get?
          (originQueue queueName) = some dest at found
        rw [← same, Dict.get?_set_self] at found
        exact (Option.some.inj found).symm
      subst there
      refine clash _ (by rw [same]; exact Dict.get?_set_self) (by simp [DurableQueue.withdraw]) ?_
        (.inr ?_)
      · rfl
      · rw [← filed]
        exact mem_readyIds.mpr ⟨_, mem_heappush.mpr (.inl rfl), rfl⟩
    · refine clash (dlq.withdraw id) ?_ rfl rfl (.inl (by simp [DurableQueue.withdraw]))
      exact (Dict.get?_set_ne same).trans Dict.get?_set_self
  · rw [shape, putBack_queues] at clash
    refine clash _ Dict.get?_set_self rfl rfl (.inr ?_)
    rw [← filed]
    exact mem_readyIds.mpr ⟨_, mem_heappush.mpr (.inl rfl), rfl⟩

/-- A message is dead-lettered, delivered to a consumer of the DLQ, and
requeued before that consumer answers. -/
def busyRequeue : List EngineOp := [
  .declareQueue "orders" {},
  .enqueue { id := "m1", queue := "orders", payload := [1], createdAt := 0 },
  .reserve "orders" "worker",
  .nack "m1" false,
  .reserve "orders.DLQ" "inspector",
  .dlqRequeue "orders" "m1"]

end OneOpenBroker.Core.QueueEngine

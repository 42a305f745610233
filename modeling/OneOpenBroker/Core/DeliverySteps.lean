import OneOpenBroker.Core.EngineSteps

/-! Publishing, delivering and settling a message, one lemma for each
function and each table it touches. A failed delivery takes one of four
exits: its message is no longer held, is delayed for a retry, is moved to
the DLQ, or is dropped because dead-lettering is off. -/
namespace OneOpenBroker.Core.QueueEngine
open Collections

variable {e e' : QueueEngine} {name q id m : String} {queue : DurableQueue} {message msg : Message}
  {persist : Bool} {P : String → DurableQueue → Prop}

/-! ## Publishing -/

theorem dueMessage_eq (message : Message) (now : ℚ) :
    ∃ due, dueMessage message now = { message with availableAt := due } := by
  unfold dueMessage
  split
  · exact ⟨message.availableAt, rfl⟩
  · split
    · exact ⟨message.availableAt, rfl⟩
    · exact ⟨none, rfl⟩

@[simp] theorem dueMessage_id {now : ℚ} : (dueMessage message now).id = message.id := by
  obtain ⟨due, shape⟩ := dueMessage_eq message now
  rw [shape]

@[simp] theorem dueMessage_queue {now : ℚ} : (dueMessage message now).queue = message.queue := by
  obtain ⟨due, shape⟩ := dueMessage_eq message now
  rw [shape]

@[simp] theorem dueMessage_payload {now : ℚ} :
    (dueMessage message now).payload = message.payload := by
  obtain ⟨due, shape⟩ := dueMessage_eq message now
  rw [shape]

@[simp] theorem dueMessage_attempts {now : ℚ} :
    (dueMessage message now).attempts = message.attempts := by
  obtain ⟨due, shape⟩ := dueMessage_eq message now
  rw [shape]

/-- The contents of the queue that accepted a message. -/
def accepted (queue : DurableQueue) (seq : Nat) (message : Message) : DurableQueue :=
  match message.availableAt with
  | some _ => { queue.hold message with delayedIds := insert message.id queue.delayedIds }
  | none => (queue.hold message).pushReady seq message

@[simp] theorem accepted_messages {seq : Nat} :
    (accepted queue seq message).messages = queue.messages.set message.id message := by
  unfold accepted; split <;> rfl

@[simp] theorem accepted_inflight {seq : Nat} :
    (accepted queue seq message).inflight = queue.inflight := by
  unfold accepted; split <;> rfl

@[simp] theorem accepted_spec {seq : Nat} : (accepted queue seq message).spec = queue.spec := by
  unfold accepted; split <;> rfl

theorem accept_queues : (e.accept queue message).queues =
    e.queues.set message.queue (accepted queue (e.seq + 1) message) := by
  unfold accept accepted
  cases message.availableAt <;> rfl

theorem accept_frame : (e.accept queue message).byId = e.byId.set message.id message.queue ∧
    (e.accept queue message).visibilityHeap = e.visibilityHeap ∧
    (e.accept queue message).config = e.config ∧
    (e.accept queue message).journal = e.journal ∧
    (e.accept queue message).recentAcks = e.recentAcks := by
  unfold accept
  dsimp only
  split <;> simp [pushDelayed, pushReady, putQueue]

/-- Nothing leaves the delayed heap, and a delayed message gets its entry. -/
theorem accept_delayed (e : QueueEngine) (queue : DurableQueue) (message : Message) :
    (∀ entry ∈ e.delayed, entry ∈ (e.accept queue message).delayed) ∧
    (message.availableAt.isSome → ∃ entry ∈ (e.accept queue message).delayed,
      entry.queue = message.queue ∧ entry.messageId = message.id) := by
  unfold accept
  cases message.availableAt with
  | none => exact ⟨fun entry held => held, fun delayed => nomatch delayed⟩
  | some due =>
    refine ⟨fun entry held => mem_heappush.mpr (.inr held), fun _ => ?_⟩
    exact ⟨⟨due, e.seq + 1, message.queue, message.id⟩, mem_heappush.mpr (.inl rfl), rfl, rfl⟩

theorem accept_message? (found : e.queues.get? message.queue = some queue) :
    (e.accept queue message).message? q m =
      if q = message.queue ∧ m = message.id then some message else e.message? q m := by
  rw [message?_of_set accept_queues]
  by_cases same : q = message.queue
  · subst same
    simp [message?_of_get found, Dict.get?_set]
  · simp [same]

theorem accept_record? (found : e.queues.get? message.queue = some queue) :
    (e.accept queue message).record? = e.record? := by
  funext q m
  rw [record?_of_set accept_queues, accepted_inflight]
  split
  · rename_i same; rw [same, record?_of_get found]
  · rfl

theorem accept_spec? (found : e.queues.get? message.queue = some queue) :
    (e.accept queue message).spec? = e.spec? := by
  funext q
  rw [spec?_of_set accept_queues, accepted_spec]
  split
  · rename_i same; rw [same, spec?_of_get found]
  · rfl

/-- The engine after an enqueue that returned OK. -/
def Accepts (e : QueueEngine) (message : Message) (persist : Bool) (queue : DurableQueue) : Prop :=
  e.queues.get? message.queue = some queue ∧ queue.isFull = false ∧
    e.enqueue message persist =
      (.ok, (e.now.2.accept queue (dueMessage message e.now.1)).append persist
        (.messagePublish (dueMessage message e.now.1)))

theorem enqueue_cases (e : QueueEngine) (message : Message) (persist : Bool) :
    (∃ queue, e.Accepts message persist queue) ∨
    (e.enqueue message persist).1 ≠ .ok ∧ (e.enqueue message persist).2 = e := by
  unfold Accepts enqueue
  cases e.queues.get? message.queue with
  | none => simp
  | some queue =>
    by_cases full : queue.isFull = true
    · simp [full]
    · simp [full]

theorem Accepts.message? (accepts : e.Accepts message persist queue) :
    (e.enqueue message persist).2.message? q m =
      if q = message.queue ∧ m = message.id then some (dueMessage message e.now.1)
      else e.message? q m := by
  have found : e.now.2.queues.get? (dueMessage message e.now.1).queue = some queue := by
    rw [dueMessage_queue]; exact accepts.1
  rw [accepts.2.2, message?_append, accept_message? found, dueMessage_queue, dueMessage_id]
  rfl

theorem Accepts.record? (accepts : e.Accepts message persist queue) :
    (e.enqueue message persist).2.record? = e.record? := by
  have found : e.now.2.queues.get? (dueMessage message e.now.1).queue = some queue := by
    rw [dueMessage_queue]; exact accepts.1
  rw [accepts.2.2, record?_append, accept_record? found]
  rfl

theorem Accepts.spec? (accepts : e.Accepts message persist queue) :
    (e.enqueue message persist).2.spec? = e.spec? := by
  have found : e.now.2.queues.get? (dueMessage message e.now.1).queue = some queue := by
    rw [dueMessage_queue]; exact accepts.1
  rw [accepts.2.2, spec?_append, accept_spec? found]
  rfl

theorem Accepts.byId (accepts : e.Accepts message persist queue) :
    (e.enqueue message persist).2.byId = e.byId.set message.id message.queue := by
  rw [accepts.2.2, append_byId, accept_frame.1, dueMessage_id, dueMessage_queue]
  rfl

theorem Accepts.ops (accepts : e.Accepts message persist queue) :
    (e.enqueue message persist).2.journal.ops =
      e.journal.ops ++ journaled persist (.messagePublish (dueMessage message e.now.1)) := by
  rw [accepts.2.2, append_ops, accept_frame.2.2.2.1]
  rfl

theorem Accepts.config (accepts : e.Accepts message persist queue) :
    (e.enqueue message persist).2.config = e.config := by
  rw [accepts.2.2, append_config, accept_frame.2.2.1]
  rfl

theorem Accepts.queues (accepts : e.Accepts message persist queue) :
    (e.enqueue message persist).2.queues = e.queues.set message.queue
      (accepted queue (e.seq + 1) (dueMessage message e.now.1)) := by
  rw [accepts.2.2, append_queues, accept_queues, dueMessage_queue]
  rfl

/-! ## Delivery -/

/-- An entry that `reserve` discards. -/
def Stale (queue : DurableQueue) (entry : ReadyEntry) : Prop :=
  entry.messageId ∉ queue.messages ∨ entry.messageId ∈ queue.inflight ∨
    entry.messageId ∈ queue.delayedIds

/-- `reserve` pops stale entries up to the first deliverable one. -/
theorem popDeliverable_some {entries rest : List ReadyEntry}
    (popped : popDeliverable queue entries = (some (id, message), rest)) :
    queue.messages.get? id = some message ∧ id ∉ queue.inflight ∧ id ∉ queue.delayedIds ∧
      ∃ skipped entry, entries = skipped ++ entry :: rest ∧ entry.messageId = id ∧
        ∀ stale ∈ skipped, Stale queue stale := by
  induction entries with
  | nil => simp [popDeliverable] at popped
  | cons entry entries ih =>
    have later (discarded : Stale queue entry)
        (popped : popDeliverable queue entries = (some (id, message), rest)) :
        queue.messages.get? id = some message ∧ id ∉ queue.inflight ∧ id ∉ queue.delayedIds ∧
          ∃ skipped found, entry :: entries = skipped ++ found :: rest ∧ found.messageId = id ∧
            ∀ stale ∈ skipped, Stale queue stale := by
      obtain ⟨held, idle, awake, skipped, found, split, same, stale⟩ := ih popped
      exact ⟨held, idle, awake, entry :: skipped, found, by rw [split]; rfl, same,
        List.forall_mem_cons.mpr ⟨discarded, stale⟩⟩
    rw [popDeliverable] at popped
    cases held : queue.messages.get? entry.messageId with
    | none =>
      rw [held] at popped
      exact later (.inl (Dict.get?_eq_none.mp held)) popped
    | some first =>
      rw [held] at popped
      dsimp only at popped
      by_cases busy : entry.messageId ∈ queue.inflight ∨ entry.messageId ∈ queue.delayedIds
      · rw [if_pos busy] at popped
        exact later (.inr busy) popped
      · rw [if_neg busy] at popped
        simp only [Prod.mk.injEq, Option.some.injEq] at popped
        obtain ⟨⟨rfl, rfl⟩, rfl⟩ := popped
        rw [not_or] at busy
        exact ⟨held, busy.1, busy.2, [], entry, rfl, rfl, by simp⟩

theorem popDeliverable_none {entries rest : List ReadyEntry}
    (popped : popDeliverable queue entries = (none, rest)) :
    rest = [] ∧ ∀ entry ∈ entries, Stale queue entry := by
  induction entries with
  | nil =>
    simp only [popDeliverable, Prod.mk.injEq, true_and] at popped
    exact ⟨popped.symm, by simp⟩
  | cons entry entries ih =>
    rw [popDeliverable] at popped
    cases held : queue.messages.get? entry.messageId with
    | none =>
      rw [held] at popped
      obtain ⟨empty, stale⟩ := ih popped
      exact ⟨empty, List.forall_mem_cons.mpr ⟨.inl (Dict.get?_eq_none.mp held), stale⟩⟩
    | some first =>
      rw [held] at popped
      dsimp only at popped
      by_cases busy : entry.messageId ∈ queue.inflight ∨ entry.messageId ∈ queue.delayedIds
      · rw [if_pos busy] at popped
        obtain ⟨empty, stale⟩ := ih popped
        exact ⟨empty, List.forall_mem_cons.mpr ⟨.inr busy, stale⟩⟩
      · rw [if_neg busy] at popped
        simp at popped

/-- The record of a delivery that is made now. -/
def deliveryRecord (e : QueueEngine) (queue : DurableQueue) (queueName consumerId id : String) :
    InflightRecord :=
  { messageId := id, queue := queueName, consumerId, deliveryTime := e.now.1
    visibilityDeadline := e.now.1 + queue.spec.visibilityTimeout }

/-- The engine after a reserve that returned a message. -/
structure Reserves (e : QueueEngine) (queueName consumerId : String) (queue : DurableQueue)
    (id : String) (message : Message) (rest : List ReadyEntry) : Prop where
  found : e.queues.get? queueName = some queue
  popped : popDeliverable queue queue.ready = (some (id, message), rest)
  result : (e.reserve queueName consumerId).1 = some message
  queues : (e.reserve queueName consumerId).2.queues = e.queues.set queueName
    (queue.deliver rest (e.deliveryRecord queue queueName consumerId id))
  heap : (e.reserve queueName consumerId).2.visibilityHeap = heappush TimedEntry.le
    ⟨(e.deliveryRecord queue queueName consumerId id).visibilityDeadline, e.seq + 1, queueName, id⟩
    e.visibilityHeap

theorem reserve_cases (e : QueueEngine) (queueName consumerId : String) :
    (∃ queue id message rest, e.Reserves queueName consumerId queue id message rest) ∨
    (e.reserve queueName consumerId).1 = none ∧
      ((e.reserve queueName consumerId).2 = e ∧ e.queues.get? queueName = none ∨
        ∃ queue, e.queues.get? queueName = some queue ∧
          (∀ entry ∈ queue.ready, Stale queue entry) ∧
          (e.reserve queueName consumerId).2 =
            e.putQueue queueName { queue with ready := [] }) := by
  cases found : e.queues.get? queueName with
  | none => exact .inr (by simp [reserve, found])
  | some queue =>
    cases popped : popDeliverable queue queue.ready with
    | mk item rest =>
      cases item with
      | none =>
        obtain ⟨empty, stale⟩ := popDeliverable_none popped
        refine .inr ⟨by simp [reserve, found, popped], .inr ⟨queue, rfl, stale, ?_⟩⟩
        simp [reserve, found, popped, empty]
      | some item =>
        obtain ⟨id, message⟩ := item
        refine .inl ⟨queue, id, message, rest, found, popped, ?_, ?_, ?_⟩ <;>
          simp [reserve, found, popped, putQueue, now, deliveryRecord]

/-- Delivering a message does not move it, whatever the outcome. -/
theorem reserve_frame {queueName consumerId : String} :
    (e.reserve queueName consumerId).2.byId = e.byId ∧
    (e.reserve queueName consumerId).2.delayed = e.delayed ∧
    (e.reserve queueName consumerId).2.config = e.config ∧
    (e.reserve queueName consumerId).2.journal = e.journal ∧
    (e.reserve queueName consumerId).2.recentAcks = e.recentAcks := by
  unfold reserve
  split
  · simp
  · split <;> simp [putQueue, now]

/-- A reserve changes the heap and the deliveries of one queue. -/
theorem reserve_contents (queueName consumerId q : String) :
    ((e.reserve queueName consumerId).2.queues.get? q).map (fun queue => (queue.spec, queue.messages)) =
      (e.queues.get? q).map fun queue => (queue.spec, queue.messages) := by
  rcases reserve_cases e queueName consumerId with ⟨queue, id, message, rest, reserves⟩ |
    ⟨_, ⟨same, _⟩ | ⟨queue, found, _, shape⟩⟩
  · rw [reserves.queues, Dict.get?_set]
    split
    · rename_i same; rw [same, reserves.found]; rfl
    · rfl
  · rw [same]
  · rw [shape, putQueue, Dict.get?_set]
    split
    · rename_i same; rw [same, found]; rfl
    · rfl

theorem reserve_message? {queueName consumerId : String} :
    (e.reserve queueName consumerId).2.message? = e.message? := by
  funext q m
  have same := congrArg (·.bind fun contents => contents.2.get? m)
    (reserve_contents (e := e) queueName consumerId q)
  simpa [message?, Option.bind_map, Function.comp_def] using same

theorem reserve_spec? {queueName consumerId : String} :
    (e.reserve queueName consumerId).2.spec? = e.spec? := by
  funext q
  have same := congrArg (·.map Prod.fst)
    (reserve_contents (e := e) queueName consumerId q)
  simpa [spec?, Function.comp_def] using same

theorem Reserves.record? {queueName consumerId : String} {rest : List ReadyEntry}
    (reserves : e.Reserves queueName consumerId queue id message rest) :
    (e.reserve queueName consumerId).2.record? q m =
      if q = queueName ∧ m = id then some (e.deliveryRecord queue queueName consumerId id)
      else e.record? q m := by
  rw [record?_of_set reserves.queues]
  by_cases same : q = queueName
  · subst same
    simp [record?_of_get reserves.found, DurableQueue.deliver, Dict.get?_set, deliveryRecord]
  · simp [same]

/-- A reserve that returns nothing starts no delivery. -/
theorem reserve_none_record? {queueName consumerId : String}
    (nothing : (e.reserve queueName consumerId).1 = none) :
    (e.reserve queueName consumerId).2.record? = e.record? := by
  funext q m
  rcases reserve_cases e queueName consumerId with ⟨queue, id, message, rest, reserves⟩ |
    ⟨_, ⟨same, _⟩ | ⟨queue, found, _, shape⟩⟩
  · rw [reserves.result] at nothing
    cases nothing
  · rw [same]
  · rw [shape, record?_of_set (e := e) rfl]
    split
    · rename_i same; rw [same, record?_of_get found]
    · rfl

/-! ## Acknowledgement -/

/-- The engine after an ack that returned OK. -/
structure Settles (e : QueueEngine) (id : String) (persist : Bool) (name : String)
    (queue : DurableQueue) : Prop where
  fresh : id ∉ e.recentAcks
  indexed : e.byId.get? id = some name
  found : e.queues.get? name = some queue
  inflight : id ∈ queue.inflight
  result : (e.ack id persist).1 = .ok
  queues : (e.ack id persist).2.queues = e.queues.set name (queue.settle id)
  byId : (e.ack id persist).2.byId = e.byId.erase id

theorem ack_cases (e : QueueEngine) (id : String) (persist : Bool) :
    (∃ name queue, e.Settles id persist name queue) ∨
    (e.ack id persist).1 ≠ .ok ∧ (e.ack id persist).2 = e := by
  by_cases recent : id ∈ e.recentAcks
  · exact .inr (by simp [ack, recent])
  · cases indexed : e.byId.get? id with
    | none => exact .inr (by simp [ack, recent, indexed])
    | some name =>
      cases found : e.queues.get? name with
      | none => exact .inr (by simp [ack, recent, indexed, found])
      | some queue =>
        by_cases inflight : id ∈ queue.inflight
        · refine .inl ⟨name, queue, recent, indexed, found, inflight, ?_, ?_, ?_⟩ <;>
            simp [ack, recent, indexed, found, inflight, rememberAck, putQueue]
        · exact .inr (by simp [ack, recent, indexed, found, inflight])

theorem ack_frame (e : QueueEngine) (id : String) (persist : Bool) :
    (e.ack id persist).2.visibilityHeap = e.visibilityHeap ∧
    (e.ack id persist).2.delayed = e.delayed ∧ (e.ack id persist).2.config = e.config := by
  unfold ack
  repeat' (first | split | simp [rememberAck, putQueue])

theorem Settles.ops (settles : e.Settles id persist name queue) :
    (e.ack id persist).2.journal.ops =
      e.journal.ops ++ journaled persist (.messageAck id name) := by
  simp [ack, settles.fresh, settles.indexed, settles.found, settles.inflight, rememberAck, putQueue]

theorem Settles.message? (settles : e.Settles id persist name queue) :
    (e.ack id persist).2.message? q m =
      if q = name ∧ m = id then none else e.message? q m := by
  rw [message?_of_set settles.queues]
  by_cases same : q = name
  · subst same
    simp [message?_of_get settles.found, DurableQueue.settle, Dict.get?_erase]
  · simp [same]

theorem Settles.record? (settles : e.Settles id persist name queue) :
    (e.ack id persist).2.record? q m =
      if q = name ∧ m = id then none else e.record? q m := by
  rw [record?_of_set settles.queues]
  by_cases same : q = name
  · subst same
    simp [record?_of_get settles.found, DurableQueue.settle, Dict.get?_erase]
  · simp [same]

theorem Settles.spec? (settles : e.Settles id persist name queue) :
    (e.ack id persist).2.spec? = e.spec? := by
  funext q
  rw [spec?_of_set settles.queues]
  split
  · rename_i same; rw [same, spec?_of_get settles.found]; rfl
  · rfl

end OneOpenBroker.Core.QueueEngine

import OneOpenBroker.Core.Conservation

/-! The counters of a queue account for its messages. Outside the DLQs every
message that was published to a queue is acked, is dead, or is still held:
each path that adds or removes a message touches one counter. A DLQ is left
out because a requeue takes a message out of it and counts nothing. -/
namespace OneOpenBroker.Core.QueueEngine
open Collections Systems

/-- Whatever was published is acked, dead or held. -/
def Tallied (queue : DurableQueue) : Prop :=
  queue.stats.published = queue.stats.acked + queue.stats.dead + queue.messages.size

/-- The law of the queues that are not DLQs. -/
def Books (name : String) (queue : DurableQueue) : Prop := isDlq name = false → Tallied queue

variable {e : QueueEngine} {name q id m : String} {queue : DurableQueue} {message : Message}
  {persist requeue : Bool}

/-! ## Updates of one queue -/

theorem Tallied.fresh {spec : QueueSpec} : Tallied { spec } := rfl

/-- A message that is stored again under its id changes no count. -/
theorem Tallied.store (tallied : Tallied queue) (held : id ∈ queue.messages) :
    Tallied { queue with messages := queue.messages.set id message } := by
  have size : (queue.messages.set id message).size = queue.messages.size :=
    Dict.size_set_of_mem held
  unfold Tallied at tallied ⊢
  dsimp only
  omega

theorem Tallied.accepted {seq : Nat} (tallied : Tallied queue) (absent : message.id ∉ queue.messages) :
    Tallied (accepted queue seq message) := by
  have size : (queue.messages.set message.id message).size = queue.messages.size + 1 :=
    Dict.size_set_of_not_mem absent
  unfold Tallied at tallied
  unfold Tallied QueueEngine.accepted
  split
  · simp only [DurableQueue.hold]
    omega
  · simp only [DurableQueue.hold, DurableQueue.pushReady]
    omega

theorem Tallied.settle (tallied : Tallied queue) (held : id ∈ queue.messages) :
    Tallied (queue.settle id) := by
  have size : (queue.messages.erase id).size + 1 = queue.messages.size := Dict.size_erase_of_mem held
  unfold Tallied at tallied
  simp only [Tallied, DurableQueue.settle]
  omega

theorem Tallied.discard (tallied : Tallied queue) (held : id ∈ queue.messages) :
    Tallied (queue.discard id) := by
  have size : (queue.messages.erase id).size + 1 = queue.messages.size := Dict.size_erase_of_mem held
  unfold Tallied at tallied
  simp only [Tallied, DurableQueue.discard]
  omega

theorem Tallied.delay (tallied : Tallied queue) (held : message.id ∈ queue.messages) :
    Tallied (queue.delay message) := tallied.store held

/-! ## One step -/

/-- The invariant of the runs in which no id is published while it is held. -/
structure Audited (e : QueueEngine) : Prop extends Filed e where
  books : Dict.All Books e.queues

/-- A failure counts its message as dead or leaves it where it is. -/
theorem conclude_books (others : Dict.AllBut name Books e.queues) (tallied : Books name queue)
    (held : message.id ∈ queue.messages) :
    Dict.All Books (e.conclude name queue message requeue persist).queues := by
  rcases conclude_cases e name queue message requeue persist with ⟨_, shape⟩ | ⟨_, _, shape⟩
  · rw [shape]
    refine all_moveToDlq others (fun plain => (tallied plain).discard held) (fun _ => .fresh) ?_
    exact fun dest _ _ plain => absurd rfl (ne_dlqName plain)
  · rw [shape, delayRetry_queues]
    exact others.set fun plain => (tallied plain).delay held

theorem failDelivery_audited (audited : e.Audited) : (e.failDelivery name id persist).2.Audited := by
  refine ⟨failDelivery_filed audited.toFiled, ?_⟩
  rcases failDelivery_cases e name id persist with ⟨_, shape⟩ | ⟨queue, found, _, shape⟩ |
    ⟨queue, message, found, held, shape⟩
  · rw [shape]
    exact audited.books
  · rw [shape]
    exact audited.books.set (audited.books name queue found)
  · rw [shape]
    refine conclude_books audited.books.but.stored (audited.books name queue found) ?_
    rw [((audited.named name queue found).messages id message held).1]
    exact Dict.mem_of_get? held

theorem nack_audited (audited : e.Audited) : (e.nack id requeue persist).2.Audited := by
  refine ⟨step_filed audited.toFiled (.nack id requeue) trivial, ?_⟩
  rcases nack_cases e id requeue persist with ⟨name, queue, message, nacks⟩ |
    ⟨_, same | ⟨name, queue, _, found, _, shape⟩⟩
  · have others : Dict.AllBut name Books (e.nacked id requeue persist name queue).queues := by
      rw [nacked_queues]
      exact audited.books.but.stored
    rw [nacks.shape]
    refine conclude_books others (audited.books name queue nacks.found) ?_
    rw [((audited.named name queue nacks.found).messages id message nacks.held).1]
    exact Dict.mem_of_get? nacks.held
  · rw [same]
    exact audited.books
  · rw [shape]
    exact audited.books.set (audited.books name queue found)

theorem enqueue_audited (audited : e.Audited) (fresh : ¬ e.Held message.id) :
    (e.enqueue message persist).2.Audited := by
  refine ⟨step_filed audited.toFiled (.enqueue message) fresh, ?_⟩
  rcases enqueue_cases e message persist with ⟨queue, accepts⟩ | ⟨_, same⟩
  · rw [accepts.queues]
    refine audited.books.set fun plain => (audited.books _ _ accepts.1 plain).accepted fun there => ?_
    rw [dueMessage_id] at there
    obtain ⟨old, held⟩ := Dict.mem_iff.mp there
    exact fresh ⟨message.queue, old, (message?_of_get accepts.1).trans held⟩
  · rw [same]
    exact audited.books

theorem reserve_audited {queueName consumerId : String} (audited : e.Audited) :
    (e.reserve queueName consumerId).2.Audited := by
  have filed : (e.step true (.reserve queueName consumerId)).Filed :=
    step_filed audited.toFiled _ trivial
  refine ⟨filed, ?_⟩
  rcases reserve_cases e queueName consumerId with ⟨queue, id, message, rest, reserves⟩ |
    ⟨_, ⟨same, _⟩ | ⟨queue, found, _, shape⟩⟩
  · have before := audited.books _ _ reserves.found
    rw [reserves.queues]
    exact audited.books.set before
  · rw [same]
    exact audited.books
  · have before := audited.books _ _ found
    rw [shape]
    exact audited.books.set before

theorem ack_audited (audited : e.Audited) : (e.ack id persist).2.Audited := by
  refine ⟨step_filed audited.toFiled (.ack id) trivial, ?_⟩
  rcases ack_cases e id persist with ⟨name, queue, settles⟩ | ⟨_, same⟩
  · obtain ⟨message, held⟩ := audited.indexed.held name id settles.indexed
    rw [message?_of_get settles.found] at held
    rw [settles.queues]
    exact audited.books.set fun plain =>
      (audited.books _ _ settles.found plain).settle (Dict.mem_of_get? held)
  · rw [same]
    exact audited.books

theorem releaseOne_audited (audited : e.Audited) : (e.releaseOne name id).2.Audited := by
  refine ⟨releaseOne_filed audited.toFiled, ?_⟩
  rcases releaseOne_cases e name id with ⟨_, shape⟩ | ⟨queue, found, _, _, shape⟩ |
    ⟨queue, message, found, _, held, _, shape⟩
  · rw [shape]
    exact audited.books
  · have before := audited.books _ _ found
    rw [shape]
    exact audited.books.set before
  · rw [shape]
    exact audited.books.set fun plain =>
      (audited.books _ _ found plain).store (Dict.mem_of_get? held)

/-- A requeue takes its message out of a DLQ, which keeps no books, and
publishes it to a queue that does not hold it. -/
theorem dlqRequeue_audited {queueName : String} (audited : e.Audited) :
    (e.dlqRequeue queueName id persist).2.Audited := by
  refine ⟨step_filed audited.toFiled (.dlqRequeue queueName id) trivial, ?_⟩
  rcases dlqRequeue_cases e queueName id persist with nothing | ⟨dlq, message, draws⟩
  · rw [nothing]
    exact audited.books
  · have exempt : ∀ queue, Books (requeueSource queueName) queue :=
      fun queue plain => absurd rfl (ne_dlqName plain)
    have drawn : Dict.All Books (e.withdrawn queueName id dlq).queues := audited.books.set (exempt _)
    rcases draws.result persist with ⟨dest, accepts, shape⟩ | ⟨_, shape⟩
    · rw [shape, append_queues, accepts.queues]
      have absent := draws.absent audited.toFiled accepts
      exact drawn.set fun plain => (drawn _ _ accepts.1 plain).accepted absent
    · rw [shape, putBack_queues]
      exact drawn.set (exempt _)

theorem step_audited (audited : e.Audited) (op : EngineOp) (fresh : FreshIds e op) :
    (e.step persist op).Audited := by
  cases op with
  | declareQueue name args =>
    exact ⟨step_filed audited.toFiled (.declareQueue name args) trivial,
      all_declareQueue audited.books fun _ _ _ => .fresh⟩
  | deleteQueue name =>
    exact ⟨step_filed audited.toFiled (.deleteQueue name) trivial, all_deleteQueue audited.books⟩
  | enqueue message => exact enqueue_audited audited fresh
  | reserve queueName consumerId => exact reserve_audited audited
  | ack messageId => exact ack_audited audited
  | nack messageId requeue => exact nack_audited audited
  | recoverConsumer consumerId =>
    exact recoverConsumer_preserves (fun _ audited => audited.named)
      (fun _ _ _ _ audited _ _ => failDelivery_audited audited) audited
  | tick now =>
    exact tick_preserves (fun _ _ _ audited => releaseOne_audited audited)
      (fun _ _ _ _ audited _ _ => failDelivery_audited audited)
      (fun _ _ _ _ audited =>
        ⟨⟨audited.named, audited.indexed.filed, audited.indexed.held⟩, audited.books⟩)
      audited
  | dlqRequeue queueName messageId => exact dlqRequeue_audited audited

/-! ## Snapshots -/

/-- The messages of a queue that a restore still has to store. -/
def awaited (rest : List (String × SavedMessage)) (name : String) : Nat :=
  (rest.filter fun entry => entry.1 = name).length

/-- The books of a queue that is being restored count what is still to come. -/
def Opening (rest : List (String × SavedMessage)) (name : String) (queue : DurableQueue) : Prop :=
  isDlq name = false → queue.stats.published =
    queue.stats.acked + queue.stats.dead + (queue.messages.size + awaited rest name)

@[simp] theorem refit_stats {seq : Nat} {saved : SavedMessage} :
    (refit queue seq saved).stats = queue.stats := by
  unfold refit
  dsimp only
  split <;> rfl

theorem awaited_map {messages : List SavedMessage} :
    awaited (messages.map (q, ·)) name = if q = name then messages.length else 0 := by
  unfold awaited
  induction messages with
  | nil => simp
  | cons message messages ih =>
    rw [List.map_cons, List.filter_cons]
    by_cases same : q = name
    · simp only [same, decide_true, if_true, List.length_cons] at ih ⊢
      omega
    · simp [same] at ih ⊢

theorem awaited_cons {rest : List (String × SavedMessage)} {saved : SavedMessage} :
    awaited ((name, saved) :: rest) q = (if name = q then 1 else 0) + awaited rest q := by
  unfold awaited
  rw [List.filter_cons]
  by_cases here : name = q
  · simp [here, Nat.add_comm]
  · simp [here]

/-- A saved queue awaits the messages that it held. -/
theorem awaited_saveQueue (old : DurableQueue) :
    awaited ((saveQueue old).messages.map ((saveQueue old).spec.name, ·)) q =
      if old.spec.name = q then old.messages.size else 0 := by
  rw [awaited_map]
  simp [saveQueue, Dict.values, Dict.size]

/-- The books of a queue that is declared anew count the messages it was saved with. -/
theorem Opening.declared {saved : QueueEngine} {old : DurableQueue} (named : saved.Named)
    (books : Dict.All Books saved.queues) (member : old ∈ saved.queues.values)
    (opening : Dict.All (Opening []) e.queues) :
    Dict.All (Opening ((saveQueue old).messages.map ((saveQueue old).spec.name, ·)))
      (e.putQueue old.spec.name { spec := old.spec, stats := old.stats }).queues := by
  intro q queue there plain
  obtain ⟨name, found⟩ := Dict.mem_values.mp member
  have same : old.spec.name = name := (named name old found).spec
  change (e.queues.set old.spec.name _).get? q = some queue at there
  rw [Dict.get?_set] at there
  rw [awaited_saveQueue]
  split at there
  · rename_i here
    cases there
    have tallied : Tallied old := books name old found (same ▸ here ▸ plain)
    unfold Tallied at tallied
    have own : old.spec.name = q := here.symm
    rw [if_pos own]
    change old.stats.published = old.stats.acked + old.stats.dead + (0 + old.messages.size)
    omega
  · rename_i other
    rw [if_neg (fun here => other here.symm)]
    exact opening q queue there plain

/-- A message that is restored is counted with those that are there. -/
theorem Opening.restored {rest : List (String × SavedMessage)} {saved : SavedMessage}
    (found : e.queues.get? name = some queue) (absent : saved.message.id ∉ queue.messages)
    (opening : Dict.All (Opening ((name, saved) :: rest)) e.queues) :
    Dict.All (Opening rest) (e.restoreMessage name queue saved).queues := by
  intro q queue' there plain
  rw [restoreMessage_queues, Dict.get?_set] at there
  split at there
  · rename_i here
    subst here
    cases there
    have before := opening q queue found plain
    rw [awaited_cons, if_pos rfl] at before
    rw [refit_stats, refit_messages, Dict.size_set_of_not_mem absent]
    omega
  · rename_i other
    have before := opening q queue' there plain
    rw [awaited_cons, if_neg (Ne.symm other), Nat.zero_add] at before
    exact before

theorem restore_audited {saved : QueueEngine} (audited : saved.Audited) :
    (e.restoreState saved.snapshotState).Audited := by
  have finish : (e.restoreState saved.snapshotState).Restoring [] [] ∧
      Dict.All (Opening []) (e.restoreState saved.snapshotState).queues := by
    refine restoreState_preserves (I := fun e queues rest =>
      e.Restoring queues rest ∧ Dict.All (Opening rest) e.queues) ?_ ?_
      ⟨cleared_restoring audited.toFiled, Dict.all_empty⟩
    · rintro e queues queue listed ⟨restoring, opening⟩
      obtain ⟨old, member, rfl⟩ := List.mem_map.mp listed
      obtain ⟨name, found⟩ := Dict.mem_values.mp member
      have kept := audited.named name old found
      have same : old.spec.name = name := kept.spec
      exact ⟨restoring.declare (.fresh rfl (same.symm ▸ kept.plain)),
        Opening.declared audited.named audited.books member opening⟩
    · rintro e queues rest name queue message found listed ⟨restoring, opening⟩
      obtain ⟨old, there, held, _⟩ := (mem_contents audited.named).mp listed
      have filed : message.message.queue = name := ((audited.named name old there).messages _ _ held).2
      have fresh := restoring.fresh (name, message) List.mem_cons_self
      have absent : message.message.id ∉ queue.messages := by
        intro inside
        obtain ⟨other, kept⟩ := Dict.mem_iff.mp inside
        exact fresh ⟨name, other, (message?_of_get found).trans kept⟩
      exact ⟨restoring.restore found filed, Opening.restored found absent opening⟩
  refine ⟨finish.1.filed, fun q queue found plain => ?_⟩
  exact finish.2 q queue found plain

theorem Reachable.audited (reached : Reachable FreshIds e) : e.Audited := by
  induction reached with
  | start config clock => exact ⟨cleared_filed { config, clock } 0, Dict.all_empty⟩
  | step _ _ op ok audited => exact step_audited audited op ok
  | restore _ _ _ kept => exact restore_audited kept

/-- In every state that runs with fresh ids and restores reach, the messages
published to a queue that is not a DLQ are acked, dead or held. -/
theorem messages_accounted (reached : Reachable FreshIds e) (found : e.queues.get? q = some queue)
    (plain : isDlq q = false) :
    queue.stats.published = queue.stats.acked + queue.stats.dead + queue.messages.size :=
  reached.audited.books q queue found plain

/-- One message is acked, one dead-lettered, one held. -/
def tallyRun : List EngineOp := deliveredRun ++ [
  .ack "m1",
  .enqueue { id := "m2", queue := "orders", payload := [2], createdAt := 1 },
  .reserve "orders" "worker", .nack "m2" false,
  .enqueue { id := "m3", queue := "orders", payload := [3], createdAt := 2 }]

theorem messages_accounted_tally : ∃ queue,
    (run (step true) created tallyRun).queues.get? "orders" = some queue ∧
    queue.stats.published = queue.stats.acked + queue.stats.dead + queue.messages.size := by
  have known : ((run (step true) created tallyRun).queues.get? "orders").isSome = true := by
    decide +kernel
  obtain ⟨queue, found⟩ := Option.isSome_iff_exists.mp known
  have reached : Reachable FreshIds (run (step true) created tallyRun) :=
    reachable_run (.start {} fun _ => 0) (by decide +kernel)
  exact ⟨queue, found, messages_accounted reached found (by decide +kernel)⟩

end OneOpenBroker.Core.QueueEngine

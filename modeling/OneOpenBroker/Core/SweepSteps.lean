import OneOpenBroker.Core.FailureSteps

/-! The operations that touch several messages at once, and requeueing out of
a DLQ. Each sweep gets one induction rule: what a single failure and a single
release preserve, the whole sweep preserves. -/
namespace OneOpenBroker.Core.QueueEngine
open Collections

variable {e e' : QueueEngine} {name q id m : String} {queue : DurableQueue} {message msg : Message}
  {persist : Bool} {I : QueueEngine → Prop}

/-! ## Consumer recovery -/

/-- A sweep over deliveries of one queue, each of which is really there. -/
theorem failAll_preserves (consumerId : String)
    (fail : ∀ e id record, I e → e.record? name id = some record → record.consumerId = consumerId →
      I (e.failDelivery name id persist).2) {ids : List String} (distinct : ids.Nodup)
    (there : ∀ id ∈ ids, ∃ record, e.record? name id = some record ∧ record.consumerId = consumerId)
    (start : I e) : I (e.failAll name persist ids).2 := by
  induction ids generalizing e with
  | nil => exact start
  | cons id rest ih =>
    obtain ⟨absent, tail⟩ := List.nodup_cons.mp distinct
    obtain ⟨record, found, mine⟩ := there id List.mem_cons_self
    refine ih (e := (e.failDelivery name id persist).2) tail ?_ (fail e id record start found mine)
    intro other member
    have differ : other ≠ id := fun same => absent (same ▸ member)
    rw [failDelivery_record?, if_neg (fun same => differ same.2)]
    exact there other (List.mem_cons_of_mem _ member)

/-- The deliveries collected for a consumer are its own, each listed once. -/
theorem heldBy_spec (consumerId : String) (named : QueueNamed name queue) :
    (heldBy queue consumerId).Nodup ∧ ∀ id, id ∈ heldBy queue consumerId ↔
      ∃ record, queue.inflight.get? id = some record ∧ record.consumerId = consumerId := by
  have keyed : queue.inflight.values.map (·.messageId) = queue.inflight.keys := by
    unfold Dict.values Dict.keys
    rw [List.map_map]
    apply List.map_congr_left
    intro entry member
    exact named.records _ _ (Dict.get?_eq_some.mpr member)
  constructor
  · have sub : (heldBy queue consumerId).Sublist (queue.inflight.values.map (·.messageId)) :=
      List.filter_sublist.map _
    exact (keyed ▸ sub).nodup queue.inflight.keys_nodup
  · intro id
    simp only [heldBy, List.mem_map, List.mem_filter, decide_eq_true_eq]
    constructor
    · rintro ⟨record, ⟨member, mine⟩, rfl⟩
      obtain ⟨key, found⟩ := Dict.mem_values.mp member
      exact ⟨record, (named.records _ _ found).symm ▸ found, mine⟩
    · rintro ⟨record, found, mine⟩
      exact ⟨record, ⟨Dict.mem_values.mpr ⟨id, found⟩, mine⟩, named.records _ _ found⟩

/-- Recovering a consumer preserves what each of its failures preserves,
also when the iteration is cut short by an error. -/
theorem recoverConsumer_preserves {consumerId : String} (named : ∀ e, I e → e.Named)
    (fail : ∀ e name id record, I e → e.record? name id = some record →
      record.consumerId = consumerId → I (e.failDelivery name id persist).2)
    (start : I e) : I (e.recoverConsumer consumerId persist).2 := by
  have sweep : ∀ size names e, I e → I (recoverQueues size consumerId persist names e).2 := by
    intro size names
    induction names with
    | nil => exact fun e start => start
    | cons name names ih =>
      intro e start
      unfold recoverQueues
      split
      · cases found : e.queues.get? name with
        | none => exact ih e start
        | some queue =>
          obtain ⟨distinct, collected⟩ := heldBy_spec consumerId
            (named e start name queue found)
          refine ih _ (failAll_preserves consumerId (fun e => fail e name) distinct
            (fun id member => ?_) start)
          rw [record?_of_get found]
          exact (collected id).mp member
      · exact start
  exact sweep _ _ e start

/-! ## Timers -/

/-- A message without the moment it becomes available. -/
def strip (message : Message) : Message := { message with availableAt := none }

/-- Both engines hold the same messages in the same queues, up to delays. -/
def SameMessages (e e' : QueueEngine) : Prop :=
  ∀ q m, (e'.message? q m).map strip = (e.message? q m).map strip

theorem SameMessages.refl (e : QueueEngine) : SameMessages e e := fun _ _ => rfl

theorem SameMessages.of_eq (same : e'.message? = e.message?) : SameMessages e e' := by
  intro q m
  rw [same]

/-- The three outcomes of one due entry: nothing, a stale mark removed, or a
message made ready. -/
theorem releaseOne_cases (e : QueueEngine) (name id : String) :
    (∀ queue, e.queues.get? name = some queue → id ∉ queue.delayedIds) ∧
      (e.releaseOne name id).2 = e ∨
    (∃ queue, e.queues.get? name = some queue ∧ id ∈ queue.delayedIds ∧
      (id ∉ queue.messages ∨ id ∈ queue.inflight) ∧
      (e.releaseOne name id).2 =
        e.putQueue name { queue with delayedIds := queue.delayedIds.erase id }) ∨
    ∃ queue message, e.queues.get? name = some queue ∧ id ∈ queue.delayedIds ∧
      queue.messages.get? id = some message ∧ id ∉ queue.inflight ∧
      (e.releaseOne name id).2 = e.pushReady name { queue with
        delayedIds := queue.delayedIds.erase id
        messages := queue.messages.set id (strip message) } (strip message) := by
  unfold releaseOne
  cases found : e.queues.get? name with
  | none => exact .inl ⟨fun _ found => (nomatch found), rfl⟩
  | some queue =>
    dsimp only
    by_cases marked : id ∈ queue.delayedIds
    · rw [if_pos marked]
      cases held : queue.messages.get? id with
      | none => exact .inr (.inl ⟨queue, rfl, marked, .inl (Dict.get?_eq_none.mp held), rfl⟩)
      | some message =>
        dsimp only
        by_cases inflight : id ∈ queue.inflight
        · rw [if_pos inflight]
          exact .inr (.inl ⟨queue, rfl, marked, .inr inflight, rfl⟩)
        · rw [if_neg inflight]
          exact .inr (.inr ⟨queue, message, rfl, marked, held, inflight, rfl⟩)
    · rw [if_neg marked]
      exact .inl ⟨fun _ same => Option.some.inj same ▸ marked, rfl⟩

/-- A release moves no message, starts and ends no delivery, and writes
nothing to the journal. -/
theorem releaseOne_observe (e : QueueEngine) (name id : String) :
    SameMessages e (e.releaseOne name id).2 ∧
    (e.releaseOne name id).2.record? = e.record? ∧ (e.releaseOne name id).2.spec? = e.spec? ∧
    (e.releaseOne name id).2.byId = e.byId ∧ (e.releaseOne name id).2.journal = e.journal ∧
    (e.releaseOne name id).2.config = e.config := by
  rcases releaseOne_cases e name id with ⟨_, same⟩ | ⟨queue, found, _, _, shape⟩ |
    ⟨queue, message, found, _, held, _, shape⟩
  · rw [same]
    exact ⟨.refl e, rfl, rfl, rfl, rfl, rfl⟩
  · rw [shape]
    refine ⟨.of_eq ?_, ?_, ?_, rfl, rfl, rfl⟩
    · funext q m
      rw [message?_of_set (e := e) rfl]
      split
      · rename_i same; rw [same, message?_of_get found]
      · rfl
    · funext q m
      rw [record?_of_set (e := e) rfl]
      split
      · rename_i same; rw [same, record?_of_get found]
      · rfl
    · funext q
      rw [spec?_of_set (e := e) rfl]
      split
      · rename_i same; rw [same, spec?_of_get found]
      · rfl
  · rw [shape]
    refine ⟨?_, ?_, ?_, rfl, rfl, rfl⟩
    · intro q m
      rw [message?_of_set (e := e) rfl]
      split
      · rename_i same
        rw [same, message?_of_get found]
        by_cases there : m = id
        · subst there
          simp [DurableQueue.pushReady, held, strip]
        · simp [DurableQueue.pushReady, there]
      · rfl
    · funext q m
      rw [record?_of_set (e := e) rfl]
      split
      · rename_i same; rw [same, record?_of_get found]; rfl
      · rfl
    · funext q
      rw [spec?_of_set (e := e) rfl]
      split
      · rename_i same; rw [same, spec?_of_get found]; rfl
      · rfl

theorem releaseOne_heaps (e : QueueEngine) (name id : String) :
    (e.releaseOne name id).2.visibilityHeap = e.visibilityHeap ∧
    (e.releaseOne name id).2.delayed = e.delayed := by
  rcases releaseOne_cases e name id with ⟨_, same⟩ | ⟨queue, _, _, _, shape⟩ |
    ⟨queue, message, _, _, _, _, shape⟩
  · rw [same]
    exact ⟨rfl, rfl⟩
  · rw [shape]
    exact ⟨rfl, rfl⟩
  · rw [shape]
    exact ⟨rfl, rfl⟩

theorem releaseAll_preserves (release : ∀ e name id, I e → I (e.releaseOne name id).2)
    {due : List TimedEntry} (start : I e) : I (releaseAll due e).2 := by
  induction due generalizing e with
  | nil => exact start
  | cons entry rest ih => exact ih (release e entry.queue entry.messageId start)

/-- The timeout loop fails only deliveries whose deadline has passed. -/
theorem timeoutEntries_preserves {ts : ℚ}
    (fail : ∀ e name id record, I e → e.record? name id = some record →
      record.visibilityDeadline ≤ ts → I (e.failDelivery name id true).2)
    (heap : ∀ e entries, I e → I { e with visibilityHeap := entries })
    {entries : List TimedEntry} (start : I e) : I (timeoutEntries ts entries e).2 := by
  induction entries generalizing e with
  | nil => exact heap e [] start
  | cons entry rest ih =>
    unfold timeoutEntries
    split
    · rename_i due
      split
      · exact ih start
      · rename_i record found
        split
        · rename_i current
          exact ih (fail e entry.queue entry.messageId record start found (current ▸ due))
        · exact ih start
    · exact heap e _ start

/-- The moment that a tick takes for now. -/
def tickTime (e : QueueEngine) (now : Option ℚ) : ℚ := now.getD e.now.1

/-- One tick preserves what one release and one timeout preserve. -/
theorem tick_preserves {now : Option ℚ}
    (release : ∀ e name id, I e → I (e.releaseOne name id).2)
    (fail : ∀ e' name id record, I e' → e'.record? name id = some record →
      record.visibilityDeadline ≤ e.tickTime now → I (e'.failDelivery name id true).2)
    (frame : ∀ e reads delayed heap, I e →
      I { e with reads := reads, delayed := delayed, visibilityHeap := heap })
    (start : I e) : I (e.tick now).2 := by
  have heaps : ∀ e entries, I e → I { e with visibilityHeap := entries } :=
    fun e entries inv => frame e e.reads e.delayed entries inv
  have sweep : ∀ base : QueueEngine, I base →
      I ((base.releaseDelayed (e.tickTime now)).2.timeoutInflight (e.tickTime now)).2 :=
    fun base inv => timeoutEntries_preserves fail heaps
      (releaseAll_preserves release (frame base base.reads _ base.visibilityHeap inv))
  cases now with
  | none => exact sweep e.now.2 (frame e _ e.delayed e.visibilityHeap start)
  | some ts => exact sweep e start

/-! ## Requeueing out of a DLQ -/

section Requeue

variable {queueName : String} {dlq : DurableQueue}

/-- The DLQ that a requeue addressed to a queue name takes from. -/
def requeueSource (queueName : String) : String := dlqName (originQueue queueName)

/-- The message as it is offered to its origin queue. -/
def requeued (queueName : String) (message : Message) : Message :=
  { message with queue := originQueue queueName, attempts := 0, availableAt := none }

/-- The engine with the message taken out of the DLQ and offered nowhere yet. -/
def withdrawn (e : QueueEngine) (queueName id : String) (dlq : DurableQueue) : QueueEngine :=
  { e.putQueue (requeueSource queueName) (dlq.withdraw id) with byId := e.byId.erase id }

/-- A requeue that found its message in the DLQ. -/
structure Withdraws (e : QueueEngine) (queueName id : String) (dlq : DurableQueue)
    (message : Message) : Prop where
  source : e.queues.get? (requeueSource queueName) = some dlq
  dest : ∃ queue, e.queues.get? (originQueue queueName) = some queue
  held : dlq.messages.get? id = some message

theorem dlqRequeue_cases (e : QueueEngine) (queueName id : String) (persist : Bool) :
    e.dlqRequeue queueName id persist = (false, e) ∨
    ∃ dlq message, e.Withdraws queueName id dlq message := by
  unfold dlqRequeue
  dsimp only
  split
  · rename_i dlq dest source found
    cases held : dlq.messages.get? id with
    | none => exact .inl rfl
    | some message => exact .inr ⟨dlq, message, source, ⟨_, found⟩, held⟩
  · exact .inl rfl

theorem Withdraws.heldThere (draws : e.Withdraws queueName id dlq message) :
    e.message? (requeueSource queueName) id = some message := by
  rw [message?_of_get draws.source]; exact draws.held

theorem Withdraws.observe (draws : e.Withdraws queueName id dlq message) :
    (∀ q m, (e.withdrawn queueName id dlq).message? q m =
      if q = requeueSource queueName ∧ m = id then none else e.message? q m) ∧
    (e.withdrawn queueName id dlq).record? = e.record? ∧
    (e.withdrawn queueName id dlq).spec? = e.spec? := by
  have stored : (e.withdrawn queueName id dlq).queues =
      e.queues.set (requeueSource queueName) (dlq.withdraw id) := rfl
  refine ⟨?_, ?_, ?_⟩
  · intro q m
    rw [message?_of_set stored]
    by_cases same : q = requeueSource queueName
    · subst same
      simp [message?_of_get draws.source, DurableQueue.withdraw, Dict.get?_erase]
    · simp [same]
  · funext q m
    rw [record?_of_set stored]
    split
    · rename_i same; rw [same, record?_of_get draws.source]; rfl
    · rfl
  · funext q
    rw [spec?_of_set stored]
    split
    · rename_i same; rw [same, spec?_of_get draws.source]; rfl
    · rfl

/-- The message as it goes back when its origin queue refuses it. -/
def returned (queueName : String) (message : Message) : Message :=
  { requeued queueName message with queue := requeueSource queueName }

/-- The DLQ that got the message back. -/
def refilled (queueName id : String) (dlq : DurableQueue) (message : Message) : DurableQueue :=
  { dlq.withdraw id with
    messages := (dlq.messages.erase id).set id (returned queueName message) }

/-- The engine after a requeue that the origin queue refused. -/
def putBack (e : QueueEngine) (queueName id : String) (dlq : DurableQueue) (message : Message) :
    QueueEngine :=
  pushReady { e.withdrawn queueName id dlq with
      byId := (e.byId.erase id).set id (requeueSource queueName) }
    (requeueSource queueName) (refilled queueName id dlq message) (returned queueName message)

/-- A requeue puts the message in its origin queue or back in the DLQ. -/
theorem Withdraws.result (draws : e.Withdraws queueName id dlq message) (persist : Bool) :
    (∃ dest, (e.withdrawn queueName id dlq).Accepts (requeued queueName message) false dest ∧
      e.dlqRequeue queueName id persist = (true,
        ((e.withdrawn queueName id dlq).enqueue (requeued queueName message) false).2.append persist
          (.messageRequeue id (requeueSource queueName) (originQueue queueName)))) ∨
    (∃ dest, (e.withdrawn queueName id dlq).queues.get? (originQueue queueName) = some dest ∧
      dest.isFull = true) ∧
    e.dlqRequeue queueName id persist = (false, e.putBack queueName id dlq message) := by
  obtain ⟨dest, found⟩ := draws.dest
  have known : ∃ dest, (e.withdrawn queueName id dlq).queues.get? (originQueue queueName) =
      some dest := by
    simp only [withdrawn, putQueue, Dict.get?_set]
    split
    · exact ⟨_, rfl⟩
    · exact ⟨dest, found⟩
  have source : e.queues.get? (dlqName (originQueue queueName)) = some dlq := draws.source
  unfold dlqRequeue
  simp only [source, found, draws.held]
  rcases enqueue_cases (e.withdrawn queueName id dlq) (requeued queueName message) false with
    ⟨queue, accepts⟩ | ⟨refused, same⟩
  · refine .inl ⟨queue, accepts, ?_⟩
    split
    · rename_i after ok
      have same := ok.symm.trans accepts.2.2
      rw [accepts.2.2, (Prod.mk.inj same).2]
      rfl
    · rename_i other after refused outcome
      have same := outcome.symm.trans accepts.2.2
      exact absurd (Prod.mk.inj same).1 refused
  · obtain ⟨there, present⟩ := known
    have full : there.isFull = true := by
      by_contra open'
      apply refused
      have room : there.isFull = false := by simpa using open'
      simp [enqueue, requeued, present, room]
    refine .inr ⟨⟨there, present, full⟩, ?_⟩
    split
    · rename_i after ok
      exact absurd (congrArg Prod.fst ok) refused
    · rename_i other after _ outcome
      have same : after = e.withdrawn queueName id dlq :=
        (congrArg Prod.snd outcome).symm.trans same
      rw [same]
      rfl

theorem putBack_queues : (e.putBack queueName id dlq message).queues =
    ((e.withdrawn queueName id dlq).queues).set (requeueSource queueName)
      ((refilled queueName id dlq message).pushReady (e.seq + 1) (returned queueName message)) :=
  rfl

/-- How a requeue ends: there is nothing to requeue, the message moves to its
origin queue with its attempts forgotten, or it goes back to the DLQ. -/
inductive Requeue (e : QueueEngine) (queueName id : String) (persist : Bool) :
    Bool → QueueEngine → Prop where
  | missing : Requeue e queueName id persist false e
  | moved (message : Message) (e' : QueueEngine)
      (held : e.message? (requeueSource queueName) id = some message)
      (messages : ∀ q m, e'.message? q m =
        if q = originQueue queueName ∧ m = id then some (requeued queueName message)
        else if q = requeueSource queueName ∧ m = id then none else e.message? q m)
      (records : e'.record? = e.record?) (specs : e'.spec? = e.spec?)
      (index : e'.byId = (e.byId.erase id).set id (originQueue queueName))
      (journal : e'.journal.ops = e.journal.ops ++ journaled persist
        (.messageRequeue id (requeueSource queueName) (originQueue queueName))) :
      Requeue e queueName id persist true e'
  | refused (message : Message) (e' : QueueEngine)
      (held : e.message? (requeueSource queueName) id = some message)
      (messages : ∀ q m, e'.message? q m = if q = requeueSource queueName ∧ m = id then
        some (returned queueName message) else e.message? q m)
      (records : e'.record? = e.record?) (specs : e'.spec? = e.spec?)
      (index : e'.byId = (e.byId.erase id).set id (requeueSource queueName))
      (journal : e'.journal.ops = e.journal.ops) : Requeue e queueName id persist false e'

theorem putBack_observe (draws : e.Withdraws queueName id dlq message) :
    (∀ q m, (e.putBack queueName id dlq message).message? q m =
      if q = requeueSource queueName ∧ m = id then some (returned queueName message)
      else e.message? q m) ∧
    (e.putBack queueName id dlq message).record? = e.record? ∧
    (e.putBack queueName id dlq message).spec? = e.spec? := by
  obtain ⟨messages, records, specs⟩ := draws.observe
  refine ⟨?_, ?_, ?_⟩
  · intro q m
    rw [message?_of_set putBack_queues, messages]
    by_cases there : q = requeueSource queueName
    · subst there
      by_cases target : m = id
      · simp [DurableQueue.pushReady, refilled, target]
      · simp [DurableQueue.pushReady, refilled, target, message?_of_get draws.source]
    · simp [there]
  · funext q m
    rw [record?_of_set putBack_queues, records]
    split
    · rename_i there; rw [there, record?_of_get draws.source]; rfl
    · rfl
  · funext q
    rw [spec?_of_set putBack_queues, specs]
    split
    · rename_i there; rw [there, spec?_of_get draws.source]; rfl
    · rfl

theorem dlqRequeue_requeue (named : e.Named) (queueName id : String) (persist : Bool) :
    Requeue e queueName id persist
    (e.dlqRequeue queueName id persist).1 (e.dlqRequeue queueName id persist).2 := by
  rcases dlqRequeue_cases e queueName id persist with nothing | ⟨dlq, message, draws⟩
  · rw [nothing]
    exact .missing
  · have same : message.id = id := (named.filed draws.heldThere).1
    obtain ⟨messages, records, specs⟩ := draws.observe
    have awake : dueMessage (requeued queueName message) (e.withdrawn queueName id dlq).now.1 =
        requeued queueName message := rfl
    rcases draws.result persist with ⟨dest, accepts, shape⟩ | ⟨_, shape⟩
    · rw [shape]
      refine .moved message _ draws.heldThere ?_ ?_ ?_ ?_ ?_
      · intro q m
        rw [message?_append, accepts.message?, awake, messages, ← same]
        rfl
      · rw [record?_append, accepts.record?, records]
      · rw [spec?_append, accepts.spec?, specs]
      · rw [append_byId, accepts.byId, ← same]
        rfl
      · have quiet : ((e.withdrawn queueName id dlq).enqueue
            (requeued queueName message) false).2.journal = e.journal := by
          rw [accepts.2.2, append_false, accept_frame.2.2.2.1]
          rfl
        rw [append_ops, quiet]
    · rw [shape]
      obtain ⟨messages, records, specs⟩ := putBack_observe draws
      exact .refused message _ draws.heldThere messages records specs rfl rfl

end Requeue

end OneOpenBroker.Core.QueueEngine

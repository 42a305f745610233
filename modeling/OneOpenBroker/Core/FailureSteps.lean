import OneOpenBroker.Core.DeliverySteps

/-! What a failed delivery does, and what the loops over failed deliveries
and due timers preserve. Consumer recovery, visibility timeouts and negative
acknowledgements all end in the same exits. -/
namespace OneOpenBroker.Core.QueueEngine
open Collections

variable {e e' : QueueEngine} {name q id m : String} {queue : DurableQueue} {message msg : Message}
  {persist : Bool} {P : String → DurableQueue → Prop}

/-! ## Names -/

/-- A queue is stored under its own name, dead-letters only when it is not a
DLQ itself, and files its messages and deliveries under their own ids. -/
structure QueueNamed (name : String) (queue : DurableQueue) : Prop where
  spec : queue.spec.name = name
  plain : queue.spec.deadLetter = true → isDlq name = false
  messages : ∀ m msg, queue.messages.get? m = some msg → msg.id = m ∧ msg.queue = name
  records : ∀ m record, queue.inflight.get? m = some record → record.messageId = m

def Named (e : QueueEngine) : Prop := Dict.All QueueNamed e.queues

theorem Named.filed (named : e.Named) (held : e.message? name id = some message) :
    message.id = id ∧ message.queue = name := by
  obtain ⟨queue, found, held⟩ := message?_some.mp held
  exact (named name queue found).messages id message held

theorem Named.plain {spec : QueueSpec} (named : e.Named) (known : e.spec? name = some spec)
    (on : spec.deadLetter = true) : isDlq name = false := by
  obtain ⟨queue, found, rfl⟩ := spec?_some.mp known
  exact (named name queue found).plain on

/-! ## Dead-lettering and retrying -/

theorem declareLeaf_known (e : QueueEngine) (name : String) (args : QueueArgs) (persist : Bool) :
    ∃ queue, (e.declareLeaf name args persist).queues.get? name = some queue := by
  rw [declareLeaf_queues]
  split
  · rename_i known; exact Dict.mem_iff.mp known
  · exact ⟨_, Dict.get?_set_self⟩

/-- The DLQ once it has the dead message. -/
def graved (dest : DurableQueue) (seq : Nat) (message : Message) : DurableQueue :=
  ({ dest.hold message with dlqIds := dest.dlqIds ++ [message.id] } : DurableQueue).pushReady seq
    message

theorem bury_queues (found : e.queues.get? name = some queue) :
    (e.bury name message).queues = e.queues.set name (graved queue (e.seq + 1) message) := by
  simp [bury, found, pushReady, graved]

theorem bury_frame (message : Message) (found : e.queues.get? name = some queue) :
    (e.bury name message).byId = e.byId.set message.id name ∧
    (e.bury name message).visibilityHeap = e.visibilityHeap ∧
    (e.bury name message).delayed = e.delayed ∧ (e.bury name message).config = e.config ∧
    (e.bury name message).journal = e.journal ∧
    (e.bury name message).recentAcks = e.recentAcks := by
  simp [bury, found, pushReady]

theorem bury_message? (found : e.queues.get? name = some queue) :
    (e.bury name message).message? q m =
      if q = name ∧ m = message.id then some message else e.message? q m := by
  rw [message?_of_set (bury_queues found)]
  by_cases same : q = name
  · subst same
    simp [message?_of_get found, graved, DurableQueue.pushReady, DurableQueue.hold, Dict.get?_set]
  · simp [same]

theorem bury_record? (found : e.queues.get? name = some queue) :
    (e.bury name message).record? = e.record? := by
  funext q m
  rw [record?_of_set (bury_queues found)]
  split
  · rename_i same; rw [same, record?_of_get found]; rfl
  · rfl

theorem bury_spec? (found : e.queues.get? name = some queue) :
    (e.bury name message).spec? = e.spec? := by
  funext q
  rw [spec?_of_set (bury_queues found)]
  split
  · rename_i same; rw [same, spec?_of_get found]; rfl
  · rfl

/-- The engine once a dead message has left its queue. -/
def discarded (e : QueueEngine) (name : String) (queue : DurableQueue) (message : Message)
    (persist : Bool) : QueueEngine :=
  append { e.putQueue name (queue.discard message.id) with byId := e.byId.erase message.id } persist
    (.messageDead message.id name message.attempts message.payload)

/-- The dead message as its DLQ holds it. -/
def buried (name : String) (message : Message) : Message :=
  { message with queue := dlqName name, availableAt := none }

theorem moveToDlq_eq : e.moveToDlq name queue message persist =
    if queue.spec.deadLetter then
      ((e.discarded name queue message persist).declareLeaf (dlqName name) {} false).bury
        (dlqName name) (buried name message)
    else e.discarded name queue message persist := rfl

theorem discarded_queues : (e.discarded name queue message persist).queues =
    e.queues.set name (queue.discard message.id) := by
  simp [discarded, putQueue]

theorem discarded_seq : (e.discarded name queue message persist).seq = e.seq := by
  simp [discarded, putQueue]

theorem discarded_message? (found : e.queues.get? name = some queue) :
    (e.discarded name queue message persist).message? q m =
      if q = name ∧ m = message.id then none else e.message? q m := by
  rw [message?_of_set discarded_queues]
  by_cases same : q = name
  · subst same
    simp [message?_of_get found, DurableQueue.discard, Dict.get?_erase]
  · simp [same]

theorem discarded_record? (found : e.queues.get? name = some queue) :
    (e.discarded name queue message persist).record? = e.record? := by
  funext q m
  rw [record?_of_set discarded_queues]
  split
  · rename_i same; rw [same, record?_of_get found]; rfl
  · rfl

theorem discarded_spec? (found : e.queues.get? name = some queue) :
    (e.discarded name queue message persist).spec? = e.spec? := by
  funext q
  rw [spec?_of_set discarded_queues]
  split
  · rename_i same; rw [same, spec?_of_get found]; rfl
  · rfl

theorem moveToDlq_message? (found : e.queues.get? name = some queue) :
    (e.moveToDlq name queue message persist).message? q m =
      if queue.spec.deadLetter = true ∧ q = dlqName name ∧ m = message.id then
        some (buried name message)
      else if q = name ∧ m = message.id then none else e.message? q m := by
  rw [moveToDlq_eq]
  by_cases on : queue.spec.deadLetter = true
  · obtain ⟨dest, known⟩ :=
      declareLeaf_known (e.discarded name queue message persist) (dlqName name) {} false
    rw [if_pos on, bury_message? known, declareLeaf_observe.1, discarded_message? found]
    by_cases moved : q = dlqName name ∧ m = message.id <;> simp [on, moved, buried]
  · simp [on, discarded_message? found]

theorem moveToDlq_record? (found : e.queues.get? name = some queue) :
    (e.moveToDlq name queue message persist).record? = e.record? := by
  rw [moveToDlq_eq]
  split
  · obtain ⟨dest, known⟩ :=
      declareLeaf_known (e.discarded name queue message persist) (dlqName name) {} false
    rw [bury_record? known, declareLeaf_observe.2, discarded_record? found]
  · exact discarded_record? found

theorem moveToDlq_spec? (found : e.queues.get? name = some queue) :
    (e.moveToDlq name queue message persist).spec? q =
      if queue.spec.deadLetter = true ∧ q = dlqName name ∧ q ∉ (e.putQueue name queue).queues then
        some (e.makeSpec q { deadLetter := false })
      else e.spec? q := by
  rw [moveToDlq_eq]
  by_cases on : queue.spec.deadLetter = true
  · obtain ⟨dest, known⟩ :=
      declareLeaf_known (e.discarded name queue message persist) (dlqName name) {} false
    rw [if_pos on, bury_spec? known, declareLeaf_spec?, discarded_spec? found]
    by_cases same : q = dlqName name
    · subst same
      simp [on, discarded, putQueue, makeSpec]
    · simp [same]
  · simp [on, discarded_spec? found]

theorem moveToDlq_frame : (e.moveToDlq name queue message persist).visibilityHeap = e.visibilityHeap ∧
    (e.moveToDlq name queue message persist).delayed = e.delayed ∧
    (e.moveToDlq name queue message persist).config = e.config ∧
    (e.moveToDlq name queue message persist).recentAcks = e.recentAcks := by
  rw [moveToDlq_eq]
  split
  · obtain ⟨dest, known⟩ :=
      declareLeaf_known (e.discarded name queue message persist) (dlqName name) {} false
    obtain ⟨_, heap, delayed, config, _, acks⟩ := bury_frame (buried name message) known
    obtain ⟨_, heap', delayed', config', acks'⟩ :=
      declareLeaf_frame (e.discarded name queue message persist) (dlqName name) {} false
    rw [heap, delayed, config, acks, heap', delayed', config', acks']
    simp [discarded, putQueue]
  · simp [discarded, putQueue]

theorem moveToDlq_byId : (e.moveToDlq name queue message persist).byId =
    if queue.spec.deadLetter then (e.byId.erase message.id).set message.id (dlqName name)
    else e.byId.erase message.id := by
  rw [moveToDlq_eq]
  split
  · obtain ⟨dest, known⟩ :=
      declareLeaf_known (e.discarded name queue message persist) (dlqName name) {} false
    rw [(bury_frame _ known).1, (declareLeaf_frame _ _ _ _).1]
    simp [discarded, buried]
  · simp [discarded]

theorem declareLeaf_journal : (e.declareLeaf name args false).journal = e.journal := by
  unfold declareLeaf
  split <;> simp [putQueue]

theorem moveToDlq_ops (e : QueueEngine) (name : String) (queue : DurableQueue) (message : Message)
    (persist : Bool) : (e.moveToDlq name queue message persist).journal.ops =
    e.journal.ops ++ journaled persist
      (.messageDead message.id name message.attempts message.payload) := by
  rw [moveToDlq_eq]
  split
  · obtain ⟨dest, known⟩ :=
      declareLeaf_known (e.discarded name queue message persist) (dlqName name) {} false
    rw [(bury_frame _ known).2.2.2.2.1, declareLeaf_journal]
    simp [discarded, putQueue]
  · simp [discarded, putQueue]

/-- What the queues have in common after a message died. The queue it leaves
need not have it before. -/
theorem all_moveToDlq (others : Dict.AllBut name P e.queues)
    (left : P name (queue.discard message.id))
    (fresh : P (dlqName name) { spec := e.makeSpec (dlqName name) { deadLetter := false } })
    (bury : ∀ dest, P (dlqName name) dest →
      (∀ m, dest.messages.get? m =
        (e.discarded name queue message persist).message? (dlqName name) m) →
      P (dlqName name) (graved dest (e.seq + 1) (buried name message))) :
    Dict.All P (e.moveToDlq name queue message persist).queues := by
  have discarded : Dict.All P (e.discarded name queue message persist).queues := by
    rw [discarded_queues]
    exact others.set left
  rw [moveToDlq_eq]
  split
  · obtain ⟨dest, known⟩ :=
      declareLeaf_known (e.discarded name queue message persist) (dlqName name) {} false
    have declared : Dict.All P
        ((e.discarded name queue message persist).declareLeaf (dlqName name) {} false).queues :=
      all_declareLeaf discarded (by simpa [QueueEngine.discarded, putQueue, makeSpec] using fresh)
    have counter : ((e.discarded name queue message persist).declareLeaf (dlqName name) {} false).seq
        = e.seq := by
      rw [declareLeaf_seq, discarded_seq]
    rw [bury_queues known, counter]
    refine declared.set (bury dest (declared _ _ known) fun m => ?_)
    rw [← message?_of_get known, declareLeaf_observe.1]
  · exact discarded

/-- The moment a message that fails now is available again. -/
def retryDue (e : QueueEngine) (message : Message) : ℚ :=
  e.now.1 + retryDelay message.attempts e.config.retryBackoff e.config.retryBaseDelay

theorem delayRetry_queues : (e.delayRetry name queue message persist).queues =
    e.queues.set name (queue.delay { message with availableAt := some (e.retryDue message) }) := by
  simp [delayRetry, pushDelayed, putQueue, now, retryDue]

theorem delayRetry_frame : (e.delayRetry name queue message persist).byId = e.byId ∧
    (e.delayRetry name queue message persist).visibilityHeap = e.visibilityHeap ∧
    (e.delayRetry name queue message persist).delayed = heappush TimedEntry.le
      ⟨e.retryDue message, e.seq + 1, name, message.id⟩ e.delayed ∧
    (e.delayRetry name queue message persist).config = e.config ∧
    (e.delayRetry name queue message persist).recentAcks = e.recentAcks := by
  simp [delayRetry, pushDelayed, putQueue, now, retryDue]

theorem delayRetry_ops : (e.delayRetry name queue message persist).journal.ops =
    e.journal.ops ++ journaled persist
      (.messageRetry message.id name (e.retryDue message) message.attempts) := by
  simp [delayRetry, pushDelayed, putQueue, now, retryDue]

theorem delayRetry_message? (found : e.queues.get? name = some queue) :
    (e.delayRetry name queue message persist).message? q m =
      if q = name ∧ m = message.id then
        some { message with availableAt := some (e.retryDue message) }
      else e.message? q m := by
  rw [message?_of_set delayRetry_queues]
  by_cases same : q = name
  · subst same
    simp [message?_of_get found, DurableQueue.delay, Dict.get?_set]
  · simp [same]

theorem delayRetry_record? (found : e.queues.get? name = some queue) :
    (e.delayRetry name queue message persist).record? = e.record? := by
  funext q m
  rw [record?_of_set delayRetry_queues]
  split
  · rename_i same; rw [same, record?_of_get found]; rfl
  · rfl

theorem delayRetry_spec? (found : e.queues.get? name = some queue) :
    (e.delayRetry name queue message persist).spec? = e.spec? := by
  funext q
  rw [spec?_of_set delayRetry_queues]
  split
  · rename_i same; rw [same, spec?_of_get found]; rfl
  · rfl

/-! ## The exits of a failed delivery -/

/-- A failure that may be retried uses up one attempt. -/
def failed (message : Message) (requeue : Bool) : Message :=
  { message with attempts := message.attempts + if requeue then 1 else 0 }

/-- How the failure of delivery `id` in queue `name` ends, with `written` the
records journaled before the exit is taken. -/
inductive Exit (e : QueueEngine) (name id : String) (requeue persist : Bool)
    (written : List JournalOp) (e' : QueueEngine) : Prop where
  | gone (absent : e.message? name id = none) (messages : e'.message? = e.message?)
      (specs : e'.spec? = e.spec?) (index : e'.byId = e.byId)
      (journal : e'.journal.ops = e.journal.ops)
  | retried (message : Message) (due : ℚ) (held : e.message? name id = some message)
      (again : requeue = true) (below : message.attempts + 1 < message.maxAttempts)
      (messages : ∀ q m, e'.message? q m = if q = name ∧ m = id then
        some { failed message requeue with availableAt := some due } else e.message? q m)
      (specs : e'.spec? = e.spec?) (index : e'.byId = e.byId)
      (journal : e'.journal.ops =
        e.journal.ops ++ (written ++
          journaled persist (.messageRetry id name due (message.attempts + 1))))
  | moved (message : Message) (spec : QueueSpec) (held : e.message? name id = some message)
      (known : e.spec? name = some spec) (on : spec.deadLetter = true)
      (spent : requeue = true → message.maxAttempts ≤ message.attempts + 1)
      (messages : ∀ q m, e'.message? q m = if q = dlqName name ∧ m = id then
          some (buried name (failed message requeue))
        else if q = name ∧ m = id then none else e.message? q m)
      (specs : ∀ q, e'.spec? q = if q = dlqName name ∧ e.spec? q = none then
        some (e.makeSpec q { deadLetter := false }) else e.spec? q)
      (index : e'.byId = (e.byId.erase id).set id (dlqName name))
      (journal : e'.journal.ops = e.journal.ops ++ (written ++ journaled persist
        (.messageDead id name (failed message requeue).attempts message.payload)))
  | dropped (message : Message) (spec : QueueSpec) (held : e.message? name id = some message)
      (known : e.spec? name = some spec) (off : spec.deadLetter = false)
      (spent : requeue = true → message.maxAttempts ≤ message.attempts + 1)
      (messages : ∀ q m, e'.message? q m = if q = name ∧ m = id then none else e.message? q m)
      (specs : e'.spec? = e.spec?) (index : e'.byId = e.byId.erase id)
      (journal : e'.journal.ops = e.journal.ops ++ (written ++ journaled persist
        (.messageDead id name (failed message requeue).attempts message.payload)))

/-- The decision that `nack` and the two failure loops share. -/
def conclude (e : QueueEngine) (name : String) (queue : DurableQueue) (message : Message)
    (requeue persist : Bool) : QueueEngine :=
  if requeue then e.retryOrDead name queue message persist
  else e.moveToDlq name queue message persist

/-- A failure ends in the DLQ step or in a delay. -/
theorem conclude_cases (e : QueueEngine) (name : String) (queue : DurableQueue) (message : Message)
    (requeue persist : Bool) :
    (requeue = true → message.maxAttempts ≤ message.attempts + 1) ∧
      e.conclude name queue message requeue persist =
        e.moveToDlq name queue (failed message requeue) persist ∨
    requeue = true ∧ message.attempts + 1 < message.maxAttempts ∧
      e.conclude name queue message requeue persist =
        e.delayRetry name queue (failed message requeue) persist := by
  cases requeue with
  | false =>
    have unchanged : failed message false = message := by simp [failed]
    refine .inl ⟨fun again => Bool.noConfusion again, ?_⟩
    rw [unchanged]
    rfl
  | true =>
    have unfolded : e.conclude name queue message true persist =
        if message.maxAttempts ≤ message.attempts + 1 then
          e.moveToDlq name queue (failed message true) persist
        else e.delayRetry name queue (failed message true) persist := rfl
    by_cases spent : message.maxAttempts ≤ message.attempts + 1
    · exact .inl ⟨fun _ => spent, by rw [unfolded, if_pos spent]⟩
    · exact .inr ⟨rfl, by omega, by rw [unfolded, if_neg spent]⟩

private theorem exit_moveToDlq {base : QueueEngine} {written : List JournalOp}
    (requeue persist : Bool)
    (found : e.queues.get? name = some queue) (same : message.id = id)
    (held : base.message? name id = some message) (messages : e.message? = base.message?)
    (specs : e.spec? = base.spec?) (index : e.byId = base.byId) (config : e.config = base.config)
    (journal : e.journal.ops = base.journal.ops ++ written)
    (spent : requeue = true → message.maxAttempts ≤ message.attempts + 1) :
    Exit base name id requeue persist written
      (e.moveToDlq name queue (failed message requeue) persist) := by
  have known : base.spec? name = some queue.spec := by rw [← specs]; exact spec?_of_get found
  have ids : (failed message requeue).id = id := same
  have ops := moveToDlq_ops e name queue (failed message requeue) persist
  rw [journal, ids, List.append_assoc] at ops
  by_cases on : queue.spec.deadLetter = true
  · refine .moved message queue.spec held known on spent ?_ ?_ ?_ ops
    · intro q m
      rw [moveToDlq_message? found, messages, ids]
      simp [on]
    · intro q
      rw [moveToDlq_spec? found, specs]
      have absent : q ∉ (e.putQueue name queue).queues ↔ q ≠ name ∧ base.spec? q = none := by
        rw [← specs]
        simp [putQueue, QueueEngine.spec?, Dict.get?_eq_none]
      by_cases there : q = name
      · subst there; simp [putQueue, known]
      · simp only [absent, there, on, ne_eq, not_false_eq_true, true_and]
        simp only [makeSpec, config]
    · rw [moveToDlq_byId, if_pos on, ids, index]
  · have off : queue.spec.deadLetter = false := by simpa using on
    refine .dropped message queue.spec held known off spent ?_ ?_ ?_ ops
    · intro q m
      rw [moveToDlq_message? found, messages, ids]
      simp [off]
    · funext q
      rw [moveToDlq_spec? found, specs]
      simp [off]
    · rw [moveToDlq_byId, if_neg on, ids, index]

/-- Whatever was journaled before the decision, a failed delivery takes one of the exits. -/
theorem exit_conclude {base : QueueEngine} {written : List JournalOp} (requeue persist : Bool)
    (found : e.queues.get? name = some queue) (same : message.id = id)
    (held : base.message? name id = some message) (messages : e.message? = base.message?)
    (specs : e.spec? = base.spec?) (index : e.byId = base.byId) (config : e.config = base.config)
    (journal : e.journal.ops = base.journal.ops ++ written) :
    Exit base name id requeue persist written (e.conclude name queue message requeue persist) := by
  rcases conclude_cases e name queue message requeue persist with ⟨spent, shape⟩ | ⟨again, below, shape⟩
  · rw [shape]
    exact exit_moveToDlq requeue persist found same held messages specs index config journal spent
  · rw [shape]
    subst again
    refine .retried message (e.retryDue (failed message true)) held rfl below ?_ ?_ ?_ ?_
    · intro q m
      rw [delayRetry_message? found, messages, ← same]
      rfl
    · rw [delayRetry_spec? found, specs]
    · rw [delayRetry_frame.1, index]
    · rw [delayRetry_ops, journal, List.append_assoc, ← same]
      rfl

/-- The record goes first, and then the failure is concluded, unless the
message is no longer there. -/
theorem failDelivery_cases (e : QueueEngine) (name id : String) (persist : Bool) :
    (e.queues.get? name = none ∧ (e.failDelivery name id persist).2 = e) ∨
    (∃ queue, e.queues.get? name = some queue ∧ id ∉ queue.messages ∧
      (e.failDelivery name id persist).2 = e.putQueue name (queue.endDelivery id)) ∨
    ∃ queue message, e.queues.get? name = some queue ∧ queue.messages.get? id = some message ∧
      (e.failDelivery name id persist).2 = (e.putQueue name (queue.endDelivery id)).conclude name
        (queue.endDelivery id) message true persist := by
  unfold failDelivery
  cases found : e.queues.get? name with
  | none => exact .inl ⟨rfl, rfl⟩
  | some queue =>
    have view : (queue.endDelivery id).messages.get? id = queue.messages.get? id := rfl
    dsimp only
    rw [view]
    cases held : queue.messages.get? id with
    | none => exact .inr (.inl ⟨queue, rfl, Dict.get?_eq_none.mp held, rfl⟩)
    | some message => exact .inr (.inr ⟨queue, message, rfl, held, rfl⟩)

theorem conclude_record? {requeue : Bool} (found : e.queues.get? name = some queue) :
    (e.conclude name queue message requeue persist).record? = e.record? := by
  rcases conclude_cases e name queue message requeue persist with ⟨_, shape⟩ | ⟨_, _, shape⟩
  · rw [shape, moveToDlq_record? found]
  · rw [shape, delayRetry_record? found]

theorem conclude_frame {requeue : Bool} :
    (e.conclude name queue message requeue persist).config = e.config ∧
    (e.conclude name queue message requeue persist).visibilityHeap = e.visibilityHeap ∧
    (e.conclude name queue message requeue persist).recentAcks = e.recentAcks := by
  rcases conclude_cases e name queue message requeue persist with ⟨_, shape⟩ | ⟨_, _, shape⟩
  · rw [shape]
    exact ⟨moveToDlq_frame.2.2.1, moveToDlq_frame.1, moveToDlq_frame.2.2.2⟩
  · rw [shape]
    exact ⟨delayRetry_frame.2.2.2.1, delayRetry_frame.2.1, delayRetry_frame.2.2.2.2⟩

/-- Taking the record out of the inflight table touches no message. -/
theorem endDelivery_observe (id : String) (found : e.queues.get? name = some queue)
    (stored : e'.queues = e.queues.set name (queue.endDelivery id)) :
    e'.message? = e.message? ∧ e'.spec? = e.spec? ∧
      ∀ q m, e'.record? q m = if q = name ∧ m = id then none else e.record? q m := by
  refine ⟨?_, ?_, ?_⟩
  · funext q m
    rw [message?_of_set stored]
    split
    · rename_i same; rw [same, message?_of_get found]; rfl
    · rfl
  · funext q
    rw [spec?_of_set stored]
    split
    · rename_i same; rw [same, spec?_of_get found]; rfl
    · rfl
  · intro q m
    rw [record?_of_set stored]
    by_cases same : q = name
    · subst same
      simp [record?_of_get found, DurableQueue.endDelivery, Dict.get?_erase]
    · simp [same]

theorem failDelivery_exit (named : e.Named) :
    Exit e name id true persist [] (e.failDelivery name id persist).2 := by
  rcases failDelivery_cases e name id persist with ⟨absent, shape⟩ | ⟨queue, found, absent, shape⟩ |
    ⟨queue, message, found, held, shape⟩
  · rw [shape]
    exact .gone (by simp [message?, absent]) rfl rfl rfl rfl
  · obtain ⟨messages, specs, _⟩ := endDelivery_observe id found
      (show (e.putQueue name (queue.endDelivery id)).queues = _ from rfl)
    rw [shape]
    exact .gone (by rw [message?_of_get found]; exact Dict.get?_eq_none.mpr absent) messages specs
      rfl rfl
  · obtain ⟨messages, specs, _⟩ := endDelivery_observe id found
      (show (e.putQueue name (queue.endDelivery id)).queues = _ from rfl)
    have heldHere : e.message? name id = some message := by
      rw [message?_of_get found]; exact held
    rw [shape]
    exact exit_conclude true persist (e := e.putQueue name (queue.endDelivery id)) Dict.get?_set_self
      (named.filed heldHere).1 heldHere messages specs rfl rfl (List.append_nil _).symm

theorem failDelivery_record? : (e.failDelivery name id persist).2.record? q m =
    if q = name ∧ m = id then none else e.record? q m := by
  rcases failDelivery_cases e name id persist with ⟨absent, shape⟩ | ⟨queue, found, _, shape⟩ |
    ⟨queue, message, found, _, shape⟩
  · rw [shape]
    by_cases same : q = name
    · subst same; simp [record?, absent]
    · simp [same]
  · obtain ⟨_, _, records⟩ := endDelivery_observe id found
      (show (e.putQueue name (queue.endDelivery id)).queues = _ from rfl)
    rw [shape, records]
  · obtain ⟨_, _, records⟩ := endDelivery_observe id found
      (show (e.putQueue name (queue.endDelivery id)).queues = _ from rfl)
    rw [shape, conclude_record? Dict.get?_set_self, records]

theorem failDelivery_frame : (e.failDelivery name id persist).2.config = e.config ∧
    (e.failDelivery name id persist).2.visibilityHeap = e.visibilityHeap ∧
    (e.failDelivery name id persist).2.recentAcks = e.recentAcks := by
  rcases failDelivery_cases e name id persist with ⟨_, shape⟩ | ⟨queue, _, _, shape⟩ |
    ⟨queue, message, _, _, shape⟩
  · rw [shape]
    exact ⟨rfl, rfl, rfl⟩
  · rw [shape]
    exact ⟨rfl, rfl, rfl⟩
  · rw [shape]
    exact conclude_frame

/-- A nack that returned OK. -/
structure Nacks (e : QueueEngine) (id : String) (requeue persist : Bool) (name : String)
    (queue : DurableQueue) (message : Message) : Prop where
  indexed : e.byId.get? id = some name
  found : e.queues.get? name = some queue
  inflight : id ∈ queue.inflight
  held : queue.messages.get? id = some message
  result : (e.nack id requeue persist).1 = .ok

/-- A nack that is refused changes nothing, unless the index is wrong about
the queue, when it drops the stray record. -/
theorem nack_cases (e : QueueEngine) (id : String) (requeue persist : Bool) :
    (∃ name queue message, e.Nacks id requeue persist name queue message) ∨
    (e.nack id requeue persist).1 ≠ .ok ∧ ((e.nack id requeue persist).2 = e ∨
      ∃ name queue, e.byId.get? id = some name ∧ e.queues.get? name = some queue ∧
        id ∉ queue.messages ∧
        (e.nack id requeue persist).2 = e.putQueue name (queue.endDelivery id)) := by
  cases indexed : e.byId.get? id with
  | none =>
    refine .inr ⟨?_, .inl ?_⟩
    · simp only [nack, indexed]
      split <;> simp
    · simp [nack, indexed]
  | some name =>
    cases found : e.queues.get? name with
    | none => exact .inr ⟨by simp [nack, indexed, found], .inl (by simp [nack, indexed, found])⟩
    | some queue =>
      by_cases inflight : id ∈ queue.inflight
      · cases held : queue.messages.get? id with
        | none =>
          have view : (queue.endDelivery id).messages.get? id = none := held
          refine .inr ⟨?_, .inr ⟨name, queue, rfl, found, Dict.get?_eq_none.mp held, ?_⟩⟩ <;>
            simp [nack, indexed, found, inflight, view]
        | some message =>
          have view : (queue.endDelivery id).messages.get? id = some message := held
          exact .inl ⟨name, queue, message, indexed, found, inflight, held, by
            simp [nack, indexed, found, inflight, view]⟩
      · exact .inr ⟨by simp [nack, indexed, found, inflight],
          .inl (by simp [nack, indexed, found, inflight])⟩

section Nacked

variable {requeue : Bool}

/-- The engine of a nack just before it decides between retry and DLQ. -/
def nacked (e : QueueEngine) (id : String) (requeue persist : Bool) (name : String)
    (queue : DurableQueue) : QueueEngine :=
  (e.putQueue name (queue.endDelivery id).countNack).append persist (.messageNack id name requeue)

theorem Nacks.shape (nacks : e.Nacks id requeue persist name queue message) :
    (e.nack id requeue persist).2 = (e.nacked id requeue persist name queue).conclude name
      (queue.endDelivery id).countNack message requeue persist := by
  have view : (queue.endDelivery id).messages.get? id = some message := nacks.held
  simp [nack, nacks.indexed, nacks.found, nacks.inflight, view, nacked, conclude]

theorem nacked_queues : (e.nacked id requeue persist name queue).queues =
    e.queues.set name (queue.endDelivery id).countNack := by
  simp [nacked, putQueue]

theorem Nacks.observe (nacks : e.Nacks id requeue persist name queue message) :
    (e.nacked id requeue persist name queue).message? = e.message? ∧
    (e.nacked id requeue persist name queue).spec? = e.spec? ∧
    ∀ q m, (e.nacked id requeue persist name queue).record? q m =
      if q = name ∧ m = id then none else e.record? q m := by
  obtain ⟨_, _, records⟩ := endDelivery_observe id nacks.found
    (show (e.putQueue name (queue.endDelivery id)).queues = _ from rfl)
  refine ⟨?_, ?_, ?_⟩
  · funext q m
    rw [message?_of_set nacked_queues]
    split
    · rename_i same; rw [same, message?_of_get nacks.found]; rfl
    · rfl
  · funext q
    rw [spec?_of_set nacked_queues]
    split
    · rename_i same; rw [same, spec?_of_get nacks.found]; rfl
    · rfl
  · intro q m
    have stored : (e.putQueue name (queue.endDelivery id)).queues = _ := rfl
    rw [record?_of_set nacked_queues, ← records q m, record?_of_set stored]
    rfl

theorem Nacks.exit (nacks : e.Nacks id requeue persist name queue message) (named : e.Named) :
    Exit e name id requeue persist (journaled persist (.messageNack id name requeue))
      (e.nack id requeue persist).2 := by
  obtain ⟨messages, specs, _⟩ := nacks.observe
  have heldHere : e.message? name id = some message := by
    rw [message?_of_get nacks.found]; exact nacks.held
  have known : (e.nacked id requeue persist name queue).queues.get? name =
      some (queue.endDelivery id).countNack := by
    simp [nacked, putQueue]
  have journal : (e.nacked id requeue persist name queue).journal.ops =
      e.journal.ops ++ journaled persist (.messageNack id name requeue) := by
    simp [nacked, putQueue]
  have exit := exit_conclude requeue persist known (named.filed heldHere).1 heldHere messages specs
    (by simp [nacked, putQueue]) (by simp [nacked, putQueue]) journal
  rw [nacks.shape]
  exact exit

theorem Nacks.record? (nacks : e.Nacks id requeue persist name queue message) :
    (e.nack id requeue persist).2.record? q m =
      if q = name ∧ m = id then none else e.record? q m := by
  have known : (e.nacked id requeue persist name queue).queues.get? name =
      some (queue.endDelivery id).countNack := by
    simp [nacked, putQueue]
  rw [nacks.shape, ← nacks.observe.2.2 q m, conclude_record? known]

end Nacked

end OneOpenBroker.Core.QueueEngine

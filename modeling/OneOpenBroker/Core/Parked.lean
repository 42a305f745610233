import OneOpenBroker.Core.AckWindow
import OneOpenBroker.Core.Overflow
import OneOpenBroker.Core.Timeouts

/-! Where retries that overflow come from. A message gains attempts only by
failing, and then it waits for a tick. So as long as every message that a tick
finds could be retried, one whose next retry overflows stays on delay and is
never delivered, and no operation raises. -/
namespace OneOpenBroker.Core.QueueEngine
open Collections Systems

/-- Each message that the engine holds may fail once more without an overflow. -/
def Retriable (e : QueueEngine) : Prop :=
  ∀ q m message, e.message? q m = some message → ¬ Overflows e.config message

/-- A message whose next retry overflows is on delay, and not under way. -/
def Rests (config : EngineConfig) (queue : DurableQueue) : Prop :=
  ∀ m message, queue.messages.get? m = some message → Overflows config message →
    m ∈ queue.delayedIds ∧ m ∉ queue.inflight

/-- No message whose next retry overflows can be delivered. -/
def Parked (config : EngineConfig) (e : QueueEngine) : Prop :=
  Dict.All (fun _ queue => Rests config queue) e.queues

variable {e : QueueEngine} {config : EngineConfig} {name id queueName consumerId : String}
  {queue queue' : DurableQueue} {message : Message} {persist requeue : Bool} {now : Option ℚ}

theorem retriable_iff : Retriable e ↔ (e.queues.entries.all fun entry =>
    entry.2.messages.entries.all fun held => !decide (Overflows e.config held.2)) = true := by
  simp only [List.all_eq_true, Bool.not_eq_true', decide_eq_false_iff_not]
  constructor
  · rintro retriable ⟨q, queue⟩ listed ⟨m, message⟩ held
    exact retriable q m message (message?_some.mpr
      ⟨queue, Dict.get?_eq_some.mpr listed, Dict.get?_eq_some.mpr held⟩)
  · intro all q m message held
    obtain ⟨queue, found, there⟩ := message?_some.mp held
    exact all (q, queue) (Dict.get?_eq_some.mp found) (m, message) (Dict.get?_eq_some.mp there)

instance (e : QueueEngine) : Decidable (Retriable e) := decidable_of_iff' _ retriable_iff

theorem Retriable.parked (retriable : Retriable e) : Parked e.config e :=
  fun q queue found m message held overflows =>
    absurd overflows (retriable q m message (message?_some.mpr ⟨queue, found, held⟩))

/-- A message under way may fail without an overflow. -/
theorem Parked.clear (parked : Parked e.config e) (kind : String → InflightRecord → Prop) :
    Clear kind e := by
  intro q m record message there _ held overflows
  obtain ⟨queue, found, flying⟩ := record?_some.mp there
  have inside : queue.messages.get? m = some message := message?_of_get found ▸ held
  exact (parked q queue found m message inside overflows).2 (Dict.mem_of_get? flying)

/-- No operation raises. -/
theorem Parked.hasDelays (parked : Parked e.config e) (op : EngineOp) : HasDelays e op :=
  parked.clear _

/-! ## Updates of one queue -/

theorem Rests.fresh {spec : QueueSpec} {stats : QueueStats} : Rests config { spec, stats } :=
  fun _ _ held => by simp at held

theorem Rests.fewer (rests : Rests config queue)
    (messages : ∀ m message, queue'.messages.get? m = some message →
      queue.messages.get? m = some message)
    (delayed : ∀ m ∈ queue.delayedIds, m ∈ queue'.delayedIds)
    (inflight : ∀ m ∈ queue'.inflight, m ∈ queue.inflight) : Rests config queue' := by
  intro m message held overflows
  obtain ⟨asleep, idle⟩ := rests m message (messages m message held) overflows
  exact ⟨delayed m asleep, fun flying => idle (inflight m flying)⟩

/-- A message is stored that may fail. -/
theorem Rests.store (rests : Rests config queue) (fine : ¬ Overflows config message)
    (messages : queue'.messages = queue.messages.set id message)
    (delayed : ∀ m ∈ queue.delayedIds, m ∈ queue'.delayedIds)
    (inflight : ∀ m ∈ queue'.inflight, m ∈ queue.inflight) : Rests config queue' := by
  intro m other held overflows
  rw [messages, Dict.get?_set] at held
  split at held
  · obtain rfl := Option.some.inj held
    exact absurd overflows fine
  · obtain ⟨asleep, idle⟩ := rests m other held overflows
    exact ⟨delayed m asleep, fun flying => idle (inflight m flying)⟩

theorem Rests.erase (rests : Rests config queue) (messages : queue'.messages = queue.messages.erase id)
    (delayed : queue'.delayedIds = queue.delayedIds)
    (inflight : ∀ m ∈ queue'.inflight, m ∈ queue.inflight) : Rests config queue' := by
  refine rests.fewer (fun m message held => ?_) (fun m asleep => delayed ▸ asleep) inflight
  rw [messages, Dict.get?_erase] at held
  split at held
  · cases held
  · exact held

theorem Rests.endDelivery (rests : Rests config queue) (id : String) :
    Rests config (queue.endDelivery id) :=
  rests.fewer (fun _ _ held => held) (fun _ asleep => asleep)
    fun _ flying => (Dict.mem_erase.mp flying).2

/-- A message that has failed waits, and its delivery has ended. -/
theorem Rests.delay (rests : Rests config queue) (message : Message) (ended : message.id ∉ queue.inflight) :
    Rests config (queue.delay message) := by
  intro m other held overflows
  by_cases here : m = message.id
  · subst here
    exact ⟨Finset.mem_insert_self _ _, ended⟩
  · have before : queue.messages.get? m = some other := by
      rwa [DurableQueue.delay, Dict.get?_set, if_neg here] at held
    obtain ⟨asleep, idle⟩ := rests m other before overflows
    exact ⟨Finset.mem_insert_of_mem asleep, idle⟩

theorem Rests.accepted {seq : Nat} (rests : Rests config queue) (fine : ¬ Overflows config message) :
    Rests config (accepted queue seq message) :=
  rests.store fine accepted_messages (fun _ asleep => by
    unfold QueueEngine.accepted
    split
    · exact Finset.mem_insert_of_mem asleep
    · exact asleep) fun m flying => by rwa [accepted_inflight] at flying

/-- No message without attempts overflows. -/
theorem fine_of_none (none : message.attempts = 0) : ¬ Overflows config message := by
  rintro ⟨_, _, many⟩
  omega

/-- A message that may fail may be buried when it does. -/
theorem buried_fine (fine : ¬ Overflows config message)
    (spent : requeue = true → message.maxAttempts ≤ message.attempts + 1) :
    ¬ Overflows config (buried name (failed message requeue)) := by
  cases requeue with
  | false => exact fun overflows => fine (by simpa [Overflows, buried, failed] using overflows)
  | true =>
    rintro ⟨more, _⟩
    have last := spent rfl
    change message.attempts + 1 + 1 < message.maxAttempts at more
    omega

/-! ## Operations -/

theorem conclude_parked (others : Dict.AllBut name (fun _ queue => Rests config queue) e.queues)
    (left : Rests config queue) (ended : message.id ∉ queue.inflight)
    (fine : ¬ Overflows config message) :
    Parked config (e.conclude name queue message requeue persist) := by
  have ids : (failed message requeue).id = message.id := rfl
  rcases conclude_cases e name queue message requeue persist with ⟨spent, shape⟩ | ⟨_, _, shape⟩
  · rw [shape]
    refine all_moveToDlq others ?_ Rests.fresh fun dest rests _ => ?_
    · exact left.erase rfl rfl fun _ flying => flying
    · exact rests.store (buried_fine fine spent) rfl (fun _ asleep => asleep) fun _ flying => flying
  · rw [shape]
    unfold Parked
    rw [delayRetry_queues]
    exact others.set (left.delay _ (ids ▸ ended))

theorem endDelivery_ended (queue : DurableQueue) (id : String) :
    id ∉ (queue.endDelivery id).inflight := fun flying => (Dict.mem_erase.mp flying).1 rfl

theorem failDelivery_parked {record : InflightRecord} (named : e.Named) (parked : Parked config e)
    (there : e.record? name id = some record) :
    Parked config (e.failDelivery name id persist).2 := by
  obtain ⟨queue, found, flying⟩ := record?_some.mp there
  have ended := (parked name queue found).endDelivery id
  rcases failDelivery_cases e name id persist with ⟨absent, _⟩ | ⟨queue', found', _, shape⟩ |
    ⟨queue', message, found', held, shape⟩
  · rw [absent] at found
    cases found
  · obtain rfl := Option.some.inj (found.symm.trans found')
    rw [shape]
    exact Dict.All.set parked ended
  · obtain rfl := Option.some.inj (found.symm.trans found')
    obtain rfl := ((named name queue found).messages id message held).1
    rw [shape]
    exact conclude_parked parked.but.stored ended (endDelivery_ended queue _) fun overflows =>
      (parked name queue found _ message held overflows).2 (Dict.mem_of_get? flying)

theorem nack_parked (named : e.Named) (parked : Parked config e) :
    Parked config (e.nack id requeue persist).2 := by
  rcases nack_cases e id requeue persist with ⟨name, queue, message, nacks⟩ |
    ⟨_, same | ⟨name, queue, _, found, _, shape⟩⟩
  · have rests := parked name queue nacks.found
    have counted : Rests config (queue.endDelivery id).countNack := rests.endDelivery id
    obtain rfl := ((named name queue nacks.found).messages id message nacks.held).1
    have others : Dict.AllBut name (fun _ queue => Rests config queue)
        (e.nacked message.id requeue persist name queue).queues := by
      rw [nacked_queues]
      exact parked.but.stored
    rw [nacks.shape]
    exact conclude_parked others counted (endDelivery_ended queue _) fun overflows =>
      (rests _ message nacks.held overflows).2 nacks.inflight
  · rw [same]
    exact parked
  · rw [shape]
    exact Dict.All.set parked ((parked name queue found).endDelivery id)

theorem enqueue_parked (fine : ¬ Overflows config message) (parked : Parked config e) :
    Parked config (e.enqueue message persist).2 := by
  rcases enqueue_cases e message persist with ⟨queue, accepts⟩ | ⟨_, same⟩
  · obtain ⟨due, shape⟩ := dueMessage_eq message e.now.1
    have kept : ¬ Overflows config (dueMessage message e.now.1) := by
      rw [shape]
      exact fine
    unfold Parked
    rw [accepts.queues]
    exact Dict.All.set parked ((parked _ queue accepts.1).accepted kept)
  · rw [same]
    exact parked

theorem reserve_parked (parked : Parked config e) :
    Parked config (e.reserve queueName consumerId).2 := by
  rcases reserve_cases e queueName consumerId with ⟨queue, id, message, rest, reserves⟩ |
    ⟨_, ⟨same, _⟩ | ⟨queue, found, _, shape⟩⟩
  · have rests := parked queueName queue reserves.found
    obtain ⟨_, _, awake, _⟩ := popDeliverable_some reserves.popped
    unfold Parked
    rw [reserves.queues]
    refine Dict.All.set parked fun m message held overflows => ?_
    obtain ⟨asleep, idle⟩ := rests m message held overflows
    refine ⟨asleep, fun flying => ?_⟩
    rcases Dict.mem_set.mp flying with same | before
    · have here : m = id := same
      exact awake (here ▸ asleep)
    · exact idle before
  · rw [same]
    exact parked
  · rw [shape]
    exact Dict.All.set parked (parked queueName queue found)

theorem ack_parked (parked : Parked config e) : Parked config (e.ack id persist).2 := by
  rcases ack_cases e id persist with ⟨name, queue, settles⟩ | ⟨_, same⟩
  · unfold Parked
    rw [settles.queues]
    exact Dict.All.set parked ((parked name queue settles.found).erase rfl rfl
      fun _ flying => (Dict.mem_erase.mp flying).2)
  · rw [same]
    exact parked

/-- A message that is requeued starts again, in its origin queue or in the DLQ. -/
theorem dlqRequeue_parked (parked : Parked config e) :
    Parked config (e.dlqRequeue queueName id persist).2 := by
  rcases dlqRequeue_cases e queueName id persist with nothing | ⟨dlq, message, draws⟩
  · rw [nothing]
    exact parked
  have rests := parked _ dlq draws.source
  have drawn : Rests config (dlq.withdraw id) := rests.erase rfl rfl fun _ flying => flying
  have taken : Parked config (e.withdrawn queueName id dlq) := Dict.All.set parked drawn
  rcases draws.result persist with ⟨dest, _, shape⟩ | ⟨_, shape⟩
  · have placed : Parked config ((e.withdrawn queueName id dlq).enqueue
        (requeued queueName message) false).2 := enqueue_parked (fine_of_none rfl) taken
    rw [shape]
    unfold Parked
    rw [append_queues]
    exact placed
  · have fine : ¬ Overflows config (returned queueName message) := fine_of_none rfl
    rw [shape]
    unfold Parked
    rw [putBack_queues]
    exact Dict.All.set taken (drawn.store fine rfl (fun _ asleep => asleep) fun _ flying => flying)

/-- Waking a message changes its moment only. -/
theorem releaseOne_retriable (retriable : Retriable e) : Retriable (e.releaseOne name id).2 := by
  obtain ⟨messages, _, _, _, _, config⟩ := releaseOne_observe e name id
  intro q m message held overflows
  have same := messages q m
  rw [held, Option.map_some] at same
  obtain ⟨before, there, shape⟩ := Option.map_eq_some_iff.mp same.symm
  have attempts : (strip before).attempts = (strip message).attempts := by rw [shape]
  have most : (strip before).maxAttempts = (strip message).maxAttempts := by rw [shape]
  change before.attempts = message.attempts at attempts
  change before.maxAttempts = message.maxAttempts at most
  apply retriable q m before there
  rwa [Overflows, attempts, most, ← config]

/-- A tick that finds only messages that may fail leaves none that overflows
outside the delayed ids. -/
theorem tick_parked (named : e.Named) (retriable : Retriable e) : Parked e.config (e.tick now).2 := by
  obtain ⟨reads, shape⟩ := tick_sweeps e now
  have released : ({ e with reads }.releaseDelayed (e.tickTime now)).2.Named ∧
      Retriable ({ e with reads }.releaseDelayed (e.tickTime now)).2 ∧
      ({ e with reads }.releaseDelayed (e.tickTime now)).2.config = e.config :=
    releaseAll_preserves (I := fun e' => e'.Named ∧ Retriable e' ∧ e'.config = e.config)
      (fun e' name id inv => ⟨releaseOne_named inv.1, releaseOne_retriable inv.2.1,
        (releaseOne_observe e' name id).2.2.2.2.2.trans inv.2.2⟩) ⟨named, retriable, rfl⟩
  obtain ⟨order, fine, same⟩ := released
  have parked := fine.parked
  rw [same] at parked
  have swept : (e.tick now).2.Named ∧ Parked e.config (e.tick now).2 := by
    rw [shape]
    exact timeoutEntries_preserves (I := fun e' => e'.Named ∧ Parked e.config e')
      (fun _ _ _ _ inv there _ => ⟨failDelivery_named inv.1, failDelivery_parked inv.1 inv.2 there⟩)
      (fun _ _ inv => inv) ⟨order, parked⟩
  exact swept.2

/-- An operation that publishes only messages that may fail, and a tick that
finds only such messages. -/
def Unspent (e : QueueEngine) : EngineOp → Prop
  | .enqueue message => ¬ Overflows e.config message
  | .tick _ => Retriable e
  | _ => True

theorem step_parked {op : EngineOp} (named : e.Named) (parked : Parked e.config e) (ok : Unspent e op) :
    Parked e.config (e.step persist op) := by
  cases op with
  | declareQueue name args => exact all_declareQueue parked fun _ _ => Rests.fresh
  | deleteQueue name => exact all_deleteQueue parked
  | enqueue message => exact enqueue_parked ok parked
  | reserve queueName consumerId => exact reserve_parked parked
  | ack messageId => exact ack_parked parked
  | nack messageId requeue => exact nack_parked named parked
  | recoverConsumer consumerId =>
    have swept : (e.recoverConsumer consumerId persist).2.Named ∧
        Parked e.config (e.recoverConsumer consumerId persist).2 :=
      recoverConsumer_preserves (I := fun e' => e'.Named ∧ Parked e.config e') (fun _ inv => inv.1)
        (fun _ _ _ _ inv there _ => ⟨failDelivery_named inv.1, failDelivery_parked inv.1 inv.2 there⟩)
        ⟨named, parked⟩
    exact swept.2
  | tick now => exact tick_parked named ok
  | dlqRequeue queueName messageId => exact dlqRequeue_parked parked

/-- No operation changes the configuration. -/
theorem step_config (named : e.Named) (op : EngineOp) : (e.step persist op).config = e.config := by
  have memory : settledIds persist e op = [] ∧ SameMemory e (e.step persist op) ∨ _ := step_memory named op
  rcases memory with ⟨_, same⟩ | ⟨_, _, _, same, _⟩
  · exact same.config
  · exact same

end OneOpenBroker.Core.QueueEngine

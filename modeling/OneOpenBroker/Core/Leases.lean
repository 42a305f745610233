import OneOpenBroker.Core.Placement

/-! The lease of a delivery. A message that was delivered belongs to its consumer
until the delivery is answered, its visibility deadline passes, the consumer is
recovered or the queue is deleted; whatever else happens to the engine, the
record stays as it is and no other reserve returns the message. -/
namespace OneOpenBroker.Core.QueueEngine
open Collections Systems

/-- The operation does none of the things that end the delivery of message `m`
of queue `q`, and keeps placement exclusive. -/
def Spares (record : InflightRecord) (q m : String) (e : QueueEngine) : EngineOp → Prop
  | .ack messageId | .nack messageId _ => messageId ≠ m
  | .recoverConsumer consumerId => consumerId ≠ record.consumerId
  | .tick now => e.tickTime now < record.visibilityDeadline
  | .deleteQueue name => ¬ e.Deletes name q
  | .enqueue message => ¬ e.Held message.id
  | .dlqRequeue queueName messageId => e.Settled queueName messageId
  | .declareQueue .. | .reserve .. => True

instance (e : QueueEngine) (name q : String) : Decidable (e.Deletes name q) :=
  decidable_of_iff (q = name ∨ q = dlqName name ∧ (e.spec? name).any (·.deadLetter) = true) (by
    simp [Deletes, Option.any_eq_true])

instance (record : InflightRecord) (q m : String) : DecidableRel (Spares record q m) := fun e op =>
  match op with
  | .ack messageId | .nack messageId _ => inferInstanceAs (Decidable (messageId ≠ m))
  | .recoverConsumer consumerId => inferInstanceAs (Decidable (consumerId ≠ record.consumerId))
  | .tick now => inferInstanceAs (Decidable (e.tickTime now < record.visibilityDeadline))
  | .deleteQueue name => inferInstanceAs (Decidable (¬ e.Deletes name q))
  | .enqueue message => inferInstanceAs (Decidable (¬ e.Held message.id))
  | .dlqRequeue queueName messageId => inferInstanceAs (Decidable (e.Settled queueName messageId))
  | .declareQueue .. | .reserve .. => inferInstanceAs (Decidable True)

/-- The queue has the delivery outstanding, and holds its message. -/
structure Leased (record : InflightRecord) (q m : String) (message : Message) (e : QueueEngine) :
    Prop where
  sound : e.Sound
  flying : e.record? q m = some record
  held : e.message? q m = some message

variable {e e' : QueueEngine} {q m name id : String} {message msg : Message}
  {record other : InflightRecord} {persist requeue : Bool} {written : List JournalOp}

theorem Sound.leased (sound : e.Sound) (flying : e.record? q m = some record) :
    ∃ message, Leased record q m message e := by
  obtain ⟨queue, found, inflight⟩ := record?_some.mp flying
  obtain ⟨message, held⟩ := Dict.mem_iff.mp (sound.carried found (Dict.mem_of_get? inflight))
  exact ⟨message, sound, flying, (message?_of_get found).trans held⟩

/-- A held message of that id is the one that is out. -/
theorem Leased.lone (leased : Leased record q m message e) (held : e.message? name m = some msg) :
    name = q := by
  by_contra differ
  rw [leased.sound.indexed.lone leased.held differ] at held
  cases held

theorem Leased.change (leased : Leased record q m message e) (sound : e'.Sound)
    (records : e'.record? q m = e.record? q m) (messages : e'.message? q m = e.message? q m) :
    Leased record q m message e' :=
  ⟨sound, records.trans leased.flying, messages.trans leased.held⟩

/-! ## One step -/

/-- The failure of another delivery. -/
theorem Leased.exit (leased : Leased record q m message e) (sound : e'.Sound)
    (exit : Exit e name id requeue persist written e') (apart : ¬ (q = name ∧ m = id))
    (records : ∀ q m, e'.record? q m = if q = name ∧ m = id then none else e.record? q m) :
    Leased record q m message e' := by
  refine leased.change sound (by rw [records, if_neg apart]) ?_
  cases exit with
  | gone _ messages => rw [messages]
  | retried _ _ _ _ _ messages => rw [messages, if_neg apart]
  | moved msg spec held known on _ messages =>
    rw [messages, if_neg apart, if_neg]
    rintro ⟨rfl, rfl⟩
    have same := leased.lone held
    exact dlqName_ne (leased.sound.named.plain known on) same.symm
  | dropped _ _ _ _ _ _ messages => rw [messages, if_neg apart]

theorem Leased.fail (leased : Leased record q m message e) (flying : e.record? name id = some other)
    (differ : other ≠ record) : Leased record q m message (e.failDelivery name id persist).2 := by
  refine leased.exit (failDelivery_sound leased.sound flying)
    (failDelivery_exit leased.sound.named) ?_ fun _ _ => failDelivery_record?
  rintro ⟨rfl, rfl⟩
  exact differ (Option.some.inj (flying.symm.trans leased.flying))

theorem Leased.release (leased : Leased record q m message e) :
    Leased record q m message (e.releaseOne name id).2 := by
  obtain ⟨_, records, _⟩ := releaseOne_observe e name id
  refine leased.change (releaseOne_sound leased.sound) (by rw [records]) ?_
  rcases releaseOne_cases e name id with ⟨_, same⟩ | ⟨queue, found, _, _, shape⟩ |
    ⟨queue, msg, found, _, _, idle, shape⟩
  · rw [same]
  · rw [shape, message?_of_set (e := e) rfl]
    split
    · rename_i here
      rw [here, message?_of_get found]
    · rfl
  · rw [shape, message?_of_set (e := e) rfl]
    split
    · rename_i here
      have differ : m ≠ id := by
        rintro rfl
        have flying := leased.flying
        rw [here, record?_of_get found, Dict.get?_eq_none.mpr idle] at flying
        cases flying
      rw [here, message?_of_get found]
      simp [DurableQueue.pushReady, differ]
    · rfl

/-- A reserve returns another message. -/
theorem Leased.reserved {queueName consumerId : String} (leased : Leased record q m message e)
    (result : (e.reserve queueName consumerId).1 = some msg) : msg.id ≠ m := by
  rcases reserve_cases e queueName consumerId with ⟨queue, id, msg', rest, reserves⟩ | ⟨nothing, _⟩
  · obtain ⟨held, idle, _⟩ := popDeliverable_some reserves.popped
    obtain rfl := Option.some.inj (result.symm.trans reserves.result)
    have there : e.message? queueName id = some msg := (message?_of_get reserves.found).trans held
    rw [(leased.sound.named.filed there).1]
    rintro rfl
    have flying := leased.flying
    rw [← leased.lone there, record?_of_get reserves.found, Dict.get?_eq_none.mpr idle] at flying
    cases flying
  · rw [nothing] at result
    cases result

theorem Leased.reserve {queueName consumerId : String} (leased : Leased record q m message e) :
    Leased record q m message (e.reserve queueName consumerId).2 := by
  refine leased.change (reserve_sound leased.sound) ?_ (by rw [reserve_message?])
  rcases reserve_cases e queueName consumerId with ⟨queue, id, msg, rest, reserves⟩ | ⟨nothing, _⟩
  · obtain ⟨held, _⟩ := popDeliverable_some reserves.popped
    have filed : msg.id = id := (leased.sound.named.filed
      ((message?_of_get reserves.found).trans held)).1
    have differ := leased.reserved reserves.result
    rw [reserves.record?, if_neg fun same => differ (filed.trans same.2.symm)]
  · rw [reserve_none_record? nothing]

theorem Leased.requeues {queueName : String} (leased : Leased record q m message e)
    (settled : e.Settled queueName id) :
    Leased record q m message (e.dlqRequeue queueName id persist).2 := by
  have sound : (e.dlqRequeue queueName id persist).2.Sound := dlqRequeue_sound leased.sound settled
  have requeue := dlqRequeue_requeue leased.sound.named queueName id persist
  rcases dlqRequeue_cases e queueName id persist with nothing | ⟨dlq, msg, draws⟩
  · rw [nothing]
    exact leased
  · have differ : m ≠ id := by
      rintro rfl
      have flying := leased.flying
      rw [← leased.lone draws.heldThere, record?_of_get draws.source,
        Dict.get?_eq_none.mpr (settled dlq msg draws).1] at flying
      cases flying
    generalize (e.dlqRequeue queueName id persist).1 = result at requeue
    generalize (e.dlqRequeue queueName id persist).2 = e' at requeue sound ⊢
    cases requeue with
    | missing => exact leased
    | moved _ _ _ messages records =>
      refine leased.change sound (by rw [records]) ?_
      rw [messages, if_neg fun same => differ same.2, if_neg fun same => differ same.2]
    | refused _ _ _ messages records =>
      refine leased.change sound (by rw [records]) ?_
      rw [messages, if_neg fun same => differ same.2]

theorem Spares.ready {op : EngineOp} (spares : Spares record q m e op) : ReadyRequeues e op := by
  cases op with
  | enqueue message => exact spares
  | dlqRequeue queueName messageId => exact spares
  | _ => trivial

theorem Leased.next {op : EngineOp} (leased : Leased record q m message e)
    (spares : Spares record q m e op) : Leased record q m message (e.step persist op) := by
  have sound : (e.step persist op).Sound := step_sound leased.sound op spares.ready
  cases op with
  | declareQueue name args =>
    exact leased.change sound (congrFun₂ declareQueue_observe.2 q m)
      (congrFun₂ declareQueue_observe.1 q m)
  | deleteQueue name =>
    classical
    exact leased.change sound (deleteQueue_record?.trans (if_neg spares))
      (deleteQueue_message?.trans (if_neg spares))
  | enqueue message' =>
    rcases enqueue_cases e message' persist with ⟨queue, accepts⟩ | ⟨_, same⟩
    · refine leased.change sound (congrFun₂ accepts.record? q m) (accepts.message?.trans (if_neg ?_))
      rintro ⟨_, rfl⟩
      exact spares ⟨q, message, leased.held⟩
    · exact (congrArg (Leased record q m message) same).mpr leased
  | reserve queueName consumerId => exact leased.reserve
  | ack messageId =>
    rcases ack_cases e messageId persist with ⟨name, queue, settles⟩ | ⟨_, same⟩
    · exact leased.change sound (settles.record?.trans (if_neg fun same => spares same.2.symm))
        (settles.message?.trans (if_neg fun same => spares same.2.symm))
    · exact (congrArg (Leased record q m message) same).mpr leased
  | nack messageId requeue =>
    rcases nack_cases e messageId requeue persist with ⟨name, queue, msg, nacks⟩ |
      ⟨_, same | ⟨name, queue, indexed, found, gone, _⟩⟩
    · exact leased.exit sound (nacks.exit leased.sound.named) (fun same => spares same.2.symm)
        fun _ _ => nacks.record?
    · exact (congrArg (Leased record q m message) same).mpr leased
    · obtain ⟨msg, held⟩ := leased.sound.indexed.held name messageId indexed
      rw [message?_of_get found] at held
      exact absurd (Dict.mem_of_get? held) gone
  | recoverConsumer consumerId =>
    exact recoverConsumer_preserves (fun _ leased => leased.sound.named)
      (fun _ _ _ other leased flying mine => leased.fail flying fun same => spares (same ▸ mine.symm))
      leased
  | tick now =>
    exact tick_preserves (fun _ _ _ leased => leased.release)
      (fun _ _ _ other leased flying due => leased.fail flying fun same =>
        absurd (same ▸ due) (not_le.mpr spares))
      (fun _ _ _ _ leased =>
        ⟨⟨⟨leased.sound.named, leased.sound.indexed.filed, leased.sound.indexed.held⟩,
          leased.sound.balanced⟩, leased.flying, leased.held⟩)
      leased
  | dlqRequeue queueName messageId => exact leased.requeues spares

/-! ## Runs -/

/-- **Exclusive delivery.** After a message was delivered, and as long as it is
not answered, its deadline has not passed, its consumer is not recovered and
its queue is not deleted, no reserve on any queue returns it, and the record
and the message are as they were. -/
theorem lease_kept (reached : Reachable ReadyRequeues e) (flying : e.record? q m = some record)
    {ops : List EngineOp} (spared : Allowed (step persist) (Spares record q m) e ops) :
    (run (step persist) e ops).record? q m = some record ∧
    (run (step persist) e ops).message? q m = e.message? q m ∧
    ∀ before queueName consumerId message, before ++ [.reserve queueName consumerId] <+: ops →
      ((run (step persist) e before).reserve queueName consumerId).1 = some message →
      message.id ≠ m := by
  obtain ⟨message, leased⟩ := reached.sound.leased flying
  have through {ops : List EngineOp} (spared : Allowed (step persist) (Spares record q m) e ops) :
      Leased record q m message (run (step persist) e ops) :=
    run_preserves (fun _ op leased spares => leased.next spares) leased spared
  refine ⟨(through spared).flying, (through spared).held.trans leased.held.symm, ?_⟩
  rintro before queueName consumerId returned ⟨rest, rfl⟩ result
  rw [List.append_assoc] at spared
  exact (through (Allowed.append.mp spared).1).reserved result

/-- One message is out with its consumer until 300. -/
def leasedRun : List EngineOp := [
  .declareQueue "orders" {},
  .enqueue { id := "m1", queue := "orders", payload := [1], createdAt := 0 },
  .reserve "orders" "worker"]

/-- Meanwhile another message is published, delivered twice and dead-lettered. -/
def besideRun : List EngineOp := [
  .enqueue { id := "m2", queue := "orders", payload := [2], createdAt := 1, maxAttempts := 2 },
  .reserve "orders" "other", .recoverConsumer "other", .tick (some 299),
  .reserve "orders" "other", .nack "m2" false, .ack "m1 ", .deleteQueue "orders.DLQ",
  .reserve "orders" "other"]

theorem lease_kept_beside : ∃ record,
    (run (step true) created leasedRun).record? "orders" "m1" = some record ∧
    (run (step true) (run (step true) created leasedRun) besideRun).record? "orders" "m1" =
      some record ∧
    ∀ message, ((run (step true) (run (step true) created leasedRun) (besideRun.take 8)).reserve
      "orders" "other").1 = some message → message.id ≠ "m1" := by
  have reached : Reachable ReadyRequeues (run (step true) created leasedRun) :=
    reachable_run (.start {} fun _ => 0) (by decide +kernel)
  have shape : ((run (step true) created leasedRun).record? "orders" "m1").any (fun record =>
      decide (Allowed (step true) (Spares record "orders" "m1") (run (step true) created leasedRun)
        besideRun)) = true := by decide +kernel
  simp only [Option.any_eq_true, decide_eq_true_eq] at shape
  obtain ⟨record, flying, spared⟩ := shape
  obtain ⟨stays, _, never⟩ := lease_kept reached flying spared
  exact ⟨record, flying, stays, fun message =>
    never (besideRun.take 8) "orders" "other" message ⟨[], rfl⟩⟩

end OneOpenBroker.Core.QueueEngine

import OneOpenBroker.Core.Snapshot
import OneOpenBroker.Library.Runs

/-! Runs of the engine. A run interleaves the operations in any order, each
with or without the `persist` flag, and may load a snapshot of a state that
another run reached. Two facts hold in all of them: every queue is stored
under its own name, and the index from ids to queues never points at a queue
that does not hold the message. -/
namespace OneOpenBroker.Core.QueueEngine
open Collections Systems

/-- The operations of the engine that change its state. -/
inductive EngineOp where
  | declareQueue (name : String) (args : QueueArgs)
  | deleteQueue (name : String)
  | enqueue (message : Message)
  | reserve (queueName consumerId : String)
  | ack (messageId : String)
  | nack (messageId : String) (requeue : Bool)
  | recoverConsumer (consumerId : String)
  | tick (now : Option ℚ)
  | dlqRequeue (queueName messageId : String)

/-- The state after one operation. -/
def step (persist : Bool) (e : QueueEngine) : EngineOp → QueueEngine
  | .declareQueue name args => e.declareQueue name args persist
  | .deleteQueue name => (e.deleteQueue name persist).2
  | .enqueue message => (e.enqueue message persist).2
  | .reserve queueName consumerId => (e.reserve queueName consumerId).2
  | .ack messageId => (e.ack messageId persist).2
  | .nack messageId requeue => (e.nack messageId requeue persist).2
  | .recoverConsumer consumerId => (e.recoverConsumer consumerId persist).2
  | .tick now => (e.tick now).2
  | .dlqRequeue queueName messageId => (e.dlqRequeue queueName messageId persist).2

/-- The states of runs in which every operation is allowed where it happens. -/
inductive Reachable (allowed : QueueEngine → EngineOp → Prop) : QueueEngine → Prop where
  | start (config : EngineConfig) (clock : Nat → ℚ) : Reachable allowed { config, clock }
  | step {e : QueueEngine} (reached : Reachable allowed e) (persist : Bool) (op : EngineOp)
      (ok : allowed e op) : Reachable allowed (e.step persist op)
  | restore {e saved : QueueEngine} (reached : Reachable allowed e)
      (kept : Reachable allowed saved) : Reachable allowed (e.restoreState saved.snapshotState)

/-- No restriction on the operations. -/
def Anything (_ : QueueEngine) (_ : EngineOp) : Prop := True

instance : DecidableRel Anything := fun _ _ => inferInstanceAs (Decidable True)

/-- No id is published while a message with that id is held. -/
def FreshIds (e : QueueEngine) : EngineOp → Prop
  | .enqueue message => ¬ e.Held message.id
  | _ => True

theorem held_iff {e : QueueEngine} {id : String} :
    e.Held id ↔ ∃ queue ∈ e.queues.values, id ∈ queue.messages := by
  constructor
  · rintro ⟨name, message, there⟩
    obtain ⟨queue, found, held⟩ := message?_some.mp there
    exact ⟨queue, Dict.mem_values.mpr ⟨name, found⟩, Dict.mem_of_get? held⟩
  · rintro ⟨queue, listed, inside⟩
    obtain ⟨name, found⟩ := Dict.mem_values.mp listed
    obtain ⟨message, held⟩ := Dict.mem_iff.mp inside
    exact ⟨name, message, message?_some.mpr ⟨queue, found, held⟩⟩

instance (e : QueueEngine) (id : String) : Decidable (e.Held id) := decidable_of_iff' _ held_iff

instance : DecidableRel FreshIds := fun e op =>
  match op with
  | .enqueue message => inferInstanceAs (Decidable (¬ e.Held message.id))
  | .declareQueue .. | .deleteQueue .. | .reserve .. | .ack .. | .nack .. | .recoverConsumer ..
  | .tick .. | .dlqRequeue .. => inferInstanceAs (Decidable True)

/-- An engine that was just created, with a clock that stands still. -/
def created : QueueEngine where
  config := {}
  clock := fun _ => 0

variable {e e' : QueueEngine} {name q id m : String} {queue : DurableQueue} {message msg : Message}
  {persist requeue : Bool}

theorem reachable_run {allowed : QueueEngine → EngineOp → Prop} {ops : List EngineOp}
    (reached : Reachable allowed e) (ok : Allowed (step persist) allowed e ops) :
    Reachable allowed (run (step persist) e ops) :=
  run_preserves (fun _ op reached ok => reached.step persist op ok) reached ok

/-! ## Names -/

theorem QueueNamed.fresh {spec : QueueSpec} {stats : QueueStats} (same : spec.name = name)
    (plain : spec.deadLetter = true → isDlq name = false) : QueueNamed name { spec, stats } :=
  ⟨same, plain, fun _ _ held => by simp at held, fun _ _ held => by simp at held⟩

/-- Names survive whatever keeps or renews specs, messages and records under
the names they belong to. -/
theorem Named.of_observe (named : e.Named)
    (specs : ∀ q spec, e'.spec? q = some spec → e.spec? q = some spec ∨
      spec.name = q ∧ (spec.deadLetter = true → isDlq q = false))
    (messages : ∀ q m msg, e'.message? q m = some msg →
      (∃ old, e.message? q m = some old ∧ msg.id = old.id ∧ msg.queue = old.queue) ∨
      msg.id = m ∧ msg.queue = q)
    (records : ∀ q m record, e'.record? q m = some record →
      e.record? q m = some record ∨ record.messageId = m) : e'.Named := by
  intro q queue found
  have known : e.spec? q = some queue.spec →
      queue.spec.name = q ∧ (queue.spec.deadLetter = true → isDlq q = false) := by
    intro kept
    obtain ⟨old, there, same⟩ := spec?_some.mp kept
    exact same ▸ ⟨(named q old there).spec, (named q old there).plain⟩
  have spec := (specs q queue.spec (spec?_of_get found)).elim known id
  refine ⟨spec.1, spec.2, ?_, ?_⟩
  · intro m msg held
    rcases messages q m msg ((message?_of_get found).trans held) with ⟨old, there, id, same⟩ | filed
    · obtain ⟨id', same'⟩ := named.filed there
      exact ⟨id.trans id', same.trans same'⟩
    · exact filed
  · intro m record held
    rcases records q m record ((record?_of_get found).trans held) with kept | filed
    · obtain ⟨old, there, before⟩ := record?_some.mp kept
      exact (named q old there).records m record before
    · exact filed

/-- Losing records and messages, and changing neither, keeps the names. -/
theorem Named.of_less (named : e.Named) (specs : e'.spec? = e.spec?)
    (messages : ∀ q m msg, e'.message? q m = some msg → ∃ old, e.message? q m = some old ∧
      msg.id = old.id ∧ msg.queue = old.queue)
    (records : ∀ q m record, e'.record? q m = some record → e.record? q m = some record) :
    e'.Named :=
  named.of_observe (fun _ _ known => .inl (specs ▸ known))
    (fun q m msg held => .inl (messages q m msg held))
    (fun q m record held => .inl (records q m record held))

theorem Exit.named {written : List JournalOp} (named : e.Named)
    (exit : Exit e name id requeue persist written e')
    (records : ∀ q m record, e'.record? q m = some record → e.record? q m = some record) :
    e'.Named := by
  cases exit with
  | gone _ messages specs =>
    exact named.of_less specs (fun q m msg held => ⟨msg, messages ▸ held, rfl, rfl⟩) records
  | retried message due held _ _ messages specs =>
    refine named.of_less specs (fun q m msg there => ?_) records
    rw [messages] at there
    split at there
    · rename_i same
      obtain ⟨rfl, rfl⟩ := same
      exact ⟨message, held, by rw [← Option.some.inj there]; rfl, by rw [← Option.some.inj there]; rfl⟩
    · exact ⟨msg, there, rfl, rfl⟩
  | moved message spec held known on _ messages specs =>
    refine named.of_observe (fun q spec there => ?_) (fun q m msg there => ?_)
      (fun q m record there => .inl (records q m record there))
    · rw [specs] at there
      split at there
      · cases there
        exact .inr ⟨rfl, by simp [makeSpec]⟩
      · exact .inl there
    · rw [messages] at there
      split at there
      · rename_i same
        obtain ⟨rfl, rfl⟩ := same
        cases there
        exact .inr ⟨(named.filed held).1, rfl⟩
      · split at there
        · cases there
        · exact .inl ⟨msg, there, rfl, rfl⟩
  | dropped message spec held known off _ messages specs =>
    refine named.of_less specs (fun q m msg there => ?_) records
    rw [messages] at there
    split at there
    · cases there
    · exact ⟨msg, there, rfl, rfl⟩

theorem failDelivery_named (named : e.Named) : (e.failDelivery name id persist).2.Named := by
  refine (failDelivery_exit named).named named fun q m record held => ?_
  rw [failDelivery_record?] at held
  split at held
  · cases held
  · exact held

theorem nack_named (named : e.Named) : (e.nack id requeue persist).2.Named := by
  rcases nack_cases e id requeue persist with ⟨name, queue, message, nacks⟩ |
    ⟨_, same | ⟨name, queue, _, found, _, shape⟩⟩
  · refine (nacks.exit named).named named fun q m record held => ?_
    rw [nacks.record?] at held
    split at held
    · cases held
    · exact held
  · rw [same]
    exact named
  · obtain ⟨messages, specs, records⟩ := endDelivery_observe id found
      (show (e.putQueue name (queue.endDelivery id)).queues = _ from rfl)
    rw [shape]
    refine named.of_less specs (fun q m msg held => ⟨msg, messages ▸ held, rfl, rfl⟩) ?_
    intro q m record held
    rw [records] at held
    split at held
    · cases held
    · exact held

theorem releaseOne_named (named : e.Named) : (e.releaseOne name id).2.Named := by
  obtain ⟨same, records, specs, _⟩ := releaseOne_observe e name id
  refine named.of_less specs (fun q m msg held => ?_) (fun q m record held => records ▸ held)
  have stripped := same q m
  rw [held] at stripped
  obtain ⟨old, there, image⟩ := Option.map_eq_some_iff.mp stripped.symm
  exact ⟨old, there, (congrArg Message.id image).symm, (congrArg Message.queue image).symm⟩

theorem dlqRequeue_named {queueName : String} (named : e.Named) :
    (e.dlqRequeue queueName id persist).2.Named := by
  have requeue := dlqRequeue_requeue named queueName id persist
  generalize (e.dlqRequeue queueName id persist).1 = result at requeue
  generalize (e.dlqRequeue queueName id persist).2 = e' at requeue
  cases requeue with
  | missing => exact named
  | moved message _ held messages records specs =>
    refine named.of_observe (fun q spec there => .inl (specs ▸ there)) (fun q m msg there => ?_)
      (fun q m record there => .inl (records ▸ there))
    rw [messages] at there
    split at there
    · rename_i same
      obtain ⟨rfl, rfl⟩ := same
      cases there
      exact .inr ⟨(named.filed held).1, rfl⟩
    · split at there
      · cases there
      · exact .inl ⟨msg, there, rfl, rfl⟩
  | refused message _ held messages records specs =>
    refine named.of_observe (fun q spec there => .inl (specs ▸ there)) (fun q m msg there => ?_)
      (fun q m record there => .inl (records ▸ there))
    rw [messages] at there
    split at there
    · rename_i same
      obtain ⟨rfl, rfl⟩ := same
      cases there
      exact .inr ⟨(named.filed held).1, rfl⟩
    · exact .inl ⟨msg, there, rfl, rfl⟩

/-- Every operation keeps queues, messages and deliveries under their own names. -/
theorem step_named (named : e.Named) (op : EngineOp) : (e.step persist op).Named := by
  cases op with
  | declareQueue name args =>
    exact all_declareQueue named fun spec plain => QueueNamed.fresh rfl plain
  | deleteQueue name => exact all_deleteQueue named
  | enqueue message =>
    rcases enqueue_cases e message persist with ⟨queue, accepts⟩ | ⟨_, same⟩
    · refine named.of_observe (fun q spec there => .inl (accepts.spec? ▸ there))
        (fun q m msg there => ?_) (fun q m record there => .inl (accepts.record? ▸ there))
      change (e.enqueue message persist).2.message? q m = some msg at there
      rw [accepts.message?] at there
      split at there
      · rename_i same
        obtain ⟨rfl, rfl⟩ := same
        cases there
        exact .inr ⟨dueMessage_id, dueMessage_queue⟩
      · exact .inl ⟨msg, there, rfl, rfl⟩
    · exact (congrArg Named same).mpr named
  | reserve queueName consumerId =>
    refine named.of_observe (fun q spec there => .inl (reserve_spec? ▸ there))
      (fun q m msg there => .inl ⟨msg, reserve_message? ▸ there, rfl, rfl⟩) (fun q m record there => ?_)
    change (e.reserve queueName consumerId).2.record? q m = some record at there
    rcases reserve_cases e queueName consumerId with ⟨queue, id, message, rest, reserves⟩ | ⟨nothing, _⟩
    · rw [reserves.record?] at there
      split at there
      · rename_i same
        obtain ⟨rfl, rfl⟩ := same
        cases there
        exact .inr rfl
      · exact .inl there
    · rw [reserve_none_record? nothing] at there
      exact .inl there
  | ack messageId =>
    rcases ack_cases e messageId persist with ⟨name, queue, settles⟩ | ⟨_, same⟩
    · refine named.of_less settles.spec? (fun q m msg there => ?_) (fun q m record there => ?_)
      · change (e.ack messageId persist).2.message? q m = some msg at there
        rw [settles.message?] at there
        split at there
        · cases there
        · exact ⟨msg, there, rfl, rfl⟩
      · change (e.ack messageId persist).2.record? q m = some record at there
        rw [settles.record?] at there
        split at there
        · cases there
        · exact there
    · exact (congrArg Named same).mpr named
  | nack messageId requeue => exact nack_named named
  | recoverConsumer consumerId =>
    exact recoverConsumer_preserves (fun _ named => named)
      (fun _ _ _ _ named _ _ => failDelivery_named named) named
  | tick now =>
    exact tick_preserves (fun _ _ _ named => releaseOne_named named)
      (fun _ _ _ _ named _ _ => failDelivery_named named) (fun _ _ _ _ named => named) named
  | dlqRequeue queueName messageId => exact dlqRequeue_named named

/-- Only a reservation makes a delivery. -/
theorem step_fewer {record : InflightRecord} (named : e.Named) (op : EngineOp)
    (other : ∀ name id, op ≠ .reserve name id)
    (there : (e.step persist op).record? q m = some record) : e.record? q m = some record := by
  cases op with
  | declareQueue name args => exact declareQueue_observe.2 ▸ there
  | deleteQueue name =>
    change (e.deleteQueue name persist).2.record? q m = some record at there
    classical
    rw [deleteQueue_record?] at there
    split at there
    · cases there
    · exact there
  | enqueue message =>
    rcases enqueue_cases e message persist with ⟨queue, accepts⟩ | ⟨_, same⟩
    · exact accepts.record? ▸ there
    · change (e.enqueue message persist).2.record? q m = some record at there
      exact same ▸ there
  | reserve name id => exact absurd rfl (other name id)
  | ack messageId =>
    change (e.ack messageId persist).2.record? q m = some record at there
    rcases ack_cases e messageId persist with ⟨name, queue, settles⟩ | ⟨_, same⟩
    · rw [settles.record?] at there
      split at there
      · cases there
      · exact there
    · exact same ▸ there
  | nack messageId requeue =>
    change (e.nack messageId requeue persist).2.record? q m = some record at there
    rcases nack_cases e messageId requeue persist with ⟨name, queue, message, nacks⟩ |
      ⟨_, same | ⟨name, queue, _, found, _, shape⟩⟩
    · rw [nacks.record?] at there
      split at there
      · cases there
      · exact there
    · exact same ▸ there
    · obtain ⟨_, _, records⟩ := endDelivery_observe messageId found
        (show (e.putQueue name (queue.endDelivery messageId)).queues = _ from rfl)
      rw [shape, records] at there
      split at there
      · cases there
      · exact there
  | recoverConsumer consumerId =>
    have both : (e.recoverConsumer consumerId persist).2.Named ∧
        ((e.recoverConsumer consumerId persist).2.record? q m = some record →
          e.record? q m = some record) := by
      refine recoverConsumer_preserves
        (I := fun e' => e'.Named ∧ (e'.record? q m = some record → e.record? q m = some record))
        (fun _ inv => inv.1) ?_ ⟨named, fun same => same⟩
      intro e' name id old inv _ _
      refine ⟨failDelivery_named inv.1, fun left => inv.2 ?_⟩
      rw [failDelivery_record?] at left
      split at left
      · cases left
      · exact left
    exact both.2 there
  | tick now =>
    have kept : (e.tick now).2.record? q m = some record → e.record? q m = some record := by
      refine tick_preserves
        (I := fun e' => e'.record? q m = some record → e.record? q m = some record) ?_ ?_
        (fun _ _ _ _ inv left => inv left) fun same => same
      · intro e' name id inv left
        rw [(releaseOne_observe e' name id).2.1] at left
        exact inv left
      · intro e' name id old inv _ _ left
        rw [failDelivery_record?] at left
        split at left
        · cases left
        · exact inv left
    exact kept there
  | dlqRequeue queueName messageId =>
    have requeue := dlqRequeue_requeue named queueName messageId persist
    change (e.dlqRequeue queueName messageId persist).2.record? q m = some record at there
    generalize (e.dlqRequeue queueName messageId persist).1 = result at requeue
    generalize (e.dlqRequeue queueName messageId persist).2 = e' at requeue there
    cases requeue with
    | missing => exact there
    | moved message _ _ _ records => exact records ▸ there
    | refused message _ _ _ records => exact records ▸ there

theorem restoreMessage_named {saved : SavedMessage} (named : e.Named)
    (found : e.queues.get? name = some queue) (same : saved.message.queue = name) :
    (e.restoreMessage name queue saved).Named := by
  have before := named name queue found
  rw [Named, restoreMessage_queues]
  refine named.set ⟨by simp [before.spec], by simpa using before.plain, fun m msg there => ?_,
    by simpa using before.records⟩
  rw [refit_messages, Dict.get?_set] at there
  split at there
  · rename_i here
    cases there
    exact ⟨here.symm, same⟩
  · exact before.messages m msg there

theorem restore_named {saved : QueueEngine} (kept : saved.Named) :
    (e.restoreState saved.snapshotState).Named := by
  refine restoreState_preserves (I := fun e _ _ => e.Named) ?_ ?_ Dict.all_empty
  · intro e _ queue listed named
    obtain ⟨old, member, rfl⟩ := List.mem_map.mp listed
    obtain ⟨name, found⟩ := Dict.mem_values.mp member
    have filed := kept name old found
    have same : old.spec.name = name := filed.spec
    exact named.set (QueueNamed.fresh rfl (same.symm ▸ filed.plain))
  · intro e _ _ name queue message found listed named
    obtain ⟨old, there, held, _⟩ := (mem_contents kept).mp listed
    exact restoreMessage_named named found ((kept name old there).messages _ _ held).2

theorem Reachable.named {allowed : QueueEngine → EngineOp → Prop} (reached : Reachable allowed e) :
    e.Named := by
  induction reached with
  | start => exact Dict.all_empty
  | step _ _ op _ named => exact step_named named op
  | restore _ _ _ kept => exact restore_named kept

end OneOpenBroker.Core.QueueEngine

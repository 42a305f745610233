import OneOpenBroker.Core.Republish
import OneOpenBroker.Library.Lists
import OneOpenBroker.Library.Simulation

/-! The memory of acknowledgements. An engine remembers the ids of its last
acks that returned OK, as many as it is configured to, and answers a repeated
ack from them. No other operation changes what is remembered, so the answers
say what the run was, and no id is settled twice within the reach of the memory. -/
namespace OneOpenBroker.Core.QueueEngine
open Collections Lists Systems

/-- The id that an operation settles. -/
def settledIds (persist : Bool) (e : QueueEngine) : EngineOp → List String
  | .ack messageId => if (e.ack messageId persist).1 = .ok then [messageId] else []
  | _ => []

/-- What an operation leaves of the memory. -/
structure SameMemory (e e' : QueueEngine) : Prop where
  config : e'.config = e.config
  recentAcks : e'.recentAcks = e.recentAcks

variable {e e' e'' : QueueEngine} {name q id m : String} {queue : DurableQueue} {message : Message}
  {persist requeue : Bool}

/-! ## Operations -/

theorem SameMemory.refl (e : QueueEngine) : SameMemory e e := ⟨rfl, rfl⟩

theorem SameMemory.trans (first : SameMemory e e') (second : SameMemory e' e'') : SameMemory e e'' :=
  ⟨second.config.trans first.config, second.recentAcks.trans first.recentAcks⟩

theorem deleteQueue_memory : SameMemory e (e.deleteQueue name persist).2 := by
  have remove (e : QueueEngine) (name : String) (queue : DurableQueue) :
      SameMemory e (e.removeQueue name queue persist) := by
    constructor <;> simp [removeQueue]
  unfold deleteQueue
  split
  · exact .refl e
  · dsimp only
    split
    · unfold deleteLeaf
      split
      · exact remove ..
      · exact (remove ..).trans (remove ..)
    · exact remove ..

theorem nack_memory : SameMemory e (e.nack id requeue persist).2 := by
  rcases nack_cases e id requeue persist with ⟨name, queue, message, nacks⟩ |
    ⟨_, same | ⟨name, queue, _, _, _, shape⟩⟩
  · rw [nacks.shape]
    exact ⟨conclude_frame.1.trans append_config, conclude_frame.2.2.trans append_recentAcks⟩
  · rw [same]
    exact .refl e
  · rw [shape]
    exact ⟨rfl, rfl⟩

theorem failDelivery_memory : SameMemory e (e.failDelivery name id persist).2 :=
  ⟨failDelivery_frame.1, failDelivery_frame.2.2⟩

theorem releaseOne_memory : SameMemory e (e.releaseOne name id).2 := by
  rcases releaseOne_cases e name id with ⟨_, same⟩ | ⟨_, _, _, _, shape⟩ | ⟨_, _, _, _, _, _, shape⟩
  · rw [same]
    exact .refl e
  · rw [shape]
    exact ⟨rfl, rfl⟩
  · rw [shape]
    exact ⟨rfl, rfl⟩

theorem dlqRequeue_memory {queueName : String} : SameMemory e (e.dlqRequeue queueName id persist).2 := by
  rcases dlqRequeue_cases e queueName id persist with nothing | ⟨dlq, message, draws⟩
  · rw [nothing]
    exact .refl e
  · rcases draws.result persist with ⟨dest, accepts, shape⟩ | ⟨_, shape⟩
    · rw [shape]
      exact ⟨append_config.trans accepts.config, append_recentAcks.trans accepts.recentAcks⟩
    · rw [shape]
      exact ⟨rfl, rfl⟩

/-- What an ack that settles adds to the memory. -/
theorem Settles.memory (settles : e.Settles m persist name queue) :
    (e.ack m persist).2.config = e.config ∧
    (e.ack m persist).2.recentAcks = (e.recentAcks ++ [m]).rtake e.config.recentAckLimit := by
  constructor
  · exact (ack_frame e m persist).2.2
  · simp [ack, settles.fresh, settles.indexed, settles.found, settles.inflight, rememberAck, putQueue, List.rtake]

/-- An operation leaves the memory, or it is an ack that is remembered. -/
theorem step_memory (named : e.Named) (op : EngineOp) :
    settledIds persist e op = [] ∧ SameMemory e (e.step persist op) ∨
    ∃ m, settledIds persist e op = [m] ∧ m ∉ e.recentAcks ∧ (e.step persist op).config = e.config ∧
      (e.step persist op).recentAcks = (e.recentAcks ++ [m]).rtake e.config.recentAckLimit := by
  cases op with
  | declareQueue name args =>
    obtain ⟨_, _, _, config, acks⟩ := declareQueue_frame e name args persist
    exact .inl ⟨rfl, config, acks⟩
  | deleteQueue name => exact .inl ⟨rfl, deleteQueue_memory⟩
  | enqueue message =>
    refine .inl ⟨rfl, ?_⟩
    rcases enqueue_cases e message persist with ⟨queue, accepts⟩ | ⟨_, same⟩
    · exact ⟨accepts.config, accepts.recentAcks⟩
    · rw [step, same]
      exact .refl e
  | reserve queueName consumerId => exact .inl ⟨rfl, reserve_frame.2.2.1, reserve_frame.2.2.2.2⟩
  | ack messageId =>
    rcases ack_cases e messageId persist with ⟨name, queue, settles⟩ | ⟨refused, same⟩
    · exact .inr ⟨messageId, if_pos settles.result, settles.fresh, settles.memory⟩
    · refine .inl ⟨if_neg refused, ?_⟩
      rw [step, same]
      exact .refl e
  | nack messageId requeue => exact .inl ⟨rfl, nack_memory⟩
  | recoverConsumer consumerId =>
    have swept : e.Named ∧ SameMemory e e := ⟨named, .refl e⟩
    refine .inl ⟨rfl, (recoverConsumer_preserves (I := fun e' => e'.Named ∧ SameMemory e e')
      (fun _ inv => inv.1) (fun _ _ _ _ inv _ _ => ?_) swept).2⟩
    exact ⟨failDelivery_named inv.1, inv.2.trans failDelivery_memory⟩
  | tick now =>
    refine .inl ⟨rfl, tick_preserves (I := SameMemory e) (fun _ _ _ inv => inv.trans releaseOne_memory)
      (fun _ _ _ _ inv _ _ => inv.trans failDelivery_memory) (fun _ _ _ _ inv => ?_) (.refl e)⟩
    exact ⟨inv.config, inv.recentAcks⟩
  | dlqRequeue queueName messageId => exact .inl ⟨rfl, dlqRequeue_memory⟩

/-! ## Answers -/

theorem ack_repeated : (e.ack m persist).1 = .alreadyAcked ↔ m ∈ e.recentAcks := by
  constructor
  · intro answer
    by_contra fresh
    rcases ack_cases e m persist with ⟨name, queue, settles⟩ | _
    · rw [settles.result] at answer
      cases answer
    · unfold ack at answer
      rw [if_neg fresh] at answer
      repeat' (first | cases answer | split at answer)
  · intro recent
    simp [ack, recent]

theorem nack_unindexed (absent : m ∉ e.byId) :
    (e.nack m requeue persist).1 = if m ∈ e.recentAcks then .notFound else .unknownDelivery := by
  have none : e.byId.get? m = none := Dict.get?_eq_none.mpr absent
  simp [nack, none]

/-! ## Runs -/

/-- The memory holds the last of the ids that were settled. -/
structure Recalls (limit : Nat) (e : QueueEngine) (settled : List String) : Prop where
  named : e.Named
  configured : e.config.recentAckLimit = limit
  recentAcks : e.recentAcks = settled.rtake limit
  spread : Spread limit settled

theorem Recalls.keeps {limit : Nat} {settled : List String} (recalls : Recalls limit e settled) (op : EngineOp) :
    Recalls limit (e.step persist op) (settled ++ settledIds persist e op) := by
  have named : (e.step persist op).Named := step_named recalls.named op
  have memory : settledIds persist e op = [] ∧ _ ∨ _ := step_memory recalls.named op
  rcases memory with ⟨none, same⟩ | ⟨m, some, fresh, config, acks⟩
  · rw [none, List.append_nil]
    exact ⟨named, same.config ▸ recalls.configured, same.recentAcks.trans recalls.recentAcks, recalls.spread⟩
  · rw [some]
    refine ⟨named, config ▸ recalls.configured, ?_, recalls.spread.concat (recalls.recentAcks ▸ fresh)⟩
    rw [acks, recalls.configured, recalls.recentAcks, rtake_rtake_concat]

theorem Recalls.throughout {limit : Nat} {settled : List String} {ops : List EngineOp} (recalls : Recalls limit e settled) :
    Recalls limit (run (step persist) e ops) (settled ++ observed (step persist) (settledIds persist) e ops) := by
  induction ops generalizing e settled with
  | nil => simpa [observed] using recalls
  | cons op rest ih =>
    have after : Recalls limit (e.step persist op) (settled ++ settledIds persist e op) := recalls.keeps op
    rw [observed, ← List.append_assoc]
    exact ih after

/-- **The memory of acks.** After every run an ack is answered ALREADY_ACKED
exactly if its id is among the last ones that were settled, as many as the
configured limit; a nack of an id that no queue is known for tells the same;
and an id that was settled twice was settled at a distance greater than that. -/
theorem acks_remembered (config : EngineConfig) (clock : Nat → ℚ) (ops : List EngineOp) :
    (∀ m, ((run (step persist) { config, clock } ops).ack m persist).1 = .alreadyAcked ↔
      m ∈ (observed (step persist) (settledIds persist) { config, clock } ops).rtake config.recentAckLimit) ∧
    (∀ m requeue, m ∉ (run (step persist) { config, clock } ops).byId →
      (((run (step persist) { config, clock } ops).nack m requeue persist).1 = .notFound ↔
        m ∈ (observed (step persist) (settledIds persist) { config, clock } ops).rtake config.recentAckLimit)) ∧
    Spread config.recentAckLimit (observed (step persist) (settledIds persist) { config, clock } ops) := by
  have start : Recalls config.recentAckLimit { config, clock } [] := ⟨Dict.all_empty, rfl, by simp, .nil⟩
  have recalls : Recalls config.recentAckLimit (run (step persist) { config, clock } ops) _ := start.throughout
  rw [List.nil_append] at recalls
  refine ⟨fun m => ?_, fun m requeue absent => ?_, recalls.spread⟩
  · rw [ack_repeated, recalls.recentAcks]
  · rw [nack_unindexed absent, ← recalls.recentAcks]
    split <;> simp_all

end OneOpenBroker.Core.QueueEngine

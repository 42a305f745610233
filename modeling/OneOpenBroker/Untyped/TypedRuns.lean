import OneOpenBroker.Core.Effects
import OneOpenBroker.Core.Timeouts
import OneOpenBroker.Library.Simulation
import OneOpenBroker.Untyped.TypedSteps

/-! Runs of the untyped engine on typed arguments. The sweeps over several
deliveries need what is held to fit as they go on, and every operation keeps
that. So a whole run gives the answers of the typed engine, and raises only
where the typed engine says so. -/
namespace OneOpenBroker.Untyped.Typed
open Collections Programs Program Systems

variable {headers : Protocol.Json → Value} {e e' : Core.QueueEngine} {name id : String}
  {m : Core.Message} {a : Core.QueueArgs} {persist requeue : Bool}

/-! ## What is held keeps fitting -/

/-- What is held comes from what was held, with its bound on the attempts. -/
def Descends (e e' : Core.QueueEngine) : Prop := ∀ q id m', e'.message? q id = some m' →
  ∃ q m, e.message? q id = some m ∧ m'.maxAttempts = m.maxAttempts ∧
    (m.attempts ≤ m'.attempts ∨ m'.attempts = 0)

theorem Fine.descends (fine : Fine e) (named : e'.Named) (config : e'.config = e.config)
    (descends : Descends e e') : Fine e' := by
  refine ⟨named, fun q id m' held => ?_⟩
  obtain ⟨_, m, before, limit, attempts⟩ := descends q id m' held
  obtain ⟨positive, small⟩ := fine.fits _ id m before
  refine ⟨by omega, ?_⟩
  rw [config, limit]
  exact small

theorem Descends.same (messages : e'.message? = e.message?) : Descends e e' := fun q _ m' held =>
  ⟨q, m', by rw [← messages]; exact held, rfl, .inl le_rfl⟩

open Core.QueueEngine in
theorem Descends.exit {written : List Core.JournalOp} (exit : Exit e name id requeue persist written e') :
    Descends e e' := by
  have grows (message : Core.Message) : message.attempts ≤ (failed message requeue).attempts := by
    unfold failed
    dsimp only
    split <;> omega
  cases exit with
  | gone _ messages => exact .same messages
  | retried message due held again below messages =>
    intro q other m' after
    rw [messages] at after
    split at after
    · rename_i here
      obtain rfl := Option.some.inj after
      exact ⟨name, message, here.2 ▸ held, rfl, .inl (grows message)⟩
    · exact ⟨q, m', after, rfl, .inl le_rfl⟩
  | moved message spec held known on spent messages =>
    intro q other m' after
    rw [messages] at after
    split at after
    · rename_i here
      obtain rfl := Option.some.inj after
      exact ⟨name, message, here.2 ▸ held, rfl, .inl (grows message)⟩
    · split at after
      · cases after
      · exact ⟨q, m', after, rfl, .inl le_rfl⟩
  | dropped message spec held known off spent messages =>
    intro q other m' after
    rw [messages] at after
    split at after
    · cases after
    · exact ⟨q, m', after, rfl, .inl le_rfl⟩

theorem Fine.failDelivery (fine : Fine e) : Fine (e.failDelivery name id persist).2 :=
  fine.descends (Core.QueueEngine.failDelivery_named fine.named) Core.QueueEngine.failDelivery_frame.1
    (.exit (Core.QueueEngine.failDelivery_exit fine.named))

theorem Fine.releaseOne (fine : Fine e) : Fine (e.releaseOne name id).2 := by
  obtain ⟨messages, _, _, _, _, config⟩ := Core.QueueEngine.releaseOne_observe e name id
  refine fine.descends (Core.QueueEngine.releaseOne_named fine.named) config fun q other m' after => ?_
  have before := messages q other
  rw [after] at before
  obtain ⟨m, held, same⟩ := Option.map_eq_some_iff.mp before.symm
  refine ⟨q, m, held, ?_, .inl ?_⟩
  · exact (congrArg Core.Message.maxAttempts same).symm
  · exact (congrArg Core.Message.attempts same).le

/-! ## Sweeps -/

theorem failAll_typed (fine : Fine e) (ids : List String) :
    exec (QueueEngine.failAll (spell name) (ids.map label)) (engine headers e) =
      (.ok (e.failAll name persist ids).1, engine headers (e.failAll name persist ids).2) ∧
    Fine (e.failAll name persist ids).2 := by
  induction ids generalizing e with
  | nil => exact ⟨rfl, fine⟩
  | cons id rest ih =>
    have failed : Fine (e.failDelivery name id persist).2 := fine.failDelivery
    obtain ⟨swept, left⟩ := ih failed
    refine ⟨?_, left⟩
    rw [List.map_cons, QueueEngine.failAll, exec_bind_ok (failDelivery_typed fine), exec_bind_ok swept]
    rfl

theorem heldBy_typed {q : Core.DurableQueue} {consumerId : String} :
    QueueEngine.heldBy (queue headers q) (label consumerId) =
      (Core.QueueEngine.heldBy q consumerId).map label := by
  unfold QueueEngine.heldBy Core.QueueEngine.heldBy
  rw [show (queue headers q).inflight.values = q.inflight.values.map record from Dict.values_relabel,
    List.filter_map, List.map_map, List.map_map]
  refine congrArg _ (List.filter_congr fun r _ => ?_)
  exact decide_eq_decide.mpr label.injective.eq_iff

theorem exec_add {program : Program QueueEngine Raised Nat} {u : QueueEngine} {n : Nat} :
    exec (do return (← program) + n) u = ((exec program u).1.map (· + n), (exec program u).2) := by
  rw [exec_bind]
  rcases exec program u with ⟨_ | _, _⟩ <;> rfl

/-- The iteration raises where the typed engine says so. -/
theorem recoverQueues_typed {consumerId : String} (size : Nat) (names : List String) (fine : Fine e) :
    exec (QueueEngine.recoverQueues size (label consumerId) (names.map spell)) (engine headers e) =
      ((Core.QueueEngine.recoverQueues size consumerId persist names e).1.mapError fun _ => .runtimeError,
        engine headers (Core.QueueEngine.recoverQueues size consumerId persist names e).2) := by
  have kept (e : Core.QueueEngine) : (engine headers e).queues.size = e.queues.size := Dict.size_relabel
  induction names generalizing e with
  | nil =>
    rw [List.map_nil, QueueEngine.recoverQueues, Core.QueueEngine.recoverQueues, exec_bind_ok exec_get, kept]
    split <;> rfl
  | cons name rest ih =>
    rw [List.map_cons, QueueEngine.recoverQueues, Core.QueueEngine.recoverQueues, exec_bind_ok exec_get, kept]
    by_cases same : e.queues.size = size
    · rw [if_pos same, if_pos same]
      cases found : e.queues.get? name with
      | none =>
        have none_held : exec (QueueEngine.failAll (spell name) []) (engine headers e) =
            (.ok 0, engine headers e) := rfl
        rw [engine_missing found, Option.elim_none, exec_bind_ok none_held, exec_add, ih fine]
        dsimp only
        cases (Core.QueueEngine.recoverQueues size consumerId persist rest e).1 <;> rfl
      | some q =>
        obtain ⟨swept, left⟩ : exec _ (engine headers e) = (.ok (e.failAll name persist _).1, _) ∧ _ :=
          failAll_typed fine (Core.QueueEngine.heldBy q consumerId)
        rw [engine_found found, Option.elim_some, heldBy_typed, exec_bind_ok swept, exec_add, ih left]
        dsimp only
        cases (Core.QueueEngine.recoverQueues size consumerId persist rest _).1 <;> rfl
    · rw [if_neg same, if_neg same]
      rfl

theorem recoverConsumer_typed {consumerId : String} (fine : Fine e) :
    exec (QueueEngine.recoverConsumer (label consumerId)) (engine headers e) =
      ((e.recoverConsumer consumerId persist).1.mapError fun _ => .runtimeError,
        engine headers (e.recoverConsumer consumerId persist).2) := by
  have size : (engine headers e).queues.size = e.queues.size := Dict.size_relabel
  have keys : (engine headers e).queues.keys = e.queues.keys.map spell := Dict.keys_relabel
  unfold QueueEngine.recoverConsumer Core.QueueEngine.recoverConsumer
  rw [exec_bind_ok exec_get, size, keys]
  exact recoverQueues_typed _ _ fine

/-! ## The ticker -/

theorem releaseAll_typed (fine : Fine e) (entries : List Core.TimedEntry) :
    QueueEngine.releaseAll (entries.map timedEntry) (engine headers e) =
      ((Core.QueueEngine.releaseAll entries e).1, engine headers (Core.QueueEngine.releaseAll entries e).2) ∧
    Fine (Core.QueueEngine.releaseAll entries e).2 := by
  induction entries generalizing e with
  | nil => exact ⟨rfl, fine⟩
  | cons entry rest ih =>
    have released : Fine (e.releaseOne entry.queue entry.messageId).2 := fine.releaseOne
    obtain ⟨swept, left⟩ := ih released
    refine ⟨?_, left⟩
    have one : (engine headers e).releaseOne (timedEntry entry).queue (timedEntry entry).messageId = _ :=
      releaseOne_typed fine.named
    rw [List.map_cons, QueueEngine.releaseAll, one]
    dsimp only
    rw [swept]
    rfl

theorem releaseDelayed_typed {now : ℚ} (fine : Fine e) :
    QueueEngine.releaseDelayed now (engine headers e) =
      ((e.releaseDelayed now).1, engine headers (e.releaseDelayed now).2) ∧
    Fine (e.releaseDelayed now).2 := by
  have due : (fun entry : TimedEntry => decide (entry.due ≤ Moment.of now)) ∘ timedEntry =
      fun entry => decide (entry.due ≤ now) := by
    funext entry
    exact decide_eq_decide.mpr moment_le
  have taken : (engine headers e).delayed.takeWhile (·.due ≤ Moment.of now) =
      (e.delayed.takeWhile (·.due ≤ now)).map timedEntry := by
    rw [← due]
    exact List.takeWhile_map
  have left : (engine headers e).delayed.dropWhile (·.due ≤ Moment.of now) =
      (e.delayed.dropWhile (·.due ≤ now)).map timedEntry := by
    rw [← due]
    exact List.dropWhile_map
  have fine' : Fine { e with delayed := e.delayed.dropWhile (·.due ≤ now) } := ⟨fine.named, fine.fits⟩
  have released : QueueEngine.releaseAll _ (engine headers { e with delayed := _ }) = _ ∧ _ :=
    releaseAll_typed fine' (e.delayed.takeWhile (·.due ≤ now))
  unfold QueueEngine.releaseDelayed
  rw [taken, left]
  exact released

theorem record?_typed : (engine headers e).record? (spell name) (label id) =
    ((e.queues.get? name).bind (·.inflight.get? id)).map record := by
  rw [QueueEngine.record?, engine_get?]
  cases e.queues.get? name with
  | none => rfl
  | some q => exact Dict.get?_relabel

/-- An entry is stale, or its delivery fails. -/
theorem timeoutEntry_typed (fine : Fine e) (entry : Core.TimedEntry) :
    exec (QueueEngine.timeoutEntry (timedEntry entry)) (engine headers e) =
      match (e.queues.get? entry.queue).bind (·.inflight.get? entry.messageId) with
      | none => (.ok 0, engine headers e)
      | some r =>
        if r.visibilityDeadline = entry.due then
          (.ok (e.failDelivery entry.queue entry.messageId true).1.toNat,
            engine headers (e.failDelivery entry.queue entry.messageId true).2)
        else (.ok 0, engine headers e) := by
  have view : (engine headers e).record? (timedEntry entry).queue (timedEntry entry).messageId =
      ((e.queues.get? entry.queue).bind (·.inflight.get? entry.messageId)).map record := record?_typed
  rw [QueueEngine.timeoutEntry, exec_bind_ok exec_get, view]
  cases (e.queues.get? entry.queue).bind (·.inflight.get? entry.messageId) with
  | none => rfl
  | some r =>
    have same : ((some (record r)).map (·.visibilityDeadline) = some (timedEntry entry).due) ↔
        r.visibilityDeadline = entry.due := by
      rw [Option.map_some, Option.some_inj]
      exact moment_inj
    dsimp only [Option.map_some]
    by_cases exact' : r.visibilityDeadline = entry.due
    · rw [if_pos exact']
      exact (congrArg (exec · _) (if_pos (same.mpr exact'))).trans (failDelivery_typed fine)
    · rw [if_neg exact']
      exact congrArg (exec · _) (if_neg (mt same.mp exact'))

theorem timeoutEntries_typed {now : ℚ} (fine : Fine e) (entries : List Core.TimedEntry) :
    exec (QueueEngine.timeoutEntries now (entries.map timedEntry))
        (engine headers { e with visibilityHeap := entries }) =
      (.ok (Core.QueueEngine.timeoutEntries now entries e).1,
        engine headers (Core.QueueEngine.timeoutEntries now entries e).2) := by
  induction entries generalizing e with
  | nil => rfl
  | cons entry rest ih =>
    rw [List.map_cons, QueueEngine.timeoutEntries, Core.QueueEngine.timeoutEntries]
    have passed : (timedEntry entry).due ≤ Moment.of now ↔ entry.due ≤ now := moment_le
    by_cases due : entry.due ≤ now
    · have fine' : Fine { e with visibilityHeap := rest } := ⟨fine.named, fine.fits⟩
      have one : exec _ (engine headers { e with visibilityHeap := rest }) = _ :=
        timeoutEntry_typed fine' entry
      rw [if_pos due, if_pos (passed.mpr due), exec_bind_ok exec_modify]
      change exec (QueueEngine.timeoutEntry (timedEntry entry) >>= _)
        (engine headers { e with visibilityHeap := rest }) = _
      dsimp only at one
      cases found : (e.queues.get? entry.queue).bind (·.inflight.get? entry.messageId) with
      | none =>
        rw [found] at one
        rw [exec_bind_ok one, exec_add, ih fine]
        rfl
      | some r =>
        rw [found] at one
        dsimp only at one ⊢
        -- The visibility heap plays no part in the end of a delivery.
        have failed : Core.QueueEngine.failDelivery { e with visibilityHeap := rest } entry.queue
              entry.messageId true = ((e.failDelivery entry.queue entry.messageId true).1,
                { (e.failDelivery entry.queue entry.messageId true).2 with visibilityHeap := rest }) :=
          Core.QueueEngine.failDelivery_withHeap e _ _ rest
        by_cases kept : r.visibilityDeadline = entry.due
        · rw [if_pos kept, failed] at one
          rw [if_pos kept, exec_bind_ok one, exec_add, ih (Fine.failDelivery fine)]
          rfl
        · rw [if_neg kept] at one
          rw [if_neg kept, exec_bind_ok one, exec_add, ih fine]
          rfl
    · rw [if_neg due, if_neg (mt passed.mp due)]
      rfl

theorem tick_typed (fine : Fine e) : exec QueueEngine.tick (engine headers e) =
    (.ok (e.tick none).1, engine headers (e.tick none).2) := by
  have fine' : Fine e.now.2 := ⟨fine.named, fine.fits⟩
  obtain ⟨released, left⟩ : QueueEngine.releaseDelayed e.now.1 (engine headers e.now.2) = _ ∧ _ :=
    releaseDelayed_typed fine'
  unfold QueueEngine.tick Core.QueueEngine.tick
  rw [exec_bind_ok exec_now, exec_bind_ok exec_modifyGet, exec_bind_ok exec_get, released]
  exact exec_bind_ok (timeoutEntries_typed left (e.now.2.releaseDelayed e.now.1).2.visibilityHeap)

/-! ## Dead letters -/

section Requeue

open Core.QueueEngine

variable {queueName : String} {dlq : Core.DurableQueue}

theorem withdraw_typed : queue headers (dlq.withdraw id) = (queue headers dlq).withdraw (label id) := by
  have ids : (dlq.dlqIds.filter (· ≠ id)).map label = (dlq.dlqIds.map label).filter (· ≠ label id) := by
    rw [List.filter_map]
    exact congrArg _ (List.filter_congr fun other _ => by simp)
  have entries : (dlq.ready.filter (·.messageId ≠ id)).map readyEntry =
      (dlq.ready.map readyEntry).filter (·.messageId ≠ label id) := by
    rw [List.filter_map]
    exact congrArg _ (List.filter_congr fun entry _ => by simp [readyEntry])
  simp only [queue, Core.DurableQueue.withdraw, DurableQueue.withdraw, map_heapify, ids, entries,
    Dict.relabel_erase]

theorem withdrawn_typed (draws : e.Withdraws queueName id dlq m) :
    { (engine headers e).alter (spell (requeueSource queueName)) (·.withdraw (label id)) with
      byId := (engine headers e).byId.erase (label id) } = engine headers (e.withdrawn queueName id dlq) := by
  rw [engine_alter draws.source withdraw_typed.symm]
  simp [engine, withdrawn, Core.QueueEngine.putQueue]

theorem refilled_typed {seq : Nat} (same : m.id = id) :
    ((queue headers (dlq.withdraw id)).hold (label id) (message headers (returned queueName m))).pushReady
        (label id) m.priority seq =
      queue headers ((refilled queueName id dlq m).pushReady seq (returned queueName m)) := by
  subst same
  rw [pushReady_typed]
  simp [queue, DurableQueue.hold, refilled, returned, requeued, Core.DurableQueue.withdraw]

/-- The message goes back to the DLQ. -/
theorem putBack_typed (same : m.id = id) :
    QueueEngine.alter { engine headers (e.withdrawn queueName id dlq) with
        seq := e.seq + 1
        byId := (engine headers (e.withdrawn queueName id dlq)).byId.set (label id) (spell (requeueSource queueName)) }
      (spell (requeueSource queueName)) (fun queue =>
        (queue.hold (label id) (message headers (returned queueName m))).pushReady (label id) m.priority
          (e.seq + 1)) = engine headers (e.putBack queueName id dlq m) := by
  have there : (e.withdrawn queueName id dlq).queues.get? (requeueSource queueName) = some (dlq.withdraw id) :=
    Dict.get?_set_self
  rw [alter_found]
  rotate_left
  · exact engine_found there
  dsimp only
  rw [refilled_typed same]
  simp [engine, putBack, withdrawn, Core.QueueEngine.putQueue, Core.QueueEngine.pushReady]

theorem requeueDead_typed (draws : e.Withdraws queueName id dlq m) (same : m.id = id) :
    exec (QueueEngine.requeueDead (spell (Core.originQueue queueName)) (label id) (message headers m))
        (engine headers e) =
      (.ok (e.dlqRequeue queueName id persist).1, engine headers (e.dlqRequeue queueName id persist).2) := by
  have source : dlqName (spell (Core.originQueue queueName)) = spell (requeueSource queueName) :=
    (spell_dlqName _).symm
  rw [QueueEngine.requeueDead, source, exec_bind_ok exec_modify]
  change exec (QueueEngine.enqueue (message headers (requeued queueName m)) >>= _) _ = _
  have offered : exec _ (engine headers (e.withdrawn queueName id dlq)) =
      (.ok (Core.QueueEngine.enqueue _ (requeued queueName m) false).1, _) := enqueue_typed
  rw [withdrawn_typed draws, exec_bind_ok offered]
  rcases draws.result persist with ⟨dest, accepts, shape⟩ | ⟨⟨dest, found, full⟩, shape⟩
  · have ok : ((e.withdrawn queueName id dlq).enqueue (requeued queueName m) false).1 = .ok :=
      congrArg Prod.fst accepts.2.2
    rw [shape, ok, if_pos rfl]
    simp only [engine_append]
    rfl
  · have refused : (e.withdrawn queueName id dlq).enqueue (requeued queueName m) false =
        (.queueFull, e.withdrawn queueName id dlq) := by
      simp [Core.QueueEngine.enqueue, requeued, found, full]
    rw [shape, refused, if_neg (by simp), exec_bind_ok exec_modify]
    exact congrArg (Prod.mk _) (putBack_typed same)

theorem dlqRequeue_typed (named : e.Named) :
    exec (QueueEngine.dlqRequeue (.text (text queueName)) (.text (text id))) (engine headers e) =
      (.ok (e.dlqRequeue queueName id persist).1, engine headers (e.dlqRequeue queueName id persist).2) := by
  have origin : originQueue (text queueName) = spell (Core.originQueue queueName) :=
    (spell_originQueue queueName).symm
  have source : dlqName (spell (Core.originQueue queueName)) = spell (requeueSource queueName) :=
    (spell_dlqName _).symm
  rw [QueueEngine.dlqRequeue]
  rw [origin, source, exec_bind_ok exec_get, engine_get?, engine_get?]
  cases stored : e.queues.get? (requeueSource queueName) with
  | none => simp [Core.QueueEngine.dlqRequeue, show e.queues.get? (Core.dlqName _) = none from stored]
  | some dlq =>
    have there : e.queues.get? (Core.dlqName (Core.originQueue queueName)) = some dlq := stored
    cases found : e.queues.get? (Core.originQueue queueName) with
    | none => simp [Core.QueueEngine.dlqRequeue, there, found]
    | some dest =>
      dsimp only [Option.map_some]
      rw [exec_bind_ok exec_text, queue_message]
      cases held : dlq.messages.get? id with
      | none => simp [Core.QueueEngine.dlqRequeue, there, found, held]
      | some m =>
        have draws : e.Withdraws queueName id dlq m := ⟨stored, ⟨dest, found⟩, held⟩
        exact requeueDead_typed draws (named.filed draws.heldThere).1

end Requeue

/-! ## Operations -/

/-- What an operation of the engine returns. -/
inductive Answer where
  | declared (name : Text)
  | deleted (existed : Bool)
  | enqueued (result : Core.EnqueueResult)
  | reserved (message : Option Message)
  | acked (result : Core.AckResult)
  | nacked (result : Core.NackResult)
  | recovered (count : Nat)
  | ticked (count : Nat)
  | requeued (done : Bool)

section Operations

open Core.QueueEngine

/-- An operation of the typed engine, called on the untyped one. -/
def perform (headers : Protocol.Json → Value) : EngineOp → Program QueueEngine Raised Answer
  | .declareQueue name a => .declared <$> QueueEngine.declareQueue (.text (text name)) (args a)
  | .deleteQueue name => .deleted <$> QueueEngine.deleteQueue (.text (text name))
  | .enqueue m => .enqueued <$> QueueEngine.enqueue (message headers m)
  | .reserve queueName consumerId => .reserved <$> QueueEngine.reserve (spell queueName) (label consumerId)
  | .ack messageId => .acked <$> QueueEngine.ack (.text (text messageId))
  | .nack messageId requeue => .nacked <$> QueueEngine.nack (.text (text messageId)) requeue
  | .recoverConsumer consumerId => .recovered <$> QueueEngine.recoverConsumer (label consumerId)
  | .tick _ => .ticked <$> QueueEngine.tick
  | .dlqRequeue queueName messageId =>
    .requeued <$> QueueEngine.dlqRequeue (.text (text queueName)) (.text (text messageId))

/-- What the typed engine answers, in the untyped engine's words. -/
def answer (headers : Protocol.Json → Value) (e : Core.QueueEngine) : EngineOp → Except Raised Answer
  | .declareQueue name _ => .ok (.declared (text name))
  | .deleteQueue name => .ok (.deleted (e.deleteQueue name true).1)
  | .enqueue m => .ok (.enqueued (e.enqueue m true).1)
  | .reserve queueName consumerId =>
    .ok (.reserved ((e.reserve queueName consumerId).1.map (message headers)))
  | .ack messageId => .ok (.acked (e.ack messageId true).1)
  | .nack messageId requeue => .ok (.nacked (e.nack messageId requeue true).1)
  | .recoverConsumer consumerId =>
    ((e.recoverConsumer consumerId true).1.mapError fun _ => .runtimeError).map .recovered
  | .tick _ => .ok (.ticked (e.tick none).1)
  | .dlqRequeue queueName messageId => .ok (.requeued (e.dlqRequeue queueName messageId true).1)

/-- The operations as both engines have them: a queue is declared with its
dead-letter queue, the ticker reads the clock, and what is published fits. -/
def Shared (config : Core.EngineConfig) : EngineOp → Prop
  | .declareQueue _ a => a.deadLetter = true
  | .enqueue m => Fits config m
  | .tick now => now = none
  | _ => True

theorem exec_map_of {α β : Type} {program : Program QueueEngine Raised α} {u u' : QueueEngine}
    {result : Except Raised α} {f : α → β} (same : exec program u = (result, u')) :
    exec (f <$> program) u = (result.map f, u') := by
  rw [map_eq_pure_bind, exec_bind, same]
  cases result <;> rfl

theorem exec_hash {u : QueueEngine} :
    exec (MonadExcept.ofExcept (Value.text (text name)).hash : Program QueueEngine Raised Key) u =
      (.ok (.text (text name)), u) := rfl

theorem declareQueue_typed (dead : a.deadLetter = true) :
    exec (QueueEngine.declareQueue (.text (text name)) (args a)) (engine headers e) =
      (.ok (text name), engine headers (e.declareQueue name a persist)) := by
  rw [QueueEngine.declareQueue, exec_bind_ok exec_hash, exec_bind_ok exec_modify]
  exact congrArg (Prod.mk _) (declareText_typed dead)

theorem deleteQueue_typed : exec (QueueEngine.deleteQueue (.text (text name))) (engine headers e) =
    (.ok (e.deleteQueue name persist).1, engine headers (e.deleteQueue name persist).2) := by
  have deleted : (engine headers e).deleteText (text name) =
      ((e.deleteQueue name persist).1, engine headers (e.deleteQueue name persist).2) := deleteText_typed
  rw [QueueEngine.deleteQueue, exec_bind_ok exec_hash]
  exact exec_modifyGet.trans (by rw [deleted])

/-- An operation answers as the typed engine does and ends where it ends. -/
theorem perform_typed {op : EngineOp} (fine : Fine e) (shared : Shared e.config op) :
    exec (perform headers op) (engine headers e) = (answer headers e op, engine headers (e.step true op)) := by
  cases op with
  | declareQueue name a => exact exec_map_of (declareQueue_typed shared)
  | deleteQueue name => exact exec_map_of deleteQueue_typed
  | enqueue m => exact exec_map_of enqueue_typed
  | reserve queueName consumerId => exact exec_map_of reserve_typed
  | ack messageId => exact exec_map_of ack_typed
  | nack messageId requeue => exact exec_map_of (nack_typed fine)
  | recoverConsumer consumerId => exact exec_map_of (recoverConsumer_typed fine)
  | tick now =>
    obtain rfl : now = none := shared
    exact exec_map_of (tick_typed fine)
  | dlqRequeue queueName messageId => exact exec_map_of (dlqRequeue_typed fine.named)

theorem Fine.less (fine : Fine e) (named : e'.Named) (config : e'.config = e.config)
    (messages : ∀ q id m, e'.message? q id = some m → e.message? q id = some m) : Fine e' :=
  fine.descends named config fun q id m held => ⟨q, m, messages q id m held, rfl, .inl le_rfl⟩

theorem enqueue_fine (fine : Fine e) (fits : Fits e.config m) : Fine (e.enqueue m true).2 := by
  have named : (e.enqueue m true).2.Named := step_named fine.named (.enqueue m)
  rcases enqueue_cases e m true with ⟨q, accepts⟩ | ⟨_, same⟩
  · refine ⟨named, fun q id m' held => ?_⟩
    rw [accepts.config]
    rw [accepts.message?] at held
    split at held
    · obtain rfl := Option.some.inj held
      unfold dueMessage
      split
      · exact fits
      · split <;> exact fits
    · exact fine.fits q id m' held
  · rw [same]
    exact fine

theorem nack_fine (fine : Fine e) : Fine (e.nack id requeue true).2 := by
  refine fine.descends (nack_named fine.named) nack_config ?_
  rcases nack_cases e id requeue true with ⟨name, q, m, nacks⟩ | ⟨_, same | ⟨name, q, _, found, _, shape⟩⟩
  · exact .exit (nacks.exit fine.named)
  · exact .same (congrArg Core.QueueEngine.message? same)
  · rw [shape]
    exact .same (endDelivery_observe id found rfl).1

theorem dlqRequeue_fine {queueName : String} (fine : Fine e) : Fine (e.dlqRequeue queueName id true).2 := by
  refine fine.descends (dlqRequeue_named fine.named) dlqRequeue_config ?_
  have requeue := dlqRequeue_requeue fine.named queueName id true
  generalize (e.dlqRequeue queueName id true).1 = result at requeue
  generalize (e.dlqRequeue queueName id true).2 = e' at requeue ⊢
  cases requeue with
  | missing => exact .same rfl
  | moved old e' before messages =>
    intro q other m' held
    rw [messages] at held
    split at held
    · rename_i here
      obtain rfl := Option.some.inj held
      exact ⟨_, old, here.2 ▸ before, rfl, .inr rfl⟩
    · split at held
      · cases held
      · exact ⟨q, m', held, rfl, .inl le_rfl⟩
  | refused old e' before messages =>
    intro q other m' held
    rw [messages] at held
    split at held
    · rename_i here
      obtain rfl := Option.some.inj held
      exact ⟨_, old, here.2 ▸ before, rfl, .inr rfl⟩
    · exact ⟨q, m', held, rfl, .inl le_rfl⟩

/-- Every operation keeps what is held fitting. -/
theorem step_fine {config : Core.EngineConfig} {op : EngineOp} (fine : Fine e) (kept : e.config = config)
    (shared : Shared config op) : Fine (e.step true op) ∧ (e.step true op).config = config := by
  subst kept
  have named : (e.step true op).Named := step_named fine.named op
  cases op with
  | declareQueue name a =>
    have config : (e.declareQueue name a true).config = e.config := (declareQueue_frame e name a true).2.2.2.1
    exact ⟨fine.descends named config (.same declareQueue_observe.1), config⟩
  | deleteQueue name =>
    have config : (e.deleteQueue name true).2.config = e.config := (deleteQueue_frame e name true).2.2
    refine ⟨fine.less named config fun q id m held => ?_, config⟩
    classical
    change (e.deleteQueue name true).2.message? q id = some m at held
    rw [deleteQueue_message?] at held
    split at held
    · cases held
    · exact held
  | enqueue m =>
    refine ⟨enqueue_fine fine shared, ?_⟩
    rcases enqueue_cases e m true with ⟨q, accepts⟩ | ⟨_, same⟩
    · exact accepts.config
    · exact congrArg Core.QueueEngine.config same
  | reserve queueName consumerId =>
    have config : (e.reserve queueName consumerId).2.config = e.config := reserve_frame.2.2.1
    exact ⟨fine.descends named config (.same reserve_message?), config⟩
  | ack messageId =>
    have config : (e.ack messageId true).2.config = e.config := (ack_frame e messageId true).2.2
    refine ⟨fine.less named config fun q id m held => ?_, config⟩
    rcases ack_cases e messageId true with ⟨name, queue, settles⟩ | ⟨_, same⟩
    · change (e.ack messageId true).2.message? q id = some m at held
      rw [settles.message?] at held
      split at held
      · cases held
      · exact held
    · exact same ▸ held
  | nack messageId requeue => exact ⟨nack_fine fine, nack_config⟩
  | recoverConsumer consumerId =>
    exact recoverConsumer_preserves (I := fun e' => Fine e' ∧ e'.config = e.config) (fun _ inv => inv.1.named)
      (fun _ _ _ _ inv _ _ => ⟨inv.1.failDelivery, failDelivery_frame.1.trans inv.2⟩) ⟨fine, rfl⟩
  | tick now =>
    refine tick_preserves (I := fun e' => Fine e' ∧ e'.config = e.config) (fun e' name id inv => ?_)
      (fun _ _ _ _ inv _ _ => ⟨inv.1.failDelivery, failDelivery_frame.1.trans inv.2⟩)
      (fun _ _ _ _ inv => ⟨⟨inv.1.named, inv.1.fits⟩, inv.2⟩) ⟨fine, rfl⟩
    exact ⟨inv.1.releaseOne, (releaseOne_observe e' name id).2.2.2.2.2.trans inv.2⟩
  | dlqRequeue queueName messageId => exact ⟨dlqRequeue_fine fine, dlqRequeue_config⟩

/-! ## Runs -/

/-- Operations one after the other, each with what it returns or raises. -/
def performs (headers : Protocol.Json → Value) :
    List EngineOp → Program QueueEngine Raised (List (Except Raised Answer))
  | [] => return []
  | op :: rest => do
    let result ← attempt (perform headers op)
    return result :: (← performs headers rest)

theorem performs_from {config : Core.EngineConfig} {ops : List EngineOp} (fine : Fine e) (kept : e.config = config)
    (shared : ∀ op ∈ ops, Shared config op) :
    exec (performs headers ops) (engine headers e) =
      (.ok (observed (step true) (fun e op => [answer headers e op]) e ops),
        engine headers (run (step true) e ops)) := by
  induction ops generalizing e with
  | nil => rfl
  | cons op rest ih =>
    obtain ⟨here, there⟩ := List.forall_mem_cons.mp shared
    obtain ⟨left, same⟩ := step_fine fine kept here
    have first : exec (attempt (perform headers op)) (engine headers e) =
        (.ok (answer headers e op), engine headers (e.step true op)) := by
      rw [exec_attempt, perform_typed fine (kept ▸ here)]
    rw [performs, exec_bind_ok first, exec_bind_ok (ih left same there)]
    rfl

/-- Only the recovery of a consumer raises. -/
theorem answer_raises {op : EngineOp} {raised : Raised} (raises : answer headers e op = .error raised) :
    raised = .runtimeError ∧ ∃ consumerId, op = .recoverConsumer consumerId := by
  cases op with
  | recoverConsumer consumerId =>
    refine ⟨?_, consumerId, rfl⟩
    rw [answer] at raises
    cases outcome : (e.recoverConsumer consumerId true).1 with
    | ok n =>
      rw [outcome] at raises
      cases raises
    | error _ =>
      rw [outcome] at raises
      exact (Except.error.inj raises).symm
  | declareQueue | deleteQueue | enqueue | reserve | ack | nack | tick | dlqRequeue => cases raises

theorem observed_raises {ops : List EngineOp} {pair : EngineOp × Except Raised Answer} {raised : Raised}
    (among : pair ∈ ops.zip (observed (step true) (fun e op => [answer headers e op]) e ops))
    (raises : pair.2 = .error raised) : raised = .runtimeError ∧ ∃ consumerId, pair.1 = .recoverConsumer consumerId := by
  induction ops generalizing e with
  | nil => cases among
  | cons op rest ih =>
    rcases List.mem_cons.mp among with rfl | later
    · exact answer_raises raises
    · exact ih later

/-- A message dies with its consumer, and its dead-letter queue is gone. -/
def buriedLate : List EngineOp :=
  [.declareQueue "jobs" {}, .enqueue ⟨"m", "jobs", [7], 0, 0, 1, 0, none, none, "", ""⟩,
    .reserve "jobs" "w", .deleteQueue "jobs.DLQ", .recoverConsumer "w", .reserve "jobs.DLQ" "w",
    .dlqRequeue "jobs" "m", .ack "m", .tick none]

end Operations

end OneOpenBroker.Untyped.Typed

import OneOpenBroker.Untyped.Typed

/-! Every operation of the untyped engine, on what the typed engine was
translated to, is the operation of the typed one. Failed deliveries take more:
what is held must be stored under its own id, and the delay of a retry must not
run past the largest float. -/
namespace OneOpenBroker.Untyped.Typed
open Collections Programs Program

variable {headers : Protocol.Json → Value} {e : Core.QueueEngine} {name id : String}
  {q q' : Core.DurableQueue} {m : Core.Message} {a : Core.QueueArgs} {persist : Bool}

/-! ## Parts of the state -/

@[simp] theorem engine_append {op : Core.JournalOp} :
    engine headers (e.append persist op) = engine headers e := by
  cases persist <;> rfl

theorem engine_get? :
    (engine headers e).queues.get? (spell name) = (e.queues.get? name).map (queue headers) :=
  Dict.get?_relabel

theorem engine_found (found : e.queues.get? name = some q) :
    (engine headers e).queues.get? (spell name) = some (queue headers q) := by
  rw [engine_get?, found, Option.map_some]

theorem engine_missing (missing : e.queues.get? name = none) :
    (engine headers e).queues.get? (spell name) = none := by
  rw [engine_get?, missing, Option.map_none]

theorem engine_putQueue : engine headers (e.putQueue name q) =
    { engine headers e with queues := (engine headers e).queues.set (spell name) (queue headers q) } := by
  simp [engine, Core.QueueEngine.putQueue]

/-- A change of a queue that is found. -/
theorem engine_alter {change : DurableQueue → DurableQueue} (found : e.queues.get? name = some q)
    (same : change (queue headers q) = queue headers q') :
    (engine headers e).alter (spell name) change = engine headers (e.putQueue name q') := by
  rw [QueueEngine.alter, engine_found found, engine_putQueue, ← same]

/-! ## Queues -/

theorem bound_default (limit fallback : Option ℤ) :
    (bound limit).default (bound fallback) = bound (limit.orElse fun _ => fallback) := by
  cases limit <;> rfl

theorem makeSpec_typed (dead : Bool) : (engine headers e).makeSpec (spell name) (args a) dead =
    spec (e.makeSpec name { a with deadLetter := dead }) := by
  have length : (args a).maxLength.default (bound e.config.maxLength) = bound _ :=
    bound_default a.maxLength e.config.maxLength
  have timeout : (args a).visibilityTimeout.default (.number (.float e.config.visibilityTimeout)) =
      .number (.float (a.visibilityTimeout.getD e.config.visibilityTimeout)) := by
    unfold args
    cases a.visibilityTimeout <;> rfl
  have attempts : (args a).maxAttempts.default (.number (.int e.config.maxAttempts)) =
      .number (.int (a.maxAttempts.getD e.config.maxAttempts)) := by
    unfold args
    cases a.maxAttempts <;> rfl
  unfold QueueEngine.makeSpec Core.QueueEngine.makeSpec spec
  rw [isDlq_spell, ← length, ← timeout, ← attempts]
  rfl

theorem declareLeaf_typed : (engine headers e).declareLeaf (spell name) (args a) =
    engine headers (e.declareLeaf name a persist) := by
  unfold QueueEngine.declareLeaf Core.QueueEngine.declareLeaf
  have known : spell name ∈ (engine headers e).queues ↔ name ∈ e.queues := Dict.mem_relabel
  by_cases there : name ∈ e.queues
  · rw [if_pos there, if_pos (known.mpr there)]
  · rw [if_neg there, if_neg (mt known.mp there), engine_append, engine_putQueue, makeSpec_typed]
    rfl

theorem declareText_typed (dead : a.deadLetter = true) :
    (engine headers e).declareText (spell name) (args a) =
      engine headers (e.declareQueue name a persist) := by
  unfold QueueEngine.declareText Core.QueueEngine.declareQueue
  have known : spell name ∈ (engine headers e).queues ↔ name ∈ e.queues := Dict.mem_relabel
  by_cases there : name ∈ e.queues
  · rw [if_pos there, if_pos (known.mpr there)]
  · rw [if_neg there, if_neg (mt known.mp there), engine_append, makeSpec_typed]
    have same : ({ a with deadLetter := true } : Core.QueueArgs) = a := by rw [← dead]
    have stored : engine headers (e.putQueue name { spec := e.makeSpec name a }) = _ := engine_putQueue
    rw [same]
    dsimp only
    change (if (e.makeSpec name a).deadLetter = true then
      QueueEngine.declareLeaf { engine headers e with
        queues := (engine headers e).queues.set (spell name) (queue headers ⟨e.makeSpec name a, [], ∅, ∅, [], ∅, {}, [], 0⟩) }
        (dlqName (spell name)) (args (Core.QueueEngine.leafArgs (e.makeSpec name a)))
      else _) = _
    split
    · rw [← spell_dlqName, ← declareLeaf_typed, stored]
      rfl
    · exact stored.symm

theorem removeQueue_typed (found : e.queues.get? name = some q) :
    (engine headers e).deleteLeaf (spell name) = engine headers (e.removeQueue name q persist) := by
  unfold QueueEngine.deleteLeaf Core.QueueEngine.removeQueue
  rw [engine_found found, engine_append]
  simp [engine, queue]

theorem deleteLeaf_typed : (engine headers e).deleteLeaf (spell name) =
    engine headers (e.deleteLeaf name persist) := by
  unfold Core.QueueEngine.deleteLeaf
  cases found : e.queues.get? name with
  | none => rw [QueueEngine.deleteLeaf, engine_missing found]
  | some q => exact removeQueue_typed found

theorem deleteText_typed : (engine headers e).deleteText (spell name) =
    ((e.deleteQueue name persist).1, engine headers (e.deleteQueue name persist).2) := by
  unfold QueueEngine.deleteText Core.QueueEngine.deleteQueue
  cases found : e.queues.get? name with
  | none => rw [engine_missing found]
  | some q =>
    rw [engine_found found]
    dsimp only
    rw [removeQueue_typed found, ← spell_dlqName]
    change (_, if q.spec.deadLetter = true then _ else _) = _
    split
    · rw [deleteLeaf_typed]
    · rfl

/-! ## Publishing and delivery -/

@[simp] theorem message_queue : (message headers m).queue = spell m.queue := rfl

theorem exec_now : exec QueueEngine.now (engine headers e) = (.ok e.now.1, engine headers e.now.2) := rfl

theorem exec_messageId {u : QueueEngine} :
    exec (MonadExcept.ofExcept (message headers m).id.hash : Program QueueEngine Raised Key) u =
      (.ok (label m.id), u) := rfl

theorem exec_text {u : QueueEngine} :
    exec (MonadExcept.ofExcept (Value.text (text id)).hash : Program QueueEngine Raised Key) u =
      (.ok (label id), u) := rfl

@[simp] theorem message_priority : (message headers m).priority = m.priority := rfl

theorem depth_typed : (queue headers q).depth = q.depth := by
  simp [DurableQueue.depth, Core.DurableQueue.depth, Core.DurableQueue.readyCount,
    Core.DurableQueue.inflightCount, Core.DurableQueue.delayedCount, queue]

theorem reachedBy_int {n : ℤ} {count : Nat} :
    (Value.number (.int n)).reachedBy count = .ok (decide (n ≤ count)) := by
  have order : Moment.of (n : ℚ) ≤ Moment.of (count : ℚ) ↔ n ≤ count := by
    rw [moment_le]
    exact_mod_cast Iff.rfl
  exact congrArg Except.ok (decide_eq_decide.mpr order)

theorem isFull_typed : QueueEngine.isFull (queue headers q) = .ok q.isFull := by
  have written : (queue headers q).spec.maxLength = bound q.spec.maxLength := rfl
  unfold QueueEngine.isFull Core.DurableQueue.isFull
  rw [depth_typed, written]
  cases q.spec.maxLength with
  | none => rfl
  | some limit => exact reachedBy_int

theorem dueMessage_typed {now : ℚ} : QueueEngine.dueMessage (message headers m) now =
    message headers (Core.QueueEngine.dueMessage m now) := by
  have due : (message headers m).availableAt = m.availableAt := rfl
  unfold QueueEngine.dueMessage Core.QueueEngine.dueMessage
  rw [due]
  cases m.availableAt with
  | none => rfl
  | some due =>
    dsimp only
    split <;> rfl

theorem pushReady_typed {seq : Nat} : queue headers (q.pushReady seq m) =
    (queue headers q).pushReady (label m.id) m.priority seq := by
  simp [queue, Core.DurableQueue.pushReady, DurableQueue.pushReady, map_pushReady, readyEntry]

theorem hold_typed : queue headers (q.hold m) = (queue headers q).hold (label m.id) (message headers m) := by
  simp [queue, Core.DurableQueue.hold, DurableQueue.hold]

theorem delay_typed : queue headers { q with delayedIds := insert id q.delayedIds } =
    (queue headers q).delay (label id) := by
  simp [queue, DurableQueue.delay]

theorem alter_found {u : QueueEngine} {name : Text} {queue : DurableQueue} {change : DurableQueue → DurableQueue}
    (found : u.queues.get? name = some queue) :
    u.alter name change = { u with queues := u.queues.set name (change queue) } := by
  rw [QueueEngine.alter, found]

theorem accept_typed (found : e.queues.get? m.queue = some q) :
    (engine headers e).accept (label m.id) (message headers m) = engine headers (e.accept q m) := by
  unfold QueueEngine.accept Core.QueueEngine.accept
  have due : (message headers m).availableAt = m.availableAt := rfl
  rw [due]
  cases m.availableAt with
  | none =>
    dsimp only
    rw [alter_found]
    rotate_left
    · exact engine_found found
    simp [engine, Core.QueueEngine.pushReady, pushReady_typed, hold_typed]
  | some due =>
    dsimp only
    rw [alter_found]
    rotate_left
    · exact engine_found found
    simp [engine, Core.QueueEngine.putQueue, Core.QueueEngine.pushDelayed, map_pushTimed, timedEntry,
      delay_typed, hold_typed]

theorem enqueue_typed : exec (QueueEngine.enqueue (message headers m)) (engine headers e) =
    (.ok (e.enqueue m persist).1, engine headers (e.enqueue m persist).2) := by
  unfold QueueEngine.enqueue Core.QueueEngine.enqueue
  rw [exec_bind_ok exec_get, message_queue]
  cases found : e.queues.get? m.queue with
  | none =>
    rw [engine_missing found]
    rfl
  | some q =>
    rw [engine_found found]
    dsimp only
    rw [isFull_typed, exec_bind_ok exec_ofExcept]
    split
    · rfl
    · have same : (Core.QueueEngine.dueMessage m e.now.1).queue = m.queue ∧
          (Core.QueueEngine.dueMessage m e.now.1).id = m.id := by
        unfold Core.QueueEngine.dueMessage
        split
        · exact ⟨rfl, rfl⟩
        · split <;> exact ⟨rfl, rfl⟩
      have there : e.now.2.queues.get? (Core.QueueEngine.dueMessage m e.now.1).queue = some q := by
        rw [same.1]
        exact found
      have accepted : (engine headers e.now.2).accept _ _ = _ := accept_typed there
      rw [same.2] at accepted
      rw [exec_bind_ok exec_now, exec_bind_ok exec_messageId, dueMessage_typed, exec_bind_ok exec_modify,
        accepted]
      dsimp only
      rw [engine_append]
      rfl

theorem popDeliverable_typed (entries : List Core.ReadyEntry) :
    QueueEngine.popDeliverable (queue headers q) (entries.map readyEntry) =
      ((Core.QueueEngine.popDeliverable q entries).1.map fun found => (label found.1, message headers found.2),
        (Core.QueueEngine.popDeliverable q entries).2.map readyEntry) := by
  induction entries with
  | nil => rfl
  | cons entry rest ih =>
    have held : (queue headers q).messages.get? (label entry.messageId) =
        (q.messages.get? entry.messageId).map (message headers) := Dict.get?_relabel
    have busy : label entry.messageId ∈ (queue headers q).inflight ∨
        label entry.messageId ∈ (queue headers q).delayedIds ↔
        entry.messageId ∈ q.inflight ∨ entry.messageId ∈ q.delayedIds := by
      simp [queue]
    have named : (readyEntry entry).messageId = label entry.messageId := rfl
    rw [List.map_cons, QueueEngine.popDeliverable, Core.QueueEngine.popDeliverable, named, held]
    cases q.messages.get? entry.messageId with
    | none => exact ih
    | some m =>
      dsimp only [Option.map_some]
      by_cases stale : entry.messageId ∈ q.inflight ∨ entry.messageId ∈ q.delayedIds
      · rw [if_pos stale]
        exact (if_pos (busy.mpr stale)).trans ih
      · rw [if_neg stale]
        exact if_neg (mt busy.mp stale)

theorem deliver_typed {rest : List Core.ReadyEntry} {record : Core.InflightRecord} :
    queue headers (q.deliver rest record) =
      (queue headers { q with ready := rest }).deliver (Typed.record record) := by
  simp [queue, Core.DurableQueue.deliver, DurableQueue.deliver, Typed.record]

theorem exec_deadline {now : ℚ} {u : QueueEngine} :
    exec (MonadExcept.ofExcept (addSeconds now (queue headers q).spec.visibilityTimeout) :
      Program QueueEngine Raised Moment) u = (.ok (Moment.of (now + q.spec.visibilityTimeout)), u) := rfl

theorem reserve_typed {consumerId : String} :
    exec (QueueEngine.reserve (spell name) (label consumerId)) (engine headers e) =
      (.ok ((e.reserve name consumerId).1.map (message headers)), engine headers (e.reserve name consumerId).2) := by
  unfold QueueEngine.reserve Core.QueueEngine.reserve
  rw [exec_bind_ok exec_get]
  cases found : e.queues.get? name with
  | none =>
    rw [engine_missing found]
    rfl
  | some q =>
    rw [engine_found found]
    dsimp only
    have popped : QueueEngine.popDeliverable (queue headers q) (queue headers q).ready = _ :=
      popDeliverable_typed q.ready
    rw [popped]
    rcases Core.QueueEngine.popDeliverable q q.ready with ⟨_ | ⟨id, m⟩, rest⟩
    all_goals
      have left : (engine headers e).alter (spell name) (fun queue =>
          { queue with ready := rest.map readyEntry }) = engine headers (e.putQueue name { q with ready := rest }) :=
        engine_alter found rfl
    · dsimp only [Option.map_none]
      rw [exec_bind_ok exec_modify, left]
      rfl
    · dsimp only [Option.map_some]
      rw [exec_bind_ok exec_modify, left, exec_bind_ok exec_now, exec_bind_ok exec_deadline, exec_bind_ok exec_modify,
        QueueEngine.deliver, alter_found]
      rotate_left
      · exact engine_found (e := e.putQueue name { q with ready := rest }) Dict.get?_set_self
      simp [engine, Core.QueueEngine.putQueue, Core.QueueEngine.now, map_pushTimed, timedEntry,
        deliver_typed, Typed.record]

/-! ## Settling a delivery -/

theorem engine_acked : label id ∈ (engine headers e).recentAcks ↔ id ∈ e.recentAcks :=
  List.mem_map_of_injective label.injective

theorem rememberAck_typed : (engine headers e).rememberAck (label id) = engine headers (e.rememberAck id) := by
  have same : (if label id ∈ (engine headers e).recentAcks then (engine headers e).recentAcks
      else (engine headers e).recentAcks ++ [label id]) =
      (if id ∈ e.recentAcks then e.recentAcks else e.recentAcks ++ [id]).map label := by
    by_cases there : id ∈ e.recentAcks
    · rw [if_pos there, if_pos (engine_acked.mpr there)]
      rfl
    · rw [if_neg there, if_neg (mt engine_acked.mp there), List.map_append]
      rfl
  unfold QueueEngine.rememberAck Core.QueueEngine.rememberAck
  rw [same]
  simp only [List.length_map, ← List.map_drop]
  rfl

theorem settle_typed : queue headers (q.settle id) =
    ((queue headers q).endDelivery (label id)).discard (label id) := by
  simp [queue, Core.DurableQueue.settle, DurableQueue.endDelivery, DurableQueue.discard]

theorem engine_byId : (engine headers e).byId.get? (label id) = (e.byId.get? id).map spell := Dict.get?_relabel

theorem queue_inflight : label id ∈ (queue headers q).inflight ↔ id ∈ q.inflight := Dict.mem_relabel

theorem ack_typed : exec (QueueEngine.ack (.text (text id))) (engine headers e) =
    (.ok (e.ack id persist).1, engine headers (e.ack id persist).2) := by
  unfold QueueEngine.ack QueueEngine.ackKey Core.QueueEngine.ack
  rw [exec_bind_ok exec_text, exec_modifyGet, engine_byId]
  by_cases acked : id ∈ e.recentAcks
  · rw [if_pos acked, if_pos (engine_acked.mpr acked)]
  rw [if_neg acked, if_neg (mt engine_acked.mp acked)]
  cases e.byId.get? id with
  | none => rfl
  | some name =>
    dsimp only [Option.map_some]
    cases found : e.queues.get? name with
    | none => rw [engine_missing found]
    | some q =>
      rw [engine_found found]
      dsimp only
      by_cases flying : id ∈ q.inflight
      · rw [if_pos flying, if_pos (queue_inflight.mpr flying), engine_append, ← rememberAck_typed,
          engine_alter found settle_typed.symm]
        simp [engine, Core.QueueEngine.putQueue]
      · rw [if_neg flying, if_neg (mt queue_inflight.mp flying)]

/-! ## Failed deliveries -/

/-- A power of two that is no larger than the largest float. -/
theorem toFloat_power {n : Nat} (small : n ≤ 1023) : toFloat (2 ^ n) = .ok (2 ^ n) := by
  have twice (x : ℤ) : x = 2 * x - x := by omega
  have inside : |(2 : ℤ) ^ n| < 2 ^ 1024 - 2 ^ 970 := by
    rw [abs_of_pos (by positivity)]
    calc (2 : ℤ) ^ n
      _ ≤ 2 ^ 1023 := pow_le_pow_right₀ (by decide) small
      _ = 2 * 2 ^ 1023 - 2 ^ 1023 := twice _
      _ < 2 * 2 ^ 1023 - 2 ^ 970 := sub_lt_sub_left (pow_lt_pow_right₀ (by decide) (by decide)) _
      _ = 2 ^ 1024 - 2 ^ 970 := by rw [← pow_succ']
  rw [toFloat, if_pos inside, Int.cast_pow]
  rfl

/-- The delay of a retry is computed, without an overflow. -/
theorem retryDelay_typed {n : Nat} {mode : Core.Backoff} {base : ℚ} (positive : 1 ≤ n)
    (small : mode = .fixed ∨ n ≤ 1024) :
    QueueEngine.retryDelay n mode base = .ok (Core.retryDelay n mode base) := by
  unfold QueueEngine.retryDelay Core.retryDelay
  have least : ¬ (n : ℤ) < 1 := by omega
  cases mode with
  | fixed => rfl
  | exponential =>
    have bounded : n ≤ 1024 := small.resolve_left (by decide)
    dsimp only
    rw [toFloat_power (by omega), if_neg least]
    have power : ((n : ℤ) - 1).toNat = n - 1 := by omega
    rw [power]
    rfl

/-- A message that can be retried without running past the largest float. -/
def Fits (config : Core.EngineConfig) (m : Core.Message) : Prop :=
  0 ≤ m.attempts ∧ (config.retryBackoff = .fixed ∨ m.maxAttempts ≤ 1025)

theorem discard_typed : queue headers (q.discard id) = (queue headers q).discard (label id) := by
  simp [queue, Core.DurableQueue.discard, DurableQueue.discard]

/-- The first half of `moveToDlq`. -/
def removed (u : QueueEngine) (name : Text) (id : Key) : QueueEngine :=
  { u.alter name (·.discard id) with byId := u.byId.erase id }

/-- The queue that takes a dead message. -/
def grave (queue : DurableQueue) (id : Key) (m : Message) (seq : Nat) : DurableQueue :=
  { (queue.hold id m).pushReady id m.priority seq with dlqIds := queue.dlqIds ++ [id] }

/-- The second half of `moveToDlq`. -/
def buried (u : QueueEngine) (dest : Text) (id : Key) (m : Message) : QueueEngine :=
  QueueEngine.alter { u with seq := u.seq + 1, byId := u.byId.set id dest } dest (grave · id m (u.seq + 1))

theorem moveToDlq_eq (u : QueueEngine) (name : Text) (dead : Bool) (id : Key) (m : Message) :
    u.moveToDlq name dead id m = if dead then
      buried ((removed u name id).declareLeaf (dlqName name) {}) (dlqName name) id
        { m with queue := dlqName name, availableAt := none }
    else removed u name id := rfl

theorem grave_typed {seq : Nat} : grave (queue headers q) (label m.id) (message headers m) seq =
    queue headers (({ q.hold m with dlqIds := q.dlqIds ++ [m.id] } : Core.DurableQueue).pushReady seq m) := by
  rw [pushReady_typed, grave, ← hold_typed]
  simp [queue, DurableQueue.pushReady]

theorem buried_typed (found : e.queues.get? name = some q) :
    buried (engine headers e) (spell name) (label m.id) (message headers m) = engine headers (e.bury name m) := by
  rw [Core.QueueEngine.bury, found, buried, alter_found]
  rotate_left
  · exact engine_found found
  simp [engine, Core.QueueEngine.pushReady, grave_typed]

theorem removed_typed (found : e.queues.get? name = some q) :
    removed (engine headers e) (spell name) (label m.id) = engine headers (e.discarded name q m persist) := by
  rw [Core.QueueEngine.discarded, engine_append, removed, engine_alter found discard_typed.symm]
  simp [engine, Core.QueueEngine.putQueue]

/-- A message is dead-lettered. -/
theorem moveToDlq_typed (found : e.queues.get? name = some q) :
    (engine headers e).moveToDlq (spell name) q.spec.deadLetter (label m.id) (message headers m) =
      engine headers (e.moveToDlq name q m persist) := by
  have discarded : _ = engine headers (e.discarded name q m persist) := removed_typed found
  rw [moveToDlq_eq, Core.QueueEngine.moveToDlq_eq, discarded]
  split
  · obtain ⟨dest, known⟩ := Core.QueueEngine.declareLeaf_known (e.discarded name q m persist)
      (Core.dlqName name) {} false
    have leaf : (engine headers (e.discarded name q m persist)).declareLeaf (spell (Core.dlqName name)) {} =
        engine headers ((e.discarded name q m persist).declareLeaf (Core.dlqName name) {} false) :=
      declareLeaf_typed (a := {})
    rw [← spell_dlqName, leaf]
    exact buried_typed (m := Core.QueueEngine.buried name m) known
  · rfl

theorem waits_typed {due : ℚ} : queue headers (q.delay { m with availableAt := some due }) =
    ((queue headers q).hold (label m.id) { message headers m with availableAt := some due }).delay
      (label m.id) := by
  simp [queue, Core.DurableQueue.delay, DurableQueue.hold, DurableQueue.delay, message]

/-- A message is put back on a delay. -/
theorem delayRetry_typed (found : e.queues.get? name = some q) :
    (engine headers e.now.2).delayRetry (spell name) (label m.id) (message headers m)
      (e.now.1 + Core.retryDelay m.attempts e.config.retryBackoff e.config.retryBaseDelay) =
      engine headers (e.delayRetry name q m persist) := by
  unfold QueueEngine.delayRetry Core.QueueEngine.delayRetry
  rw [alter_found]
  rotate_left
  · exact engine_found found
  dsimp only
  rw [engine_append]
  simp [engine, Core.QueueEngine.pushDelayed, Core.QueueEngine.putQueue, Core.QueueEngine.now, map_pushTimed,
    timedEntry, waits_typed]

/-- What a failed delivery has stored is replaced when it ends. -/
theorem conclude_stored :
    (e.putQueue name { q with messages := q.messages.set m.id m }).moveToDlq name
        { q with messages := q.messages.set m.id m } m persist = e.moveToDlq name q m persist ∧
      (e.putQueue name { q with messages := q.messages.set m.id m }).delayRetry name
        { q with messages := q.messages.set m.id m } m persist = e.delayRetry name q m persist := by
  constructor
  · simp [Core.QueueEngine.moveToDlq_eq, Core.QueueEngine.discarded, Core.QueueEngine.putQueue,
      Core.DurableQueue.discard]
  · simp [Core.QueueEngine.delayRetry, Core.QueueEngine.putQueue, Core.DurableQueue.delay,
      Core.QueueEngine.now]

theorem stored_typed : queue headers { q with messages := q.messages.set m.id m } =
    (queue headers q).hold (label m.id) (message headers m) := by
  simp [queue, DurableQueue.hold]

/-- `retryOrDead` once the attempt is counted. -/
def counted (name : Text) (dead : Bool) (id : Key) (m : Message) : Program QueueEngine Raised Unit := do
  modify (·.alter name (·.hold id m))
  if ← MonadExcept.ofExcept (m.maxAttempts.reachedBy m.attempts) then
    modify (·.moveToDlq name dead id m)
  else
    let config := (← get).config
    let delay ← MonadExcept.ofExcept
      (QueueEngine.retryDelay m.attempts config.retryBackoff config.retryBaseDelay)
    let now ← QueueEngine.now
    modify (·.delayRetry name id m (now + delay))

theorem retryOrDead_eq (name : Text) (dead : Bool) (id : Key) (m : Message) :
    QueueEngine.retryOrDead name dead id m =
      counted name dead id { m with attempts := m.attempts + 1 } := rfl

/-- The message waits for its retry or is dead. -/
theorem counted_typed (found : e.queues.get? name = some q) (positive : 1 ≤ m.attempts)
    (small : e.config.retryBackoff = .fixed ∨ m.maxAttempts ≤ 1025) :
    exec (counted (spell name) q.spec.deadLetter (label m.id) (message headers m)) (engine headers e) =
      (.ok (), engine headers (if m.maxAttempts ≤ m.attempts then e.moveToDlq name q m persist
        else e.delayRetry name q m persist)) := by
  have whole : (m.attempts.toNat : ℤ) = m.attempts := by omega
  have there : (e.putQueue name { q with messages := q.messages.set m.id m }).queues.get? name =
      some { q with messages := q.messages.set m.id m } := Dict.get?_set_self
  have reached : (message headers m).maxAttempts.reachedBy (message headers m).attempts =
      .ok (decide (m.maxAttempts ≤ m.attempts)) := by
    change (Value.number (.int m.maxAttempts)).reachedBy m.attempts.toNat = _
    rw [reachedBy_int, whole]
  unfold counted
  rw [exec_bind_ok exec_modify, engine_alter found stored_typed.symm, reached, exec_bind_ok exec_ofExcept]
  by_cases spent : m.maxAttempts ≤ m.attempts
  · rw [if_pos spent, if_pos (decide_eq_true spent), exec_modify]
    rw [← conclude_stored.1]
    exact congrArg (Prod.mk _) (moveToDlq_typed (m := m) there)
  · have delay : QueueEngine.retryDelay (message headers m).attempts e.config.retryBackoff
        e.config.retryBaseDelay =
        .ok (Core.retryDelay m.attempts e.config.retryBackoff e.config.retryBaseDelay) := by
      change QueueEngine.retryDelay m.attempts.toNat _ _ = _
      rw [retryDelay_typed (by omega) (small.imp_right fun bound => by omega), whole]
    rw [if_neg spent, if_neg (by simpa using spent), exec_bind_ok exec_get]
    change exec (MonadExcept.ofExcept (QueueEngine.retryDelay (message headers m).attempts
      e.config.retryBackoff e.config.retryBaseDelay) >>= _) _ = _
    rw [delay, exec_bind_ok exec_ofExcept, exec_bind_ok exec_now, exec_modify]
    rw [← conclude_stored.2]
    exact congrArg (Prod.mk _) (delayRetry_typed (m := m) there)

theorem retryOrDead_typed (found : e.queues.get? name = some q) (fits : Fits e.config m) :
    exec (QueueEngine.retryOrDead (spell name) q.spec.deadLetter (label m.id) (message headers m))
      (engine headers e) = (.ok (), engine headers (e.retryOrDead name q m persist)) := by
  have sum : (m.attempts + 1).toNat = m.attempts.toNat + 1 := by
    have positive := fits.1
    omega
  have next : { message headers m with attempts := (message headers m).attempts + 1 } =
      message headers { m with attempts := m.attempts + 1 } := by simp [message, sum]
  rw [retryOrDead_eq, next]
  exact counted_typed (m := { m with attempts := m.attempts + 1 }) found
    (Int.le_add_of_nonneg_left fits.1) fits.2

theorem endDelivery_typed : queue headers (q.endDelivery id) = (queue headers q).endDelivery (label id) := by
  simp [queue, Core.DurableQueue.endDelivery, DurableQueue.endDelivery]

theorem queue_message : (queue headers q).messages.get? (label id) =
    (q.messages.get? id).map (message headers) := Dict.get?_relabel

/-- What is held fits, and is stored under its own id. -/
structure Fine (e : Core.QueueEngine) : Prop where
  named : e.Named
  fits : ∀ q m message, e.message? q m = some message → Fits e.config message

theorem Fine.held (fine : Fine e) (found : e.queues.get? name = some q) (held : q.messages.get? id = some m) :
    m.id = id ∧ Fits e.config m :=
  ⟨((fine.named name q found).messages id m held).1,
    fine.fits name id m ((Core.QueueEngine.message?_of_get found).trans held)⟩

theorem failDelivery_typed (fine : Fine e) :
    exec (QueueEngine.failDelivery (spell name) (label id)) (engine headers e) =
      (.ok (e.failDelivery name id persist).1.toNat, engine headers (e.failDelivery name id persist).2) := by
  unfold QueueEngine.failDelivery Core.QueueEngine.failDelivery
  rw [exec_bind_ok exec_get]
  cases found : e.queues.get? name with
  | none =>
    rw [engine_missing found]
    rfl
  | some q =>
    rw [engine_found found]
    dsimp only
    have view : (q.endDelivery id).messages.get? id = q.messages.get? id := rfl
    rw [exec_bind_ok exec_modify, engine_alter found endDelivery_typed.symm, queue_message, view]
    cases held : q.messages.get? id with
    | none => rfl
    | some m =>
      obtain ⟨rfl, fits⟩ := fine.held found held
      have there : (e.putQueue name (q.endDelivery m.id)).queues.get? name = some (q.endDelivery m.id) :=
        Dict.get?_set_self
      dsimp only [Option.map_some]
      exact exec_bind_ok (retryOrDead_typed (q := q.endDelivery m.id) there fits)

theorem nack_typed {requeue : Bool} (fine : Fine e) :
    exec (QueueEngine.nack (.text (text id)) requeue) (engine headers e) =
      (.ok (e.nack id requeue persist).1, engine headers (e.nack id requeue persist).2) := by
  unfold QueueEngine.nack Core.QueueEngine.nack
  rw [exec_bind_ok exec_text, exec_bind_ok exec_get, engine_byId]
  cases e.byId.get? id with
  | none =>
    dsimp only [Option.map_none]
    by_cases acked : id ∈ e.recentAcks
    · rw [if_pos acked, if_pos (engine_acked.mpr acked)]
      rfl
    · rw [if_neg acked, if_neg (mt engine_acked.mp acked)]
      rfl
  | some name =>
    dsimp only [Option.map_some]
    cases found : e.queues.get? name with
    | none =>
      rw [engine_missing found]
      rfl
    | some q =>
      rw [engine_found found]
      dsimp only
      by_cases flying : id ∈ q.inflight
      · rw [if_pos flying, if_pos (queue_inflight.mpr flying), QueueEngine.reject, exec_bind_ok exec_modify,
          engine_alter found endDelivery_typed.symm, queue_message]
        have view : (q.endDelivery id).messages.get? id = q.messages.get? id := rfl
        rw [view]
        cases held : q.messages.get? id with
        | none => rfl
        | some m =>
          obtain ⟨rfl, fits⟩ := fine.held found held
          have same : engine headers (e.putQueue name (q.endDelivery m.id)) =
              engine headers (e.nacked m.id requeue persist name q) := by
            rw [Core.QueueEngine.nacked, engine_append, engine_putQueue, engine_putQueue]
            rfl
          have there : (e.nacked m.id requeue persist name q).queues.get? name =
              some (q.endDelivery m.id).countNack := by
            rw [Core.QueueEngine.nacked_queues]
            exact Dict.get?_set_self
          have kept : (e.nacked m.id requeue persist name q).config = e.config :=
            Core.QueueEngine.append_config
          dsimp only [Option.map_some]
          rw [same]
          cases requeue with
          | true => exact exec_bind_ok (retryOrDead_typed there (kept ▸ fits))
          | false =>
            refine (exec_bind_ok exec_modify).trans ?_
            exact congrArg (Prod.mk _) (moveToDlq_typed there)
      · rw [if_neg flying, if_neg (mt queue_inflight.mp flying)]
        rfl

/-! ## Timers -/

theorem unlisted_typed : queue headers { q with delayedIds := q.delayedIds.erase id } =
    { queue headers q with delayedIds := (queue headers q).delayedIds.erase (label id) } := by
  simp [queue]

theorem released_typed {seq : Nat} :
    queue headers (({ q with
      delayedIds := q.delayedIds.erase m.id
      messages := q.messages.set m.id { m with availableAt := none } } : Core.DurableQueue).pushReady seq
        { m with availableAt := none }) =
      ({ queue headers q with delayedIds := (queue headers q).delayedIds.erase (label m.id) }.hold (label m.id)
        { message headers m with availableAt := none }).pushReady (label m.id) m.priority seq := by
  rw [pushReady_typed, ← unlisted_typed]
  simp [queue, DurableQueue.hold, message]

theorem releaseOne_typed (named : e.Named) : (engine headers e).releaseOne (spell name) (label id) =
    ((e.releaseOne name id).1, engine headers (e.releaseOne name id).2) := by
  unfold QueueEngine.releaseOne Core.QueueEngine.releaseOne
  cases found : e.queues.get? name with
  | none => rw [engine_missing found]
  | some q =>
    rw [engine_found found]
    have listed : label id ∈ (queue headers q).delayedIds ↔ id ∈ q.delayedIds := by simp [queue]
    dsimp only
    by_cases waits : id ∈ q.delayedIds
    · rw [if_pos waits, if_pos (listed.mpr waits), queue_message]
      cases held : q.messages.get? id with
      | none =>
        dsimp only [Option.map_none]
        rw [engine_alter found unlisted_typed.symm]
      | some m =>
        dsimp only [Option.map_some]
        by_cases flying : id ∈ q.inflight
        · rw [if_pos flying, if_pos (queue_inflight.mpr flying), engine_alter found unlisted_typed.symm]
        · obtain ⟨rfl, _⟩ := (named name q found).messages id m held
          rw [if_neg flying, if_neg (mt queue_inflight.mp flying)]
          refine Prod.ext rfl ?_
          dsimp only
          rw [alter_found]
          rotate_left
          · exact engine_found found
          simp [engine, Core.QueueEngine.pushReady, released_typed]
    · rw [if_neg waits, if_neg (mt listed.mp waits)]

end OneOpenBroker.Untyped.Typed

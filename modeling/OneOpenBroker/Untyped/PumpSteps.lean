import OneOpenBroker.Untyped.BrokerSteps

/-! The registry and the pumps on a sound broker. A pump raises only on a name
that has no hash, and before it has done anything; the cancellation of a
consumer only where its recovery declares a queue. -/
namespace OneOpenBroker.Untyped
open Collections Programs
open OneOpenBroker.Core (EngineConfig QoS)
open QueueEngine (nothing)

variable {b b' : Broker} {strict : Prop} {config : EngineConfig} {value name : Value} {key : Key}
  {consumer : Consumer} {message : Message} {connectionId : String} {names : List Value}

theorem Broker.Sound.altered {q : Text} {change : DurableQueue → DurableQueue}
    (sound : b.Sound strict config)
    (fine : ∀ queue, FineQueue strict config q queue → FineQueue strict config q (change queue))
    (flying : ∀ queue m record, (change queue).inflight.get? m = some record →
      queue.inflight.get? m = some record) :
    Broker.Sound strict config { b with queues := b.queues.alter q change } :=
  ⟨sound.engine.alter (fun queue _ good => fine queue good)
    fun queue m record _ there => flying queue m record there, sound.consumers⟩

/-! ## Windows -/

theorem updateQos_queues {change : QoS → QoS} : (updateQos b key change).queues = b.queues := by
  unfold updateQos
  split <;> rfl

theorem Broker.Sound.updateQos {change : QoS → QoS} (sound : b.Sound strict config) :
    (updateQos b key change).Sound strict config := by
  unfold Untyped.updateQos
  split
  · exact sound
  · rename_i consumer found
    have fine := sound.consumers key consumer found
    exact ⟨sound.engine, sound.consumers.set ⟨fine.id, fine.plain, fine.queues⟩⟩

theorem Broker.Sound.setWindows {count : ℤ} (sound : b.Sound strict config) :
    (setWindows b connectionId count).Sound strict config := by
  unfold Untyped.setWindows
  dsimp only
  generalize b.consumers.keys.filter _ = own
  induction own generalizing b with
  | nil => exact sound
  | cons id rest ih => exact ih sound.updateQos

theorem setPrefetch_wp {count : ℤ} (sound : b.Sound strict config) :
    wp (setPrefetch value count) (fun _ b' => b'.Sound strict config) (fun _ b' => b' = b) b := by
  unfold setPrefetch
  rw [wp_bind]
  refine wp_mono hashed_wp (fun key b' known => ?_) fun _ _ failed => failed.1
  obtain ⟨rfl, _⟩ := known
  exact sound.updateQos

/-! ## Registration -/

theorem join_wp (sound : b.Sound strict config) (plain : name.Plain) :
    wp (join key name) (fun _ b' => b'.Sound strict config ∧ ∃ t, name = .text t)
      (fun _ b' => b' = b ∧ ∀ t, name ≠ .text t) b := by
  unfold join
  rw [wp_bind, wp_onQueues]
  refine wp_mono QueueEngine.declareQueue_wp (fun t e declared => ?_)
    fun _ _ failed => ⟨by rw [failed.1], failed.2⟩
  obtain ⟨rfl, rfl⟩ := declared
  have engine : (b.queues.declareText t {}).Sound strict config nothing :=
    sound.engine.declareText (plain t rfl) .none
  rw [wp_onQueues, wp_modify]
  refine ⟨⟨engine.alter (fun _ _ fine => ?_) fun _ _ _ _ there => ?_, sound.consumers⟩, t, rfl⟩
  · split
    · exact fine
    · exact { fine with }
  · split at there <;> exact there

theorem joinAll_wp (sound : b.Sound strict config) (plain : ∀ name ∈ names, name.Plain)
    (texts : strict → ∀ name ∈ names, ∃ t, name = .text t) :
    wp (forM names (join key)) (fun _ b' => b'.Sound strict config)
      (fun _ b' => b'.Sound strict config ∧ ¬ strict) b := by
  refine wp_each (fun name member s sound => ?_) sound
  refine wp_mono (join_wp sound (plain name member)) (fun _ _ after => after.1)
    fun _ _ failed => ⟨failed.1 ▸ sound, fun held => ?_⟩
  obtain ⟨t, same⟩ := texts held name member
  exact failed.2 t same

/-- A registration under an id with a hash and on texts does not raise. -/
theorem register_wp {prefetch : ℤ} (sound : b.Sound strict config) (plain : value.Plain)
    (plainNames : ∀ name ∈ names, name.Plain) (texts : strict → ∀ name ∈ names, ∃ t, name = .text t) :
    wp (register value connectionId names prefetch)
      (fun _ b' => b'.Sound strict config ∧ value.Hashable)
      (fun _ b' => b'.Sound strict config ∧ (strict → b' = b ∧ ¬ value.Hashable)) b := by
  unfold register
  rw [wp_bind]
  refine wp_mono hashed_wp (fun key b' known => ?_)
    fun _ b' failed => ⟨failed.1 ▸ sound, fun _ => failed⟩
  obtain ⟨rfl, hashed⟩ := known
  rw [wp_bind, wp_modify]
  have start : Broker.Sound strict config { b' with
      consumers := b'.consumers.set key
        { consumerId := value, connectionId, queues := names, qos := { prefetchCount := prefetch } }
      byConnection := b'.byConnection.set connectionId
        (((b'.byConnection.get? connectionId).getD []).insert key) } := by
    refine ⟨sound.engine, sound.consumers.set ⟨⟨key, hashed⟩, plain, fun held name member => ?_⟩⟩
    obtain ⟨t, rfl⟩ := texts held name member
    exact ⟨_, rfl⟩
  refine wp_mono (joinAll_wp start plainNames texts) (fun _ _ after => ⟨after, key, hashed⟩)
    fun _ _ failed => ⟨failed.1, fun held => absurd held failed.2⟩

/-! ## Turns -/

theorem nextConsumer_known {consumers : Dict Key Consumer} {ids : List Key} {turns index : Nat}
    (found : (nextConsumer consumers ids turns index).2 = some (key, consumer)) :
    consumers.get? key = some consumer := by
  induction turns generalizing index with
  | zero => cases found
  | succ turns ih =>
    unfold nextConsumer at found
    split at found
    · cases found
    split at found
    · exact ih found
    rename_i known
    split at found
    · obtain ⟨rfl, rfl⟩ := Prod.mk.inj (Option.some.inj found)
      exact known
    · exact ih found

theorem readyCount_text {t : Text} : readyCount b (.text t) = b.queues.readyOf t := rfl

/-- A reserved message and its consumer are fine, and the queue got shorter. -/
theorem tryReserve_wp (sound : b.Sound strict config) :
    wp (tryReserve name)
      (fun found b' => b'.Sound strict config ∧ ∀ key consumer message,
        found = some (key, consumer, message) → FineConsumer strict consumer ∧
          FineMessage config message ∧ (∃ t, name = .text t) ∧
          readyCount b' name < readyCount b name)
      (fun _ b' => b' = b ∧ ¬ name.Hashable) b := by
  unfold tryReserve
  rw [wp_bind, wp_onQueues]
  refine wp_mono QueueEngine.getQueue_wp (fun found e got => ?_)
    fun _ _ failed => ⟨by rw [failed.1], failed.2⟩
  obtain ⟨rfl, ⟨rfl, _⟩ | ⟨t, queue, rfl, rfl, there⟩⟩ := got
  · exact ⟨sound, nofun⟩
  rw [wp_bind, wp_get]
  dsimp only
  generalize turn : nextConsumer b.consumers queue.consumerIds queue.consumerIds.length
    queue.rrIndex = next
  obtain ⟨index, chosen⟩ := next
  dsimp only
  have turned : Broker.Sound strict config
      { b with queues := b.queues.alter t fun queue => { queue with rrIndex := index } } :=
    sound.altered (fun _ fine => { fine with }) fun _ _ _ there => there
  rw [wp_bind, wp_onQueues, wp_modify]
  split
  · exact ⟨turned, nofun⟩
  rename_i key consumer
  have known : b.consumers.get? key = some consumer :=
    nextConsumer_known (by rw [turn] : (nextConsumer _ _ _ _).2 = _)
  rw [wp_bind, wp_onQueues]
  refine wp_mono (QueueEngine.reserve_wp turned.engine) (fun found e reserved => ?_)
    fun _ _ failed => failed.elim
  have kept : Broker.Sound strict config { b with queues := e } := ⟨reserved.1, sound.consumers⟩
  split
  · exact ⟨kept, nofun⟩
  rename_i message
  obtain ⟨good, less⟩ := reserved.2 message rfl
  rw [wp_bind, wp_modify, wp_pure]
  refine ⟨kept.updateQos, fun _ _ _ same => ?_⟩
  obtain ⟨rfl, rfl, rfl⟩ := Option.some.inj same
  refine ⟨sound.consumers _ _ known, good, ⟨t, rfl⟩, ?_⟩
  rw [readyCount_text, updateQos_queues]
  refine less.trans_eq ?_
  rw [QueueEngine.readyOf_alter, readyCount_text]
  rfl

/-! ## Pumps -/

theorem encode_wp {extra : List (String × Value)} {post : Unit → Broker → Prop}
    {raised : Raised → Broker → Prop} (written : extra.all (·.2.encodable) = true)
    (holds : post () b) : wp (encode extra) post raised b := by
  unfold encode
  rw [if_pos written]
  exact holds

/-- What a frame carries of a fine message and its consumer can be written. -/
theorem delivery_encodable (fine : FineConsumer strict consumer) (good : FineMessage config message) :
    (delivery consumer message).all (·.2.encodable) = true := by
  have id := good.plain.encodable good.id
  have own := fine.plain.encodable fine.id
  have queue : (Value.text message.queue).encodable = true := good.queue
  have attempts : (Value.number (.int message.attempts)).encodable = true := rfl
  unfold delivery
  simp only [List.all_cons, List.all_nil, id, queue, attempts, good.headers, own, Bool.and_self]

theorem send_wp (sound : b.Sound strict config) :
    wp (send connectionId) (fun _ b' => b'.Sound strict config ∧
      ∀ name, readyCount b' name = readyCount b name) (fun _ _ => False) b := by
  unfold send
  rw [wp_modifyGet]
  split
  · exact ⟨⟨sound.engine, sound.consumers⟩, fun _ => rfl⟩
  · exact ⟨sound, fun _ => rfl⟩

/-- With more rounds than there are ready entries the loop comes to its end. -/
theorem pumpRounds_wp {rounds : Nat} (sound : b.Sound strict config)
    (enough : readyCount b name < rounds) :
    wp (pumpRounds rounds name) (fun _ b' => b'.Sound strict config)
      (fun _ b' => b' = b ∧ ¬ name.Hashable) b := by
  induction rounds generalizing b with
  | zero => exact absurd enough (Nat.not_lt_zero _)
  | succ rounds ih =>
    unfold pumpRounds
    rw [wp_bind]
    refine wp_mono (tryReserve_wp sound) (fun found b' reserved => ?_) fun _ _ failed => failed
    split
    · exact reserved.1
    rename_i key consumer message
    obtain ⟨fine, good, ⟨t, rfl⟩, less⟩ := reserved.2 _ _ _ rfl
    rw [wp_bind]
    refine encode_wp ?_ ?_
    · rw [List.all_cons, delivery_encodable fine good]
      rfl
    rw [wp_bind]
    refine wp_mono (send_wp reserved.1) (fun taken b'' sent => ?_) fun _ _ failed => failed.elim
    rw [wp_ite]
    split
    · refine wp_mono (ih sent.1 ?_) (fun _ _ after => after)
        fun _ _ failed => absurd ⟨_, rfl⟩ failed.2
      rw [sent.2]
      omega
    · rw [wp_bind, wp_onQueues]
      refine wp_mono (QueueEngine.nack_wp sent.1.engine good.id) (fun _ e after => ?_)
        fun _ _ failed => failed.elim
      have kept : Broker.Sound strict config { b'' with queues := e } := ⟨after, sent.1.consumers⟩
      exact kept.updateQos

theorem pumpQueue_wp (sound : b.Sound strict config) :
    wp (pumpQueue name) (fun _ b' => b'.Sound strict config)
      (fun _ b' => b' = b ∧ ¬ name.Hashable) b := by
  unfold pumpQueue
  rw [wp_bind, wp_get]
  exact pumpRounds_wp sound (Nat.lt_succ_self _)

theorem pumpAll_wp (sound : b.Sound strict config)
    (hashable : strict → ∀ name ∈ names, name.Hashable) :
    wp (forM names pumpQueue) (fun _ b' => b'.Sound strict config)
      (fun _ b' => b'.Sound strict config ∧ ¬ strict) b := by
  refine wp_each (fun name member s sound => ?_) sound
  exact wp_mono (pumpQueue_wp sound) (fun _ _ after => after)
    fun _ _ failed => ⟨failed.1 ▸ sound, fun held => failed.2 (hashable held name member)⟩

/-- The pump of a queue that exists, by its name. -/
theorem pumpTexts_wp {texts : List Text} (sound : b.Sound strict config) :
    wp (forM texts fun t => pumpQueue (.text t)) (fun _ b' => b'.Sound strict config)
      (fun _ _ => False) b := by
  refine wp_each (fun t _ s sound => ?_) sound
  exact wp_mono (pumpQueue_wp sound) (fun _ _ after => after)
    fun _ _ failed => failed.2 ⟨_, rfl⟩

/-! ## Withdrawals -/

/-- A change of a queue that leaves its settings, messages and deliveries. -/
theorem QueueEngine.Recoverable.alter {e : QueueEngine} {q : Text}
    {change : DurableQueue → DurableQueue} (recoverable : e.Recoverable key)
    (same : ∀ queue, (change queue).spec = queue.spec ∧ (change queue).messages = queue.messages ∧
      (change queue).inflight = queue.inflight) : (e.alter q change).Recoverable key := by
  intro q' m record there own declares
  have back : ∀ queue', (e.alter q change).queues.get? q' = some queue' →
      ∃ queue, e.queues.get? q' = some queue ∧ queue'.spec = queue.spec ∧
        queue'.messages = queue.messages ∧ queue'.inflight = queue.inflight := by
    intro queue' found
    rw [QueueEngine.alter_get?] at found
    split at found
    · obtain ⟨queue, known, rfl⟩ := Option.map_eq_some_iff.mp found
      exact ⟨queue, known, same queue⟩
    · exact ⟨queue', found, rfl, rfl, rfl⟩
  obtain ⟨queue', found', inflight⟩ := QueueEngine.record?_some there
  obtain ⟨queue, found, spec, messages, flying⟩ := back queue' found'
  refine recoverable q' m record
    ((QueueEngine.record?_of_get found).trans (flying ▸ inflight)) own ?_
  obtain ⟨queue'', message, stored, held, on, last, absent⟩ := declares
  obtain rfl := Option.some.inj (stored.symm.trans found')
  refine ⟨queue, message, found, messages ▸ held, spec ▸ on, last, fun known => absent ?_⟩
  rw [← Dict.mem_keys, QueueEngine.alter_keys]
  exact known

theorem leave_wp {e : QueueEngine} (sound : e.Sound strict config nothing) :
    wp (leave key name) (fun _ e' => e'.Sound strict config nothing ∧
        (e.Recoverable key → e'.Recoverable key))
      (fun _ e' => e' = e ∧ ¬ name.Hashable) e := by
  unfold leave
  rw [wp_bind]
  refine wp_mono QueueEngine.getQueue_wp (fun found e got => ?_) fun _ _ failed => failed
  obtain ⟨rfl, ⟨rfl, _⟩ | ⟨t, queue, rfl, rfl, there⟩⟩ := got
  · exact ⟨sound, id⟩
  · exact ⟨sound.alter (fun _ _ fine => { fine with }) fun _ _ _ _ there => there,
      fun recoverable => recoverable.alter fun _ => ⟨rfl, rfl, rfl⟩⟩

theorem leaveAll_wp {e : QueueEngine} (sound : e.Sound strict config nothing)
    (hashable : strict → ∀ name ∈ names, name.Hashable) :
    wp (forM names (leave key)) (fun _ e' => e'.Sound strict config nothing ∧
        (e.Recoverable key → e'.Recoverable key))
      (fun _ e' => e'.Sound strict config nothing ∧ ¬ strict) e := by
  refine wp_each (fun name member e' kept => ?_) ⟨sound, id⟩
  exact wp_mono (leave_wp kept.1) (fun _ _ after => ⟨after.1, fun safe => after.2 (kept.2 safe)⟩)
    fun _ _ failed => ⟨failed.1 ▸ kept.1, fun held => failed.2 (hashable held name member)⟩

theorem withdraw_wp (sound : b.Sound strict config) (fine : FineConsumer strict consumer) :
    wp (withdraw key consumer) (fun _ b' => b'.Sound strict config)
      (fun _ b' => b'.Sound strict config ∧ (strict → ¬ b.queues.Recoverable key)) b := by
  unfold withdraw
  rw [wp_bind, wp_modify, wp_onQueues, wp_bind]
  have consumers : (b.consumers.erase key).All fun _ consumer => FineConsumer strict consumer :=
    sound.consumers.erase
  refine wp_mono (leaveAll_wp sound.engine fine.queues) (fun _ e left => ?_) fun _ e failed => ?_
  · rw [wp_bind]
    unfold QueueEngine.recoverConsumer
    rw [wp_bind, wp_get]
    by_cases safe : b.queues.Recoverable key
    · exact wp_mono (QueueEngine.recoverQueues_recoverable left.1 (left.2 safe) rfl)
        (fun _ _ after => ⟨after, consumers⟩) fun _ _ failed => failed.elim
    · exact wp_mono (QueueEngine.recoverQueues_wp left.1) (fun _ _ after => ⟨after, consumers⟩)
        fun _ _ failed => ⟨⟨failed, consumers⟩, fun _ => safe⟩
  · exact ⟨⟨failed.1, consumers⟩, fun held => absurd held failed.2⟩

theorem cancel_wp (sound : b.Sound strict config)
    (recoverable : strict → ∀ key ∈ b.consumers, value.hash = .ok key → b.queues.Recoverable key) :
    wp (cancel value) (fun _ b' => b'.Sound strict config)
      (fun _ b' => b'.Sound strict config ∧ (strict → b' = b)) b := by
  unfold cancel
  rw [wp_bind]
  refine wp_mono hashed_wp (fun key b' known => ?_)
    fun _ b' failed => ⟨failed.1 ▸ sound, fun _ => failed.1⟩
  obtain ⟨rfl, hashed⟩ := known
  rw [wp_bind, wp_get]
  split
  · exact sound
  rename_i consumer found
  rw [wp_bind]
  exact wp_mono (withdraw_wp sound (sound.consumers key consumer found)) (fun _ _ after => after)
    fun _ _ failed => ⟨failed.1, fun held => absurd
      (recoverable held key (Dict.mem_of_get? found) hashed) (failed.2 held)⟩

theorem disconnect_wp {order : List Key} (sound : b.Sound strict config) :
    wp (disconnect connectionId order) (fun _ b' => b'.Sound strict config)
      (fun _ b' => b'.Sound strict config) b := by
  unfold disconnect
  rw [wp_bind, wp_get]
  refine wp_each (fun key _ s sound => ?_) sound
  rw [wp_bind, wp_get]
  split
  · exact sound
  · rename_i consumer found
    exact wp_mono (withdraw_wp sound (sound.consumers key consumer found)) (fun _ _ after => after)
      fun _ _ failed => failed.1

/-- After a settled delivery the pumps raise only on names without a hash. -/
theorem settled_wp {consumerId : Option Key} (sound : b.Sound strict config) :
    wp (settled consumerId) (fun _ b' => b'.Sound strict config)
      (fun _ b' => b'.Sound strict config ∧ ¬ strict) b := by
  unfold settled
  split
  · exact sound
  rw [wp_ite]
  split
  · rw [wp_bind, wp_modify, wp_bind, wp_get]
    have after : Broker.Sound strict config (onAck b ‹Key›) := sound.updateQos
    split
    · exact after
    · rename_i consumer found
      exact pumpAll_wp after (after.consumers _ consumer found).queues
  · exact sound

end OneOpenBroker.Untyped

import OneOpenBroker.Untyped.SoundSteps

/-! The engine's operations on a sound engine: they keep it sound, and they
raise only on what the caller passed, on a capacity that is no number, or
where the recovery of a consumer declares a queue under its own iteration. -/
namespace OneOpenBroker.Untyped
open Collections Programs
open OneOpenBroker.Core (EngineConfig EnqueueResult)

namespace QueueEngine

variable {e : QueueEngine} {strict : Prop} {config : EngineConfig} {owed : Text → Key → Prop}
  {name q : Text} {m : Key} {queue : DurableQueue} {message : Message} {record : InflightRecord}
  {args : QueueArgs} {value : Value}

/-- The length of a queue's ready heap. -/
def readyOf (e : QueueEngine) (q : Text) : Nat := (e.queues.get? q).elim 0 (·.ready.length)

/-! ## Lookups -/

theorem wp_now {post : ℚ → QueueEngine → Prop} {raised : Raised → QueueEngine → Prop} :
    wp now post raised e ↔ post (e.clock e.reads) { e with reads := e.reads + 1 } := Iff.rfl

theorem Sound.read (sound : e.Sound strict config owed) :
    Sound strict config owed { e with reads := e.reads + 1 } :=
  sound.frame rfl rfl rfl sound.delayed

/-- `declare_queue` declares under a text, or it raises before it did anything. -/
theorem declareQueue_wp : wp (declareQueue value args)
    (fun t e' => value = .text t ∧ e' = e.declareText t args)
    (fun _ e' => e' = e ∧ ∀ t, value ≠ .text t) e := by
  unfold declareQueue
  cases value with
  | text t => exact ⟨rfl, rfl⟩
  | null => exact ⟨rfl, nofun⟩
  | bool b => exact ⟨rfl, nofun⟩
  | number n => exact ⟨rfl, nofun⟩
  | list items => exact ⟨rfl, nofun⟩
  | dict entries => exact ⟨rfl, nofun⟩

theorem list_unhashable {items : List Value} : ¬ (Value.list items).Hashable := by
  rintro ⟨_, hashed⟩
  cases hashed

theorem dict_unhashable {entries : List (Text × Value)} : ¬ (Value.dict entries).Hashable := by
  rintro ⟨_, hashed⟩
  cases hashed

theorem getQueue_wp : wp (getQueue value)
    (fun found e' => e' = e ∧ ((found = none ∧ ∀ t, value = .text t → e.queues.get? t = none) ∨
      ∃ t queue, found = some (t, queue) ∧ value = .text t ∧ e.queues.get? t = some queue))
    (fun _ e' => e' = e ∧ ¬ value.Hashable) e := by
  unfold getQueue
  have other : (∀ t, value ≠ .text t) → ∀ t, value = .text t → e.queues.get? t = none :=
    fun differ t same => absurd same (differ t)
  cases value with
  | text t =>
    simp only [Value.hash, wp_bind, wp_ofExcept_ok, wp_get, wp_pure, true_and]
    cases found : e.queues.get? t with
    | none => exact .inl ⟨rfl, fun t' same => by rw [← Value.text.inj same, found]⟩
    | some queue => exact .inr ⟨t, queue, rfl, rfl, found⟩
  | null => exact ⟨rfl, .inl ⟨rfl, other fun _ same => by cases same⟩⟩
  | bool b => exact ⟨rfl, .inl ⟨rfl, other fun _ same => by cases same⟩⟩
  | number n => exact ⟨rfl, .inl ⟨rfl, other fun _ same => by cases same⟩⟩
  | list items => exact ⟨rfl, list_unhashable⟩
  | dict entries => exact ⟨rfl, dict_unhashable⟩

theorem deleteQueue_wp (sound : e.Sound strict config owed) : wp (deleteQueue value)
    (fun _ e' => e'.Sound strict config owed) (fun _ e' => e' = e) e := by
  unfold deleteQueue
  cases value with
  | text t => exact sound.deleteText
  | null => exact sound
  | bool b => exact sound
  | number n => exact sound
  | list items => exact rfl
  | dict entries => exact rfl

theorem inflightConsumer_wp : wp (inflightConsumer value) (fun _ e' => e' = e ∧ value.Hashable)
    (fun _ e' => e' = e) e := by
  unfold inflightConsumer
  rw [wp_bind]
  cases hashed : value.hash with
  | error raised => exact rfl
  | ok key => exact ⟨rfl, key, hashed⟩

theorem ack_wp (sound : e.Sound strict config owed) (hashable : value.Hashable) :
    wp (ack value) (fun _ e' => e'.Sound strict config owed) (fun _ _ => False) e := by
  obtain ⟨key, hashed⟩ := hashable
  unfold ack
  rw [wp_bind, hashed]
  exact sound.ackKey

/-! ## Publishing and delivery -/

theorem isFull_cases (fine : FineQueue strict config name queue) :
    (∃ full, isFull queue = .ok full) ∨ ¬ strict ∧ ∃ raised, isFull queue = .error raised := by
  by_cases held : strict
  · left
    unfold QueueEngine.isFull
    rcases fine.capacity held with unlimited | ⟨n, number⟩
    · rw [unlimited]
      exact ⟨false, rfl⟩
    · split
      · exact ⟨false, rfl⟩
      · exact ⟨_, Value.reachedBy_of number _⟩
  · cases isFull queue with
    | ok full => exact .inl ⟨full, rfl⟩
    | error raised => exact .inr ⟨held, raised, rfl⟩

theorem dueMessage_fine {now : ℚ} (good : FineMessage config message) :
    FineMessage config (dueMessage message now) := by
  unfold dueMessage
  split
  · exact good
  · split
    · exact good
    · exact good.due none

/-- The message is fine for a queue that exists, if its queue does. -/
theorem enqueue_wp (sound : e.Sound strict config owed)
    (good : Text.encodable message.queue = true → FineMessage config message) :
    wp (enqueue message)
      (fun result e' => e'.Sound strict config owed ∧
        (result = .ok → Text.encodable message.queue = true))
      (fun _ e' => ¬ strict ∧ e' = e) e := by
  unfold enqueue
  rw [wp_bind, wp_get]
  split
  · exact ⟨sound, nofun⟩
  rename_i queue found
  have fine := sound.queues _ queue found
  rw [wp_bind]
  rcases isFull_cases fine with ⟨full, computed⟩ | ⟨lax, raised, failed⟩
  · rw [computed, wp_ofExcept_ok, wp_ite]
    split
    · exact ⟨sound, nofun⟩
    · obtain ⟨key, hashed⟩ := (good fine.plain).id
      rw [wp_bind, wp_now, wp_bind, hashed]
      exact ⟨sound.read.accept (dueMessage_fine (good fine.plain)), fun _ => fine.plain⟩
  · rw [failed]
    exact ⟨lax, rfl⟩

/-- A message whose id has no hash is not filed. -/
theorem enqueue_unhashable (unhashable : ¬ message.id.Hashable) :
    wp (enqueue message) (fun result e' => e' = e ∧ result ≠ .ok)
      (fun _ e' => ∃ reads, e' = { e with reads }) e := by
  unfold enqueue
  rw [wp_bind, wp_get]
  split
  · exact ⟨rfl, nofun⟩
  rename_i queue found
  rw [wp_bind]
  cases isFull queue with
  | error raised => exact ⟨e.reads, rfl⟩
  | ok full =>
    rw [wp_ofExcept_ok, wp_ite]
    split
    · exact ⟨rfl, nofun⟩
    · rw [wp_bind, wp_now, wp_bind]
      cases hashed : message.id.hash with
      | ok key => exact absurd ⟨key, hashed⟩ unhashable
      | error raised => exact ⟨e.reads + 1, rfl⟩

theorem popDeliverable_held (queue : DurableQueue) (entries : List ReadyEntry) :
    (∀ m message, (popDeliverable queue entries).1 = some (m, message) →
      queue.messages.get? m = some message ∧ (popDeliverable queue entries).2.length < entries.length) ∧
    (popDeliverable queue entries).2.length ≤ entries.length := by
  induction entries with
  | nil => exact ⟨fun _ _ found => (by cases found), le_refl _⟩
  | cons entry later ih =>
    have skipped : ∀ m message, (popDeliverable queue later).1 = some (m, message) →
        queue.messages.get? m = some message ∧
          (popDeliverable queue later).2.length < (entry :: later).length :=
      fun m message found => (ih.1 m message found).imp_right fun less => less.trans (by simp)
    have shorter := ih.2.trans (Nat.le_succ later.length)
    unfold popDeliverable
    split
    · exact ⟨skipped, shorter⟩
    rename_i message held
    split
    · exact ⟨skipped, shorter⟩
    · refine ⟨fun m message' found => ?_, Nat.le_succ _⟩
      obtain ⟨rfl, rfl⟩ := Prod.mk.inj (Option.some.inj found)
      exact ⟨held, Nat.lt_succ_self _⟩

theorem readyOf_alter {change : DurableQueue → DurableQueue} :
    (e.alter q change).readyOf q = (e.queues.get? q).elim 0 fun queue => (change queue).ready.length := by
  unfold readyOf alter
  cases found : e.queues.get? q with
  | none =>
    change (e.queues.get? q).elim _ _ = _
    rw [found]
    rfl
  | some queue =>
    change ((e.queues.set q (change queue)).get? q).elim _ _ = _
    rw [Dict.get?_set_self]
    rfl

/-- A reserved message is fine, and its queue's ready heap got shorter. -/
theorem reserve_wp (sound : e.Sound strict config owed) {consumerId : Key} :
    wp (reserve q consumerId)
      (fun found e' => e'.Sound strict config owed ∧ ∀ message, found = some message →
        FineMessage config message ∧ e'.readyOf q < e.readyOf q) (fun _ _ => False) e := by
  unfold reserve
  rw [wp_bind, wp_get]
  split
  · exact ⟨sound, nofun⟩
  rename_i queue found
  have fine := sound.queues q queue found
  obtain ⟨held, _⟩ := popDeliverable_held queue queue.ready
  generalize popDeliverable queue queue.ready = popped at held
  obtain ⟨item, rest⟩ := popped
  have taken : (e.alter q fun queue => { queue with ready := rest }).Sound strict config owed :=
    sound.alter (fun _ _ fine => { fine with }) fun _ _ _ _ there => there
  dsimp only at held ⊢
  rw [wp_bind, wp_modify]
  split
  · exact ⟨taken, nofun⟩
  rename_i m message
  obtain ⟨there, less⟩ := held m message rfl
  rw [wp_bind, wp_now, wp_bind]
  obtain ⟨deadline, computed⟩ :=
    fine.lasts ((e.alter q fun queue => { queue with ready := rest }).clock
      (e.alter q fun queue => { queue with ready := rest }).reads)
  rw [computed, wp_ofExcept_ok, wp_bind, wp_modify, wp_pure]
  refine ⟨taken.read.deliver, fun other same => ?_⟩
  obtain rfl := Option.some.inj same
  refine ⟨fine.messages m message there, ?_⟩
  unfold QueueEngine.deliver
  dsimp only
  rw [readyOf_alter]
  change readyOf (e.alter q fun queue => { queue with ready := rest }) q < readyOf e q
  rw [readyOf_alter, readyOf, found]
  exact less

/-! ## Failed deliveries -/

/-- Below the bound on the attempts the delay before the next one is a float. -/
theorem few_attempts {limit : Value} {n : Number} {count : Nat}
    (number : limit.numeric? = some n) (bounds : limit.Bounds config)
    (left : ¬ n.value ≤ Moment.of count) :
    config.retryBackoff = .exponential → count ≤ 1024 := by
  intro exponential
  obtain ⟨n', same, most⟩ := bounds
  obtain rfl := Option.some.inj (number.symm.trans same)
  have below := (lt_of_not_ge left).trans_le (most exponential)
  rw [Moment.of_lt] at below
  have few : count < 1025 := by exact_mod_cast below
  omega

@[simp] theorem alter_heap {change : DurableQueue → DurableQueue} :
    (e.alter q change).visibilityHeap = e.visibilityHeap := by
  unfold alter
  split <;> rfl

@[simp] theorem moveToDlq_heap {deadLetter : Bool} :
    (e.moveToDlq q deadLetter m message).visibilityHeap = e.visibilityHeap := by
  unfold moveToDlq declareLeaf
  dsimp only
  split
  · rw [alter_heap]
    split <;> exact alter_heap
  · exact alter_heap

@[simp] theorem delayRetry_heap {due : ℚ} :
    (e.delayRetry q m message due).visibilityHeap = e.visibilityHeap := alter_heap

theorem retryOrDead_wp {deadLetter : Bool} (sound : e.Sound strict config owed)
    (plain : Text.encodable q = true) (good : FineMessage config message) :
    wp (retryOrDead q deadLetter m message)
      (fun _ e' => e'.Sound strict config owed ∧ e'.visibilityHeap = e.visibilityHeap)
      (fun _ _ => False) e := by
  have counted := good.counted (message.attempts + 1)
  have stored : (e.alter q (·.hold m { message with attempts := message.attempts + 1 })).Sound
      strict config owed :=
    sound.alter (fun _ _ fine => fine.hold counted) fun _ _ _ _ there => there
  obtain ⟨n, number, _⟩ := good.bounds
  unfold retryOrDead
  dsimp only
  rw [wp_bind, wp_modify, wp_bind, Value.reachedBy_of number, wp_ofExcept_ok, wp_ite]
  split
  · exact ⟨stored.moveToDlq plain counted, by simp⟩
  · rename_i left
    rw [decide_eq_true_eq] at left
    rw [wp_bind, wp_get, wp_bind, stored.configured]
    obtain ⟨delay, computed⟩ := retryDelay_ok config.retryBaseDelay
      (few_attempts number good.bounds left)
    rw [computed, wp_ofExcept_ok, wp_bind, wp_now, wp_modify]
    exact ⟨stored.read.delayRetry counted, by simp⟩

theorem reject_wp {requeue : Bool} (sound : e.Sound strict config owed)
    (found : e.queues.get? q = some queue) :
    wp (reject q queue m requeue) (fun _ e' => e'.Sound strict config owed)
      (fun _ _ => False) e := by
  have fine := sound.queues q queue found
  unfold reject
  rw [wp_bind, wp_modify]
  split
  · exact sound.endDelivery
  rename_i message held
  have good := fine.messages m message held
  split
  · rw [wp_bind]
    exact wp_mono (retryOrDead_wp sound.endDelivery fine.plain good) (fun _ _ after => after.1)
      fun _ _ failed => failed
  · rw [wp_bind, wp_modify]
    exact sound.endDelivery.moveToDlq fine.plain good

theorem nack_wp {requeue : Bool} (sound : e.Sound strict config owed) (hashable : value.Hashable) :
    wp (nack value requeue) (fun _ e' => e'.Sound strict config owed) (fun _ _ => False) e := by
  obtain ⟨key, hashed⟩ := hashable
  unfold nack
  rw [wp_bind, hashed, wp_ofExcept_ok, wp_bind, wp_get]
  split
  · exact sound
  split
  · exact sound
  rename_i queue found
  rw [wp_ite]
  split
  · exact reject_wp sound found
  · exact sound

/-- A failed delivery is no longer owed its entry. -/
theorem failDelivery_wp (sound : e.Sound strict config fun q' m' => q' = q ∧ m' = m) :
    wp (failDelivery q m)
      (fun _ e' => e'.Sound strict config nothing ∧ e'.visibilityHeap = e.visibilityHeap)
      (fun _ _ => False) e := by
  unfold failDelivery
  rw [wp_bind, wp_get]
  split
  · rename_i absent
    refine ⟨{ sound with watched := fun q' m' record there => ?_ }, rfl⟩
    rcases sound.watched q' m' record there with ⟨rfl, rfl⟩ | watched
    · obtain ⟨queue, found, _⟩ := record?_some there
      rw [absent] at found
      cases found
    · exact .inr watched
  rename_i queue found
  have fine := sound.queues q queue found
  rw [wp_bind, wp_modify]
  split
  · exact ⟨sound.paid, alter_heap⟩
  rename_i message held
  rw [wp_bind]
  exact wp_mono (retryOrDead_wp sound.paid fine.plain (fine.messages m message held))
    (fun _ _ after => after.imp_right fun same => same.trans alter_heap) fun _ _ failed => failed

theorem Sound.owing (sound : e.Sound strict config nothing) : e.Sound strict config owed := by
  refine { sound with watched := fun q m record there => ?_ }
  exact .inr ((sound.watched q m record there).resolve_left fun owed => owed)

theorem failAll_wp {ids : List Key} (sound : e.Sound strict config nothing) :
    wp (failAll q ids) (fun _ e' => e'.Sound strict config nothing) (fun _ _ => False) e := by
  induction ids generalizing e with
  | nil => exact sound
  | cons m rest ih =>
    unfold failAll
    rw [wp_bind]
    refine wp_mono (failDelivery_wp sound.owing) (fun _ e' after => ?_) fun _ _ failed => failed
    rw [wp_bind]
    exact ih after.1

theorem recoverQueues_wp {size : Nat} {consumerId : Key} {names : List Text}
    (sound : e.Sound strict config nothing) :
    wp (recoverQueues size consumerId names) (fun _ e' => e'.Sound strict config nothing)
      (fun _ e' => e'.Sound strict config nothing) e := by
  induction names generalizing e with
  | nil =>
    unfold recoverQueues
    rw [wp_bind, wp_get, wp_ite]
    split <;> exact sound
  | cons name rest ih =>
    unfold recoverQueues
    rw [wp_bind, wp_get, wp_ite]
    split
    · rw [wp_bind]
      refine wp_mono (failAll_wp sound) (fun _ e' sound => ?_) fun _ _ failed => failed.elim
      rw [wp_bind]
      exact wp_mono (ih sound) (fun _ _ sound => sound) fun _ _ sound => sound
    · exact sound

/-! ## Timers -/

theorem releaseAll_delayed {entries : List TimedEntry} :
    (releaseAll entries e).2.delayed = e.delayed ∧
      (releaseAll entries e).2.visibilityHeap = e.visibilityHeap := by
  induction entries generalizing e with
  | nil => exact ⟨rfl, rfl⟩
  | cons entry rest ih =>
    have same : (e.releaseOne entry.queue entry.messageId).2.delayed = e.delayed ∧
        (e.releaseOne entry.queue entry.messageId).2.visibilityHeap = e.visibilityHeap := by
      unfold releaseOne alter
      split
      · exact ⟨rfl, rfl⟩
      split
      · dsimp only
        split
        · exact ⟨rfl, rfl⟩
        · split
          · exact ⟨rfl, rfl⟩
          · dsimp only
            split <;> exact ⟨rfl, rfl⟩
      · exact ⟨rfl, rfl⟩
    unfold releaseAll
    exact ⟨ih.1.trans same.1, ih.2.trans same.2⟩

/-- No entry that is due stays on the delayed heap. -/
theorem Sound.releaseDelayed {now : ℚ} (sound : e.Sound strict config owed) :
    (releaseDelayed now e).2.Sound strict config owed ∧
      ∀ entry ∈ (QueueEngine.releaseDelayed now e).2.delayed, Moment.of now < entry.due := by
  have later : Sound strict config owed
      { e with delayed := e.delayed.dropWhile (·.due ≤ Moment.of now) } :=
    sound.frame rfl rfl rfl (sound.delayed.sublist (List.dropWhile_sublist _))
  refine ⟨later.releaseAll, fun entry member => ?_⟩
  unfold QueueEngine.releaseDelayed at member
  rw [releaseAll_delayed.1] at member
  exact sound.delayed.rest entry member

/-- Once its entry is off the heap, a delivery is watched by another entry, or
the entry is not stale. -/
theorem Sound.popped {entry : TimedEntry} {rest : List TimedEntry}
    (sound : e.Sound strict config nothing) (heap : e.visibilityHeap = entry :: rest) :
    Sound strict config (fun q m => q = entry.queue ∧ m = entry.messageId ∧
      (e.record? q m).map (·.visibilityDeadline) = some entry.due)
      { e with visibilityHeap := rest } where
  configured := sound.configured
  queues := sound.queues
  bounded := sound.bounded
  visibility := (List.pairwise_cons.mp (heap ▸ sound.visibility)).2
  delayed := sound.delayed
  watched q m record there := by
    have known : e.record? q m = some record := there
    obtain ⟨found, member, due, names⟩ := (sound.watched q m record known).resolve_left id
    rw [heap] at member
    rcases List.mem_cons.mp member with rfl | later
    · refine .inl ⟨names.1.symm, names.2.symm, ?_⟩
      rw [known, Option.map_some, due]
    · exact .inr ⟨found, later, due, names⟩

theorem timeoutEntry_wp {entry : TimedEntry}
    (sound : e.Sound strict config fun q m => q = entry.queue ∧ m = entry.messageId ∧
      (e.record? q m).map (·.visibilityDeadline) = some entry.due) :
    wp (timeoutEntry entry)
      (fun _ e' => e'.Sound strict config nothing ∧ e'.visibilityHeap = e.visibilityHeap)
      (fun _ _ => False) e := by
  unfold timeoutEntry
  rw [wp_bind, wp_get]
  dsimp only
  rw [wp_ite]
  split
  · apply failDelivery_wp
    refine { sound with watched := fun q m record there => ?_ }
    exact (sound.watched q m record there).imp_left fun owed => ⟨owed.1, owed.2.1⟩
  · rename_i stale
    refine ⟨{ sound with watched := fun q m record there => ?_ }, rfl⟩
    refine .inr ((sound.watched q m record there).resolve_left ?_)
    rintro ⟨rfl, rfl, current⟩
    exact stale current

/-- The loop leaves no entry on the visibility heap that is due. -/
theorem timeoutEntries_wp {now : ℚ} {entries : List TimedEntry}
    (sound : e.Sound strict config nothing) (heap : e.visibilityHeap = entries) :
    wp (timeoutEntries now entries) (fun _ e' => e'.Sound strict config nothing ∧
      ∀ entry ∈ e'.visibilityHeap, Moment.of now < entry.due) (fun _ _ => False) e := by
  induction entries generalizing e with
  | nil =>
    refine ⟨sound, fun entry member => ?_⟩
    rw [heap] at member
    cases member
  | cons entry rest ih =>
    unfold timeoutEntries
    rw [wp_ite]
    split
    · rw [wp_bind, wp_modify, wp_bind]
      refine wp_mono (timeoutEntry_wp (sound.popped heap)) (fun _ e' after => ?_)
        fun _ _ failed => failed
      rw [wp_bind]
      exact ih after.1 after.2
    · rename_i later
      refine ⟨sound, fun other member => ?_⟩
      obtain ⟨least, _⟩ := List.pairwise_cons.mp (heap ▸ sound.visibility)
      rw [heap] at member
      rcases List.mem_cons.mp member with rfl | further
      · exact lt_of_not_ge later
      · exact (lt_of_not_ge later).trans_le (least other further)

/-- Past a tick no delivery is left whose deadline the tick has seen. -/
theorem tick_wp (sound : e.Sound strict config nothing) :
    wp tick (fun _ e' => e'.Sound strict config nothing ∧ ∀ q m record,
        e'.record? q m = some record → Moment.of (e.clock e.reads) < record.visibilityDeadline)
      (fun _ _ => False) e := by
  unfold tick
  rw [wp_bind, wp_now, wp_bind, wp_modifyGet, wp_bind, wp_get, wp_bind]
  refine wp_mono (timeoutEntries_wp sound.read.releaseDelayed.1 rfl) (fun _ e' after => ?_)
    fun _ _ failed => failed
  refine ⟨after.1, fun q m record there => ?_⟩
  obtain ⟨entry, member, due, _⟩ := (after.1.watched q m record there).resolve_left id
  exact due ▸ after.2 entry member

/-! ## Dead letters -/

theorem requeueDead_wp (sound : e.Sound strict config owed) (plain : Text.encodable q = true)
    (good : FineMessage config message) :
    wp (requeueDead q m message) (fun _ e' => e'.Sound strict config owed)
      (fun _ e' => e'.Sound strict config owed ∧ ¬ strict) e := by
  have taken : Sound strict config owed
      { e.alter (dlqName q) (·.withdraw m) with byId := Dict.erase e.byId m } := by
    have drawn : (e.alter (dlqName q) (·.withdraw m)).Sound strict config owed :=
      sound.alter (fun _ _ fine => fine.withdraw) fun _ _ _ _ there => there
    exact drawn.frame rfl rfl rfl drawn.delayed
  have fresh : FineMessage config { message with queue := q, attempts := 0, availableAt := none } :=
    ((good.moved plain).counted 0).due none
  unfold requeueDead
  rw [wp_bind, wp_modify, wp_bind]
  refine wp_mono (enqueue_wp taken fun _ => fresh) (fun result e' after => ?_)
    fun _ e' failed => ⟨failed.2 ▸ taken, failed.1⟩
  rw [wp_ite]
  split
  · exact after.1
  · rw [wp_bind, wp_modify]
    refine Sound.alter (after.1.frame rfl rfl rfl after.1.delayed) (fun _ _ fine => ?_)
      fun _ _ _ _ there => there
    exact (fine.hold (((good.moved (dlqName_encodable plain)).counted 0).due none)).pushReady

/-- A message is requeued only out of a queue that a text names. -/
theorem dlqRequeue_wp {queueName : Value} (sound : e.Sound strict config owed) :
    wp (dlqRequeue queueName value)
      (fun _ e' => e'.Sound strict config owed ∧ ∃ t, queueName = .text t)
      (fun _ e' => e'.Sound strict config owed ∧ (strict → e' = e)) e := by
  unfold dlqRequeue
  split
  · rename_i t
    dsimp only
    rw [wp_bind, wp_get]
    split
    · rename_i dlq dest dead origin
      rw [wp_bind]
      cases hashed : value.hash with
      | error raised => exact ⟨sound, fun _ => rfl⟩
      | ok key =>
        rw [wp_ofExcept_ok]
        split
        · exact ⟨sound, t, rfl⟩
        · rename_i message held
          exact wp_mono (requeueDead_wp sound (sound.queues _ _ origin).plain
            ((sound.queues _ _ dead).messages _ message held)) (fun _ _ after => ⟨after, t, rfl⟩)
            fun _ _ failed => ⟨failed.1, fun held => absurd held failed.2⟩
    · exact ⟨sound, t, rfl⟩
  · exact ⟨sound, fun _ => rfl⟩

end QueueEngine
end OneOpenBroker.Untyped

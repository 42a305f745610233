import OneOpenBroker.Untyped.SoundRuns

/-! The recovery of a consumer walks the dictionary of queues while it fails
the consumer's deliveries, and a failure that is the last may declare a DLQ.
Where every such DLQ exists the walk comes to its end. -/
namespace OneOpenBroker.Untyped
open Collections Programs
open OneOpenBroker.Core (EngineConfig)

namespace QueueEngine

variable {e e' e'' : QueueEngine} {strict : Prop} {config : EngineConfig}
  {owed : Text → Key → Prop} {name q q' : Text} {m : Key} {queue : DurableQueue}
  {message : Message} {consumerId : Key}

/-- The next failure of the message dead-letters it. -/
def LastAttempt (message : Message) : Prop :=
  message.maxAttempts.reachedBy (message.attempts + 1) = .ok true

/-- A delivery that would declare a DLQ if it failed. -/
def Declares (e : QueueEngine) (q : Text) (m : Key) : Prop :=
  ∃ queue message, e.queues.get? q = some queue ∧ queue.messages.get? m = some message ∧
    queue.spec.deadLetter = true ∧ LastAttempt message ∧ dlqName q ∉ e.queues

/-- No failure of a delivery of the consumer declares a queue. -/
def Recoverable (e : QueueEngine) (consumerId : Key) : Prop :=
  ∀ q m record, e.record? q m = some record → record.consumerId = consumerId → ¬ e.Declares q m

/-- What failing one message does to the queues that are no DLQ: it may change
or drop the message itself, and it files nothing. -/
structure Spares (q : Text) (m : Key) (e e' : QueueEngine) : Prop where
  keys : e'.queues.keys = e.queues.keys
  queues : ∀ q' queue', isDlq q' = false → e'.queues.get? q' = some queue' →
    ∃ queue, e.queues.get? q' = some queue ∧ queue'.spec = queue.spec ∧
      (∀ m' record, queue'.inflight.get? m' = some record → queue.inflight.get? m' = some record) ∧
      ∀ m', (q' = q → m' ≠ m) → queue'.messages.get? m' = queue.messages.get? m'

theorem Spares.refl : Spares q m e e :=
  ⟨rfl, fun _ queue _ found => ⟨queue, found, rfl, fun _ _ there => there, fun _ _ => rfl⟩⟩

theorem Spares.trans (first : Spares q m e e') (second : Spares q m e' e'') :
    Spares q m e e'' := by
  refine ⟨second.keys.trans first.keys, fun q' queue'' plain found => ?_⟩
  obtain ⟨queue', found', spec', flying', messages'⟩ := second.queues q' queue'' plain found
  obtain ⟨queue, found'', spec, flying, messages⟩ := first.queues q' queue' plain found'
  exact ⟨queue, found'', spec'.trans spec, fun m' record there => flying m' record
    (flying' m' record there), fun m' other => (messages' m' other).trans (messages m' other)⟩

/-- What stores the same queues spares everything. -/
theorem Spares.same (same : e'.queues = e.queues) : Spares q m e e' := by
  refine ⟨by rw [same], fun q' queue' _ found => ?_⟩
  rw [same] at found
  exact ⟨queue', found, rfl, fun _ _ there => there, fun _ _ => rfl⟩

theorem alter_get? {change : DurableQueue → DurableQueue} :
    (e.alter name change).queues.get? q =
      if q = name then (e.queues.get? q).map change else e.queues.get? q := by
  unfold alter
  split
  · rename_i absent
    split
    · rename_i same
      subst same
      rw [absent]
      rfl
    · rfl
  · rename_i queue found
    change (e.queues.set name (change queue)).get? q = _
    rw [Dict.get?_set]
    split
    · rename_i same
      subst same
      rw [found]
      rfl
    · rfl

theorem alter_keys {change : DurableQueue → DurableQueue} :
    (e.alter name change).queues.keys = e.queues.keys := by
  unfold alter
  split
  · rfl
  · rename_i queue found
    change (e.queues.set name (change queue)).keys = _
    rw [Dict.keys_set, if_pos (Dict.mem_of_get? found)]

/-- A change of the message's own queue. -/
theorem Spares.alter {change : DurableQueue → DurableQueue}
    (spec : ∀ queue, (change queue).spec = queue.spec)
    (flying : ∀ queue m' record, (change queue).inflight.get? m' = some record →
      queue.inflight.get? m' = some record)
    (messages : ∀ queue m', m' ≠ m → (change queue).messages.get? m' = queue.messages.get? m') :
    Spares q m e (e.alter q change) := by
  refine ⟨alter_keys, fun q' queue' _ found => ?_⟩
  rw [alter_get?] at found
  split at found
  · rename_i own
    obtain ⟨queue, there, rfl⟩ := Option.map_eq_some_iff.mp found
    exact ⟨queue, there, spec queue, flying queue, fun m' other => messages queue m' (other own)⟩
  · exact ⟨queue', found, rfl, fun _ _ there => there, fun _ _ => rfl⟩

/-- A change of a DLQ. -/
theorem Spares.dlq {change : DurableQueue → DurableQueue} (dlq : isDlq name = true) :
    Spares q m e (e.alter name change) := by
  refine ⟨alter_keys, fun q' queue' plain found => ?_⟩
  rw [alter_get?, if_neg fun same => by rw [same, dlq] at plain; cases plain] at found
  exact ⟨queue', found, rfl, fun _ _ there => there, fun _ _ => rfl⟩

theorem hold_others {m' : Key} (other : m' ≠ m) :
    (queue.hold m message).messages.get? m' = queue.messages.get? m' := Dict.get?_set_ne other

theorem Spares.moveToDlq {deadLetter : Bool} (exists' : deadLetter = true → dlqName q ∈ e.queues) :
    Spares q m e (e.moveToDlq q deadLetter m message) := by
  have gone : Spares q m e (e.alter q (·.discard m)) :=
    Spares.alter (fun _ => rfl) (fun _ _ _ there => there) fun _ _ other => Dict.get?_erase_ne other
  unfold QueueEngine.moveToDlq declareLeaf
  dsimp only
  split
  · rename_i on
    have known : dlqName q ∈ (e.alter q (·.discard m)).queues := by
      rw [← Dict.mem_keys, alter_keys]
      exact exists' on
    rw [if_pos known]
    refine Spares.trans ?_ (Spares.dlq (isDlq_dlqName q))
    exact gone.trans (Spares.same rfl)
  · exact gone.trans (Spares.same rfl)

theorem retryOrDead_spares {deadLetter : Bool} (sound : e.Sound strict config owed)
    (good : FineMessage config message)
    (safe : deadLetter = true → LastAttempt message → dlqName q ∈ e.queues) :
    wp (retryOrDead q deadLetter m message) (fun _ e' => Spares q m e e') (fun _ _ => False) e := by
  have stored : Spares q m e
      (e.alter q (·.hold m { message with attempts := message.attempts + 1 })) :=
    Spares.alter (fun _ => rfl) (fun _ _ _ there => there) fun _ _ other => hold_others other
  have configured : (e.alter q (·.hold m { message with attempts := message.attempts + 1 })).config =
      config := by
    unfold QueueEngine.alter
    split <;> exact sound.configured
  obtain ⟨n, number, _⟩ := good.bounds
  unfold retryOrDead
  dsimp only
  rw [wp_bind, wp_modify, wp_bind, Value.reachedBy_of number, wp_ofExcept_ok, wp_ite]
  split
  · rename_i last
    refine stored.trans (Spares.moveToDlq fun on => ?_)
    rw [← Dict.mem_keys, alter_keys]
    exact safe on ((Value.reachedBy_of number _).trans (congrArg Except.ok last))
  · rename_i left
    rw [decide_eq_true_eq] at left
    rw [wp_bind, wp_get, wp_bind, configured]
    obtain ⟨delay, computed⟩ := retryDelay_ok config.retryBaseDelay
      (few_attempts number good.bounds left)
    rw [computed, wp_ofExcept_ok, wp_bind, wp_now, wp_modify]
    refine Spares.trans ?_ (Spares.alter (fun _ => rfl) (fun _ _ _ there => there)
      fun _ _ other => hold_others other)
    exact stored.trans (Spares.same rfl)

theorem Spares.size (spares : Spares q m e e') : e'.queues.size = e.queues.size := by
  rw [← Dict.length_keys, spares.keys, Dict.length_keys]

theorem failDelivery_spares (sound : e.Sound strict config nothing) (safe : ¬ e.Declares q m) :
    wp (failDelivery q m) (fun _ e' => Spares q m e e' ∧ (isDlq q = false → e'.record? q m = none))
      (fun _ _ => False) e := by
  have ended : Spares q m e (e.alter q (·.endDelivery m)) :=
    Spares.alter (fun _ => rfl) (fun _ _ _ there => endDelivery_flying there) fun _ _ _ => rfl
  have gone : (e.alter q (·.endDelivery m)).record? q m = none := by
    unfold record?
    rw [alter_get?, if_pos rfl]
    cases e.queues.get? q with
    | none => rfl
    | some queue => exact Dict.get?_erase_self
  unfold failDelivery
  rw [wp_bind, wp_get]
  split
  · rename_i absent
    refine ⟨.refl, fun _ => ?_⟩
    unfold record?
    rw [absent]
    rfl
  rename_i queue found
  have fine := sound.queues q queue found
  rw [wp_bind, wp_modify]
  split
  · exact ⟨ended, fun _ => gone⟩
  rename_i message held
  rw [wp_bind]
  refine wp_mono (retryOrDead_spares sound.endDelivery (fine.messages m message held)
    fun on last => ?_) (fun _ e' after => ⟨ended.trans after, fun plain => ?_⟩) fun _ _ failed => failed
  · by_contra absent
    refine safe ⟨queue, message, found, held, on, last, fun known => absent ?_⟩
    rw [← Dict.mem_keys, alter_keys]
    exact known
  · rw [Option.eq_none_iff_forall_ne_some]
    intro record there
    obtain ⟨queue', found', inflight⟩ := record?_some there
    obtain ⟨before, known, _, flying, _⟩ := after.queues q queue' plain found'
    have still : (e.alter q (·.endDelivery m)).record? q m = some record :=
      (record?_of_get known).trans (flying m record inflight)
    rw [gone] at still
    cases still

/-- A message that would declare a DLQ would have done so before another one
was failed. -/
theorem Spares.declares {m' : Key} (spares : Spares q m e e') (plain : isDlq q' = false)
    (other : q' = q → m' ≠ m) (declares : e'.Declares q' m') : e.Declares q' m' := by
  obtain ⟨queue', message, found, held, on, last, absent⟩ := declares
  obtain ⟨queue, found', spec, _, messages⟩ := spares.queues q' queue' plain found
  refine ⟨queue, message, found', (messages m' other).symm.trans held, spec ▸ on, last, ?_⟩
  rw [← Dict.mem_keys, ← spares.keys]
  exact absent

theorem Sound.declares_plain (sound : e.Sound strict config owed) (declares : e.Declares q m) :
    isDlq q = false := by
  obtain ⟨queue, _, found, _, on, _⟩ := declares
  by_contra dlq
  rw [(sound.queues q queue found).leaf (Bool.of_not_eq_false dlq)] at on
  cases on

theorem Recoverable.spared (sound : e'.Sound strict config nothing)
    (recoverable : e.Recoverable consumerId) (spares : Spares q m e e')
    (gone : isDlq q = false → e'.record? q m = none) : e'.Recoverable consumerId := by
  intro q' m' record there own declares
  have plain := sound.declares_plain declares
  have other : q' = q → m' ≠ m := by
    rintro rfl rfl
    rw [gone plain] at there
    cases there
  obtain ⟨queue', found, inflight⟩ := record?_some there
  obtain ⟨queue, found', _, flying, _⟩ := spares.queues q' queue' plain found
  exact recoverable q' m' record ((record?_of_get found').trans (flying m' record inflight)) own
    (spares.declares plain other declares)

theorem failAll_recoverable {ids : List Key} (sound : e.Sound strict config nothing)
    (recoverable : e.Recoverable consumerId) (distinct : ids.Nodup)
    (safe : ∀ m ∈ ids, ¬ e.Declares q m) :
    wp (failAll q ids) (fun _ e' => e'.Sound strict config nothing ∧ e'.Recoverable consumerId ∧
      e'.queues.size = e.queues.size) (fun _ _ => False) e := by
  induction ids generalizing e with
  | nil => exact ⟨sound, recoverable, rfl⟩
  | cons m rest ih =>
    obtain ⟨fresh, distinct⟩ := List.nodup_cons.mp distinct
    unfold failAll
    rw [wp_bind]
    obtain ⟨_, e', ran, spares, gone⟩ := returns
      (failDelivery_spares sound (safe m List.mem_cons_self))
    have after := (wp_ok (failDelivery_wp sound.owing) ran).1
    refine wp_of_ok ran ?_
    rw [wp_bind]
    refine wp_mono (ih after (recoverable.spared after spares gone) distinct
      fun m' member declares => ?_) (fun _ _ holds => ?_) fun _ _ failed => failed
    · have other : q = q → m' ≠ m := fun _ same => fresh (same ▸ member)
      exact safe m' (List.mem_cons_of_mem _ member)
        (spares.declares (after.declares_plain declares) other declares)
    · exact ⟨holds.1, holds.2.1, holds.2.2.trans spares.size⟩

theorem heldBy_nodup (fine : FineQueue strict config q queue) : (heldBy queue consumerId).Nodup := by
  unfold heldBy
  have ids : queue.inflight.values.map (·.messageId) = queue.inflight.keys := by
    unfold Dict.values Dict.keys
    rw [List.map_map]
    exact List.map_congr_left fun pair member =>
      fine.filed pair.1 pair.2 (Dict.get?_eq_some.mpr member)
  exact (ids ▸ queue.inflight.keys_nodup).sublist (List.filter_sublist.map _)

/-- The walk over the queues comes to its end. -/
theorem recoverQueues_recoverable {size : Nat} {names : List Text}
    (sound : e.Sound strict config nothing) (recoverable : e.Recoverable consumerId)
    (same : e.queues.size = size) :
    wp (recoverQueues size consumerId names) (fun _ e' => e'.Sound strict config nothing)
      (fun _ _ => False) e := by
  induction names generalizing e with
  | nil =>
    unfold recoverQueues
    rw [wp_bind, wp_get, wp_ite, if_pos same]
    exact sound
  | cons name rest ih =>
    unfold recoverQueues
    rw [wp_bind, wp_get, wp_ite, if_pos same, wp_bind]
    have failing : wp (failAll name ((e.queues.get? name).elim [] fun queue => heldBy queue consumerId))
        (fun _ e' => e'.Sound strict config nothing ∧ e'.Recoverable consumerId ∧
          e'.queues.size = e.queues.size) (fun _ _ => False) e := by
      cases found : e.queues.get? name with
      | none => exact ⟨sound, recoverable, rfl⟩
      | some queue =>
        have fine := sound.queues name queue found
        refine failAll_recoverable sound recoverable (heldBy_nodup fine) fun m member => ?_
        obtain ⟨record, listed, rfl⟩ := List.mem_map.mp member
        obtain ⟨value, own⟩ := List.mem_filter.mp listed
        obtain ⟨key, inflight⟩ := Dict.mem_values.mp value
        rw [fine.filed key record inflight]
        exact recoverable name key record ((record?_of_get found).trans inflight)
          (of_decide_eq_true own)
    refine wp_mono failing (fun _ e' after => ?_) fun _ _ failed => failed
    rw [wp_bind]
    exact ih after.1 after.2.1 (after.2.2.trans same)

end QueueEngine
end OneOpenBroker.Untyped

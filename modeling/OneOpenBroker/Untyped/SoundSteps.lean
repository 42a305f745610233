import OneOpenBroker.Untyped.Sound

/-! The steps of the engine in which nothing can raise keep it sound. -/
namespace OneOpenBroker.Untyped
open Collections Programs
open OneOpenBroker.Core (EngineConfig heapify heappush mem_heappush)

/-! ## Messages and queues -/

namespace FineQueue

variable {strict : Prop} {config : EngineConfig} {name : Text} {queue : DurableQueue} {m : Key}
  {message : Message} {record : InflightRecord}

theorem hold (fine : FineQueue strict config name queue) (good : FineMessage config message) :
    FineQueue strict config name (queue.hold m message) :=
  { fine with messages := fine.messages.set good }

theorem pushReady {priority : ℤ} {seq : Nat} (fine : FineQueue strict config name queue) :
    FineQueue strict config name (queue.pushReady m priority seq) := { fine with }

theorem delay (fine : FineQueue strict config name queue) :
    FineQueue strict config name (queue.delay m) := { fine with }

theorem deliver (fine : FineQueue strict config name queue) :
    FineQueue strict config name (queue.deliver record) := { fine with filed := fine.filed.set rfl }

theorem endDelivery (fine : FineQueue strict config name queue) :
    FineQueue strict config name (queue.endDelivery m) := { fine with filed := fine.filed.erase }

theorem discard (fine : FineQueue strict config name queue) :
    FineQueue strict config name (queue.discard m) := { fine with messages := fine.messages.erase }

theorem withdraw (fine : FineQueue strict config name queue) :
    FineQueue strict config name (queue.withdraw m) := { fine with messages := fine.messages.erase }

end FineQueue

namespace FineMessage

variable {config : EngineConfig} {message : Message}

theorem due (good : FineMessage config message) (due : Option ℚ) :
    FineMessage config { message with availableAt := due } :=
  ⟨good.id, good.plain, good.queue, good.headers, good.bounds⟩

theorem counted (good : FineMessage config message) (attempts : Nat) :
    FineMessage config { message with attempts } :=
  ⟨good.id, good.plain, good.queue, good.headers, good.bounds⟩

theorem moved {dest : Text} (good : FineMessage config message)
    (plain : Text.encodable dest = true) : FineMessage config { message with queue := dest } :=
  { good with queue := plain }

end FineMessage

/-- Arguments of `declare_queue` that make a fine queue. -/
structure FineArgs (strict : Prop) (args : QueueArgs) : Prop where
  lasts : args.visibilityTimeout = .null ∨ args.visibilityTimeout.Lasts
  capacity : strict → args.maxLength = .null ∨ args.maxLength.Measures

theorem FineArgs.none {strict : Prop} : FineArgs strict {} := ⟨.inl rfl, fun _ => .inl rfl⟩

theorem Value.default_cases {value fallback : Value} {P : Value → Prop}
    (given : value = .null ∨ P value) (otherwise : P fallback) : P (value.default fallback) := by
  rcases given with rfl | holds
  · exact otherwise
  · cases value with
    | null => exact otherwise
    | _ => exact holds

theorem float_lasts (q : ℚ) : (Value.number (.float q)).Lasts := fun now => ⟨Moment.of (now + q), rfl⟩

namespace QueueEngine

variable {e : QueueEngine} {strict : Prop} {config : EngineConfig} {owed : Text → Key → Prop}
  {name q : Text} {m : Key} {queue : DurableQueue} {message : Message} {record : InflightRecord}
  {args : QueueArgs}

/-! ## Declaring and deleting -/

theorem makeSpec_fine {deadLetter : Bool} (plain : Text.encodable name = true)
    (good : FineArgs strict args) :
    FineQueue strict config name { spec := e.makeSpec name args deadLetter } where
  plain := plain
  lasts := Value.default_cases good.lasts (float_lasts _)
  capacity held := by
    have measured : (e.config.maxLength.elim .null fun n => Value.number (.int n)) = .null ∨
        Value.Measures (e.config.maxLength.elim .null fun n => .number (.int n)) := by
      cases e.config.maxLength with
      | none => exact .inl rfl
      | some limit => exact .inr ⟨_, rfl⟩
    rcases good.capacity held with absent | measures
    · exact Value.default_cases (P := fun v => v = .null ∨ v.Measures) (.inl absent) measured
    · exact Value.default_cases (P := fun v => v = .null ∨ v.Measures) (.inr (.inr measures)) measured
  leaf dlq := by
    change (deadLetter && !isDlq name) = false
    rw [dlq, Bool.not_true, Bool.and_false]
  messages := Dict.all_empty
  filed := Dict.all_empty

theorem Sound.declareLeaf (sound : e.Sound strict config owed)
    (plain : Text.encodable name = true) (good : FineArgs strict args) :
    (e.declareLeaf name args).Sound strict config owed := by
  unfold QueueEngine.declareLeaf
  split
  · exact sound
  · exact sound.stored (makeSpec_fine plain good) fun m record there => by cases there

theorem Sound.declareText (sound : e.Sound strict config owed)
    (plain : Text.encodable name = true) (good : FineArgs strict args) :
    (e.declareText name args).Sound strict config owed := by
  unfold QueueEngine.declareText
  split
  · exact sound
  · have fine : FineQueue strict config name { spec := e.makeSpec name args true } :=
      makeSpec_fine plain good
    have stored := sound.stored fine fun m record there => by cases there
    dsimp only
    split
    · exact stored.declareLeaf (dlqName_encodable plain) ⟨.inr fine.lasts, fun _ => .inl rfl⟩
    · exact stored

theorem Sound.deleteLeaf (sound : e.Sound strict config owed) :
    (e.deleteLeaf name).Sound strict config owed := by
  unfold QueueEngine.deleteLeaf
  split
  · exact sound
  · refine ⟨sound.configured, sound.queues.erase, sound.bounded, sound.visibility, sound.delayed,
      fun q m record there => ?_⟩
    obtain ⟨other, found, inflight⟩ := record?_some there
    change (e.queues.erase name).get? q = some other at found
    rw [Dict.get?_erase] at found
    split at found
    · cases found
    · exact sound.watched q m record ((record?_of_get found).trans inflight)

theorem Sound.deleteText (sound : e.Sound strict config owed) :
    (e.deleteText name).2.Sound strict config owed := by
  unfold QueueEngine.deleteText
  split
  · exact sound
  · dsimp only
    split
    · exact sound.deleteLeaf.deleteLeaf
    · exact sound.deleteLeaf

/-! ## Filing and delivering -/

theorem Sound.accept (sound : e.Sound strict config owed) (good : FineMessage config message) :
    (e.accept m message).Sound strict config owed := by
  have counted : Sound strict config owed
      { e with seq := e.seq + 1, byId := e.byId.set m message.queue } :=
    sound.frame rfl rfl rfl sound.delayed
  unfold QueueEngine.accept
  dsimp only
  split
  · have held : (QueueEngine.alter
        { e with seq := e.seq + 1, byId := e.byId.set m message.queue } message.queue
        fun queue => (queue.hold m message).delay m).Sound strict config owed :=
      counted.alter (fun _ _ fine => (fine.hold good).delay) fun _ _ _ _ there => there
    exact held.frame rfl rfl rfl (sound.delayed.push _)
  · exact counted.alter (fun _ _ fine => (fine.hold good).pushReady) fun _ _ _ _ there => there

theorem Sound.deliver {consumerId : Key} {deadline : Moment} (sound : e.Sound strict config owed) :
    (e.deliver q m consumerId deadline).Sound strict config owed := by
  have listed : Sound strict config owed { e with
      seq := e.seq + 1
      visibilityHeap := heappush TimedEntry.le ⟨deadline, e.seq + 1, q, m⟩ e.visibilityHeap } :=
    ⟨sound.configured, sound.queues, sound.bounded, sound.visibility.push _, sound.delayed,
      fun q m record there => (sound.watched q m record there).imp_right
        fun ⟨entry, member, names⟩ => ⟨entry, mem_heappush.mpr (.inr member), names⟩⟩
  unfold QueueEngine.deliver QueueEngine.alter
  dsimp only
  split
  · exact listed
  · rename_i queue found
    refine ⟨listed.configured, listed.queues.set (listed.queues q queue found).deliver, listed.bounded,
      listed.visibility, listed.delayed, fun q' m' record there => ?_⟩
    obtain ⟨other, stored, inflight⟩ := record?_some there
    change (e.queues.set q _).get? q' = some other at stored
    rw [Dict.get?_set] at stored
    split at stored
    · rename_i same
      subst same
      obtain rfl := Option.some.inj stored
      change (queue.inflight.set m ⟨m, consumerId, deadline⟩).get? m' = some record at inflight
      rw [Dict.get?_set] at inflight
      split at inflight
      · rename_i own
        subst own
        obtain rfl := Option.some.inj inflight
        exact .inr ⟨_, mem_heappush.mpr (.inl rfl), rfl, rfl, rfl⟩
      · exact listed.watched _ m' record ((record?_of_get found).trans inflight)
    · exact listed.watched q' m' record ((record?_of_get stored).trans inflight)

/-! ## Settling -/

/-- A delivery that ends leaves the others where they were. -/
theorem endDelivery_flying {m' : Key} (there : (queue.endDelivery m).inflight.get? m' = some record) :
    queue.inflight.get? m' = some record := by
  change (queue.inflight.erase m).get? m' = some record at there
  rw [Dict.get?_erase] at there
  split at there
  · cases there
  · exact there

theorem Sound.ackKey (sound : e.Sound strict config owed) :
    (e.ackKey m).2.Sound strict config owed := by
  unfold QueueEngine.ackKey
  split
  · exact sound
  split
  · exact sound
  rename_i queueName _
  split
  · exact sound
  split
  · have settled : (e.alter queueName fun queue => (queue.endDelivery m).discard m).Sound strict
        config owed := sound.alter (fun _ _ fine => fine.endDelivery.discard)
      fun _ _ _ _ there => endDelivery_flying there
    exact settled.frame rfl rfl rfl settled.delayed
  · exact sound

theorem Sound.endDelivery (sound : e.Sound strict config owed) :
    (e.alter q (·.endDelivery m)).Sound strict config owed :=
  sound.alter (fun _ _ fine => fine.endDelivery) fun _ _ _ _ there => endDelivery_flying there

/-- Ending a delivery pays what it is owed. -/
theorem Sound.paid (sound : e.Sound strict config fun q' m' => q' = q ∧ m' = m) :
    (e.alter q (·.endDelivery m)).Sound strict config nothing := by
  have ended := sound.endDelivery (q := q) (m := m)
  refine { ended with watched := fun q' m' record there => ?_ }
  rcases ended.watched q' m' record there with ⟨rfl, rfl⟩ | watched
  · obtain ⟨queue, found, inflight⟩ := record?_some there
    unfold QueueEngine.alter at found
    split at found
    · rename_i absent
      rw [absent] at found
      cases found
    · change (e.queues.set q' _).get? q' = some queue at found
      rw [Dict.get?_set_self] at found
      obtain rfl := Option.some.inj found
      change (Dict.erase _ m').get? m' = some record at inflight
      rw [Dict.get?_erase_self] at inflight
      cases inflight
  · exact .inr watched

theorem Sound.moveToDlq {deadLetter : Bool} (sound : e.Sound strict config owed)
    (plain : Text.encodable name = true) (good : FineMessage config message) :
    (e.moveToDlq name deadLetter m message).Sound strict config owed := by
  have gone : (e.alter name (·.discard m)).Sound strict config owed :=
    sound.alter (fun _ _ fine => fine.discard) fun _ _ _ _ there => there
  have struck : Sound strict config owed
      { e.alter name (·.discard m) with byId := Dict.erase e.byId m } :=
    gone.frame rfl rfl rfl gone.delayed
  unfold QueueEngine.moveToDlq
  dsimp only
  split
  · have declared : (QueueEngine.declareLeaf
        { e.alter name (·.discard m) with byId := Dict.erase e.byId m } (dlqName name) {}).Sound
        strict config owed := struck.declareLeaf (dlqName_encodable plain) .none
    have dead := (good.moved (dlqName_encodable plain)).due none
    refine Sound.alter (declared.frame rfl rfl rfl declared.delayed) (fun _ _ fine => ?_)
      fun _ _ _ _ there => there
    exact { (fine.hold (m := m) dead) with }
  · exact struck

theorem Sound.delayRetry {due : ℚ} (sound : e.Sound strict config owed)
    (good : FineMessage config message) :
    (e.delayRetry name m message due).Sound strict config owed := by
  unfold QueueEngine.delayRetry
  exact Sound.alter (sound.frame rfl rfl rfl (sound.delayed.push _))
    (fun _ _ fine => (fine.hold (good.due _)).delay) fun _ _ _ _ there => there

/-! ## Releasing -/

theorem Sound.releaseOne (sound : e.Sound strict config owed) :
    (e.releaseOne q m).2.Sound strict config owed := by
  unfold QueueEngine.releaseOne
  split
  · exact sound
  rename_i queue found
  have fine := sound.queues q queue found
  have same : ∀ other, e.queues.get? q = some other → other = queue :=
    fun other there => Option.some.inj (there.symm.trans found)
  split
  · dsimp only
    split
    · exact sound.alter (fun _ _ _ => { fine with })
        fun other _ _ there inflight => same other there ▸ inflight
    rename_i message held
    split
    · exact sound.alter (fun _ _ _ => { fine with })
        fun other _ _ there inflight => same other there ▸ inflight
    · have counted : Sound strict config owed { e with seq := e.seq + 1 } :=
        sound.frame rfl rfl rfl sound.delayed
      have released : FineQueue strict config q
          { queue with delayedIds := queue.delayedIds.erase m } := { fine with }
      exact counted.alter
        (fun _ _ _ => (released.hold ((fine.messages m message held).due _)).pushReady)
        fun other _ _ there inflight => same other there ▸ inflight
  · exact sound

theorem Sound.releaseAll {entries : List TimedEntry} (sound : e.Sound strict config owed) :
    (releaseAll entries e).2.Sound strict config owed := by
  induction entries generalizing e with
  | nil => exact sound
  | cons entry rest ih =>
    unfold QueueEngine.releaseAll
    exact ih sound.releaseOne

end QueueEngine
end OneOpenBroker.Untyped

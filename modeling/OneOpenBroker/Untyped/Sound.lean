import OneOpenBroker.Untyped.QueueEngine

/-! What the engine's operations rely on in the values it stores, and that
they keep it. In a sound engine every stored value takes the arithmetic, the
comparison or the encoding that some later operation puts it to, so that the
operations on it do not raise. -/
namespace OneOpenBroker.Untyped
open Collections Programs
open OneOpenBroker.Core (Backoff EngineConfig heapify heappush mem_heappush)

/-! ## Values -/

/-- If the value is a text, it can be encoded. -/
def Value.Plain (v : Value) : Prop := ∀ t, v = .text t → Text.encodable t = true

/-- The value has a hash. -/
def Value.Hashable (v : Value) : Prop := ∃ key, v.hash = .ok key

/-- The value can be compared with a count. -/
def Value.Measures (v : Value) : Prop := ∃ n, v.numeric? = some n

/-- The value can be added to every reading of the clock. -/
def Value.Lasts (v : Value) : Prop := ∀ now, ∃ m, addSeconds now v = .ok m

/-- The value bounds the attempts, and in time for the delay between them to
be a float. -/
def Value.Bounds (config : EngineConfig) (v : Value) : Prop :=
  ∃ n, v.numeric? = some n ∧ (config.retryBackoff = .exponential → n.value ≤ Moment.of 1025)

theorem Moment.of_le {a b : ℚ} : Moment.of a ≤ Moment.of b ↔ a ≤ b := by
  unfold Moment.of
  rw [WithBot.coe_le_coe, WithTop.coe_le_coe]

theorem Moment.of_lt {a b : ℚ} : Moment.of a < Moment.of b ↔ a < b := by
  unfold Moment.of
  rw [WithBot.coe_lt_coe, WithTop.coe_lt_coe]

theorem Value.Plain.encodable {v : Value} (plain : v.Plain) (hashable : v.Hashable) :
    v.encodable = true := by
  obtain ⟨key, hashed⟩ := hashable
  cases v with
  | text t => exact plain t rfl
  | list items => cases hashed
  | dict entries => cases hashed
  | _ => rfl

theorem Value.reachedBy_of {v : Value} {n : Number} (number : v.numeric? = some n) (count : Nat) :
    v.reachedBy count = .ok (decide (n.value ≤ Moment.of count)) := by
  unfold reachedBy
  rw [number]

theorem text_append_encodable {s t : Text} :
    Text.encodable (s ++ t) = (Text.encodable s && Text.encodable t) := List.all_append

theorem dlqName_encodable {name : Text} (plain : Text.encodable name = true) :
    Text.encodable (dlqName name) = true := by
  unfold dlqName
  split
  · exact plain
  · rw [text_append_encodable, plain]
    exact text_encodable _

@[simp] theorem isDlq_dlqName (name : Text) : isDlq (dlqName name) = true := by
  unfold dlqName
  split
  · assumption
  · exact List.isSuffixOf_iff_suffix.mpr (List.suffix_append _ _)

/-- Up to 1024 failures the exponential delay is a float. -/
theorem retryDelay_ok {attempts : Nat} {mode : Backoff} (base : ℚ)
    (small : mode = .exponential → attempts ≤ 1024) :
    ∃ delay, QueueEngine.retryDelay attempts mode base = .ok delay := by
  cases mode with
  | fixed => exact ⟨base, rfl⟩
  | exponential =>
    have few : attempts - 1 ≤ 1023 := by have := small rfl; omega
    have fits : |(2 : ℤ) ^ (attempts - 1)| < 2 ^ 1024 - 2 ^ 970 := by
      rw [abs_of_nonneg (by positivity)]
      have step : (2 : ℤ) ^ 970 < 2 ^ 1023 := pow_lt_pow_right₀ (by norm_num) (by norm_num)
      calc (2 : ℤ) ^ (attempts - 1) ≤ 2 ^ 1023 := pow_le_pow_right₀ (by norm_num) few
        _ = 2 ^ 1023 * 2 - 2 ^ 1023 := by rw [mul_two, add_sub_cancel_right]
        _ < 2 ^ 1023 * 2 - 2 ^ 970 := sub_lt_sub_left step _
        _ = 2 ^ 1024 - 2 ^ 970 := by rw [← pow_succ]
    refine ⟨base * ((2 ^ (attempts - 1) : ℤ) : ℚ), ?_⟩
    unfold QueueEngine.retryDelay toFloat
    dsimp only
    rw [if_pos fits]
    rfl

/-! ## Heaps of times -/

/-- The entries come in the order of their times. -/
def InOrder (heap : List TimedEntry) : Prop := heap.Pairwise fun a b => a.due ≤ b.due

theorem InOrder.push {heap : List TimedEntry} (ordered : InOrder heap) (entry : TimedEntry) :
    InOrder (heappush TimedEntry.le entry heap) := by
  induction heap with
  | nil => exact List.pairwise_singleton _ _
  | cons head rest ih =>
    obtain ⟨least, tail⟩ := List.pairwise_cons.mp ordered
    unfold heappush at ih ⊢
    rw [List.orderedInsert_cons]
    split
    · rename_i before
      have first : entry.due ≤ head.due := before.elim le_of_lt fun both => le_of_eq both.1
      refine List.pairwise_cons.mpr ⟨fun other member => ?_, ordered⟩
      rcases List.mem_cons.mp member with rfl | later
      · exact first
      · exact first.trans (least other later)
    · rename_i after
      refine List.pairwise_cons.mpr ⟨fun other member => ?_, ih tail⟩
      rcases (List.mem_orderedInsert TimedEntry.le).mp member with rfl | later
      · exact le_of_not_gt fun less => after (.inl less)
      · exact least other later

/-- Past the due entries of a heap no entry is due. -/
theorem InOrder.rest {heap : List TimedEntry} (ordered : InOrder heap) {now : Moment} :
    ∀ entry ∈ heap.dropWhile (·.due ≤ now), now < entry.due := by
  induction heap with
  | nil => exact fun entry member => absurd member List.not_mem_nil
  | cons head rest ih =>
    obtain ⟨least, tail⟩ := List.pairwise_cons.mp ordered
    rw [List.dropWhile_cons]
    split
    · exact ih tail
    · rename_i later
      have after : now < head.due := lt_of_not_ge fun due => later (decide_eq_true due)
      intro entry member
      rcases List.mem_cons.mp member with rfl | further
      · exact after
      · exact after.trans_le (least entry further)

/-! ## The invariant -/

/-- A message whose values take what retries and frames do with them. -/
structure FineMessage (config : EngineConfig) (message : Message) : Prop where
  id : message.id.Hashable
  plain : message.id.Plain
  queue : Text.encodable message.queue = true
  headers : message.headers.encodable = true
  bounds : message.maxAttempts.Bounds config

/-- A queue whose values take what its operations do with them. With `strict`
the capacity is one of them, which only `enqueue` compares. -/
structure FineQueue (strict : Prop) (config : EngineConfig) (name : Text) (queue : DurableQueue) :
    Prop where
  plain : Text.encodable name = true
  lasts : queue.spec.visibilityTimeout.Lasts
  capacity : strict → queue.spec.maxLength = .null ∨ queue.spec.maxLength.Measures
  leaf : isDlq name = true → queue.spec.deadLetter = false
  messages : queue.messages.All fun _ message => FineMessage config message
  filed : queue.inflight.All fun m record => record.messageId = m

namespace QueueEngine

/-- Every inflight record is found by its deadline on the visibility heap,
but those of an owed delivery, whose entry was just taken off. -/
def Watched (e : QueueEngine) (owed : Text → Key → Prop) : Prop :=
  ∀ q m record, e.record? q m = some record → owed q m ∨
    ∃ entry ∈ e.visibilityHeap,
      entry.due = record.visibilityDeadline ∧ entry.queue = q ∧ entry.messageId = m

structure Sound (strict : Prop) (config : EngineConfig) (owed : Text → Key → Prop)
    (e : QueueEngine) : Prop where
  configured : e.config = config
  queues : e.queues.All (FineQueue strict config)
  bounded : (Value.number (.int config.maxAttempts)).Bounds config
  visibility : InOrder e.visibilityHeap
  delayed : InOrder e.delayed
  watched : e.Watched owed

/-- No delivery is owed its entry. -/
def nothing : Text → Key → Prop := fun _ _ => False

variable {e e' : QueueEngine} {strict : Prop} {config : EngineConfig} {owed : Text → Key → Prop}
  {name q : Text} {m : Key} {queue : DurableQueue} {message : Message} {record : InflightRecord}

theorem record?_of_get (found : e.queues.get? name = some queue) :
    e.record? name m = queue.inflight.get? m := by
  unfold record?
  rw [found, Option.bind_some]

theorem record?_some (there : e.record? q m = some record) :
    ∃ queue, e.queues.get? q = some queue ∧ queue.inflight.get? m = some record :=
  Option.bind_eq_some_iff.mp there

/-- What stores no queue and moves no deadline keeps an engine sound. -/
theorem Sound.frame (sound : e.Sound strict config owed) (same : e'.config = e.config)
    (queues : e'.queues = e.queues) (visibility : e'.visibilityHeap = e.visibilityHeap)
    (delayed : InOrder e'.delayed) : e'.Sound strict config owed where
  configured := same.trans sound.configured
  queues := by rw [queues]; exact sound.queues
  bounded := sound.bounded
  visibility := by rw [visibility]; exact sound.visibility
  delayed := delayed
  watched q m record there := by
    unfold record? at there
    rw [queues] at there
    rw [visibility]
    exact sound.watched q m record there

/-- Storing a fine queue that has no new delivery keeps an engine sound. -/
theorem Sound.stored (sound : e.Sound strict config owed)
    (fine : FineQueue strict config name queue)
    (flying : ∀ m record, queue.inflight.get? m = some record → e.record? name m = some record) :
    Sound strict config owed { e with queues := e.queues.set name queue } where
  configured := sound.configured
  queues := sound.queues.set fine
  bounded := sound.bounded
  visibility := sound.visibility
  delayed := sound.delayed
  watched q m record there := by
    obtain ⟨other, found, inflight⟩ := record?_some there
    change (e.queues.set name queue).get? q = some other at found
    rw [Dict.get?_set] at found
    split at found
    · rename_i same
      obtain rfl := Option.some.inj found
      exact sound.watched q m record (same ▸ flying m record inflight)
    · exact sound.watched q m record ((record?_of_get found).trans inflight)

/-- A change of one queue that keeps it fine and files no delivery. -/
theorem Sound.alter {change : DurableQueue → DurableQueue} (sound : e.Sound strict config owed)
    (fine : ∀ queue, e.queues.get? name = some queue → FineQueue strict config name queue →
      FineQueue strict config name (change queue))
    (flying : ∀ queue m record, e.queues.get? name = some queue →
      (change queue).inflight.get? m = some record → queue.inflight.get? m = some record) :
    (e.alter name change).Sound strict config owed := by
  unfold QueueEngine.alter
  split
  · exact sound
  · rename_i queue found
    exact sound.stored (fine queue found (sound.queues name queue found))
      fun m record there => (record?_of_get found).trans (flying queue m record found there)

end QueueEngine
end OneOpenBroker.Untyped

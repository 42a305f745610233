import OneOpenBroker.Core.ConsumerSteps
import OneOpenBroker.Core.Effects

/-! What is left of the consumers of a connection. Recovering a consumer ends
its deliveries and no other, unless the iteration over the queues is cut short
because dead-lettering declared a queue on the way. That happens exactly where
a delivery at its last attempt is in a queue whose DLQ is missing; where there
is none, disconnecting takes every consumer of the connection out and ends all
their deliveries. -/
namespace OneOpenBroker.Core
open Collections

namespace QueueEngine

variable {e e' base : QueueEngine} {name id q m : String} {record : InflightRecord}
  {queue : DurableQueue} {mine : String → String → Prop}

/-! ## Deliveries of other consumers -/

/-- Two engines with the same records of some consumers. -/
def SameFor (kept : String → Prop) (e e' : QueueEngine) : Prop :=
  ∀ q m record, kept record.consumerId →
    (e'.record? q m = some record ↔ e.record? q m = some record)

theorem SameFor.of_eq {kept : String → Prop} (same : e'.record? = e.record?) : SameFor kept e e' := by
  intro q m record _
  rw [same]

/-- Ending a delivery of another consumer changes nothing for these. -/
theorem SameFor.fail {kept : String → Prop} (same : SameFor kept base e)
    (found : e.record? name id = some record) (other : ¬ kept record.consumerId) :
    SameFor kept base (e.failDelivery name id true).2 := by
  intro q m record' mine
  rw [failDelivery_record?, ← same q m record' mine]
  split
  · rename_i here
    obtain ⟨rfl, rfl⟩ := here
    rw [found]
    constructor
    · intro gone
      cases gone
    · intro there
      exact absurd (Option.some.inj there ▸ mine) other
  · rfl

/-! ## Failures that declare a queue -/

/-- The delivery is at its last attempt and the DLQ that its message would go
to is missing, so a failure declares it. -/
def Declares (e : QueueEngine) (q m : String) : Prop :=
  ∃ message spec, e.message? q m = some message ∧ message.maxAttempts ≤ message.attempts + 1 ∧
    e.spec? q = some spec ∧ spec.deadLetter = true ∧ e.spec? (dlqName q) = none

theorem Alike.declares (alike : Alike e e') : e'.Declares q m ↔ e.Declares q m := by
  unfold Declares
  rw [alike.messages, alike.specs]

/-- Queues are only added, at the end. -/
theorem failDelivery_keys : e.queues.keys <+: (e.failDelivery name id true).2.queues.keys := by
  rcases failDelivery_cases e name id true with ⟨_, shape⟩ | ⟨queue, _, _, shape⟩ |
    ⟨queue, message, _, _, shape⟩
  · rw [shape]
  · rw [shape]
    exact Dict.keys_prefix_set
  · rw [shape]
    refine List.IsPrefix.trans (Dict.keys_prefix_set (k := name) (v := queue.endDelivery id)) ?_
    generalize ended : e.putQueue name (queue.endDelivery id) = e'
    have stored : e.queues.set name (queue.endDelivery id) = e'.queues := by rw [← ended]; rfl
    rw [stored]
    rcases conclude_cases e' name (queue.endDelivery id) message true true with ⟨_, shape⟩ |
      ⟨_, _, shape⟩
    · rw [shape, moveToDlq_eq]
      have discarded : e'.queues.keys <+:
          (e'.discarded name (queue.endDelivery id) (failed message true) true).queues.keys := by
        rw [discarded_queues]
        exact Dict.keys_prefix_set
      split
      · obtain ⟨dest, known⟩ := declareLeaf_known
          (e'.discarded name (queue.endDelivery id) (failed message true) true) (dlqName name) {} false
        rw [bury_queues known, declareLeaf_queues]
        refine discarded.trans (List.IsPrefix.trans ?_ Dict.keys_prefix_set)
        split
        · exact List.prefix_rfl
        · exact Dict.keys_prefix_set
      · exact discarded
    · rw [shape, delayRetry_queues]
      exact Dict.keys_prefix_set

theorem size_lt_of_keys (grows : e.queues.keys <+: e'.queues.keys)
    (new : e.spec? q = none) (there : e'.spec? q ≠ none) : e.queues.size < e'.queues.size := by
  rw [← Dict.length_keys, ← Dict.length_keys]
  apply lt_of_le_of_ne grows.length_le
  intro same
  have equal : e.queues.keys = e'.queues.keys := grows.eq_of_length same
  apply there
  rw [spec?_none] at new ⊢
  rwa [← Dict.mem_keys, ← equal]

/-- The same queues are stored. -/
theorem keys_of_specs (grows : e.queues.keys <+: e'.queues.keys) (specs : e'.spec? = e.spec?) :
    e'.queues.keys = e.queues.keys := by
  apply (grows.eq_of_length _).symm
  apply List.Perm.length_eq
  rw [List.perm_ext_iff_of_nodup e.queues.keys_nodup e'.queues.keys_nodup]
  intro q
  rw [Dict.mem_keys, Dict.mem_keys, ← not_iff_not, ← spec?_none, ← spec?_none, specs]

/-- A failure either declares a queue, or it leaves the stored queues and what
the other failures would do as they are. -/
theorem failDelivery_declares (name id : String) (named : e.Named) :
    e.Declares name id ∧ e.queues.size < (e.failDelivery name id true).2.queues.size ∨
    ¬ e.Declares name id ∧ (e.failDelivery name id true).2.spec? = e.spec? ∧
      ∀ q m, ¬ (q = name ∧ m = id) →
        ((e.failDelivery name id true).2.Declares q m ↔ e.Declares q m) := by
  have exit : Exit e name id true true [] (e.failDelivery name id true).2 := failDelivery_exit named
  have grows : e.queues.keys <+: (e.failDelivery name id true).2.queues.keys := failDelivery_keys
  generalize (e.failDelivery name id true).2 = e' at exit grows ⊢
  -- A queue that dead-letters is no DLQ, so a move into a DLQ leaves its messages alone.
  have others : e'.spec? = e.spec? →
      (∀ q m, ¬ (q = name ∧ m = id) → isDlq q = false → e'.message? q m = e.message? q m) →
      ∀ q m, ¬ (q = name ∧ m = id) → (e'.Declares q m ↔ e.Declares q m) := by
    intro specs messages q m other
    unfold Declares
    rw [specs]
    constructor
    · rintro ⟨message, spec, held, spent, known, on, missing⟩
      rw [messages q m other (named.plain known on)] at held
      exact ⟨message, spec, held, spent, known, on, missing⟩
    · rintro ⟨message, spec, held, spent, known, on, missing⟩
      rw [← messages q m other (named.plain known on)] at held
      exact ⟨message, spec, held, spent, known, on, missing⟩
  cases exit with
  | gone absent messages specs =>
    refine .inr ⟨?_, specs, others specs fun q m _ _ => by rw [messages]⟩
    rintro ⟨message, _, held, _⟩
    rw [absent] at held
    cases held
  | retried message due held _ below messages specs =>
    refine .inr ⟨?_, specs, others specs fun q m other _ => by rw [messages, if_neg other]⟩
    rintro ⟨message', _, held', spent, _⟩
    rw [held] at held'
    obtain rfl := Option.some.inj held'
    omega
  | moved message spec held known on spent messages specs =>
    by_cases missing : e.spec? (dlqName name) = none
    · refine .inl ⟨⟨message, spec, held, spent rfl, known, on, missing⟩, ?_⟩
      refine size_lt_of_keys grows missing ?_
      rw [specs, if_pos ⟨rfl, missing⟩]
      simp
    · have same : e'.spec? = e.spec? := by
        funext q
        rw [specs, if_neg]
        rintro ⟨rfl, absent⟩
        exact missing absent
      refine .inr ⟨fun ⟨_, _, _, _, _, _, absent⟩ => missing absent, same,
        others same fun q m other plain => ?_⟩
      rw [messages, if_neg (fun both => ne_dlqName plain both.1), if_neg other]
  | dropped message spec held known off _ messages specs =>
    refine .inr ⟨?_, specs, others specs fun q m other _ => by rw [messages, if_neg other]⟩
    rintro ⟨_, spec', _, _, known', on, _⟩
    rw [known] at known'
    obtain rfl := Option.some.inj known'
    rw [off] at on
    cases on

/-! ## Recoveries that go through -/

/-- None of these deliveries, given by queue and consumer, would declare a
queue. -/
def Safe (e : QueueEngine) (mine : String → String → Prop) : Prop :=
  ∀ q m record, e.record? q m = some record → mine q record.consumerId → ¬ e.Declares q m

theorem Safe.alike (safe : Safe e mine) (alike : Alike e e') : Safe e' mine := by
  intro q m record
  rw [alike.records, alike.declares]
  exact safe q m record

/-- A recovery that goes through. -/
structure Ends (mine : String → String → Prop) (e e' : QueueEngine) : Prop where
  named : e'.Named
  keys : e'.queues.keys = e.queues.keys
  safe : Safe e' mine

theorem Ends.size (ends : Ends mine base e) : e.queues.size = base.queues.size := by
  rw [← Dict.length_keys, ← Dict.length_keys, ends.keys]

theorem Ends.alike (ends : Ends mine base e) (alike : Alike e e') : Ends mine base e' :=
  ⟨alike.named ends.named, alike.keys.trans ends.keys, ends.safe.alike alike⟩

theorem Ends.fail (ends : Ends mine base e) (there : e.record? name id = some record)
    (owned : mine name record.consumerId) : Ends mine base (e.failDelivery name id true).2 := by
  have calm := ends.safe name id record there owned
  obtain ⟨declares, _⟩ | ⟨_, specs, others⟩ := failDelivery_declares name id ends.named
  · exact absurd declares calm
  · refine ⟨failDelivery_named ends.named, (keys_of_specs failDelivery_keys specs).trans ends.keys,
      fun q m record' found owned' => ?_⟩
    rw [failDelivery_record?] at found
    split at found
    · cases found
    · rename_i other
      rw [others q m other]
      exact ends.safe q m record' found owned'

theorem failAll_record? {ids : List String} : (e.failAll name true ids).2.record? q m =
    if q = name ∧ m ∈ ids then none else e.record? q m := by
  induction ids generalizing e with
  | nil => simp [failAll]
  | cons first rest ih =>
    have after : (e.failAll name true (first :: rest)).2 =
        ((e.failDelivery name first true).2.failAll name true rest).2 := rfl
    rw [after, ih, failDelivery_record?]
    by_cases here : q = name
    · by_cases same : m = first
      · simp [here, same]
      · simp [here, same]
    · simp [here]

theorem failAll_ends {ids : List String} (ends : Ends mine base e) (owned : mine name id)
    (distinct : ids.Nodup)
    (listed : ∀ m ∈ ids, ∃ record, e.record? name m = some record ∧ record.consumerId = id) :
    Ends mine base (e.failAll name true ids).2 :=
  failAll_preserves id (fun _ _ _ ends there own => ends.fail there (own ▸ owned)) distinct listed ends

/-- The deliveries that the recovery of a consumer collects in a queue. -/
theorem heldBy_record? (id : String) (named : e.Named) (found : e.queues.get? name = some queue) :
    (heldBy queue id).Nodup ∧ ∀ m, m ∈ heldBy queue id ↔
      ∃ record, e.record? name m = some record ∧ record.consumerId = id := by
  obtain ⟨distinct, collected⟩ := heldBy_spec id (named name queue found)
  refine ⟨distinct, fun m => ?_⟩
  rw [record?_of_get found]
  exact collected m

/-- The part of the iteration over queues in which the consumer's deliveries
are safe: it ends these deliveries, and the iteration goes on. -/
theorem recoverQueues_ends (names rest : List String) (ends : Ends mine base e)
    (owned : ∀ q ∈ names, mine q id) : ∃ n e', Ends mine base e' ∧
      recoverQueues base.queues.size id true (names ++ rest) e =
        ((recoverQueues base.queues.size id true rest e').1.map (· + n),
          (recoverQueues base.queues.size id true rest e').2) ∧
      ∀ q m record, e'.record? q m = some record ↔
        e.record? q m = some record ∧ ¬ (q ∈ names ∧ record.consumerId = id) := by
  induction names generalizing e with
  | nil =>
    refine ⟨0, e, ends, ?_, by simp⟩
    rw [List.nil_append]
    rcases recoverQueues base.queues.size id true rest e with ⟨result, after⟩
    cases result <;> rfl
  | cons name names ih =>
    have tail : ∀ q ∈ names, mine q id := fun q member => owned q (List.mem_cons_of_mem _ member)
    cases found : e.queues.get? name with
    | none =>
      obtain ⟨n, e', ends', shape, records⟩ := ih ends tail
      refine ⟨n, e', ends', ?_, fun q m record => ?_⟩
      · rw [List.cons_append, recoverQueues, if_pos ends.size, found]
        exact shape
      · rw [records, List.mem_cons]
        have idle : q = name → e.record? q m ≠ some record := by
          rintro rfl there
          simp [record?, found] at there
        tauto
    | some queue =>
      obtain ⟨distinct, collected⟩ := heldBy_record? id ends.named found
      have failed : Ends mine base (e.failAll name true (heldBy queue id)).2 :=
        failAll_ends ends (owned name List.mem_cons_self) distinct fun m => (collected m).mp
      obtain ⟨n, e', ends', shape, records⟩ := ih failed tail
      refine ⟨n + (e.failAll name true (heldBy queue id)).1, e', ends', ?_, fun q m record => ?_⟩
      · rw [List.cons_append, recoverQueues, if_pos ends.size, found]
        dsimp only
        rw [shape]
        rcases recoverQueues base.queues.size id true rest e' with ⟨result, after⟩
        cases result with
        | error raised => rfl
        | ok count => simp [Except.map, Nat.add_assoc]
      · rw [records, failAll_record?, List.mem_cons]
        by_cases mine' : q = name ∧ m ∈ heldBy queue id
        · obtain ⟨rfl, member⟩ := mine'
          obtain ⟨record', there, own⟩ := (collected m).mp member
          simp only [member, and_self, if_true, reduceCtorEq, false_and, true_or, true_and, false_iff,
            not_and, not_not]
          rintro here
          rw [there] at here
          exact Option.some.inj here ▸ own
        · rw [if_neg mine']
          have foreign : q = name → e.record? q m = some record → record.consumerId ≠ id := by
            rintro rfl there own
            exact mine' ⟨rfl, (collected m).mpr ⟨record, there, own⟩⟩
          tauto

/-- Recovering a consumer whose deliveries are safe goes through and leaves
none of them outstanding. -/
theorem recoverConsumer_ends (ends : Ends mine base e) (owned : ∀ q, mine q id) :
    ∃ n, (e.recoverConsumer id).1 = .ok n ∧ Ends mine base (e.recoverConsumer id).2 ∧
      ∀ q m record, (e.recoverConsumer id).2.record? q m = some record ↔
        e.record? q m = some record ∧ record.consumerId ≠ id := by
  obtain ⟨n, e', ends', shape, records⟩ := recoverQueues_ends e.queues.keys [] ends
    fun q _ => owned q
  rw [List.append_nil, ← ends.size, recoverQueues, if_pos (ends'.size.trans ends.size.symm)] at shape
  refine ⟨0 + n, by unfold recoverConsumer; rw [shape]; rfl, ?_, fun q m record => ?_⟩
  · unfold recoverConsumer
    rw [shape]
    exact ends'
  · unfold recoverConsumer
    rw [shape]
    dsimp only
    rw [records]
    constructor
    · rintro ⟨there, outside⟩
      obtain ⟨queue, found, _⟩ := record?_some.mp there
      exact ⟨there, fun own => outside ⟨Dict.mem_keys.mpr (Dict.mem_of_get? found), own⟩⟩
    · rintro ⟨there, foreign⟩
      exact ⟨there, fun both => foreign both.2⟩

/-! ## Recoveries that are cut short -/

theorem failAll_keys {ids : List String} :
    e.queues.keys <+: (e.failAll name true ids).2.queues.keys := by
  induction ids generalizing e with
  | nil => exact List.prefix_rfl
  | cons first rest ih => exact failDelivery_keys.trans (ih (e := (e.failDelivery name first true).2))

/-- Failing several deliveries declares a queue, or would-be failures that
declare one are still to come. -/
theorem failAll_declares (name : String) (ids : List String) (named : e.Named) (declares : e.Declares q m) :
    e.queues.size < (e.failAll name true ids).2.queues.size ∨
      (e.failAll name true ids).2.Declares q m ∧ ¬ (q = name ∧ m ∈ ids) := by
  induction ids generalizing e with
  | nil => exact .inr ⟨declares, fun both => nomatch both.2⟩
  | cons first rest ih =>
    change e.queues.size < ((e.failDelivery name first true).2.failAll name true rest).2.queues.size ∨
      ((e.failDelivery name first true).2.failAll name true rest).2.Declares q m ∧ _
    have later : (e.failDelivery name first true).2.queues.keys <+:
        ((e.failDelivery name first true).2.failAll name true rest).2.queues.keys := failAll_keys
    have now : e.queues.keys <+: (e.failDelivery name first true).2.queues.keys := failDelivery_keys
    have grows := now.length_le
    have grows' := later.length_le
    rw [Dict.length_keys, Dict.length_keys] at grows grows'
    rcases failDelivery_declares name first named with ⟨_, more⟩ | ⟨calm, _, others⟩
    · exact .inl (by omega)
    · have other : ¬ (q = name ∧ m = first) := by
        rintro ⟨rfl, rfl⟩
        exact calm declares
      rcases ih (failDelivery_named named) ((others q m other).mpr declares) with more | ⟨still, outside⟩
      · exact .inl (by omega)
      · refine .inr ⟨still, fun ⟨here, member⟩ => ?_⟩
        rcases List.mem_cons.mp member with same | there
        · exact other ⟨here, same⟩
        · exact outside ⟨here, there⟩

theorem recoverQueues_changed {size : Nat} {names : List String} (differ : e.queues.size ≠ size) :
    recoverQueues size id true names e = (.error .dictionaryChangedSize, e) := by
  cases names with
  | nil => rw [recoverQueues, if_neg differ]
  | cons name rest => rw [recoverQueues, if_neg differ]

theorem recoverQueues_fewer {size : Nat} {names : List String}
    (left : (recoverQueues size id true names e).2.record? q m = some record) :
    e.record? q m = some record := by
  induction names generalizing e with
  | nil => exact left
  | cons name rest ih =>
    unfold recoverQueues at left
    split at left
    · cases found : e.queues.get? name with
      | none =>
        rw [found] at left
        exact ih left
      | some queue =>
        rw [found] at left
        have before := ih left
        rw [failAll_record?] at before
        split at before
        · cases before
        · exact before
    · exact left

/-- The deliveries in a queue are ended if the iteration gets that far. -/
theorem recoverQueues_reaches (before after : List String) (ends : Ends mine base e)
    (owned : ∀ q' ∈ before, mine q' record.consumerId) (there : e.record? q m = some record) :
    (recoverQueues base.queues.size record.consumerId true (before ++ q :: after) e).2.record? q m =
      none := by
  obtain ⟨n, e', ends', shape, records⟩ := recoverQueues_ends before (q :: after) ends owned
  rw [shape, Option.eq_none_iff_forall_ne_some]
  intro left still
  dsimp only at still
  unfold recoverQueues at still
  rw [if_pos ends'.size] at still
  cases found : e'.queues.get? q with
  | none =>
    rw [found] at still
    have unknown := recoverQueues_fewer still
    simp [record?, found] at unknown
  | some queue =>
    rw [found] at still
    have before' := recoverQueues_fewer still
    rw [failAll_record?] at before'
    split at before'
    · cases before'
    · rename_i outside
      have same := ((records q m left).mp before').1
      rw [there] at same
      obtain rfl := Option.some.inj same
      exact outside ⟨rfl, ((heldBy_record? _ ends'.named found).2 m).mpr ⟨record, before', rfl⟩⟩

/-- A delivery on the way that declares a queue ends the iteration there. -/
theorem recoverQueues_stuck (size : Nat) (before after : List String) (named : e.Named)
    (there : e.record? name m = some record) (declares : e.Declares name m) (apart : name ∉ before)
    (larger : size ≤ e.queues.size) :
    (recoverQueues size record.consumerId true (before ++ name :: after) e).1 =
        .error .dictionaryChangedSize ∧
      ∀ q m', q ∉ before ++ [name] →
        (recoverQueues size record.consumerId true (before ++ name :: after) e).2.record? q m' =
          e.record? q m' := by
  induction before generalizing e with
  | nil =>
    rw [List.nil_append, recoverQueues]
    split
    · obtain ⟨queue, found, _⟩ := record?_some.mp there
      rw [found]
      dsimp only
      rcases failAll_declares name (heldBy queue record.consumerId) named declares with
        more | ⟨_, outside⟩
      · rw [recoverQueues_changed (by omega)]
        refine ⟨rfl, fun q m' elsewhere => ?_⟩
        rw [failAll_record?, if_neg]
        rintro ⟨rfl, _⟩
        exact elsewhere List.mem_cons_self
      · exact absurd ⟨rfl, ((heldBy_record? _ named found).2 m).mpr ⟨record, there, rfl⟩⟩ outside
    · exact ⟨rfl, fun _ _ _ => rfl⟩
  | cons first before ih =>
    have differ : name ≠ first := fun same => apart (same ▸ List.mem_cons_self)
    have apart' : name ∉ before := fun member => apart (List.mem_cons_of_mem _ member)
    rw [List.cons_append, recoverQueues]
    split
    · rename_i same
      cases found : e.queues.get? first with
      | none =>
        obtain ⟨result, records⟩ := ih named there declares apart' larger
        refine ⟨result, fun q m' elsewhere => records q m' fun member => ?_⟩
        exact elsewhere (List.mem_cons_of_mem _ member)
      | some queue =>
        dsimp only
        have kept : ∀ q m', q ≠ first →
            (e.failAll first true (heldBy queue record.consumerId)).2.record? q m' =
              e.record? q m' := by
          intro q m' other
          rw [failAll_record?, if_neg fun both => other both.1]
        obtain ⟨distinct, collected⟩ := heldBy_record? record.consumerId named found
        have named' : (e.failAll first true (heldBy queue record.consumerId)).2.Named :=
          failAll_preserves record.consumerId (fun _ _ _ named _ _ => failDelivery_named named) distinct
            (fun m' => (collected m').mp) named
        have grows : e.queues.keys <+:
            (e.failAll first true (heldBy queue record.consumerId)).2.queues.keys := failAll_keys
        have larger' := grows.length_le
        rw [Dict.length_keys, Dict.length_keys] at larger'
        have still := failAll_declares first (heldBy queue record.consumerId) named declares
        generalize (e.failAll first true (heldBy queue record.consumerId)).2 = e' at *
        by_cases size' : e'.queues.size = size
        · obtain more | ⟨declares', _⟩ := still
          · omega
          · obtain ⟨result, records⟩ := ih named' (by rw [kept name m differ]; exact there) declares'
              apart' (by omega)
            refine ⟨by rw [result]; rfl, fun q m' elsewhere => ?_⟩
            rw [records q m' fun member => elsewhere (List.mem_cons_of_mem _ member)]
            exact kept q m' fun here => elsewhere (here ▸ List.mem_cons_self)
        · rw [recoverQueues_changed size']
          refine ⟨rfl, fun q m' elsewhere => ?_⟩
          exact kept q m' fun here => elsewhere (here ▸ List.mem_cons_self)
    · exact ⟨rfl, fun _ _ _ => rfl⟩

end QueueEngine
end OneOpenBroker.Core

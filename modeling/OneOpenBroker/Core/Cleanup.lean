import Mathlib.Data.List.TakeWhile
import OneOpenBroker.Core.Disconnects

/-! The cleanup of a connection. It cancels every consumer id that the
connection registered, and cancelling a consumer ends its deliveries. Which
deliveries a cleanup ends, and whether it runs to its end, depends on the
order in which the set of ids is walked only where a delivery on the way
declares a queue. -/
namespace OneOpenBroker.Core
open Collections QueueEngine

namespace ConsumerManager

variable {c : ConsumerManager} {e base : QueueEngine} {id other connectionId q m : String}
  {record : InflightRecord} {ids order : List String}

/-- The ids that a connection registered. -/
def listed (c : ConsumerManager) (connectionId : String) : List String :=
  (c.byConnection.get? connectionId).getD []

/-! ## The registry -/

/-- Every consumer is registered under its own id, and listed for its
connection. -/
structure Enrolled (c : ConsumerManager) : Prop where
  keyed : ∀ id consumer, c.consumers.get? id = some consumer → consumer.consumerId = id
  listed : ∀ id consumer, c.consumers.get? id = some consumer → id ∈ c.listed consumer.connectionId

theorem register_listed {queues : List String} {prefetchCount : Int} {tag : String} {owner : String} :
    other ∈ (c.register e id connectionId queues prefetchCount tag).1.listed owner ↔
      owner = connectionId ∧ other = id ∨ other ∈ c.listed owner := by
  change other ∈ ((c.byConnection.set connectionId _).get? owner).getD [] ↔ _
  rw [Dict.get?_set]
  by_cases same : owner = connectionId
  · subst same
    simp [listed]
  · simp [same, listed]

theorem Enrolled.register {queues : List String} {prefetchCount : Int} {tag : String}
    (enrolled : Enrolled c) (e : QueueEngine) :
    Enrolled (c.register e id connectionId queues prefetchCount tag).1 := by
  constructor
  · intro other consumer found
    rw [register_get?] at found
    split at found
    · rename_i same
      obtain rfl := Option.some.inj found
      exact same.symm
    · exact enrolled.keyed other consumer found
  · intro other consumer found
    rw [register_listed]
    rw [register_get?] at found
    split at found
    · rename_i same
      obtain rfl := Option.some.inj found
      exact .inl ⟨rfl, same⟩
    · exact .inr (enrolled.listed other consumer found)

theorem updateQos_listed {change : QoS → QoS} : (c.updateQos id change).listed = c.listed := by
  funext owner
  unfold listed
  rw [updateQos_byConnection]

/-- A change of a window leaves the rest of a consumer as it is. -/
theorem updateQos_some {change : QoS → QoS} {consumer : Consumer}
    (found : (c.updateQos id change).consumers.get? other = some consumer) :
    ∃ before, c.consumers.get? other = some before ∧ consumer.consumerId = before.consumerId ∧
      consumer.connectionId = before.connectionId ∧ consumer.queues = before.queues := by
  rw [updateQos_get?] at found
  split at found
  · rename_i same
    subst same
    obtain ⟨before, known, rfl⟩ := Option.map_eq_some_iff.mp found
    exact ⟨before, known, rfl, rfl, rfl⟩
  · exact ⟨consumer, found, rfl, rfl, rfl⟩

theorem Enrolled.updateQos (enrolled : Enrolled c) (id : String) (change : QoS → QoS) :
    Enrolled (c.updateQos id change) := by
  constructor
  · intro other consumer found
    obtain ⟨before, known, key, _⟩ := updateQos_some found
    rw [key]
    exact enrolled.keyed other before known
  · intro other consumer found
    obtain ⟨before, known, _, owner, _⟩ := updateQos_some found
    rw [updateQos_listed, owner]
    exact enrolled.listed other before known

/-- The id goes from the set of the connection, whether or not that is kept. -/
theorem strike_listed {byConnection : Dict String (List String)} {owner : String} :
    ((strike byConnection connectionId id).get? owner).getD [] =
      if owner = connectionId then ((byConnection.get? owner).getD []).erase id
      else (byConnection.get? owner).getD [] := by
  unfold strike
  cases found : byConnection.get? connectionId with
  | none =>
    dsimp only
    split
    · rename_i same
      rw [same, found]
      rfl
    · rfl
  | some ids =>
    dsimp only
    by_cases same : owner = connectionId
    · subst same
      rw [if_pos rfl, found]
      split
      · rename_i empty
        rw [Dict.get?_erase_self, Option.getD_none, Option.getD_some, empty]
      · rw [Dict.get?_set_self, Option.getD_some, Option.getD_some]
    · rw [if_neg same]
      split
      · rw [Dict.get?_erase_ne same]
      · rw [Dict.get?_set_ne same]

theorem strike_other {byConnection : Dict String (List String)} {owner : String} (differ : other ≠ id) :
    other ∈ ((strike byConnection connectionId id).get? owner).getD [] ↔
      other ∈ (byConnection.get? owner).getD [] := by
  rw [strike_listed]
  split
  · exact List.mem_erase_of_ne differ
  · rfl

/-! ## Cancelling one consumer -/

theorem cancel_get? : (c.cancel e id).2.1.consumers.get? other =
    if other = id then none else c.consumers.get? other := by
  rcases cancel_cases c e id with ⟨unknown, shape⟩ | ⟨consumer, e', _, _, shape⟩
  · rw [shape]
    split
    · rename_i same
      rw [same]
      exact unknown
    · rfl
  · rw [shape]
    exact Dict.get?_erase

theorem cancel_mem : other ∈ (c.cancel e id).2.1.consumers ↔ other ≠ id ∧ other ∈ c.consumers := by
  rw [Dict.mem_iff, Dict.mem_iff]
  simp only [cancel_get?]
  by_cases same : other = id <;> simp [same]

theorem Enrolled.cancel (enrolled : Enrolled c) : Enrolled (c.cancel e id).2.1 := by
  constructor
  · intro other consumer found
    rw [cancel_get?] at found
    split at found
    · cases found
    · exact enrolled.keyed other consumer found
  · intro other consumer found
    rw [cancel_get?] at found
    split at found
    · cases found
    · rename_i differ
      have listed := enrolled.listed other consumer found
      rcases cancel_cases c e id with ⟨_, shape⟩ | ⟨_, _, _, _, shape⟩
      · rw [shape]
        exact listed
      · rw [shape]
        exact (strike_other differ).mpr listed

theorem cancel_fewer (left : (c.cancel e id).2.2.record? q m = some record) :
    e.record? q m = some record := by
  rcases cancel_cases c e id with ⟨_, shape⟩ | ⟨_, e', _, alike, shape⟩
  · rw [shape] at left
    exact left
  · rw [shape] at left
    rw [← alike.records]
    exact recoverQueues_fewer left

/-- The deliveries of the other consumers stay, whatever becomes of the
recovery. -/
theorem cancel_keeps (named : e.Named) (differ : record.consumerId ≠ id)
    (there : e.record? q m = some record) : (c.cancel e id).2.2.record? q m = some record := by
  rcases cancel_cases c e id with ⟨_, shape⟩ | ⟨_, e', _, alike, shape⟩
  · rw [shape]
    exact there
  · rw [shape]
    dsimp only
    have both : (e'.recoverConsumer id).2.Named ∧
        SameFor (· ≠ id) e' (e'.recoverConsumer id).2 := by
      refine recoverConsumer_preserves (I := fun e'' => e''.Named ∧ SameFor (· ≠ id) e' e'')
        (fun _ inv => inv.1) ?_ ⟨alike.named named, SameFor.of_eq rfl⟩
      intro e'' name id' record' inv found own
      exact ⟨failDelivery_named inv.1, inv.2.fail found fun kept => kept own⟩
    rw [both.2 q m record differ, alike.records]
    exact there

theorem cancel_named (named : e.Named) : (c.cancel e id).2.2.Named := by
  rcases cancel_cases c e id with ⟨_, shape⟩ | ⟨_, e', _, alike, shape⟩
  · rw [shape]
    exact named
  · rw [shape]
    exact step_named (alike.named named) (.recoverConsumer id)

/-- A consumer whose deliveries are safe is cancelled. -/
theorem cancel_ends (id : String) {mine : String → String → Prop} (ends : Ends mine base e)
    (owned : id ∈ c.consumers → ∀ q, mine q id) :
    (∃ cancelled, (c.cancel e id).1 = .ok cancelled) ∧ Ends mine base (c.cancel e id).2.2 := by
  rcases cancel_cases c e id with ⟨_, shape⟩ | ⟨consumer, e', known, alike, shape⟩
  · rw [shape]
    exact ⟨⟨false, rfl⟩, ends⟩
  · obtain ⟨n, result, ends', _⟩ := recoverConsumer_ends (ends.alike alike)
      (owned (Dict.mem_of_get? known))
    rw [shape, result]
    exact ⟨⟨true, rfl⟩, ends'⟩

/-! ## Cancelling the consumers of a connection -/

theorem cancelAll_cons (c : ConsumerManager) (e : QueueEngine) (id : String) (rest : List String) :
    (∃ raised, (c.cancel e id).1 = .error raised ∧
      cancelAll (id :: rest) c e = (.error raised, (c.cancel e id).2)) ∨
    ∃ cancelled, (c.cancel e id).1 = .ok cancelled ∧
      cancelAll (id :: rest) c e =
        ((cancelAll rest (c.cancel e id).2.1 (c.cancel e id).2.2).1.map (· + cancelled.toNat),
          (cancelAll rest (c.cancel e id).2.1 (c.cancel e id).2.2).2) := by
  rcases done : c.cancel e id with ⟨raised | cancelled, c', e'⟩
  · exact .inl ⟨raised, rfl, by simp only [cancelAll, done]⟩
  · exact .inr ⟨cancelled, rfl, by simp only [cancelAll, done]⟩

theorem cancelAll_fewer (left : (cancelAll order c e).2.2.record? q m = some record) :
    e.record? q m = some record := by
  induction order generalizing c e with
  | nil => exact left
  | cons id rest ih =>
    rcases cancelAll_cons c e id rest with ⟨_, _, shape⟩ | ⟨_, _, shape⟩
    · rw [shape] at left
      exact cancel_fewer left
    · rw [shape] at left
      exact cancel_fewer (ih left)

theorem cancelAll_keeps (named : e.Named) (foreign : record.consumerId ∉ order)
    (there : e.record? q m = some record) :
    (cancelAll order c e).2.2.record? q m = some record := by
  induction order generalizing c e with
  | nil => exact there
  | cons id rest ih =>
    obtain ⟨differ, foreign'⟩ := not_or.mp (mt List.mem_cons.mpr foreign)
    have kept := cancel_keeps (c := c) named differ there
    rcases cancelAll_cons c e id rest with ⟨_, _, shape⟩ | ⟨_, _, shape⟩
    · rw [shape]
      exact kept
    · rw [shape]
      exact ih (cancel_named named) foreign' kept

theorem cancelAll_registered {consumer : Consumer}
    (left : (cancelAll order c e).2.1.consumers.get? id = some consumer) :
    c.consumers.get? id = some consumer := by
  induction order generalizing c e with
  | nil => exact left
  | cons first rest ih =>
    have before : (c.cancel e first).2.1.consumers.get? id = some consumer := by
      rcases cancelAll_cons c e first rest with ⟨_, _, shape⟩ | ⟨_, _, shape⟩
      · rw [shape] at left
        exact left
      · rw [shape] at left
        exact ih left
    rw [cancel_get?] at before
    split at before
    · cases before
    · exact before

/-- Who is not on the list stays registered. -/
theorem cancelAll_spares (foreign : id ∉ order) :
    (cancelAll order c e).2.1.consumers.get? id = c.consumers.get? id := by
  induction order generalizing c e with
  | nil => rfl
  | cons first rest ih =>
    obtain ⟨differ, foreign'⟩ := not_or.mp (mt List.mem_cons.mpr foreign)
    have kept : (c.cancel e first).2.1.consumers.get? id = c.consumers.get? id := by
      rw [cancel_get?, if_neg differ]
    rcases cancelAll_cons c e first rest with ⟨_, _, shape⟩ | ⟨_, _, shape⟩
    · rw [shape]
      exact kept
    · rw [shape]
      exact (ih foreign').trans kept

/-! ## Which deliveries a cleanup ends -/

/-- The deliveries, given by queue and consumer, that a cleanup may come to
before those of one consumer in one queue: all that the other registered
consumers of the connection have, and its own in the queues before. -/
def InTheWay (c : ConsumerManager) (e : QueueEngine) (ids : List String) (id q : String) :
    String → String → Prop := fun q' other =>
  other ∈ ids ∧ other ≠ id ∧ other ∈ c.consumers ∨
    other = id ∧ q' ∈ e.queues.keys.takeWhile (· ≠ q)

theorem queue_split (there : e.record? q m = some record) : ∃ after,
    e.queues.keys = e.queues.keys.takeWhile (· ≠ q) ++ q :: after := by
  obtain ⟨queue, found, _⟩ := record?_some.mp there
  obtain ⟨before, after, whole, absent⟩ := List.eq_append_cons_of_mem (Dict.mem_of_get? found)
  refine ⟨after, ?_⟩
  have taken : e.queues.keys.takeWhile (· ≠ q) = before := by
    have apart : ∀ q' ∈ before, decide (q' ≠ q) = true := by
      rintro q' member
      simp only [ne_eq, decide_eq_true_eq]
      rintro rfl
      exact absent member
    rw [whole, List.takeWhile_append_of_pos apart, List.takeWhile_cons_of_neg (by simp), List.append_nil]
  rw [taken]
  exact whole

/-- Cancelling a consumer ends its delivery in a queue if those in the queues
before are safe. -/
theorem cancel_reaches {mine : String → String → Prop} (ends : Ends mine base e)
    (registered : record.consumerId ∈ c.consumers)
    (owned : ∀ q' ∈ base.queues.keys.takeWhile (· ≠ q), mine q' record.consumerId)
    (there : e.record? q m = some record) :
    (c.cancel e record.consumerId).2.2.record? q m = none := by
  rcases cancel_cases c e record.consumerId with ⟨unknown, _⟩ | ⟨_, e', _, alike, shape⟩
  · exact absurd unknown (by rw [Dict.get?_eq_none]; exact not_not.mpr registered)
  · have ends' := ends.alike alike
    have there' : e'.record? q m = some record := by rw [alike.records]; exact there
    obtain ⟨after, split⟩ := queue_split there'
    have reached := recoverQueues_reaches (e'.queues.keys.takeWhile (· ≠ q)) after ends'
      (by rw [ends'.keys]; exact owned) there'
    rw [← split, ← ends'.size] at reached
    rw [shape]
    exact reached

/-- What the first cancellation ended is over. -/
theorem cancelAll_over {rest : List String} (finished : (c.cancel e id).2.2.record? q m = none) :
    (cancelAll (id :: rest) c e).2.2.record? q m = none := by
  rw [Option.eq_none_iff_forall_ne_some]
  intro left still
  rcases cancelAll_cons c e id rest with ⟨_, _, shape⟩ | ⟨_, _, shape⟩
  · rw [shape, finished] at still
    cases still
  · rw [shape] at still
    have before := cancelAll_fewer still
    rw [finished] at before
    cases before

/-- A cleanup that can come to a delivery ends it. -/
theorem cancelAll_reaches (ends : Ends (InTheWay c base ids record.consumerId q) base e)
    (listed : ∀ id ∈ order, id ∈ ids) (member : record.consumerId ∈ order)
    (registered : record.consumerId ∈ c.consumers) (there : e.record? q m = some record) :
    (cancelAll order c e).2.2.record? q m = none := by
  have sweep : ∀ order c' e', Ends (InTheWay c base ids record.consumerId q) base e' →
      (∀ id, id ∈ c'.consumers → id ∈ c.consumers) → record.consumerId ∈ c'.consumers →
      e'.record? q m = some record → (∀ id ∈ order, id ∈ ids) →
      record.consumerId ∈ order → (cancelAll order c' e').2.2.record? q m = none := by
    intro order
    induction order with
    | nil => exact fun _ _ _ _ _ _ _ member => nomatch member
    | cons id rest ih =>
      intro c' e' ends known registered there listed member
      by_cases same : id = record.consumerId
      · subst same
        exact cancelAll_over (cancel_reaches ends registered (fun q' here => .inr ⟨rfl, here⟩) there)
      · obtain ⟨⟨cancelled, result⟩, ends'⟩ := cancel_ends (c := c') id ends
          fun here q' => .inl ⟨listed id List.mem_cons_self, same, known id here⟩
        rcases cancelAll_cons c' e' id rest with
          ⟨_, raised, _⟩ | ⟨_, _, shape⟩
        · rw [result] at raised
          cases raised
        · rw [shape]
          refine ih _ _ ends' (fun other here => known other (cancel_mem.mp here).2)
            (cancel_mem.mpr ⟨Ne.symm same, registered⟩) (cancel_keeps ends.named (Ne.symm same) there)
            (fun other later => listed other (List.mem_cons_of_mem _ later)) ?_
          rcases List.mem_cons.mp member with here | later
          · exact absurd here.symm same
          · exact later
  exact sweep order c e ends (fun _ here => here) registered there listed member

/-- A consumer with a delivery that declares a queue is not cancelled in full:
the deliveries it has in later queues stay. -/
theorem cancel_stuck {before after : List String} {blocking : InflightRecord} {q' m' : String}
    (named : e.Named) (registered : blocking.consumerId ∈ c.consumers)
    (blocks : e.record? q' m' = some blocking) (declares : e.Declares q' m')
    (split : e.queues.keys = before ++ q' :: after) :
    (c.cancel e blocking.consumerId).1 = .error .dictionaryChangedSize ∧
      ∀ q m, q ∉ before ++ [q'] →
        (c.cancel e blocking.consumerId).2.2.record? q m = e.record? q m := by
  have distinct := e.queues.keys_nodup
  rw [split] at distinct
  have apart : q' ∉ before := fun member =>
    (List.nodup_append.mp distinct).2.2 q' member q' List.mem_cons_self rfl
  rcases cancel_cases c e blocking.consumerId with ⟨unknown, _⟩ | ⟨_, e', _, alike, shape⟩
  · exact absurd unknown (by rw [Dict.get?_eq_none]; exact not_not.mpr registered)
  · obtain ⟨result, records⟩ := recoverQueues_stuck e'.queues.size before after
      (alike.named named) (by rw [alike.records]; exact blocks)
      (alike.declares.mpr declares) apart (Nat.le_refl _)
    rw [← split, ← alike.keys] at result records
    rw [shape]
    refine ⟨by unfold recoverConsumer; rw [result]; rfl, fun q m elsewhere => ?_⟩
    rw [← alike.records]
    exact records q m elsewhere

/-- Disconnecting ends a delivery in whatever order the consumers are
cancelled exactly when no delivery in the way declares a queue. -/
theorem disconnect_ends_iff (named : e.Named) (registered : record.consumerId ∈ c.consumers)
    (listed : record.consumerId ∈ c.listed connectionId) (there : e.record? q m = some record) :
    (∀ order, (c.disconnectConnection e connectionId order).2.2.record? q m = none) ↔
      Safe e (InTheWay c e (c.listed connectionId) record.consumerId q) := by
  constructor
  · intro ended q' m' blocking blocks way declares
    have first : ∀ id ∈ c.listed connectionId, ∀ raised, (c.cancel e id).1 = .error raised →
        (c.cancel e id).2.2.record? q m = none := by
      intro id member raised result
      have finished := ended (id :: (c.listed connectionId).erase id)
      unfold disconnectConnection at finished
      dsimp only at finished
      change (cancelAll (if (id :: (c.listed connectionId).erase id).Perm (c.listed connectionId)
        then id :: (c.listed connectionId).erase id else c.listed connectionId) c e).2.2.record? q m =
          none at finished
      rw [if_pos (List.perm_cons_erase member).symm] at finished
      rcases cancelAll_cons c e id ((c.listed connectionId).erase id) with
        ⟨_, _, shape⟩ | ⟨_, ok, _⟩
      · rw [shape] at finished
        exact finished
      · rw [result] at ok
        cases ok
    have stays : (c.cancel e blocking.consumerId).2.2.record? q m ≠ none →
        blocking.consumerId ∈ c.listed connectionId → blocking.consumerId ∈ c.consumers → False := by
      intro left member known
      obtain ⟨after, split⟩ := queue_split blocks
      obtain ⟨result, _⟩ := cancel_stuck named known blocks declares split
      exact left (first _ member _ result)
    rcases way with ⟨member, differ, known⟩ | ⟨same, before⟩
    · apply stays _ member known
      rw [cancel_keeps named (Ne.symm differ) there]
      simp
    · apply stays _ (same ▸ listed) (same ▸ registered)
      obtain ⟨after, whole⟩ := queue_split there
      obtain ⟨early, late, part⟩ := List.append_of_mem before
      have split : e.queues.keys = early ++ q' :: (late ++ q :: after) := by
        rw [whole, part]
        simp
      obtain ⟨_, records⟩ := cancel_stuck named (same ▸ registered) blocks declares split
      rw [records, there]
      · simp
      · intro here
        have earlier : q ∈ e.queues.keys.takeWhile (· ≠ q) := by
          rw [part]
          rcases List.mem_append.mp here with early' | last
          · exact List.mem_append_left _ early'
          · obtain rfl := List.mem_singleton.mp last
            simp
        simpa using List.mem_takeWhile_imp earlier
  · intro safe order
    unfold disconnectConnection
    have ends : Ends (InTheWay c e (c.listed connectionId) record.consumerId q) e e :=
      ⟨named, rfl, safe⟩
    dsimp only
    split
    · rename_i perm
      exact cancelAll_reaches ends (fun id member => perm.mem_iff.mp member) (perm.mem_iff.mpr listed)
        registered there
    · exact cancelAll_reaches ends (fun id member => member) listed registered there

/-- A connection that lists the consumer may end the delivery too: it does if
it cancels that consumer first. -/
theorem disconnect_first (named : e.Named) (registered : record.consumerId ∈ c.consumers)
    (listed : record.consumerId ∈ c.listed connectionId) (there : e.record? q m = some record)
    (safe : Safe e (InTheWay c e ids record.consumerId q)) :
    ∃ order, (c.disconnectConnection e connectionId order).2.2.record? q m = none := by
  have ends : Ends (InTheWay c e ids record.consumerId q) e e := ⟨named, rfl, safe⟩
  have finished := cancel_reaches ends registered (fun q' here => .inr ⟨rfl, here⟩) there
  refine ⟨record.consumerId :: (c.listed connectionId).erase record.consumerId, ?_⟩
  change (cancelAll (if (record.consumerId :: (c.listed connectionId).erase record.consumerId).Perm
    (c.listed connectionId) then record.consumerId :: (c.listed connectionId).erase record.consumerId
    else c.listed connectionId) c e).2.2.record? q m = none
  rw [if_pos (List.perm_cons_erase listed).symm]
  exact cancelAll_over finished

/-- Disconnecting leaves the deliveries of consumers that are not listed for
the connection. -/
theorem disconnect_keeps (order : List String) (named : e.Named)
    (foreign : record.consumerId ∉ c.listed connectionId) (there : e.record? q m = some record) :
    (c.disconnectConnection e connectionId order).2.2.record? q m = some record := by
  unfold disconnectConnection
  apply cancelAll_keeps named _ there
  split
  · rename_i perm
    exact fun member => foreign (perm.mem_iff.mp member)
  · exact foreign

/-- A delivery is ended by disconnecting the connection of its consumer and by
no other, in whatever order, exactly when no other connection lists the
consumer and no delivery in the way declares a queue. -/
theorem disconnect_exactly_iff {consumer : Consumer} (named : e.Named) (enrolled : Enrolled c)
    (registered : c.consumers.get? record.consumerId = some consumer)
    (there : e.record? q m = some record) :
    (∀ other order, (c.disconnectConnection e other order).2.2.record? q m = none ↔
      other = consumer.connectionId) ↔
    (∀ other, record.consumerId ∈ c.listed other → other = consumer.connectionId) ∧
      Safe e (InTheWay c e (c.listed consumer.connectionId) record.consumerId q) := by
  have known : record.consumerId ∈ c.consumers := Dict.mem_of_get? registered
  have ends := disconnect_ends_iff named known (enrolled.listed _ consumer registered) there
  constructor
  · intro exactly
    have safe := ends.mp fun order => (exactly _ order).mpr rfl
    refine ⟨fun other member => ?_, safe⟩
    obtain ⟨order, finished⟩ := disconnect_first named known member there safe
    exact (exactly other order).mp finished
  · rintro ⟨only, safe⟩ other order
    constructor
    · intro finished
      by_contra differ
      have stays := disconnect_keeps order named (mt (only other) differ) there
      rw [finished] at stays
      cases stays
    · rintro rfl
      exact ends.mpr safe order

/-! ## Whether a cleanup leaves consumers behind -/

/-- The order in which the consumers of a connection are cancelled. -/
def walk (c : ConsumerManager) (connectionId : String) (order : List String) : List String :=
  if order.Perm (c.listed connectionId) then order else c.listed connectionId

/-- No consumer of the connection comes after one that has a delivery which
declares a queue. -/
def Passes (c : ConsumerManager) (e : QueueEngine) (connectionId : String) (order : List String) :
    Prop :=
  (c.walk connectionId order).Pairwise fun first later => first ∈ c.consumers →
    (∃ consumer, c.consumers.get? later = some consumer ∧ consumer.connectionId = connectionId) →
    Safe e fun _ id => id = first

/-- A consumer is taken out of the registry even if its recovery is cut short,
so only those that come after it may be left. -/
theorem cancelAll_clears {mine : String → String → Prop} (ends : Ends mine base e)
    (covered : ∀ id consumer, c.consumers.get? id = some consumer →
      consumer.connectionId = connectionId → id ∈ order)
    (passes : order.Pairwise fun first later => first ∈ c.consumers →
      (∃ consumer, c.consumers.get? later = some consumer ∧ consumer.connectionId = connectionId) →
      ∀ q, mine q first) :
    ∀ id consumer, (cancelAll order c e).2.1.consumers.get? id = some consumer →
      consumer.connectionId ≠ connectionId := by
  induction order generalizing c e with
  | nil => exact fun id consumer found owner => nomatch covered id consumer found owner
  | cons first rest ih =>
    obtain ⟨head, tail⟩ := List.pairwise_cons.mp passes
    have covered' : ∀ id consumer, (c.cancel e first).2.1.consumers.get? id = some consumer →
        consumer.connectionId = connectionId → id ∈ rest := by
      intro id consumer found owner
      rw [cancel_get?] at found
      split at found
      · cases found
      · rename_i differ
        exact (List.mem_cons.mp (covered id consumer found owner)).resolve_left differ
    by_cases safe : first ∈ c.consumers → ∀ q, mine q first
    · obtain ⟨⟨cancelled, result⟩, ends'⟩ := cancel_ends first ends safe
      rcases cancelAll_cons c e first rest with ⟨_, raised, _⟩ | ⟨_, _, shape⟩
      · rw [result] at raised
        cases raised
      · rw [shape]
        apply ih ends' covered'
        apply tail.imp
        rintro earlier later before known ⟨consumer, found, owner⟩
        apply before (cancel_mem.mp known).2
        rw [cancel_get?] at found
        split at found
        · cases found
        · exact ⟨consumer, found, owner⟩
    · obtain ⟨known, blocks⟩ := Classical.not_imp.mp safe
      intro id consumer left owner
      have after : (c.cancel e first).2.1.consumers.get? id = some consumer := by
        rcases cancelAll_cons c e first rest with ⟨_, _, shape⟩ | ⟨_, _, shape⟩
        · rw [shape] at left
          exact left
        · rw [shape] at left
          exact cancelAll_registered left
      have member := covered' id consumer after owner
      rw [cancel_get?] at after
      split at after
      · cases after
      · exact blocks (head id member known ⟨consumer, after, owner⟩)

/-- A cleanup that passes leaves no consumer of the connection registered. -/
theorem disconnect_clears (named : e.Named) (enrolled : Enrolled c)
    (passes : Passes c e connectionId order) :
    ∀ id consumer, (c.disconnectConnection e connectionId order).2.1.consumers.get? id = some consumer →
      consumer.connectionId ≠ connectionId := by
  have ends : Ends (fun _ id => Safe e fun _ other => other = id) e e :=
    ⟨named, rfl, fun q m record there safe => safe q m record there rfl⟩
  have covered : ∀ id consumer, c.consumers.get? id = some consumer →
      consumer.connectionId = connectionId → id ∈ c.walk connectionId order := by
    intro id consumer found owner
    have listed := enrolled.listed id consumer found
    rw [owner] at listed
    unfold walk
    split
    · rename_i perm
      exact perm.mem_iff.mpr listed
    · exact listed
  exact cancelAll_clears ends covered (passes.imp fun pass known left _ => pass known left)

/-- A delivery that is made is not in its own way. -/
theorem Takes.safe_iff {consumer : Consumer} {name : String} {message : Message} {e' : QueueEngine}
    {change : QoS → QoS} (takes : c.Takes e name id consumer m message e') :
    Safe e' (InTheWay (c.updateQos id change) e' ids id name) ↔ Safe e (InTheWay c e ids id name) := by
  obtain ⟨made, owner, _, records⟩ := takes.records
  have known : ∀ other, other ∈ (c.updateQos id change).consumers ↔ other ∈ c.consumers := by
    intro other
    rw [Dict.mem_iff, Dict.mem_iff]
    simp only [updateQos_get?]
    by_cases same : other = id
    · simp [same]
    · simp [same]
  have way : InTheWay (c.updateQos id change) e' ids id name = InTheWay c e ids id name := by
    funext q' other
    unfold InTheWay
    rw [known, takes.keys]
  have declares : ∀ q' m', e'.Declares q' m' ↔ e.Declares q' m' := by
    intro q' m'
    unfold Declares
    rw [takes.messages, takes.specs]
  rw [way]
  unfold Safe
  simp only [declares, records]
  constructor
  · intro safe q' m' record there
    apply safe q' m' record
    rw [if_neg]
    · exact there
    · rintro ⟨rfl, rfl⟩
      rw [takes.idle] at there
      cases there
  · intro safe q' m' record there inWay
    split at there
    · rename_i here
      obtain rfl := Option.some.inj there
      rcases inWay with ⟨_, differ, _⟩ | ⟨_, before⟩
      · exact absurd owner differ
      · rw [here.1] at before
        simpa using List.mem_takeWhile_imp before
    · exact safe q' m' record there inWay

/-- Exactly when a delivery that is made now is ended by disconnecting the
connection of its consumer and by no other. -/
theorem Takes.disconnect_exactly_iff {consumer : Consumer} {name : String} {message : Message}
    {e' : QueueEngine} (takes : c.Takes e name id consumer m message e') (named : e.Named)
    (enrolled : Enrolled c) :
    (∀ other order, ((c.updateQos id fun qos => qos.onDeliver.2).disconnectConnection e' other
      order).2.2.record? name m = none ↔ other = consumer.connectionId) ↔
    (∀ other, id ∈ c.listed other → other = consumer.connectionId) ∧
      Safe e (InTheWay c e (c.listed consumer.connectionId) id name) := by
  obtain ⟨record, rfl, _, records⟩ := takes.records
  have there : e'.record? name m = some record := by rw [records, if_pos ⟨rfl, rfl⟩]
  have registered : (c.updateQos record.consumerId fun qos => qos.onDeliver.2).consumers.get?
      record.consumerId = some { consumer with qos := consumer.qos.onDeliver.2 } := by
    rw [updateQos_get?, if_pos rfl, takes.registered]
    rfl
  have exactly := ConsumerManager.disconnect_exactly_iff (takes.named named)
    (enrolled.updateQos record.consumerId fun qos => qos.onDeliver.2) registered there
  rw [updateQos_listed, takes.safe_iff] at exactly
  exact exactly

end ConsumerManager
end OneOpenBroker.Core

import OneOpenBroker.Core.Consumers
import OneOpenBroker.Core.Index

/-! What the registry does to the queue engine. Joining and leaving a queue
and moving its rotation on are invisible in the tables that the engine is
observed through, so the registry touches the engine in three ways only: it
declares queues, it delivers a message, and it ends the deliveries of a
consumer that is cancelled. -/
namespace OneOpenBroker.Core
open Collections

namespace QueueEngine

variable {e e' e'' : QueueEngine} {name : String} {queue queue' : DurableQueue}

/-- Two engines that differ in nothing but their rotations and heaps. -/
structure Alike (e e' : QueueEngine) : Prop where
  messages : e'.message? = e.message?
  records : e'.record? = e.record?
  specs : e'.spec? = e.spec?
  index : e'.byId = e.byId
  journal : e'.journal = e.journal
  keys : e'.queues.keys = e.queues.keys

theorem Alike.refl (e : QueueEngine) : Alike e e := ⟨rfl, rfl, rfl, rfl, rfl, rfl⟩

theorem Alike.trans (first : Alike e e') (second : Alike e' e'') : Alike e e'' :=
  ⟨second.messages.trans first.messages, second.records.trans first.records,
    second.specs.trans first.specs, second.index.trans first.index,
    second.journal.trans first.journal, second.keys.trans first.keys⟩

/-- Storing a queue with the same contents makes no difference. -/
theorem putQueue_alike (found : e.queues.get? name = some queue) (spec : queue'.spec = queue.spec)
    (messages : queue'.messages = queue.messages) (inflight : queue'.inflight = queue.inflight) :
    Alike e (e.putQueue name queue') := by
  have known : name ∈ e.queues := Dict.mem_of_get? found
  refine ⟨?_, ?_, ?_, rfl, rfl, by simp [putQueue, Dict.keys_set, known]⟩
  · funext q m
    rw [message?_of_set (e := e) rfl, messages]
    split
    · rename_i same; rw [same, message?_of_get found]
    · rfl
  · funext q m
    rw [record?_of_set (e := e) rfl, inflight]
    split
    · rename_i same; rw [same, record?_of_get found]
    · rfl
  · funext q
    rw [spec?_of_set (e := e) rfl, spec]
    split
    · rename_i same; rw [same, spec?_of_get found]
    · rfl

theorem Alike.named (alike : Alike e e') (named : e.Named) : e'.Named := by
  apply named.of_less alike.specs
  · intro q m msg held
    exact ⟨msg, alike.messages ▸ held, rfl, rfl⟩
  · intro q m record held
    exact alike.records ▸ held

theorem Alike.filed (alike : Alike e e') (filed : e.Filed) : e'.Filed where
  named := alike.named filed.named
  indexed := filed.indexed.same alike.index fun q m => by rw [alike.messages]

end QueueEngine

open QueueEngine

namespace ConsumerManager

variable {c c' : ConsumerManager} {e : QueueEngine} {id connectionId name : String}
  {consumer : Consumer} {queues : List String} {I : QueueEngine → Prop}

/-! ## Joining and leaving -/

/-- Joining declares the queue, and the turn makes no difference. -/
theorem join_alike : Alike (e.declareQueue name {}) (join id e name) := by
  unfold join
  dsimp only
  split
  · exact .refl _
  · rename_i queue found
    split
    · exact .refl _
    · exact putQueue_alike found rfl rfl rfl

theorem join_preserves (declare : ∀ e name, I e → I (e.declareQueue name {}))
    (alike : ∀ e e', Alike e e' → I e → I e') (start : I e) : I (join id e name) :=
  alike _ _ join_alike (declare e name start)

theorem joins_preserve (declare : ∀ e name, I e → I (e.declareQueue name {}))
    (alike : ∀ e e', Alike e e' → I e → I e') (start : I e) : I (queues.foldl (join id) e) := by
  induction queues generalizing e with
  | nil => exact start
  | cons name rest ih => exact ih (join_preserves declare alike start)

theorem leave_alike (id : String) (e : QueueEngine) (name : String) : Alike e (leave id e name) := by
  unfold leave
  split
  · exact .refl e
  · rename_i queue found
    exact putQueue_alike found rfl rfl rfl

theorem leaves_alike (id : String) (queues : List String) (e : QueueEngine) :
    Alike e (queues.foldl (leave id) e) := by
  induction queues generalizing e with
  | nil => exact .refl e
  | cons name rest ih => exact (leave_alike id e name).trans (ih _)

/-! ## The consumers -/

theorem updateQos_get? {change : QoS → QoS} {other : String} :
    (c.updateQos id change).consumers.get? other =
      if other = id then (c.consumers.get? id).map fun consumer =>
        { consumer with qos := change consumer.qos }
      else c.consumers.get? other := by
  unfold updateQos
  cases found : c.consumers.get? id with
  | none =>
    by_cases same : other = id
    · subst same
      simp [found]
    · simp [same]
  | some consumer =>
    dsimp only
    rw [Dict.get?_set]
    rfl

@[simp] theorem updateQos_byConnection {change : QoS → QoS} :
    (c.updateQos id change).byConnection = c.byConnection := by
  unfold updateQos
  split <;> rfl

theorem register_get? {prefetchCount : Int} {tag other : String} :
    (c.register e id connectionId queues prefetchCount tag).1.consumers.get? other =
      if other = id then
        some { consumerId := id, connectionId, queues, qos := { prefetchCount }, tag }
      else c.consumers.get? other := Dict.get?_set

/-- What `cancel` does: it takes the consumer out of the registry and of its
queues, and then ends its deliveries, as far as no error stops it. -/
theorem cancel_cases (c : ConsumerManager) (e : QueueEngine) (id : String) :
    (c.consumers.get? id = none ∧ c.cancel e id = (.ok false, c, e)) ∨
    ∃ consumer e', c.consumers.get? id = some consumer ∧ Alike e e' ∧
      c.cancel e id = ((e'.recoverConsumer id).1.map fun _ => true,
        { consumers := c.consumers.erase id
          byConnection := strike c.byConnection consumer.connectionId id },
        (e'.recoverConsumer id).2) := by
  unfold cancel
  cases found : c.consumers.get? id with
  | none => exact .inl ⟨rfl, rfl⟩
  | some consumer => exact .inr ⟨consumer, _, rfl, leaves_alike id consumer.queues e, rfl⟩

/-! ## Turns -/

/-- The consumer that is chosen is one of the queue's, is registered and has
room in its window. -/
theorem nextConsumer_some {ids : List String} {turns index after : Nat}
    (chosen : c.nextConsumer ids turns index = (after, some (id, consumer))) :
    id ∈ ids ∧ c.consumers.get? id = some consumer ∧ consumer.qos.canDeliver = true := by
  induction turns generalizing index with
  | zero => simp [nextConsumer] at chosen
  | succ turns ih =>
    unfold nextConsumer at chosen
    cases slot : ids[index % ids.length]? with
    | none => simp [slot] at chosen
    | some first =>
      rw [slot] at chosen
      dsimp only at chosen
      cases found : c.consumers.get? first with
      | none =>
        rw [found] at chosen
        exact ih chosen
      | some other =>
        rw [found] at chosen
        dsimp only at chosen
        split at chosen
        · rename_i able
          simp only [Prod.mk.injEq, Option.some.injEq] at chosen
          obtain ⟨_, rfl, rfl⟩ := chosen
          rw [Bool.and_eq_true] at able
          exact ⟨List.mem_of_getElem? slot, found, able.2⟩
        · exact ih chosen

/-- The consumer is registered and has room in its window. -/
def Able (c : ConsumerManager) (id : String) : Prop :=
  ∃ consumer, c.consumers.get? id = some consumer ∧ consumer.cancelled = false ∧
    consumer.qos.canDeliver = true

/-- It is the consumer's turn: from the index of the rotation on, it comes
before all others that are able to take a message. -/
def TurnOf (c : ConsumerManager) (ids : List String) (turns index : Nat) (id : String) : Prop :=
  ∃ k < turns, ids[(index + k) % ids.length]? = some id ∧ c.Able id ∧
    ∀ j < k, ∀ earlier, ids[(index + j) % ids.length]? = some earlier → ¬ c.Able earlier

theorem TurnOf.first {ids : List String} {turns index : Nat} {first : String}
    (slot : ids[index % ids.length]? = some first) (able : c.Able first) :
    c.TurnOf ids (turns + 1) index id ↔ id = first := by
  constructor
  · rintro ⟨k, _, here, _, before⟩
    cases k with
    | zero =>
      rw [Nat.add_zero, slot] at here
      exact (Option.some.inj here).symm
    | succ k => exact absurd able (before 0 (by omega) first slot)
  · rintro rfl
    exact ⟨0, by omega, slot, able, fun j early => absurd early (by omega)⟩

theorem TurnOf.skip {ids : List String} {turns index : Nat} {first : String}
    (slot : ids[index % ids.length]? = some first) (unable : ¬ c.Able first) :
    c.TurnOf ids (turns + 1) index id ↔ c.TurnOf ids turns (index + 1) id := by
  constructor
  · rintro ⟨k, within, here, able, before⟩
    cases k with
    | zero =>
      rw [Nat.add_zero, slot] at here
      exact absurd (Option.some.inj here ▸ able) unable
    | succ k =>
      refine ⟨k, by omega, ?_, able, fun j early earlier there => ?_⟩
      · rw [Nat.add_right_comm]
        exact here
      · apply before (j + 1) (by omega)
        rw [← there, Nat.add_right_comm]
        rfl
  · rintro ⟨k, within, here, able, before⟩
    refine ⟨k + 1, by omega, ?_, able, fun j early earlier there => ?_⟩
    · rw [← here, Nat.add_right_comm]
      rfl
    · cases j with
      | zero =>
        rw [Nat.add_zero, slot] at there
        exact Option.some.inj there ▸ unable
      | succ j =>
        apply before j (by omega)
        rw [← there, Nat.add_right_comm]
        rfl

/-- The loop over the turns chooses the consumer whose turn it is. -/
theorem nextConsumer_iff {ids : List String} {turns index : Nat} :
    (∃ consumer, (c.nextConsumer ids turns index).2 = some (id, consumer)) ↔
      c.TurnOf ids turns index id := by
  induction turns generalizing index with
  | zero =>
    constructor
    · rintro ⟨_, chosen⟩
      cases chosen
    · rintro ⟨_, within, _⟩
      omega
  | succ turns ih =>
    unfold nextConsumer
    cases slot : ids[index % ids.length]? with
    | none =>
      have empty : ids.length = 0 := by
        by_contra filled
        have inside := Nat.mod_lt index (Nat.pos_of_ne_zero filled)
        rw [List.getElem?_eq_none_iff] at slot
        omega
      constructor
      · rintro ⟨_, chosen⟩
        cases chosen
      · rintro ⟨_, _, here, _⟩
        rw [List.length_eq_zero_iff.mp empty] at here
        simp at here
    | some first =>
      dsimp only
      cases found : c.consumers.get? first with
      | none =>
        rw [TurnOf.skip slot (by rintro ⟨_, known, _⟩; rw [found] at known; cases known)]
        exact ih
      | some consumer =>
        dsimp only
        split
        · rename_i able
          rw [Bool.and_eq_true, Bool.not_eq_true'] at able
          rw [TurnOf.first slot ⟨consumer, found, able⟩]
          simp [eq_comm]
        · rename_i unable
          rw [Bool.and_eq_true, Bool.not_eq_true'] at unable
          rw [TurnOf.skip slot]
          · exact ih
          · rintro ⟨consumer', known, able⟩
            rw [found] at known
            obtain rfl := Option.some.inj known
            exact unable able

/-- A reservation that was made: whose turn it was and what it got. -/
structure Takes (c : ConsumerManager) (e : QueueEngine) (name id : String) (consumer : Consumer)
    (m : String) (message : Message) (e' : QueueEngine) : Prop where
  result : c.tryReserve e name = (some ({ consumer with qos := consumer.qos.onDeliver.2 }, message),
    c.updateQos id fun qos => qos.onDeliver.2, e')
  registered : c.consumers.get? id = some consumer
  room : consumer.qos.canDeliver = true
  turn : ∃ queue, e.queues.get? name = some queue ∧ (c.nextOn queue).2 = some (id, consumer)
  held : e.message? name m = some message
  idle : e.record? name m = none
  records : ∃ record : InflightRecord, record.consumerId = id ∧ record.messageId = m ∧
    ∀ q m', e'.record? q m' = if q = name ∧ m' = m then some record else e.record? q m'
  messages : e'.message? = e.message?
  specs : e'.spec? = e.spec?
  index : e'.byId = e.byId
  journal : e'.journal = e.journal
  keys : e'.queues.keys = e.queues.keys
  ready : ∃ queue entry, e.queues.get? name = some queue ∧ entry ∈ queue.ready ∧ ¬ Stale queue entry
  shorter : ∃ queue queue', e.queues.get? name = some queue ∧ e'.queues.get? name = some queue' ∧
    queue'.consumerIds = queue.consumerIds ∧ queue'.readyCount < queue.readyCount

theorem tryReserve_cases (c : ConsumerManager) (e : QueueEngine) (name : String) :
    (∃ e', c.tryReserve e name = (none, c, e') ∧ Alike e e') ∨
    ∃ id consumer m message e', c.Takes e name id consumer m message e' := by
  unfold tryReserve
  cases found : e.queues.get? name with
  | none => exact .inl ⟨e, rfl, .refl e⟩
  | some queue =>
    dsimp only
    rcases chosen : c.nextOn queue with ⟨index, turn⟩
    have turned : Alike e (e.putQueue name { queue with rrIndex := index }) :=
      putQueue_alike found rfl rfl rfl
    cases turn with
    | none => exact .inl ⟨_, rfl, turned⟩
    | some pair =>
      obtain ⟨id, consumer⟩ := pair
      obtain ⟨_, registered, room⟩ := nextConsumer_some chosen
      generalize base : e.putQueue name { queue with rrIndex := index } = middle at turned
      have there : middle.queues.get? name = some { queue with rrIndex := index } := by
        rw [← base]
        exact Dict.get?_set_self
      dsimp only
      rcases reserve_cases middle name id with ⟨queue', m, message, rest, reserves⟩ |
        ⟨nothing, outcome⟩
      · right
        obtain ⟨held, idle, awake, skipped, entry, split, same, _⟩ :=
          popDeliverable_some reserves.popped
        have known := reserves.found
        rw [there] at known
        obtain rfl := Option.some.inj known
        refine ⟨id, consumer, m, message, (middle.reserve name id).2, ?_, registered, room,
          ⟨queue, found, by rw [chosen]⟩, ?_, ?_, ⟨middle.deliveryRecord { queue with rrIndex := index }
            name id m, rfl, rfl, fun q m' => ?_⟩, ?_, ?_, ?_, ?_, ?_, ?_, ?_⟩
        · unfold tryReserve
          rw [found]
          dsimp only
          rw [chosen, base]
          dsimp only
          rcases shape : middle.reserve name id with ⟨item, after⟩
          have item_eq := reserves.result
          rw [shape] at item_eq
          subst item_eq
          rfl
        · rw [message?_of_get found]
          exact held
        · rw [record?_of_get found]
          exact Dict.get?_eq_none.mpr idle
        · rw [reserves.record?, turned.records]
        · rw [reserve_message?, turned.messages]
        · rw [reserve_spec?, turned.specs]
        · rw [reserve_frame.1, turned.index]
        · rw [reserve_frame.2.2.2.1, turned.journal]
        · rw [reserves.queues, Dict.keys_set, if_pos (Dict.mem_of_get? there), turned.keys]
        · refine ⟨queue, entry, found, ?_, ?_⟩
          · have whole : queue.ready = skipped ++ entry :: rest := split
            rw [whole]
            simp
          · rintro (absent | busy | late)
            · rw [same] at absent
              exact absent (Dict.mem_of_get? held)
            · exact idle (same ▸ busy)
            · exact awake (same ▸ late)
        · have stored := congrArg (Dict.get? · name) reserves.queues
          rw [Dict.get?_set_self] at stored
          refine ⟨queue, _, found, stored, rfl, ?_⟩
          have whole : queue.ready = skipped ++ entry :: rest := split
          simp only [DurableQueue.readyCount, DurableQueue.deliver, whole, List.length_append,
            List.length_cons]
          omega
      · left
        have still : Alike middle (middle.reserve name id).2 := by
          rcases outcome with ⟨same, _⟩ | ⟨queue', known, _, shape⟩
          · rw [same]
            exact .refl middle
          · rw [shape]
            exact putQueue_alike known rfl rfl rfl
        refine ⟨(middle.reserve name id).2, ?_, turned.trans still⟩
        rcases shape : middle.reserve name id with ⟨item, after⟩
        rw [shape] at nothing
        subst nothing
        rfl

theorem Takes.named {m : String} {message : Message} {e' : QueueEngine}
    (takes : c.Takes e name id consumer m message e') (named : e.Named) : e'.Named := by
  obtain ⟨record, _, key, records⟩ := takes.records
  apply named.of_observe (fun _ _ known => .inl (takes.specs ▸ known))
    (fun _ _ msg held => .inl ⟨msg, takes.messages ▸ held, rfl, rfl⟩)
  intro q m' old there
  rw [records] at there
  split at there
  · rename_i same
    obtain rfl := Option.some.inj there
    exact .inr (key.trans same.2.symm)
  · exact .inl there

theorem Takes.filed {m : String} {message : Message} {e' : QueueEngine}
    (takes : c.Takes e name id consumer m message e') (filed : e.Filed) : e'.Filed where
  named := takes.named filed.named
  indexed := filed.indexed.same takes.index fun _ _ => by rw [takes.messages]

end ConsumerManager
end OneOpenBroker.Core

import OneOpenBroker.Broker.Delays
import OneOpenBroker.Broker.Fairness
import OneOpenBroker.Broker.Registry
import Mathlib.Algebra.BigOperators.Group.List.Basic

/-! What the delivery loop leaves undone. A run of the loop over a queue hands
over as many messages as wait there, or as many as its consumers have places
for, whichever is less, unless a sender refuses a frame. A round of the ticker
without refusals therefore leaves no queue with both a message that waits and a
consumer with room, whatever the commands before it left behind. -/
namespace OneOpenBroker.Core
open Collections QueueEngine

namespace QoS

variable {qos : QoS}

/-- How many more messages fit in a window that has a limit. -/
def room (qos : QoS) : Nat := (qos.prefetchCount - qos.unackedCount).toNat

theorem room_full (full : qos.canDeliver = false) : 0 < qos.prefetchCount ∧ qos.room = 0 := by
  simp only [canDeliver, decide_eq_false_iff_not, not_or, not_le, not_lt] at full
  exact ⟨full.1, Int.toNat_of_nonpos (by omega)⟩

/-- A delivery takes one place. -/
theorem room_onDeliver (limited : 0 < qos.prefetchCount) (able : qos.canDeliver = true) :
    qos.onDeliver.2.room + 1 = qos.room := by
  have within : (qos.unackedCount : Int) < qos.prefetchCount := by
    simpa [canDeliver, not_le.mpr limited] using able
  simp only [onDeliver, able, if_true, room]
  omega

end QoS

namespace ConsumerManager

variable {c : ConsumerManager} {e : QueueEngine} {id other name q : String} {consumer : Consumer}
  {queue queue' : DurableQueue} {ids : List String}

/-! ## Places and messages -/

/-- The consumer is registered with an unlimited window. -/
def boundless (c : ConsumerManager) (id : String) : Bool :=
  (c.consumers.get? id).any (·.qos.prefetchCount ≤ 0)

/-- The places of a consumer; one that is gone has none. -/
def places (c : ConsumerManager) (id : String) : Nat := (c.consumers.get? id).elim 0 (·.qos.room)

/-- The places of the consumers that take turns on a queue, if there is a limit. -/
def placesOn (c : ConsumerManager) (queue : DurableQueue) : Option Nat :=
  if queue.consumerIds.any c.boundless then none else some (queue.consumerIds.map c.places).sum

/-- The number of messages that wait in a queue. -/
def waiting (queue : DurableQueue) : Nat := queue.messages.keys.countP fun m => Waits queue m

/-- The messages that wait, as far as there are places for them. -/
def due (c : ConsumerManager) (queue : DurableQueue) : Nat :=
  (c.placesOn queue).elim (waiting queue) (min (waiting queue))

/-- Nobody has room, or there is nothing to hand over. -/
def Idle (c : ConsumerManager) (queue : DurableQueue) : Prop :=
  (∀ id ∈ queue.consumerIds, ¬ c.Able id) ∨ ∀ m, ¬ Waits queue m

/-- Who is registered and not able has no room. -/
theorem full_of_unable (known : c.consumers.get? id = some consumer)
    (active : consumer.cancelled = false) (unable : ¬ c.Able id) : consumer.qos.canDeliver = false := by
  by_contra room
  exact unable ⟨consumer, known, active, by simpa using room⟩

theorem boundless_served :
    (c.updateQos id fun qos => qos.onDeliver.2).boundless = c.boundless := by
  funext other
  unfold boundless
  rw [updateQos_get?]
  split
  · rename_i same
    subst same
    cases c.consumers.get? other <;> simp [Broker.Handler.onDeliver_prefetch]
  · rfl

theorem places_served (distinct : ids.Nodup) (member : id ∈ ids)
    (registered : c.consumers.get? id = some consumer) (limited : 0 < consumer.qos.prefetchCount)
    (able : consumer.qos.canDeliver = true) :
    (ids.map (c.updateQos id fun qos => qos.onDeliver.2).places).sum + 1 = (ids.map c.places).sum := by
  have others : ∀ other ∈ ids.erase id,
      (c.updateQos id fun qos => qos.onDeliver.2).places other = c.places other := by
    intro other inside
    have apart : other ≠ id := (distinct.mem_erase_iff.mp inside).1
    simp [places, updateQos_get?, apart]
  have here : (c.updateQos id fun qos => qos.onDeliver.2).places id + 1 = c.places id := by
    simp [places, updateQos_get?, registered, QoS.room_onDeliver limited able]
  rw [← List.sum_map_erase _ member, ← List.sum_map_erase c.places member,
    List.map_congr_left others, ← here, add_right_comm]

/-- A message that was handed over does not wait any more. -/
theorem waiting_served {m : String} {record : InflightRecord} (waits : Waits queue m)
    (messages : queue'.messages = queue.messages) (asleep : queue'.delayedIds = queue.delayedIds)
    (inflight : queue'.inflight = queue.inflight.set m record) : waiting queue' + 1 = waiting queue := by
  have left : ∀ x, Waits queue' x ↔ Waits queue x ∧ x ≠ m := by
    intro x
    unfold Waits
    rw [messages, asleep, inflight, Dict.mem_set]
    tauto
  have among : m ∈ queue.messages.keys.filter fun x => Waits queue x :=
    List.mem_filter.mpr ⟨waits.1, by simpa using waits⟩
  have erased : (queue.messages.keys.filter fun x => Waits queue' x) =
      (queue.messages.keys.filter fun x => Waits queue x).erase m := by
    rw [(queue.messages.keys_nodup.filter _).erase_eq_filter, List.filter_filter]
    apply List.filter_congr
    intro x _
    by_cases same : x = m <;> simp [left, same]
  have some : 0 < (queue.messages.keys.filter fun x => Waits queue x).length :=
    List.length_pos_of_mem among
  simp only [waiting, List.countP_eq_length_filter, messages, erased, List.length_erase_of_mem among]
  omega

/-- A delivery takes one message and one place. -/
theorem due_served (distinct : queue.consumerIds.Nodup) (member : id ∈ queue.consumerIds)
    (registered : c.consumers.get? id = some consumer) (able : consumer.qos.canDeliver = true)
    (same : queue'.consumerIds = queue.consumerIds) (fewer : waiting queue' + 1 = waiting queue) :
    (c.updateQos id fun qos => qos.onDeliver.2).due queue' + 1 = c.due queue := by
  unfold due placesOn
  rw [same, boundless_served]
  by_cases unlimited : queue.consumerIds.any c.boundless = true
  · simpa [unlimited] using fewer
  · have limited : 0 < consumer.qos.prefetchCount := by
      by_contra free
      exact unlimited (List.any_eq_true.mpr ⟨id, member, by simpa [boundless, registered] using free⟩)
    have served := places_served distinct member registered limited able
    simp only [unlimited, Bool.false_eq_true, if_false, Option.elim_some]
    omega

/-- Where nothing is left to do, nothing is due. -/
theorem Idle.spent (idle : c.Idle queue)
    (keyed : ∀ id consumer, c.consumers.get? id = some consumer → consumer.cancelled = false) :
    c.due queue = 0 := by
  unfold due
  rcases idle with nobody | nothing
  · have full : ∀ id ∈ queue.consumerIds, c.boundless id = false ∧ c.places id = 0 := by
      intro id member
      unfold boundless places
      cases known : c.consumers.get? id with
      | none => exact ⟨rfl, rfl⟩
      | some consumer =>
        simpa using QoS.room_full (full_of_unable known (keyed id consumer known) (nobody id member))
    have limited : queue.consumerIds.any c.boundless = false :=
      List.any_eq_false.mpr fun id member => by simp [(full id member).1]
    have none : (queue.consumerIds.map c.places).sum = 0 := by
      apply List.sum_eq_zero
      simp only [List.mem_map, forall_exists_index, and_imp, forall_apply_eq_imp_iff₂]
      exact fun id member => (full id member).2
    simp [placesOn, limited, none]
  · have none : waiting queue = 0 := by
      unfold waiting
      rw [List.countP_eq_zero]
      intro m _
      simpa using nothing m
    rw [none]
    cases c.placesOn queue <;> simp

/-! ## One reservation -/

/-- A reservation leaves the other queues alone. -/
theorem tryReserve_get? (apart : q ≠ name) :
    (c.tryReserve e name).2.2.queues.get? q = e.queues.get? q := by
  have put : ∀ (e : QueueEngine) queue, (e.putQueue name queue).queues.get? q = e.queues.get? q :=
    fun e queue => Dict.get?_set_ne apart
  unfold tryReserve
  split
  · rfl
  · rename_i queue found
    dsimp only
    split
    · exact put e _
    · rename_i consumerId consumer chosen
      have reserved : ((e.putQueue name { queue with rrIndex := (c.nextOn queue).1 }).reserve name
          consumerId).2.queues.get? q = e.queues.get? q := by
        rw [← put e { queue with rrIndex := (c.nextOn queue).1 }]
        rcases reserve_cases (e.putQueue name { queue with rrIndex := (c.nextOn queue).1 }) name
          consumerId with ⟨_, _, _, _, reserves⟩ | ⟨_, ⟨same, _⟩ | ⟨_, _, _, shape⟩⟩
        · rw [reserves.queues, Dict.get?_set_ne apart]
        · rw [same]
        · rw [shape, put]
      split <;> rename_i shape <;> rw [shape] at reserved <;> exact reserved

/-- What a reservation makes of its queue. -/
theorem tryReserve_stored (found : e.queues.get? name = some queue) :
    ∃ queue', (c.tryReserve e name).2.2.queues.get? name = some queue' ∧
      queue'.consumerIds = queue.consumerIds ∧ queue'.messages = queue.messages ∧
      queue'.delayedIds = queue.delayedIds ∧
      ((c.tryReserve e name).1 = none ∧ queue'.inflight = queue.inflight ∨
        ∃ item m record, (c.tryReserve e name).1 = some item ∧ Waits queue m ∧
          queue'.inflight = queue.inflight.set m record) := by
  unfold tryReserve
  rw [found]
  dsimp only
  have there : (e.putQueue name { queue with rrIndex := (c.nextOn queue).1 }).queues.get? name =
      some { queue with rrIndex := (c.nextOn queue).1 } := Dict.get?_set_self
  split
  · exact ⟨_, there, rfl, rfl, rfl, .inl ⟨rfl, rfl⟩⟩
  · rename_i consumerId consumer chosen
    generalize e.putQueue name { queue with rrIndex := (c.nextOn queue).1 } = turned at there
    rcases reserve_cases turned name consumerId with
      ⟨queue', m, message, rest, reserves⟩ | ⟨nothing, ⟨_, absent⟩ | ⟨queue', known, _, shape⟩⟩
    · have known := reserves.found
      rw [there] at known
      obtain rfl := Option.some.inj known
      obtain ⟨held, idle, awake, _⟩ := popDeliverable_some reserves.popped
      have stored := congrArg (Dict.get? · name) reserves.queues
      rw [Dict.get?_set_self] at stored
      have result := reserves.result
      rcases shape : turned.reserve name consumerId with ⟨item, after⟩
      rw [shape] at stored result
      dsimp only at stored result
      subst result
      exact ⟨_, stored, rfl, rfl, rfl,
        .inr ⟨_, m, _, rfl, ⟨Dict.mem_of_get? held, idle, awake⟩, rfl⟩⟩
    · rw [there] at absent
      cases absent
    · rw [there] at known
      obtain rfl := Option.some.inj known
      rcases whole : turned.reserve name consumerId with ⟨item, after⟩
      rw [whole] at nothing shape
      dsimp only at nothing shape
      subst nothing
      refine ⟨{ queue with rrIndex := (c.nextOn queue).1, ready := [] }, ?_, rfl, rfl, rfl,
        .inl ⟨rfl, rfl⟩⟩
      rw [shape]
      exact Dict.get?_set_self

/-- A reservation that finds nothing leaves nothing to do. -/
theorem tryReserve_rests {e' : QueueEngine} (intact : Intact c e) (alike : Alike e e')
    (nothing : c.tryReserve e name = (none, c, e')) (found : e'.queues.get? name = some queue) :
    c.Idle queue := by
  obtain ⟨before, known⟩ : ∃ before, e.queues.get? name = some before := by
    apply Dict.mem_iff.mp
    rw [← Dict.mem_keys, ← alike.keys, Dict.mem_keys]
    exact Dict.mem_of_get? found
  have idle : c.Idle before := tryReserve_idle intact known (by rw [nothing])
  obtain ⟨queue', stored, same, messages, asleep, inflight⟩ := tryReserve_stored (c := c) known
  rw [nothing] at stored inflight
  obtain rfl := Option.some.inj (found.symm.trans stored)
  obtain ⟨_, inflight⟩ | ⟨_, _, _, impossible, _⟩ := inflight
  · unfold Idle Waits at idle ⊢
    rw [same, messages, asleep, inflight]
    exact idle
  · cases impossible

end ConsumerManager
end OneOpenBroker.Core

namespace OneOpenBroker.Broker.Handler
open Collections OneOpenBroker.Core QueueEngine ConsumerManager Systems

variable {g : Guards} {h h' start : Handler} {name id m : String} {queue : DurableQueue}
  {consumer : Consumer} {message : Message} {e' : QueueEngine} {names : Set String}

/-! ## The states -/

/-- Messages have their ways out, and nobody takes two turns on a queue. -/
structure Sound (h : Handler) : Prop where
  intact : Intact h.consumers h.queues
  distinct : h.queues.Distinct

theorem Reachable.tidy (reached : Reachable g h) : Ordered h ∧ Tidy h := by
  induction reached with
  | start config clock sends =>
    have first : Reachable {} (created config clock sends) := .start config clock sends
    exact ⟨first.ordered, (created_coherent config clock sends).2⟩
  | step _ event _ ih =>
    exact ⟨ordered_kept.step ih.1 (Guards.event_free _ event), (step_moves ih.1.named ih.2 event).2⟩

theorem Reachable.sound (reached : Reachable g h) : Sound h :=
  ⟨reached.registry.intact, reached.tidy.2.distinct⟩

theorem Sound.seated {may : String → Prop} (sound : Sound h) (intact : Intact h'.consumers h'.queues)
    (seats : Seats may h.queues h'.queues) : Sound h' := by
  refine ⟨intact, fun q => ?_⟩
  rw [seats.takers]
  exact sound.distinct q

theorem Sound.reserved (sound : Sound h) (name : String) : Sound (h.tryReserve name).2 :=
  have seats : Seats (fun _ => False) h.queues (h.tryReserve name).2.queues := tryReserve_seats
  sound.seated (tryReserve_intact sound.intact name) seats

theorem Sound.idle (sound : Sound h)
    (nothing : h.consumers.tryReserve h.queues name = (none, h.consumers, e')) :
    Sound (h.withQueues e') := by
  have reserved := sound.reserved name
  rw [tryReserve_none nothing] at reserved
  exact reserved

theorem Sound.took {sent : Nat} {outcome : Outcome} (sound : Sound h)
    (takes : h.consumers.Takes h.queues name id consumer m message e') :
    Sound (h.took name id consumer message e' sent outcome) := by
  have reserved := sound.reserved name
  rw [tryReserve_some takes] at reserved
  exact ⟨reserved.intact, reserved.distinct⟩

theorem Sound.rejected (sound : Sound h) (m consumerId : String) : Sound (h.rejected m consumerId) := by
  have nacked : Intact h.consumers (h.queues.nack m true).2 :=
    call_intact sound.intact (.engine true (.nack m true))
  have seats : Seats DeadLetters h.queues (h.rejected m consumerId).queues := nack_keeps.seats
  exact sound.seated (call_intact nacked (.onAck consumerId)) seats

theorem Sound.ticked (sound : Sound h) : Sound (h.withQueues h.queues.tick.2) := by
  have seats : Seats DeadLetters h.queues h.queues.tick.2 := tick_keeps.seats
  exact sound.seated (call_intact sound.intact (.engine true (.tick none))) seats

/-! ## How much a run of the loop hands over -/

/-- The state handed over an amount of messages of a queue, or fewer and then
one that was refused. -/
def Yields (name : String) (amount : Nat) (h h' : Handler) : Prop :=
  ∃ pushed, (∀ handover ∈ pushed, handover.queue = name ∧ handover.outcome = .pushed) ∧
    (h'.handovers = pushed ++ h.handovers ∧ pushed.length = amount ∨
      ∃ last : Handover, last.queue = name ∧ last.outcome = .refused ∧
        h'.handovers = last :: pushed ++ h.handovers ∧ pushed.length < amount)

theorem took_due (sound : Sound h) (found : h.queues.queues.get? name = some queue)
    (takes : h.consumers.Takes h.queues name id consumer m message e') (sent : Nat)
    (outcome : Outcome) : ∃ queue', e'.queues.get? name = some queue' ∧
      (h.took name id consumer message e' sent outcome).consumers.due queue' + 1 =
        h.consumers.due queue := by
  obtain ⟨queue', stored, same, messages, asleep, inflight⟩ :=
    tryReserve_stored (c := h.consumers) found
  rw [takes.result] at stored inflight
  obtain ⟨nothing, _⟩ | ⟨_, m', record, _, waits, inflight⟩ := inflight
  · cases nothing
  obtain ⟨stored', found', chosen⟩ := takes.turn
  rw [found] at found'
  obtain rfl := Option.some.inj found'
  obtain ⟨member, registered, room⟩ := nextConsumer_some (Prod.ext (by rfl) chosen)
  have nodup : queue.consumerIds.Nodup := takers_of_get found ▸ sound.distinct name
  have fewer := waiting_served waits messages asleep inflight
  exact ⟨queue', stored, due_served nodup member registered room same fewer⟩

/-- Within a run, what was handed over and what is due add up to an amount. -/
def Counted (name : String) (amount : Nat) (h h' : Handler) : Prop :=
  Sound h' ∧ ∃ pushed queue,
    (∀ handover ∈ pushed, handover.queue = name ∧ handover.outcome = .pushed) ∧
      h'.handovers = pushed ++ h.handovers ∧ h'.queues.queues.get? name = some queue ∧
      pushed.length + h'.consumers.due queue = amount

theorem pumpQueue_yields (sound : Sound h) (found : h.queues.queues.get? name = some queue) :
    Yields name (h.consumers.due queue) h (h.pumpQueue name) := by
  apply pumpQueue_loop (L := Counted name (h.consumers.due queue) h)
    (I := Yields name (h.consumers.due queue) h)
  · rintro h' e' ⟨sound', pushed, queue', every, log, there, total⟩ nothing _
    have idle : h'.consumers.Idle queue' := tryReserve_idle sound'.intact there (by rw [nothing])
    have spent : h'.consumers.due queue' = 0 :=
      idle.spent fun id consumer known => (sound'.intact.keyed id consumer known).2
    rw [spent, add_zero] at total
    exact ⟨pushed, every, .inl ⟨log, total⟩⟩
  · rintro h' id consumer m message e' sent ⟨sound', pushed, queue', every, log, there, total⟩ takes
    obtain ⟨queue'', stored, less⟩ := took_due sound' there takes sent .pushed
    obtain ⟨handover, first, here, _, fine⟩ := took_log h' name id consumer message e' sent .pushed
    refine ⟨sound'.took takes, handover :: pushed, queue'', List.forall_mem_cons.mpr ⟨⟨here, fine⟩, every⟩,
      by rw [first, log, List.cons_append], stored, ?_⟩
    rw [List.length_cons]
    omega
  · rintro h' id consumer m message e' sent ⟨sound', pushed, queue', every, log, there, total⟩ takes
    obtain ⟨queue'', _, less⟩ := took_due sound' there takes sent .refused
    obtain ⟨last, first, here, _, refused⟩ := took_log h' name id consumer message e' sent .refused
    refine ⟨pushed, every, .inr ⟨last, here, refused, ?_, ?_⟩⟩
    · change (h'.took name id consumer message e' sent .refused).handovers = _
      rw [first, log, List.cons_append]
    · omega
  · exact ⟨sound, [], queue, by simp, rfl, found, by simp⟩

/-- A consumer with a window of one has a message, two more wait, and then its
window is widened to two. -/
def backlog : Handler := run step (created {} (fun _ => 0) fun _ => true)
  [.connect "c1", .command "c1" (.consume [] "jobs" "worker" (some 1) "" Uuid.u1), publishJob "m1",
    publishJob "m2", publishJob "m3", .command "c1" (.qos 2 "worker")]

theorem backlog_reached : Reachable delayGuards backlog :=
  Reachable.run (.start {} (fun _ => 0) fun _ => true) (by decide +kernel)

theorem able_before {c : ConsumerManager} {other : String}
    (able : (c.updateQos id fun qos => qos.onDeliver.2).Able other) : c.Able other := by
  obtain ⟨consumer, known, active, room⟩ := able
  rw [updateQos_get?] at known
  split at known
  · rename_i same
    obtain ⟨before, there, rfl⟩ := Option.map_eq_some_iff.mp known
    refine ⟨before, same ▸ there, active, ?_⟩
    by_contra full
    simp [QoS.onDeliver, full] at room
  · exact ⟨consumer, known, active, room⟩

/-- Since the start only deliveries that were handed over have begun, and unless
one was refused nothing is left to do on the named queues. -/
structure Rested (names : Set String) (start h : Handler) (news : List Handover) : Prop where
  sound : Sound h
  log : h.handovers = news ++ start.handovers
  flying : ∀ q m record, h.queues.record? q m = some record → start.queues.record? q m = some record ∨
    ∃ handover ∈ news, handover.queue = q ∧ handover.messageId = m ∧
      handover.consumerId = record.consumerId
  rest : (∀ handover ∈ news, handover.outcome ≠ .refused) → ∀ q ∈ names, ∀ queue,
    h.queues.queues.get? q = some queue → h.consumers.Idle queue

/-- A delivery is handed over; the other queues rest as they did. -/
theorem Rested.took {news : List Handover} (rested : Rested (names \ {name}) start h news)
    (takes : h.consumers.Takes h.queues name id consumer m message e') (sent : Nat)
    (outcome : Outcome) : ∃ handover, handover.outcome = outcome ∧ Rested (names \ {name}) start
      (h.took name id consumer message e' sent outcome) (handover :: news) := by
  obtain ⟨record, owner, key, records⟩ := takes.records
  have own : consumer.consumerId = id := (rested.sound.intact.keyed id consumer takes.registered).1
  have filed : message.id = m := (rested.sound.intact.named.filed takes.held).1
  obtain ⟨handover, log, here, listed, mine, fate⟩ : ∃ handover : Handover,
      (h.took name id consumer message e' sent outcome).handovers = handover :: h.handovers ∧
        handover.queue = name ∧ handover.messageId = message.id ∧
        handover.consumerId = consumer.consumerId ∧ handover.outcome = outcome :=
    ⟨_, rfl, rfl, rfl, rfl, rfl⟩
  refine ⟨handover, fate, rested.sound.took takes, by rw [log, rested.log, List.cons_append],
    fun q m' record' there => ?_, fun taken q member queue found => ?_⟩
  · change e'.record? q m' = some record' at there
    rw [records] at there
    split at there
    · rename_i same
      obtain rfl := Option.some.inj there
      exact .inr ⟨handover, List.mem_cons_self, here.trans same.1.symm,
        listed.trans (filed.trans same.2.symm), mine.trans (own.trans owner.symm)⟩
    · refine (rested.flying q m' record' there).imp_right ?_
      rintro ⟨earlier, among, facts⟩
      exact ⟨earlier, List.mem_cons_of_mem _ among, facts⟩
  · have apart : q ≠ name := member.2
    have same : (h.consumers.tryReserve h.queues name).2.2.queues.get? q = h.queues.queues.get? q :=
      tryReserve_get? apart
    rw [takes.result] at same
    have before := rested.rest (fun earlier among => taken earlier (List.mem_cons_of_mem _ among))
      q member queue (same.symm.trans found)
    exact before.imp_left fun nobody other inside able => nobody other inside (able_before able)

/-- After a run over a queue it rests too. -/
theorem pumpQueue_rests (name : String) {news : List Handover} (rested : Rested names start h news) :
    ∃ news, Rested (insert name names) start (h.pumpQueue name) news := by
  apply pumpQueue_loop (L := fun h => ∃ news, Rested (names \ {name}) start h news)
    (I := fun h => ∃ news, Rested (insert name names) start h news)
  · rintro h e' ⟨news, rested⟩ nothing alike
    refine ⟨news, rested.sound.idle nothing, rested.log, fun q m record there => ?_,
      fun taken q member queue found => ?_⟩
    · exact rested.flying q m record (alike.records ▸ there)
    · change e'.queues.get? q = some queue at found
      by_cases here : q = name
      · subst here
        exact tryReserve_rests rested.sound.intact alike nothing found
      · have same : (h.consumers.tryReserve h.queues name).2.2.queues.get? q = h.queues.queues.get? q :=
          tryReserve_get? here
        rw [nothing] at same
        exact rested.rest taken q ⟨member.resolve_left here, here⟩ queue (same.symm.trans found)
  · rintro h id consumer m message e' sent ⟨news, rested⟩ takes
    obtain ⟨handover, _, next⟩ := rested.took takes sent .pushed
    exact ⟨_, next⟩
  · rintro h id consumer m message e' sent ⟨news, rested⟩ takes
    obtain ⟨handover, refused, next⟩ := rested.took takes sent .refused
    refine ⟨handover :: news, next.sound.rejected _ _, next.log, fun q m' record there => ?_,
      fun taken => absurd refused (taken handover List.mem_cons_self)⟩
    have left : (QueueEngine.step true (h.took name id consumer message e' sent .refused).queues
        (.nack message.id true)).record? q m' = some record := there
    exact next.flying q m' record
      (step_fewer next.sound.intact.named (.nack message.id true) (fun _ _ => by simp) left)
  · exact ⟨news, rested.sound, rested.log, rested.flying,
      fun taken q member => rested.rest taken q member.1⟩

theorem pumpAll_rests (queues : List String) {news : List Handover} (rested : Rested names start h news) :
    ∃ news, Rested (names ∪ {q | q ∈ queues}) start (h.pumpAll queues) news := by
  induction queues generalizing h names news with
  | nil => exact ⟨news, by simpa [pumpAll] using rested⟩
  | cons queue rest ih =>
    obtain ⟨more, pumped⟩ := pumpQueue_rests queue rested
    obtain ⟨all, settled⟩ := ih pumped
    refine ⟨all, settled.sound, settled.log, settled.flying, fun taken q member => ?_⟩
    apply settled.rest taken q
    simpa [or_assoc, or_comm, or_left_comm] using member

end OneOpenBroker.Broker.Handler

import OneOpenBroker.Core.Liveness
import OneOpenBroker.Core.Placement
import OneOpenBroker.Core.Restored
import OneOpenBroker.Library.Lists

/-! The order of delivery across a restart. A live queue delivers by priority
and, within one priority, in the order in which the messages became ready. A
restored queue delivers by priority and then in the order in which the messages
are stored. The orders differ where a message became ready again, after a retry
or out of a DLQ, while others were waiting. -/
namespace OneOpenBroker.Core.QueueEngine
open Collections Lists Systems

/-- The message can be delivered. -/
def Waits (queue : DurableQueue) (m : String) : Prop :=
  m ∈ queue.messages ∧ m ∉ queue.inflight ∧ m ∉ queue.delayedIds

instance (queue : DurableQueue) : DecidablePred (Waits queue) :=
  fun _ => inferInstanceAs (Decidable (_ ∧ _))

/-- The messages that wait, in the order of their first ready entries. -/
def offered (queue : DurableQueue) : List String := ((readyIds queue).filter (Waits queue)).eraseDups

/-- What a number of calls of `reserve` in a row deliver. -/
def drained (e : QueueEngine) (queueName consumerId : String) : Nat → List String
  | 0 => []
  | calls + 1 =>
    match e.reserve queueName consumerId with
    | (none, _) => []
    | (some message, e) => message.id :: drained e queueName consumerId calls

/-- One message has the higher priority, or the same and was stored earlier. -/
def Ahead (queue : DurableQueue) (m m' : String) : Prop :=
  ∃ first second, queue.messages.get? m = some first ∧ queue.messages.get? m' = some second ∧
    (second.priority < first.priority ∨ first.priority = second.priority ∧
      queue.messages.keys.idxOf m < queue.messages.keys.idxOf m')

theorem ahead_iff {queue : DurableQueue} {m m' : String} : Ahead queue m m' ↔
    (queue.messages.get? m).any (fun first => (queue.messages.get? m').any fun second =>
      decide (second.priority < first.priority ∨ first.priority = second.priority ∧
        queue.messages.keys.idxOf m < queue.messages.keys.idxOf m')) = true := by
  simp only [Option.any_eq_true, decide_eq_true_eq]
  constructor
  · rintro ⟨first, second, found, found', order⟩
    exact ⟨first, found, second, found', order⟩
  · rintro ⟨first, found, second, found', order⟩
    exact ⟨first, second, found, found', order⟩

instance (queue : DurableQueue) : DecidableRel (Ahead queue) :=
  fun _ _ => decidable_of_iff' _ ahead_iff

/-- Of two messages that wait, the one whose ready entry comes first is ahead. -/
def InOrder (queue : DurableQueue) : Prop := (offered queue).Pairwise (Ahead queue)

instance : DecidablePred InOrder := fun queue =>
  inferInstanceAs (Decidable ((offered queue).Pairwise (Ahead queue)))

variable {e base : QueueEngine} {q m m' id consumerId consumerId' : String} {queue queue' : DurableQueue}
  {message : Message} {rest : List ReadyEntry} {record : InflightRecord} {saved : SavedQueue}
  {seq : Nat}

/-! ## What reserve delivers -/

theorem offered_nodup : (offered queue).Nodup := nodup_eraseDups _

theorem mem_offered : m ∈ offered queue ↔ m ∈ readyIds queue ∧ Waits queue m := by
  rw [offered, List.mem_eraseDups, List.mem_filter, decide_eq_true_eq]

theorem not_waits_of_stale {entry : ReadyEntry} (stale : Stale queue entry) :
    ¬ Waits queue entry.messageId := by
  rintro ⟨held, idle, awake⟩
  rcases stale with gone | flying | waiting
  · exact gone held
  · exact idle flying
  · exact awake waiting

/-- A delivery takes the first message that waits. -/
theorem offered_deliver (same : record.messageId = id)
    (popped : popDeliverable queue queue.ready = (some (id, message), rest)) :
    offered queue = id :: offered (queue.deliver rest record) := by
  obtain ⟨held, idle, awake, skipped, entry, split, named, stale⟩ := popDeliverable_some popped
  have first : (readyIds queue).filter (Waits queue) =
      id :: (rest.map (·.messageId)).filter (Waits queue) := by
    have nothing : (skipped.map (·.messageId)).filter (Waits queue) = [] := by
      refine List.filter_eq_nil_iff.mpr fun m member => ?_
      obtain ⟨entry, listed, rfl⟩ := List.mem_map.mp member
      simpa using not_waits_of_stale (stale entry listed)
    rw [readyIds, split, List.map_append, List.filter_append, nothing, List.nil_append, List.map_cons,
      named, List.filter_cons_of_pos
        (by simpa using show Waits queue id from ⟨Dict.mem_of_get? held, idle, awake⟩)]
  have left : ∀ m, Waits (queue.deliver rest record) m ↔ Waits queue m ∧ m ≠ id := by
    intro m
    have flying : m ∈ (queue.deliver rest record).inflight ↔ m = id ∨ m ∈ queue.inflight := by
      simp [DurableQueue.deliver, same]
    have kept : (queue.deliver rest record).messages = queue.messages ∧
        (queue.deliver rest record).delayedIds = queue.delayedIds := ⟨rfl, rfl⟩
    unfold Waits
    rw [flying, kept.1, kept.2]
    tauto
  unfold offered
  rw [first, List.eraseDups_cons, List.filter_filter]
  have ready : readyIds (queue.deliver rest record) = rest.map (·.messageId) := rfl
  rw [ready]
  congr 2
  refine List.filter_congr fun m _ => ?_
  by_cases here : m = id <;> simp [left, here]

theorem offered_none {rest : List ReadyEntry}
    (popped : popDeliverable queue queue.ready = (none, rest)) : offered queue = [] := by
  obtain ⟨_, stale⟩ := popDeliverable_none popped
  have nothing : (readyIds queue).filter (Waits queue) = [] := by
    refine List.filter_eq_nil_iff.mpr fun m member => ?_
    obtain ⟨entry, listed, rfl⟩ := List.mem_map.mp member
    simpa using not_waits_of_stale (stale entry listed)
  rw [offered, nothing]
  rfl

/-- Calls of `reserve` in a row deliver the messages that wait, in their order. -/
theorem drained_eq (named : e.Named) (found : e.queues.get? q = some queue) (calls : Nat) :
    drained e q consumerId calls = (offered queue).take calls := by
  induction calls generalizing e queue with
  | zero => rfl
  | succ calls ih =>
    unfold drained
    rcases popped : popDeliverable queue queue.ready with ⟨_ | ⟨id, message⟩, rest⟩
    · rw [offered_none popped]
      simp [reserve, found, popped]
    · have held : queue.messages.get? id = some message := (popDeliverable_some popped).1
      have filed := ((named q queue found).messages id message held).1
      have shape : e.reserve q consumerId =
          (some message, (e.reserve q consumerId).2) := by simp [reserve, found, popped]
      have next : (e.reserve q consumerId).2.queues.get? q =
          some (queue.deliver rest (e.deliveryRecord queue q consumerId id)) := by
        simp [reserve, found, popped, putQueue, now, deliveryRecord]
      have named' : (e.reserve q consumerId).2.Named :=
        have after : (e.step true (.reserve q consumerId)).Named := step_named named _
        after
      have split : offered queue =
          id :: offered (queue.deliver rest (e.deliveryRecord queue q consumerId id)) :=
        offered_deliver rfl popped
      rw [shape, split]
      dsimp only
      rw [ih named' next, List.take_succ_cons, filed]

/-! ## What a restored queue delivers -/

/-- Every message of a restored queue that was not saved as delayed waits. -/
theorem Refilled.readyIds_perm {spec : QueueSpec} {stats : QueueStats} {done : List SavedMessage}
    (refilled : Refilled spec stats done seq queue') :
    (readyIds queue').Perm ((done.filter wakes).map (·.message.id)) := by
  obtain ⟨stamped, shuffled, same, _⟩ := refilled.ready
  have ids : stamped.map (·.messageId) = (done.filter wakes).map (·.message.id) := by
    have second := congrArg (List.map Prod.snd) same
    rwa [List.map_map, List.map_map] at second
  exact ids ▸ shuffled.map _

/-- What a queue without deliveries pushes ready when it is restored. -/
theorem mem_woken (named : QueueNamed q queue) (idle : ∀ m, m ∉ queue.inflight) :
    m ∈ ((saveQueue queue).messages.filter wakes).map (·.message.id) ↔ Waits queue m := by
  have derived (m : String) : messageState queue m ≠ .delayed ↔ m ∉ queue.delayedIds := by
    unfold messageState
    rw [if_neg (idle m)]
    split
    · rename_i waiting
      simp [waiting]
    · rename_i awake
      refine iff_of_true ?_ awake
      split <;> exact fun same => nomatch same
  simp only [List.mem_map, List.mem_filter, saveQueue]
  constructor
  · rintro ⟨_, ⟨⟨message, held, rfl⟩, wakes⟩, rfl⟩
    obtain ⟨key, found⟩ := Dict.mem_values.mp held
    have filed := (named.messages key message found).1
    refine ⟨Dict.mem_of_get? (filed.symm ▸ found), idle _, (derived _).mp ?_⟩
    simpa [QueueEngine.wakes] using wakes
  · rintro ⟨held, _, awake⟩
    obtain ⟨message, found⟩ := Dict.mem_iff.mp held
    have filed := (named.messages m message found).1
    refine ⟨⟨message, messageState queue message.id⟩,
      ⟨⟨message, Dict.mem_values.mpr ⟨m, found⟩, rfl⟩, ?_⟩, filed⟩
    simpa [QueueEngine.wakes, filed] using (derived m).mpr awake

/-- A restored queue offers all messages that wait in the original. -/
theorem Refilled.offered_eq (refilled : Refilled queue.spec queue.stats (saveQueue queue).messages seq
    queue') (named : QueueNamed q queue) (idle : ∀ m, m ∉ queue.inflight) :
    offered queue' = readyIds queue' ∧ (readyIds queue').Nodup ∧
      ∀ m, m ∈ readyIds queue' ↔ Waits queue m := by
  have ids := saveQueue_ids named
  have distinct : ((saveQueue queue).messages.map (·.message.id)).Nodup := ids ▸ queue.messages.keys_nodup
  have single : (readyIds queue').Nodup :=
    refilled.readyIds_perm.nodup_iff.mpr (distinct.sublist (List.filter_sublist.map _))
  have members (m : String) : m ∈ readyIds queue' ↔ Waits queue m :=
    refilled.readyIds_perm.mem_iff.trans (mem_woken named idle)
  have waiting : (readyIds queue').filter (Waits queue') = readyIds queue' := by
    refine List.filter_eq_self.mpr fun m member => ?_
    rw [decide_eq_true_eq]
    obtain ⟨held, _, awake⟩ := (members m).mp member
    refine ⟨refilled.mem_messages.mpr (ids ▸ held), refilled.idle m, fun sleeps => awake ?_⟩
    obtain ⟨saved, listed, rfl, state⟩ := (refilled.delayed m).mp sleeps
    obtain ⟨message, _, rfl⟩ := List.mem_map.mp listed
    unfold messageState at state
    rw [if_neg (idle _)] at state
    by_contra off
    rw [if_neg off] at state
    split at state <;> cases state
  exact ⟨by rw [offered, waiting, eraseDups_of_nodup single], single, members⟩

/-- A restored queue delivers by priority, then in the order of the dictionary. -/
theorem Refilled.inOrder (refilled : Refilled queue.spec queue.stats (saveQueue queue).messages seq
    queue') (named : QueueNamed q queue) : (readyIds queue').Pairwise (Ahead queue) := by
  obtain ⟨stamped, shuffled, same, rising, _⟩ := refilled.ready
  have ids := saveQueue_ids named
  have stampedIds : stamped.map (·.messageId) =
      ((saveQueue queue).messages.filter wakes).map (·.message.id) := by
    have second := congrArg (List.map Prod.snd) same
    rwa [List.map_map, List.map_map] at second
  -- The sequence numbers rise in the order of the dictionary.
  have stored : stamped.Pairwise fun x y =>
      queue.messages.keys.idxOf x.messageId < queue.messages.keys.idxOf y.messageId := by
    have sub : (stamped.map (·.messageId)).Sublist queue.messages.keys := by
      rw [stampedIds, ← ids]
      exact List.filter_sublist.map _
    have rises := sublist_idxOf queue.messages.keys_nodup sub
    rwa [List.pairwise_map] at rises
  have agree : ∀ x ∈ stamped, ∀ y ∈ stamped, x.seq < y.seq →
      queue.messages.keys.idxOf x.messageId < queue.messages.keys.idxOf y.messageId := by
    intro x here y there
    have forward : stamped.Pairwise fun x y => x.seq < y.seq →
        queue.messages.keys.idxOf x.messageId < queue.messages.keys.idxOf y.messageId :=
      stored.imp_of_mem fun _ _ before _ => before
    have backward : stamped.Pairwise fun x y => y.seq < x.seq →
        queue.messages.keys.idxOf y.messageId < queue.messages.keys.idxOf x.messageId :=
      rising.imp_of_mem fun _ _ before after => absurd before after.not_gt
    exact List.Pairwise.forall_of_forall_of_flip (fun _ _ less => absurd less (lt_irrefl _)) forward
      backward here there
  have apart : queue'.ready.Pairwise fun x y => x.seq ≠ y.seq :=
    (shuffled.symm.pairwise_iff fun differ => differ.symm).mp (rising.imp fun less => less.ne)
  have priority : ∀ entry ∈ stamped, ∃ message, queue.messages.get? entry.messageId = some message ∧
      entry.negPriority = -message.priority := by
    intro entry member
    have pair : (entry.negPriority, entry.messageId) ∈
        ((saveQueue queue).messages.filter wakes).map fun saved =>
          (-saved.message.priority, saved.message.id) := same ▸ List.mem_map_of_mem member
    obtain ⟨saved, listed, image⟩ := List.mem_map.mp pair
    obtain ⟨message, held, rfl⟩ := List.mem_map.mp (List.mem_filter.mp listed).1
    obtain ⟨key, found⟩ := Dict.mem_values.mp held
    have filed := (named.messages key message found).1
    obtain ⟨high, id⟩ := Prod.mk.inj image
    exact ⟨message, by rw [← id, filed]; exact found, high.symm⟩
  refine List.pairwise_map.mpr ((refilled.ordered.and apart).imp_of_mem ?_)
  rintro x y here there ⟨before, differ⟩
  have here' := shuffled.mem_iff.mp here
  have there' := shuffled.mem_iff.mp there
  obtain ⟨first, found, high⟩ := priority x here'
  obtain ⟨second, found', high'⟩ := priority y there'
  refine ⟨first, second, found, found', ?_⟩
  rcases before with less | ⟨level, seq⟩
  · exact .inl (by omega)
  · exact .inr ⟨by omega, agree x here' y there' (lt_of_le_of_ne seq differ)⟩

/-! ## The comparison -/

theorem ahead_asymmetric (before : Ahead queue m m') (after : Ahead queue m' m) : False := by
  obtain ⟨first, second, found, found', order⟩ := before
  obtain ⟨second', first', known', known, order'⟩ := after
  obtain rfl := Option.some.inj (found.symm.trans known)
  obtain rfl := Option.some.inj (found'.symm.trans known')
  omega

/-- The queues of a restored engine are those of the snapshot. -/
theorem restored_queue (named : e.Named) (base : QueueEngine) :
    (∀ queue, e.queues.get? q = some queue → ∃ queue' seq,
      (base.restoreState e.snapshotState).queues.get? q = some queue' ∧
      Refilled queue.spec queue.stats (saveQueue queue).messages seq queue') ∧
    (e.queues.get? q = none → (base.restoreState e.snapshotState).queues.get? q = none) := by
  obtain ⟨refilled, _⟩ := restoreState_refilled named base
  refine ⟨fun queue found => ?_, fun absent => ?_⟩
  · have listed : saveQueue queue ∈ e.snapshotState.queues :=
      List.mem_map_of_mem (Dict.mem_values.mpr ⟨q, found⟩)
    obtain ⟨⟨name, queue'⟩, there, same, here⟩ := exists_of_forall₂ refilled listed
    have filed : name = q := same.trans (named q queue found).spec
    exact ⟨queue', _, Dict.get?_eq_some.mpr (filed ▸ there), here⟩
  · rw [Dict.get?_eq_none]
    intro known
    obtain ⟨queue', there⟩ := Dict.mem_iff.mp known
    obtain ⟨saved, listed, same, _⟩ :=
      exists_of_forall₂ refilled.flip (Dict.get?_eq_some.mp there)
    obtain ⟨queue, stored, rfl⟩ := List.mem_map.mp listed
    obtain ⟨name, found⟩ := Dict.mem_values.mp stored
    have filed : q = name := same.trans (named name queue found).spec
    rw [filed, found] at absent
    cases absent

/-- **Restart and order.** From any state without deliveries that a run reaches in
which every retry has a delay, calls of `reserve` in a row deliver the same
messages in the same order before and after a restart exactly if the messages
that wait became ready in the order in which they are ahead of one another. -/
theorem restart_keeps_order_iff (numbered : Raising.Reachable (Raising.Numbered Anything) e)
    (idle : ∀ queue ∈ e.queues.values, queue.inflightCount = 0) (base : QueueEngine) :
    (∀ calls, drained (base.restoreState e.snapshotState) q consumerId' calls =
      drained e q consumerId calls) ↔ ∀ queue, e.queues.get? q = some queue → InOrder queue := by
  have reached := numbered.plain
  have named := reached.named
  have restored := restore_named (e := base) named
  obtain ⟨there, gone⟩ := restored_queue (q := q) named base
  cases found : e.queues.get? q with
  | none =>
    refine iff_of_true (fun calls => ?_) fun _ known => nomatch known
    cases calls with
    | zero => rfl
    | succ calls => simp [drained, reserve, found, gone found]
  | some queue =>
    obtain ⟨queue', seq, found', refilled⟩ := there queue found
    have settled (m : String) : m ∉ queue.inflight := by
      have none : queue.inflight.keys = [] :=
        List.length_eq_zero_iff.mp (Dict.length_keys _ ▸ idle queue (Dict.mem_values.mpr ⟨q, found⟩))
      rw [← Dict.mem_keys, none]
      exact List.not_mem_nil
    obtain ⟨offers, single, members⟩ := refilled.offered_eq (named q queue found) settled
    have live : ∀ m, m ∈ offered queue ↔ Waits queue m := by
      intro m
      rw [mem_offered, and_iff_right_iff_imp]
      rintro ⟨held, still, awake⟩
      rcases (reached.live q queue found).placed m held with ready | flying | waiting
      · exact mem_readyIds.mpr ready
      · exact absurd flying still
      · exact absurd waiting awake
    have same : (∀ calls, drained (base.restoreState e.snapshotState) q consumerId' calls =
        drained e q consumerId calls) ↔ readyIds queue' = offered queue := by
      constructor
      · intro all
        have whole := all (max (readyIds queue').length (offered queue).length)
        rw [drained_eq restored found', drained_eq named found, offers] at whole
        rwa [List.take_of_length_le (le_max_left _ _), List.take_of_length_le (le_max_right _ _)] at whole
      · intro equal calls
        rw [drained_eq restored found', drained_eq named found, offers, equal]
    rw [same]
    constructor
    · intro equal other known
      obtain rfl := Option.some.inj known
      rw [InOrder, ← equal]
      exact refilled.inOrder (named q queue found)
    · intro ordered
      exact eq_of_ordered (fun _ _ => ahead_asymmetric) single offered_nodup
        (fun m => (members m).trans (live m).symm) (refilled.inOrder (named q queue found))
        (ordered queue rfl)

/-- The first of two messages fails and is ready again behind the second. -/
def retriedBehind : List EngineOp := [
  .declareQueue "jobs" {},
  .enqueue { id := "m1", queue := "jobs", payload := [1], createdAt := 0 },
  .enqueue { id := "m2", queue := "jobs", payload := [2], createdAt := 0 },
  .reserve "jobs" "worker", .nack "m1" true, .tick (some 2)]

theorem restart_keeps_order_fresh :
    drained (created.restoreState
      (run (Raising.step true) created (retriedBehind.take 3)).snapshotState) "jobs" "worker" 2 =
    drained (run (Raising.step true) created (retriedBehind.take 3)) "jobs" "worker" 2 := by
  have reached : Raising.Reachable (Raising.Numbered Anything)
      (run (Raising.step true) created (retriedBehind.take 3)) :=
    Raising.reachable_run (.start {} fun _ => 0) (by decide +kernel)
  refine (restart_keeps_order_iff reached (by decide +kernel) created).mpr (fun queue found => ?_) 2
  have ordered : ((run (Raising.step true) created (retriedBehind.take 3)).queues.get? "jobs").all
      (fun queue => decide (InOrder queue)) = true := by
    decide +kernel
  rw [found] at ordered
  exact of_decide_eq_true ordered

/-- After the restart the first message comes first again. -/
theorem restart_reorders :
    Raising.Reachable Anything (run (Raising.step true) created retriedBehind) ∧
    (∀ queue ∈ (run (Raising.step true) created retriedBehind).queues.values,
      queue.inflightCount = 0) ∧
    drained (run (Raising.step true) created retriedBehind) "jobs" "worker" 2 = ["m2", "m1"] ∧
    drained (created.restoreState (run (Raising.step true) created retriedBehind).snapshotState) "jobs"
      "worker" 2 = ["m1", "m2"] :=
  ⟨Raising.reachable_run (.start {} fun _ => 0) (by decide +kernel), by decide +kernel,
    by decide +kernel, by decide +kernel⟩

end OneOpenBroker.Core.QueueEngine

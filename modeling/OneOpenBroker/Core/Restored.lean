import OneOpenBroker.Core.EngineRuns

/-! What a restore rebuilds, queue by queue. The queues and their messages come
back in the order of the snapshot, a message is delayed again exactly if it was
saved as delayed, and the others are pushed ready one after the other. The state
of a message is not stored in a queue but derived from where the message is, so
that a second snapshot shows what the restore has made of the first one. -/
namespace OneOpenBroker.Core.QueueEngine
open Collections Systems

/-- The messages that a restore pushes ready. -/
def wakes (saved : SavedMessage) : Bool := saved.state ≠ .delayed

/-- The ready heap after messages were pushed in the order of their list. -/
def Stacked (pushed : List SavedMessage) (seq : Nat) (heap : List ReadyEntry) : Prop :=
  ∃ stamped : List ReadyEntry, heap.Perm stamped ∧
    stamped.map (fun entry => (entry.negPriority, entry.messageId)) =
      pushed.map (fun saved => (-saved.message.priority, saved.message.id)) ∧
    stamped.Pairwise (·.seq < ·.seq) ∧ ∀ entry ∈ stamped, entry.seq ≤ seq

/-- A queue to which some messages of a snapshot were restored. -/
structure Refilled (spec : QueueSpec) (stats : QueueStats) (done : List SavedMessage) (seq : Nat)
    (queue : DurableQueue) : Prop where
  spec : queue.spec = spec
  stats : queue.stats = stats
  idle : ∀ m, m ∉ queue.inflight
  messages : queue.messages.entries = done.map fun saved => (saved.message.id, saved.message)
  delayed : ∀ m, m ∈ queue.delayedIds ↔ ∃ saved ∈ done, saved.message.id = m ∧ saved.state = .delayed
  ordered : queue.ready.Pairwise ReadyEntry.le
  ready : Stacked (done.filter wakes) seq queue.ready

variable {e base : QueueEngine} {name q m : String} {queue : DurableQueue} {spec : QueueSpec}
  {stats : QueueStats} {done : List SavedMessage} {saved : SavedMessage} {seq seq' : Nat}
  {heap : List ReadyEntry} {earlier : List (String × DurableQueue)}

/-! ## The order of a ready heap -/

instance : Std.Total ReadyEntry.le where
  total a b := by
    rcases lt_trichotomy a.negPriority b.negPriority with high | same | low
    · exact .inl (.inl high)
    · rcases Nat.le_total a.seq b.seq with before | after
      · exact .inl (.inr ⟨same, before⟩)
      · exact .inr (.inr ⟨same.symm, after⟩)
    · exact .inr (.inl low)

instance : IsTrans ReadyEntry ReadyEntry.le where
  trans a b c first second := by
    rcases first with high | ⟨same, before⟩
    · rcases second with high' | ⟨same', _⟩
      · exact .inl (high.trans high')
      · exact .inl (same' ▸ high)
    · rcases second with high' | ⟨same', before'⟩
      · exact .inl (same ▸ high')
      · exact .inr ⟨same.trans same', before.trans before'⟩

/-! ## One message -/

theorem Stacked.later (stacked : Stacked (done.filter wakes) seq heap) (le : seq ≤ seq') :
    Stacked (done.filter wakes) seq' heap := by
  obtain ⟨stamped, shuffled, same, rising, bound⟩ := stacked
  exact ⟨stamped, shuffled, same, rising, fun entry member => (bound entry member).trans le⟩

theorem Stacked.push {pushed : List SavedMessage} (stacked : Stacked pushed seq heap)
    (saved : SavedMessage) : Stacked (pushed ++ [saved]) (seq + 1)
      (heappush ReadyEntry.le ⟨-saved.message.priority, seq + 1, saved.message.id⟩ heap) := by
  obtain ⟨stamped, shuffled, same, rising, bound⟩ := stacked
  refine ⟨stamped ++ [⟨-saved.message.priority, seq + 1, saved.message.id⟩], ?_, ?_, ?_, ?_⟩
  · exact (List.perm_orderedInsert _ _ _).trans
      ((shuffled.cons _).trans (List.perm_append_singleton _ _).symm)
  · rw [List.map_append, List.map_append, same]
    rfl
  · refine List.pairwise_append.mpr ⟨rising, List.pairwise_singleton _ _, fun entry member new last => ?_⟩
    rw [List.mem_singleton.mp last]
    exact Nat.lt_succ_of_le (bound entry member)
  · intro entry member
    rcases List.mem_append.mp member with before | last
    · exact Nat.le_succ_of_le (bound entry before)
    · rw [List.mem_singleton.mp last]

theorem Refilled.later (refilled : Refilled spec stats done seq queue) (le : seq ≤ seq') :
    Refilled spec stats done seq' queue :=
  { refilled with ready := refilled.ready.later le }

theorem Refilled.mem_messages (refilled : Refilled spec stats done seq queue) :
    m ∈ queue.messages ↔ m ∈ done.map (·.message.id) := by
  rw [← Dict.mem_keys, Dict.keys, refilled.messages, List.map_map]
  rfl

/-- A message with a new id is added behind the others. -/
theorem Refilled.refit (refilled : Refilled spec stats done seq queue)
    (fresh : saved.message.id ∉ done.map (·.message.id)) :
    Refilled spec stats (done ++ [saved]) (seq + 1) (refit queue (seq + 1) saved) := by
  have unknown : saved.message.id ∉ queue.messages := refilled.mem_messages.not.mpr fresh
  have messages : (QueueEngine.refit queue (seq + 1) saved).messages.entries =
      (done ++ [saved]).map fun saved => (saved.message.id, saved.message) := by
    rw [refit_messages, Dict.entries_set_new unknown, refilled.messages, List.map_append]
    rfl
  cases state : saved.state with
  | delayed =>
    have shape : QueueEngine.refit queue (seq + 1) saved = { queue with
        messages := queue.messages.set saved.message.id saved.message
        delayedIds := insert saved.message.id queue.delayedIds } := by
      unfold QueueEngine.refit
      rw [state]
    have sleeps : (done ++ [saved]).filter wakes = done.filter wakes := by
      simp [wakes, state]
    rw [shape] at messages ⊢
    refine ⟨refilled.spec, refilled.stats, refilled.idle, messages, fun m => ?_, refilled.ordered, ?_⟩
    · rw [Finset.mem_insert, refilled.delayed]
      simp only [List.mem_append, List.mem_singleton]
      constructor
      · rintro (rfl | ⟨other, member, same⟩)
        · exact ⟨saved, .inr rfl, rfl, state⟩
        · exact ⟨other, .inl member, same⟩
      · rintro ⟨other, member | rfl, same⟩
        · exact .inr ⟨other, member, same⟩
        · exact .inl same.1.symm
    · rw [sleeps]
      exact refilled.ready.later (Nat.le_succ seq)
  | inflight | ready | dead =>
    have shape : QueueEngine.refit queue (seq + 1) saved = DurableQueue.pushReady { queue with
        messages := queue.messages.set saved.message.id saved.message } (seq + 1) saved.message := by
      unfold QueueEngine.refit
      rw [state]
    have awake : (done ++ [saved]).filter wakes = done.filter wakes ++ [saved] := by
      simp [wakes, state]
    rw [shape] at messages ⊢
    refine ⟨refilled.spec, refilled.stats, refilled.idle, messages, fun m => ?_,
      refilled.ordered.orderedInsert _ _, ?_⟩
    · have same : (DurableQueue.pushReady { queue with
          messages := queue.messages.set saved.message.id saved.message } (seq + 1)
          saved.message).delayedIds = queue.delayedIds := rfl
      rw [same, refilled.delayed]
      simp [state]
    · rw [awake]
      exact refilled.ready.push saved

/-! ## One queue, and all of them -/

theorem restoreMessage_counts : (e.restoreMessage name queue saved).seq = e.seq + 1 := by
  obtain ⟨reads, same⟩ := restoredDue_eq
    { e with byId := e.byId.set saved.message.id saved.message.queue } saved.message
  unfold restoreMessage
  dsimp only
  split
  · rw [same]
    rfl
  all_goals rfl

/-- The messages of one queue are restored to the queue that was stored last. -/
theorem restoreMessages_refilled {rest : List SavedMessage}
    (last : e.queues.entries = earlier ++ [(name, queue)])
    (refilled : Refilled spec stats done e.seq queue)
    (distinct : ((done ++ rest).map (·.message.id)).Nodup) :
    ∃ queue', (restoreMessages name rest e).queues.entries = earlier ++ [(name, queue')] ∧
      Refilled spec stats (done ++ rest) (restoreMessages name rest e).seq queue' ∧
      e.seq ≤ (restoreMessages name rest e).seq := by
  induction rest generalizing e queue done with
  | nil => exact ⟨queue, last, by rwa [List.append_nil], le_rfl⟩
  | cons saved rest ih =>
    have found : e.queues.get? name = some queue :=
      Dict.get?_eq_some.mpr (by rw [last]; simp)
    have fresh : saved.message.id ∉ done.map (·.message.id) := by
      rw [List.map_append, List.map_cons, List.nodup_append] at distinct
      exact fun member => distinct.2.2 _ member _ List.mem_cons_self rfl
    have stored : (e.restoreMessage name queue saved).queues.entries =
        earlier ++ [(name, refit queue (e.seq + 1) saved)] := by
      rw [restoreMessage_queues]
      exact Dict.entries_set_last last
    have next : Refilled spec stats (done ++ [saved]) (e.restoreMessage name queue saved).seq
        (refit queue (e.seq + 1) saved) := by
      rw [restoreMessage_counts]
      exact refilled.refit fresh
    have split : done ++ saved :: rest = done ++ [saved] ++ rest := by simp
    rw [split] at distinct ⊢
    obtain ⟨queue', entries, filled, grown⟩ := ih stored next distinct
    simp only [restoreMessages, found]
    refine ⟨queue', entries, filled, le_trans ?_ grown⟩
    rw [restoreMessage_counts]
    exact Nat.le_succ _

theorem Refilled.start : Refilled spec stats [] seq { spec, stats } :=
  ⟨rfl, rfl, fun _ => Dict.not_mem_empty, rfl, fun m => by simp, List.Pairwise.nil,
    [], .refl _, rfl, List.Pairwise.nil, fun _ member => nomatch member⟩

/-- A queue that was restored from its part of the snapshot. -/
def RefilledFrom (seq : Nat) (saved : SavedQueue) (entry : String × DurableQueue) : Prop :=
  entry.1 = saved.spec.name ∧ Refilled saved.spec saved.stats saved.messages seq entry.2

theorem restoreQueues_refilled {queues : List SavedQueue}
    (names : (e.queues.keys ++ queues.map (·.spec.name)).Nodup)
    (ids : ∀ saved ∈ queues, (saved.messages.map (·.message.id)).Nodup) :
    ∃ entries, (queues.foldl restoreQueue e).queues.entries = e.queues.entries ++ entries ∧
      List.Forall₂ (RefilledFrom (queues.foldl restoreQueue e).seq) queues entries ∧
      e.seq ≤ (queues.foldl restoreQueue e).seq := by
  induction queues generalizing e with
  | nil => exact ⟨[], (List.append_nil _).symm, .nil, le_rfl⟩
  | cons saved rest ih =>
    have unknown : saved.spec.name ∉ e.queues := by
      rw [List.map_cons, List.nodup_append] at names
      exact fun known => names.2.2 _ known _ List.mem_cons_self rfl
    have placed : (e.putQueue saved.spec.name
        { spec := saved.spec, stats := saved.stats }).queues.entries =
        e.queues.entries ++ [(saved.spec.name, { spec := saved.spec, stats := saved.stats })] :=
      Dict.entries_set_new unknown
    obtain ⟨queue, entries, refilled, grown⟩ := restoreMessages_refilled placed .start
      (by simpa using ids saved List.mem_cons_self)
    change (e.restoreQueue saved).queues.entries = _ at entries
    change Refilled _ _ _ (e.restoreQueue saved).seq _ at refilled
    change e.seq ≤ (e.restoreQueue saved).seq at grown
    have names' : ((e.restoreQueue saved).queues.keys ++ rest.map (·.spec.name)).Nodup := by
      have keys : (e.restoreQueue saved).queues.keys = e.queues.keys ++ [saved.spec.name] := by
        rw [Dict.keys, entries, List.map_append]
        rfl
      rw [keys]
      simpa using names
    obtain ⟨others, entries', refilled', grown'⟩ := ih names'
      fun other member => ids other (List.mem_cons_of_mem _ member)
    refine ⟨(saved.spec.name, queue) :: others, ?_, .cons ⟨rfl, refilled.later grown'⟩ refilled',
      grown.trans grown'⟩
    rw [List.foldl_cons, entries', entries]
    simp

/-- The messages of a queue are saved under the ids they are stored under. -/
theorem saveQueue_ids (named : QueueNamed name queue) :
    (saveQueue queue).messages.map (·.message.id) = queue.messages.keys := by
  unfold saveQueue Dict.values Dict.keys
  rw [List.map_map, List.map_map]
  apply List.map_congr_left
  intro entry there
  exact (named.messages _ _ (Dict.get?_eq_some.mpr there)).1

/-- The queues of a snapshot have different names, and their messages different ids. -/
theorem snapshot_names (named : e.Named) :
    e.snapshotState.queues.map (·.spec.name) = e.queues.keys ∧
    ∀ saved ∈ e.snapshotState.queues, (saved.messages.map (·.message.id)).Nodup := by
  constructor
  · unfold snapshotState Dict.values Dict.keys
    rw [List.map_map, List.map_map]
    apply List.map_congr_left
    intro entry there
    exact (named _ _ (Dict.get?_eq_some.mpr there)).spec
  · intro saved member
    obtain ⟨queue, listed, rfl⟩ := List.mem_map.mp member
    obtain ⟨name, found⟩ := Dict.mem_values.mp listed
    rw [saveQueue_ids (named name queue found)]
    exact queue.messages.keys_nodup

/-- Every queue of a snapshot is rebuilt from its part, in the order of the snapshot. -/
theorem restoreState_refilled (named : e.Named) (base : QueueEngine) :
    List.Forall₂ (RefilledFrom (base.restoreState e.snapshotState).seq) e.snapshotState.queues
      (base.restoreState e.snapshotState).queues.entries ∧
    e.seq ≤ (base.restoreState e.snapshotState).seq := by
  obtain ⟨names, ids⟩ := snapshot_names named
  have distinct : ((base.cleared e.seq).queues.keys ++ e.snapshotState.queues.map (·.spec.name)).Nodup := by
    rw [names]
    exact e.queues.keys_nodup
  obtain ⟨entries, same, refilled, grown⟩ := restoreQueues_refilled distinct ids
  have all : (base.restoreState e.snapshotState).queues.entries = entries := same
  rw [all]
  exact ⟨refilled, grown⟩

/-! ## The second snapshot -/

/-- What becomes of a message that is out for delivery. -/
def settledState (name : String) : MessageState → MessageState
  | .inflight => if isDlq name then .dead else .ready
  | state => state

def resettled (saved : SavedQueue) : SavedQueue :=
  { saved with messages := saved.messages.map fun message =>
      { message with state := settledState saved.spec.name message.state } }

/-- Outside the inflight table and the delayed ids the name of the queue decides. -/
def Fits (name : String) (state : MessageState) : Prop :=
  (state = .ready → isDlq name = false) ∧ (state = .dead → isDlq name = true)

theorem messageState_fits (queue : DurableQueue) (m : String) :
    Fits queue.spec.name (messageState queue m) := by
  unfold messageState
  split
  · exact ⟨(fun same => nomatch same), (fun same => nomatch same)⟩
  · split
    · exact ⟨(fun same => nomatch same), (fun same => nomatch same)⟩
    · split
      · rename_i dlq
        exact ⟨(fun same => nomatch same), fun _ => dlq⟩
      · rename_i plain
        exact ⟨fun _ => by simpa using plain, (fun same => nomatch same)⟩

/-- The state that a queue derives for a message it was restored with. -/
theorem Refilled.state (refilled : Refilled spec stats done seq queue)
    (distinct : (done.map (·.message.id)).Nodup) (member : saved ∈ done)
    (fits : Fits spec.name saved.state) :
    messageState queue saved.message.id = settledState spec.name saved.state := by
  have waits : saved.message.id ∈ queue.delayedIds ↔ saved.state = .delayed := by
    rw [refilled.delayed]
    constructor
    · rintro ⟨other, listed, same, state⟩
      rwa [List.inj_on_of_nodup_map distinct listed member same] at state
    · exact fun state => ⟨saved, member, rfl, state⟩
  unfold messageState
  rw [if_neg (refilled.idle _), refilled.spec]
  cases state : saved.state with
  | delayed => rw [if_pos (waits.mpr state)]; rfl
  | inflight => rw [if_neg (by simp [waits, state])]; rfl
  | ready =>
    rw [if_neg (by simp [waits, state]), fits.1 state]
    rfl
  | dead =>
    rw [if_neg (by simp [waits, state]), fits.2 state]
    rfl

theorem Refilled.save {saved : SavedQueue}
    (refilled : Refilled saved.spec saved.stats saved.messages seq queue)
    (distinct : (saved.messages.map (·.message.id)).Nodup)
    (fits : ∀ message ∈ saved.messages, Fits saved.spec.name message.state) :
    saveQueue queue = resettled saved := by
  have values : queue.messages.values = saved.messages.map (·.message) := by
    rw [Dict.values, refilled.messages, List.map_map]
    rfl
  unfold saveQueue resettled
  rw [values, List.map_map, refilled.spec, refilled.stats]
  congr 1
  apply List.map_congr_left
  intro message member
  exact congrArg (SavedMessage.mk message.message) (refilled.state distinct member (fits message member))

theorem snapshot_fits (e : QueueEngine) : ∀ saved ∈ e.snapshotState.queues,
    ∀ message ∈ saved.messages, Fits saved.spec.name message.state := by
  intro saved member message listed
  obtain ⟨queue, _, rfl⟩ := List.mem_map.mp member
  obtain ⟨kept, _, rfl⟩ := List.mem_map.mp listed
  exact messageState_fits queue kept.id

/-- The snapshot of a restored engine is the one it was restored from, but for
the messages that were out for delivery. -/
theorem restored_snapshot (named : e.Named) (base : QueueEngine) :
    (base.restoreState e.snapshotState).snapshotState.queues =
      e.snapshotState.queues.map resettled := by
  obtain ⟨refilled, _⟩ := restoreState_refilled named base
  obtain ⟨_, distinct⟩ := snapshot_names named
  have again : (base.restoreState e.snapshotState).snapshotState.queues =
      (base.restoreState e.snapshotState).queues.entries.map fun entry => saveQueue entry.2 := by
    unfold snapshotState Dict.values
    rw [List.map_map]
    rfl
  rw [again]
  generalize (base.restoreState e.snapshotState).queues.entries = entries at refilled
  have fits := snapshot_fits e
  generalize e.snapshotState.queues = queues at refilled distinct fits
  induction refilled with
  | nil => rfl
  | cons here _ ih =>
    obtain ⟨single, others⟩ := List.forall_mem_cons.mp distinct
    obtain ⟨fit, rest⟩ := List.forall_mem_cons.mp fits
    rw [List.map_cons, List.map_cons, here.2.save single fit, ih others rest]

theorem resettled_resettled (saved : SavedQueue) : resettled (resettled saved) = resettled saved := by
  unfold resettled
  rw [List.map_map]
  congr 1
  apply List.map_congr_left
  intro message _
  cases state : message.state <;> cases dlq : isDlq saved.spec.name <;>
    simp [settledState, state, dlq]

/-- **Snapshot and restore.** Restoring a snapshot of any reachable state and
taking a snapshot again gives the same queues with their specs, counters and
messages in the same order; only what was inflight is ready, or dead in a DLQ,
and the counter may be larger. Doing so once more changes nothing. -/
theorem snapshot_round_trip (reached : Reachable Anything e) (base base' : QueueEngine) :
    (base.restoreState e.snapshotState).snapshotState.queues =
      e.snapshotState.queues.map resettled ∧
    e.snapshotState.seq ≤ (base.restoreState e.snapshotState).snapshotState.seq ∧
    (base'.restoreState (base.restoreState e.snapshotState).snapshotState).snapshotState.queues =
      (base.restoreState e.snapshotState).snapshotState.queues := by
  refine ⟨restored_snapshot reached.named base, (restoreState_refilled reached.named base).2, ?_⟩
  rw [restored_snapshot (restore_named reached.named) base', restored_snapshot reached.named base,
    List.map_map]
  apply List.map_congr_left
  exact fun saved _ => resettled_resettled saved

/-- A message is out for delivery, one waits for its retry, one is dead. -/
def mixedRun : List EngineOp := [
  .declareQueue "orders" {},
  .enqueue { id := "m1", queue := "orders", payload := [1], createdAt := 0 },
  .enqueue { id := "m2", queue := "orders", payload := [2], createdAt := 0 },
  .enqueue { id := "m3", queue := "orders", payload := [3], createdAt := 0 },
  .reserve "orders" "worker", .nack "m1" false,
  .reserve "orders" "worker", .nack "m2" true,
  .reserve "orders" "worker"]

theorem snapshot_round_trip_mixed :
    ((run (step true) created mixedRun).snapshotState.queues.map fun saved =>
      saved.messages.map (·.state)) = [[.delayed, .inflight], [.dead]] ∧
    ((created.restoreState (run (step true) created mixedRun).snapshotState).snapshotState.queues.map
      fun saved => saved.messages.map (·.state)) = [[.delayed, .ready], [.dead]] := by
  have reached : Reachable Anything (run (step true) created mixedRun) :=
    reachable_run (.start {} fun _ => 0) ⟨trivial, trivial, trivial, trivial, trivial, trivial,
      trivial, trivial, trivial, trivial⟩
  refine ⟨by decide +kernel, ?_⟩
  rw [(snapshot_round_trip reached created created).1]
  decide +kernel

end OneOpenBroker.Core.QueueEngine

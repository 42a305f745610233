import OneOpenBroker.Core.EngineRuns

/-! The index from ids to queues. As long as no id is published while a
message with that id is held, the index names the queue of every held message
and nothing else, so an id is in one queue at a time. -/
namespace OneOpenBroker.Core.QueueEngine
open Collections

/-- The index agrees with what the queues hold. -/
structure Indexed (e : QueueEngine) : Prop where
  filed : ∀ q m message, e.message? q m = some message → e.byId.get? m = some q
  held : ∀ q m, e.byId.get? m = some q → ∃ message, e.message? q m = some message

/-- The invariant of all runs with fresh ids. -/
structure Filed (e : QueueEngine) : Prop where
  named : e.Named
  indexed : e.Indexed

variable {e e' : QueueEngine} {q id m name source dest : String} {queue : DurableQueue}
  {message msg : Message} {persist requeue : Bool}

theorem Indexed.same (indexed : e.Indexed) (index : e'.byId = e.byId)
    (messages : ∀ q m, (e'.message? q m).isSome = (e.message? q m).isSome) : e'.Indexed := by
  have agree : ∀ q m, (∃ message, e'.message? q m = some message) ↔
      ∃ message, e.message? q m = some message := by
    intro q m
    rw [← Option.isSome_iff_exists, ← Option.isSome_iff_exists, messages]
  constructor
  · intro q m message there
    obtain ⟨before, held⟩ := (agree q m).mp ⟨message, there⟩
    rw [index]
    exact indexed.filed q m before held
  · intro q m there
    rw [index] at there
    exact (agree q m).mpr (indexed.held q m there)

/-- A held id is nowhere else. -/
theorem Indexed.lone (indexed : e.Indexed) (held : e.message? source id = some message)
    (differ : q ≠ source) : e.message? q id = none := by
  cases there : e.message? q id with
  | none => rfl
  | some other =>
    have first := indexed.filed q id other there
    rw [indexed.filed source id message held] at first
    exact absurd (Option.some.inj first).symm differ

/-- A message that is filed anew, in its own queue or in another one. -/
theorem Indexed.move (indexed : e.Indexed) (held : e.message? source id = some message)
    (messages : ∀ q m, e'.message? q m = if q = dest ∧ m = id then some msg
      else if q = source ∧ m = id then none else e.message? q m)
    (index : e'.byId = (e.byId.erase id).set id dest) : e'.Indexed := by
  constructor
  · intro q m message there
    rw [messages] at there
    rw [index, Dict.get?_set, Dict.get?_erase]
    by_cases here : m = id
    · subst here
      by_cases target : q = dest
      · simp [target]
      · by_cases origin : q = source
        · rw [if_neg (fun same => target same.1), if_pos ⟨origin, rfl⟩] at there
          cases there
        · rw [if_neg (fun same => target same.1), if_neg (fun same => origin same.1)] at there
          rw [indexed.lone held origin] at there
          cases there
    · rw [if_neg here, if_neg here]
      rw [if_neg (fun same => here same.2), if_neg (fun same => here same.2)] at there
      exact indexed.filed q m message there
  · intro q m there
    rw [index, Dict.get?_set, Dict.get?_erase] at there
    rw [messages]
    by_cases here : m = id
    · rw [if_pos here] at there
      exact ⟨msg, if_pos ⟨(Option.some.inj there).symm, here⟩⟩
    · rw [if_neg here, if_neg here] at there
      rw [if_neg (fun same => here same.2), if_neg (fun same => here same.2)]
      exact indexed.held q m there

theorem Indexed.remove (indexed : e.Indexed) (held : e.message? source id = some message)
    (messages : ∀ q m, e'.message? q m = if q = source ∧ m = id then none else e.message? q m)
    (index : e'.byId = e.byId.erase id) : e'.Indexed := by
  constructor
  · intro q m message there
    rw [messages] at there
    rw [index, Dict.get?_erase]
    by_cases here : m = id
    · subst here
      by_cases origin : q = source
      · rw [if_pos ⟨origin, rfl⟩] at there
        cases there
      · rw [if_neg (fun same => origin same.1), indexed.lone held origin] at there
        cases there
    · rw [if_neg (fun same => here same.2)] at there
      rw [if_neg here]
      exact indexed.filed q m message there
  · intro q m there
    rw [index, Dict.get?_erase] at there
    by_cases here : m = id
    · rw [if_pos here] at there
      cases there
    · rw [if_neg here] at there
      rw [messages, if_neg (fun same => here same.2)]
      exact indexed.held q m there

theorem Indexed.add (indexed : e.Indexed)
    (alone : ∀ q old, e.message? q id = some old → q = dest)
    (messages : ∀ q m, e'.message? q m = if q = dest ∧ m = id then some msg else e.message? q m)
    (index : e'.byId = e.byId.set id dest) : e'.Indexed := by
  constructor
  · intro q m message there
    rw [messages] at there
    rw [index, Dict.get?_set]
    by_cases here : m = id
    · subst here
      by_cases target : q = dest
      · simp [target]
      · rw [if_neg (fun same => target same.1)] at there
        exact absurd (alone q message there) target
    · rw [if_neg (fun same => here same.2)] at there
      rw [if_neg here]
      exact indexed.filed q m message there
  · intro q m there
    rw [index, Dict.get?_set] at there
    rw [messages]
    by_cases here : m = id
    · rw [if_pos here] at there
      exact ⟨msg, if_pos ⟨(Option.some.inj there).symm, here⟩⟩
    · rw [if_neg here] at there
      rw [if_neg (fun same => here same.2)]
      exact indexed.held q m there

theorem removeQueue_indexed (indexed : e.Indexed) (found : e.queues.get? name = some queue) :
    (e.removeQueue name queue persist).Indexed := by
  have messages : ∀ q m, (e.removeQueue name queue persist).message? q m =
      if q = name then none else e.message? q m := by
    intro q m
    unfold message?
    rw [removeQueue_queues, Dict.get?_erase]
    split <;> rfl
  have index : (e.removeQueue name queue persist).byId = e.byId.eraseAll queue.messages.keys := by
    simp [removeQueue]
  have filed : ∀ m, m ∈ queue.messages.keys → e.byId.get? m = some name := by
    intro m there
    obtain ⟨message, held⟩ := Dict.mem_iff.mp there
    exact indexed.filed name m message ((message?_of_get found).trans held)
  constructor
  · intro q m message there
    rw [messages] at there
    by_cases here : q = name
    · rw [if_pos here] at there
      cases there
    · rw [if_neg here] at there
      have before := indexed.filed q m message there
      have other : m ∉ queue.messages.keys := by
        intro inside
        rw [filed m inside] at before
        exact here (Option.some.inj before).symm
      rw [index, Dict.get?_eraseAll, if_neg other]
      exact before
  · intro q m there
    rw [index, Dict.get?_eraseAll] at there
    split at there
    · cases there
    · rename_i other
      obtain ⟨message, held⟩ := indexed.held q m there
      have here : q ≠ name := by
        rintro rfl
        rw [message?_of_get found] at held
        exact other (Dict.mem_of_get? held)
      exact ⟨message, by rw [messages, if_neg here]; exact held⟩

theorem deleteQueue_indexed (indexed : e.Indexed) : (e.deleteQueue name persist).2.Indexed := by
  unfold deleteQueue
  cases found : e.queues.get? name with
  | none => exact indexed
  | some queue =>
    have removed : (e.removeQueue name queue persist).Indexed := removeQueue_indexed indexed found
    dsimp only
    split
    · unfold deleteLeaf
      split
      · exact removed
      · rename_i dlq there
        exact removeQueue_indexed removed there
    · exact removed

theorem Exit.indexed {written : List JournalOp} (indexed : e.Indexed)
    (exit : Exit e name id requeue persist written e') : e'.Indexed := by
  cases exit with
  | gone _ messages _ index => exact indexed.same index fun q m => by rw [messages]
  | retried message due held _ _ messages _ index =>
    refine indexed.same index fun q m => ?_
    rw [messages]
    split
    · rename_i same
      rw [same.1, same.2, held]
      rfl
    · rfl
  | moved message spec held _ _ _ messages _ index => exact indexed.move held messages index
  | dropped message spec held _ _ _ messages _ index => exact indexed.remove held messages index

/-! ## One step -/

theorem failDelivery_filed (filed : e.Filed) : (e.failDelivery name id persist).2.Filed :=
  ⟨failDelivery_named filed.named, (failDelivery_exit filed.named).indexed filed.indexed⟩

theorem nack_indexed (filed : e.Filed) : (e.nack id requeue persist).2.Indexed := by
  rcases nack_cases e id requeue persist with ⟨name, queue, message, nacks⟩ |
    ⟨_, same | ⟨name, queue, indexed, found, gone, _⟩⟩
  · exact (nacks.exit filed.named).indexed filed.indexed
  · exact (congrArg Indexed same).mpr filed.indexed
  · obtain ⟨message, held⟩ := filed.indexed.held name id indexed
    rw [message?_of_get found] at held
    exact absurd (Dict.mem_of_get? held) gone

theorem releaseOne_filed (filed : e.Filed) : (e.releaseOne name id).2.Filed := by
  obtain ⟨messages, _, _, index, _⟩ := releaseOne_observe e name id
  refine ⟨releaseOne_named filed.named, filed.indexed.same index fun q m => ?_⟩
  have stripped := congrArg Option.isSome (messages q m)
  rw [Option.isSome_map, Option.isSome_map] at stripped
  exact stripped

theorem dlqRequeue_indexed {queueName : String} (filed : e.Filed) :
    (e.dlqRequeue queueName id persist).2.Indexed := by
  have requeue := dlqRequeue_requeue filed.named queueName id persist
  generalize (e.dlqRequeue queueName id persist).1 = result at requeue
  generalize (e.dlqRequeue queueName id persist).2 = e' at requeue
  cases requeue with
  | missing => exact filed.indexed
  | moved message _ held messages _ _ index => exact filed.indexed.move held messages index
  | refused message _ held messages _ _ index =>
    have again : ∀ q m, e'.message? q m = if q = requeueSource queueName ∧ m = id then
        some (returned queueName message)
      else if q = requeueSource queueName ∧ m = id then none else e.message? q m := by
      intro q m
      rw [messages]
      split <;> rfl
    exact filed.indexed.move held again index

/-- A message that was taken out of a DLQ is in no queue. -/
theorem Withdraws.gone {queueName : String} {dlq : DurableQueue}
    (draws : e.Withdraws queueName id dlq message) (indexed : e.Indexed) (q : String) :
    (e.withdrawn queueName id dlq).message? q id = none := by
  rw [draws.observe.1]
  split
  · rfl
  · rename_i apart
    exact indexed.lone draws.heldThere fun here => apart ⟨here, rfl⟩

/-- It is offered to a queue that does not hold it. -/
theorem Withdraws.absent {queueName : String} {dlq dest : DurableQueue}
    (draws : e.Withdraws queueName id dlq message) (filed : e.Filed)
    (accepts : (e.withdrawn queueName id dlq).Accepts (requeued queueName message) persist dest) :
    (dueMessage (requeued queueName message) (e.withdrawn queueName id dlq).now.1).id ∉
      dest.messages := by
  have same : (dueMessage (requeued queueName message) (e.withdrawn queueName id dlq).now.1).id = id := by
    rw [dueMessage_id]
    exact (filed.named.filed draws.heldThere).1
  rw [same, ← Dict.get?_eq_none, ← message?_of_get accepts.1]
  exact draws.gone filed.indexed _

/-- With fresh ids every operation keeps the index right. -/
theorem step_filed (filed : e.Filed) (op : EngineOp) (fresh : FreshIds e op) :
    (e.step persist op).Filed := by
  refine ⟨step_named filed.named op, ?_⟩
  cases op with
  | declareQueue name args =>
    exact filed.indexed.same (declareQueue_frame e name args persist).1
      fun q m => by rw [step, declareQueue_observe.1]
  | deleteQueue name => exact deleteQueue_indexed filed.indexed
  | enqueue message =>
    rcases enqueue_cases e message persist with ⟨queue, accepts⟩ | ⟨_, same⟩
    · exact filed.indexed.add (fun q old held => absurd ⟨q, old, held⟩ fresh)
        (fun q m => accepts.message?) accepts.byId
    · exact (congrArg Indexed same).mpr filed.indexed
  | reserve queueName consumerId =>
    exact filed.indexed.same reserve_frame.1 fun q m => by rw [step, reserve_message?]
  | ack messageId =>
    rcases ack_cases e messageId persist with ⟨name, queue, settles⟩ | ⟨_, same⟩
    · obtain ⟨message, held⟩ := filed.indexed.held name messageId settles.indexed
      exact filed.indexed.remove held (fun q m => settles.message?) settles.byId
    · exact (congrArg Indexed same).mpr filed.indexed
  | nack messageId requeue => exact nack_indexed filed
  | recoverConsumer consumerId =>
    have all : (e.recoverConsumer consumerId persist).2.Filed :=
      recoverConsumer_preserves (fun _ filed => filed.named)
        (fun _ _ _ _ filed _ _ => failDelivery_filed filed) filed
    exact all.indexed
  | tick now =>
    have all : (e.tick now).2.Filed :=
      tick_preserves (fun _ _ _ filed => releaseOne_filed filed)
        (fun _ _ _ _ filed _ _ => failDelivery_filed filed)
        (fun _ _ _ _ filed => ⟨filed.named, filed.indexed.filed, filed.indexed.held⟩) filed
    exact all.indexed
  | dlqRequeue queueName messageId => exact dlqRequeue_indexed filed

/-- An id that is held in no other queue may be published again. -/
theorem Accepts.filed (accepts : e.Accepts message persist queue) (filed : e.Filed)
    (alone : ∀ q old, e.message? q message.id = some old → q = message.queue) :
    (e.enqueue message persist).2.Filed where
  named := step_named filed.named (.enqueue message)
  indexed := filed.indexed.add alone (fun _ _ => accepts.message?) accepts.byId

theorem Filed.append {op : JournalOp} (filed : e.Filed) : (e.append persist op).Filed where
  named := filed.named.of_less spec?_append (fun _ _ msg held => ⟨msg, message?_append ▸ held, rfl, rfl⟩)
    fun _ _ _ held => record?_append ▸ held
  indexed := filed.indexed.same append_byId fun _ _ => by rw [message?_append]

/-- A nack of a filed message settles the delivery that the index names. -/
theorem nack_settles (filed : e.Filed) (m : String) (requeue : Bool) :
    (∃ name record, e.byId.get? m = some name ∧ e.record? name m = some record ∧
      (e.nack m requeue).1 = .ok ∧ ∀ q m', (e.nack m requeue).2.record? q m' =
        if q = name ∧ m' = m then none else e.record? q m') ∨
    (e.nack m requeue).1 ≠ .ok ∧ (e.nack m requeue).2 = e ∧
      ∀ name, e.byId.get? m = some name → e.record? name m = none := by
  rcases nack_cases e m requeue true with ⟨name, queue, message, nacks⟩ | ⟨refused, outcome⟩
  · obtain ⟨record, inflight⟩ := Dict.mem_iff.mp nacks.inflight
    exact .inl ⟨name, record, nacks.indexed, record?_some.mpr ⟨queue, nacks.found, inflight⟩,
      nacks.result, fun q m' => nacks.record?⟩
  · right
    have idle : ∀ name, e.byId.get? m = some name → e.record? name m = none := by
      intro name indexed
      by_contra flying
      obtain ⟨record, there⟩ := Option.ne_none_iff_exists'.mp flying
      obtain ⟨queue, found, inflight⟩ := record?_some.mp there
      obtain ⟨message, held⟩ := filed.indexed.held name m indexed
      rw [message?_of_get found] at held
      apply refused
      simp [nack, indexed, found, Dict.mem_of_get? inflight, DurableQueue.endDelivery, held]
    rcases outcome with same | ⟨name, queue, indexed, found, absent, _⟩
    · exact ⟨refused, same, idle⟩
    · obtain ⟨message, held⟩ := filed.indexed.held name m indexed
      rw [message?_of_get found] at held
      exact absurd (Dict.mem_of_get? held) absent

/-! ## Snapshots -/

/-- The queues of a snapshot are distinct, and so are all its ids. -/
theorem snapshot_distinct {saved : QueueEngine} (filed : saved.Filed) :
    (saved.snapshotState.queues.map (·.spec.name)).Nodup ∧
    (saved.snapshotState.contents.map (·.2.message.id)).Nodup := by
  have names : saved.snapshotState.queues.map (·.spec.name) = saved.queues.keys := by
    unfold snapshotState Dict.values Dict.keys
    rw [List.map_map, List.map_map]
    apply List.map_congr_left
    intro entry there
    exact (filed.named _ _ (Dict.get?_eq_some.mpr there)).spec
  have ids : saved.snapshotState.contents.map (·.2.message.id) =
      saved.queues.entries.flatMap (fun entry => entry.2.messages.keys) := by
    unfold EngineSnapshot.contents snapshotState Dict.values
    rw [List.map_flatMap, List.flatMap_map, List.flatMap_map]
    apply List.flatMap_congr
    intro entry there
    have named := filed.named _ _ (Dict.get?_eq_some.mpr there)
    unfold saveQueue Dict.values Dict.keys
    simp only [List.map_map]
    apply List.map_congr_left
    intro kept inside
    exact (named.messages _ _ (Dict.get?_eq_some.mpr inside)).1
  constructor
  · rw [names]
    exact saved.queues.keys_nodup
  · rw [ids, List.nodup_flatMap]
    refine ⟨fun entry _ => entry.2.messages.keys_nodup, ?_⟩
    have apart : saved.queues.entries.Pairwise fun a b => a.1 ≠ b.1 :=
      List.pairwise_map.mp saved.queues.nodup
    refine apart.imp_of_mem fun {a b} first second differ => ?_
    intro m left right
    have there : ∀ entry ∈ saved.queues.entries, m ∈ entry.2.messages →
        saved.byId.get? m = some entry.1 := by
      intro entry listed inside
      obtain ⟨message, held⟩ := Dict.mem_iff.mp inside
      exact filed.indexed.filed _ _ message
        ((message?_of_get (Dict.get?_eq_some.mpr listed)).trans held)
    have same := (there a first left).symm.trans (there b second right)
    exact differ (Option.some.inj same)

/-- The messages of a snapshot that are not restored yet. -/
def pending (queues : List SavedQueue) (rest : List (String × SavedMessage)) :
    List (String × SavedMessage) :=
  rest ++ queues.flatMap fun queue => queue.messages.map (queue.spec.name, ·)

/-- A restore in progress: what is left has new names and new ids. -/
structure Restoring (e : QueueEngine) (queues : List SavedQueue)
    (rest : List (String × SavedMessage)) : Prop where
  filed : e.Filed
  names : (queues.map (·.spec.name)).Nodup
  unknown : ∀ queue ∈ queues, queue.spec.name ∉ e.queues
  ids : ((pending queues rest).map (·.2.message.id)).Nodup
  fresh : ∀ entry ∈ pending queues rest, ¬ e.Held entry.2.message.id

theorem Restoring.declare {queues : List SavedQueue} {saved : SavedQueue}
    (restoring : e.Restoring (saved :: queues) [])
    (named : QueueNamed saved.spec.name { spec := saved.spec, stats := saved.stats }) :
    Restoring (e.putQueue saved.spec.name { spec := saved.spec, stats := saved.stats }) queues
      (saved.messages.map (saved.spec.name, ·)) := by
  obtain ⟨absent, names⟩ := List.nodup_cons.mp restoring.names
  have unknown := restoring.unknown saved List.mem_cons_self
  have nothing : ∀ m, e.message? saved.spec.name m = none := by
    intro m
    simp [message?, Dict.get?_eq_none.mpr unknown]
  have messages : (e.putQueue saved.spec.name
      { spec := saved.spec, stats := saved.stats }).message? = e.message? := by
    funext q m
    rw [message?_of_set (e := e) rfl]
    split
    · rename_i here
      subst here
      rw [nothing]
      rfl
    · rfl
  have left : pending queues (saved.messages.map (saved.spec.name, ·)) =
      pending (saved :: queues) [] := rfl
  refine ⟨⟨restoring.filed.named.set named, ?_⟩, names, ?_, ?_, ?_⟩
  · exact restoring.filed.indexed.same rfl fun q m => by rw [messages]
  · intro queue listed known
    rcases Dict.mem_set.mp known with same | before
    · exact absent (List.mem_map.mpr ⟨queue, listed, same⟩)
    · exact restoring.unknown queue (List.mem_cons_of_mem _ listed) before
  · rw [left]
    exact restoring.ids
  · rw [left]
    intro entry listed held
    unfold Held at held
    rw [messages] at held
    exact restoring.fresh entry listed held

theorem Restoring.restore {queues : List SavedQueue} {rest : List (String × SavedMessage)}
    {saved : SavedMessage} (restoring : e.Restoring queues ((name, saved) :: rest))
    (found : e.queues.get? name = some queue) (same : saved.message.queue = name) :
    Restoring (e.restoreMessage name queue saved) queues rest := by
  obtain ⟨absent, ids⟩ := List.nodup_cons.mp restoring.ids
  have fresh := restoring.fresh (name, saved) List.mem_cons_self
  refine ⟨⟨restoreMessage_named restoring.filed.named found same, ?_⟩, restoring.names, ?_, ids, ?_⟩
  · refine restoring.filed.indexed.add (fun q old held => absurd ⟨q, old, held⟩ fresh)
      (fun q m => restoreMessage_message? found) ?_
    rw [restoreMessage_frame.1, same]
  · intro other listed known
    rw [restoreMessage_queues] at known
    rcases Dict.mem_set.mp known with here | before
    · exact restoring.unknown other listed (here ▸ Dict.mem_of_get? found)
    · exact restoring.unknown other listed before
  · rintro entry listed ⟨q, message, held⟩
    rw [restoreMessage_message? found] at held
    split at held
    · rename_i here
      exact absent (List.mem_map.mpr ⟨entry, listed, here.2⟩)
    · exact restoring.fresh entry (List.mem_cons_of_mem _ listed) ⟨q, message, held⟩

theorem cleared_filed (e : QueueEngine) (seq : Nat) : (e.cleared seq).Filed := by
  refine ⟨Dict.all_empty, fun q m message there => ?_, fun q m there => ?_⟩
  · simp [message?, cleared] at there
  · simp [cleared] at there

theorem cleared_restoring {saved : QueueEngine} (filed : saved.Filed) :
    (e.cleared saved.snapshotState.seq).Restoring saved.snapshotState.queues [] := by
  obtain ⟨names, ids⟩ := snapshot_distinct filed
  refine ⟨cleared_filed _ _, names, fun _ _ => by simp [cleared], ids, ?_⟩
  rintro entry _ ⟨q, message, held⟩
  simp [message?, cleared] at held

/-- A property of engines that fresh names and fresh ids preserve holds after
the restore of a snapshot that was taken with fresh ids. -/
theorem restore_preserves {saved : QueueEngine} {I : QueueEngine → Prop} (filed : saved.Filed)
    (start : I (e.cleared saved.snapshotState.seq))
    (declare : ∀ e spec stats, I e → spec.name ∉ e.queues →
      I (e.putQueue spec.name { spec, stats }))
    (restore : ∀ e name queue message, I e → e.queues.get? name = some queue →
      ¬ e.Held message.message.id → (name, message) ∈ saved.snapshotState.contents →
      I (e.restoreMessage name queue message)) :
    (e.restoreState saved.snapshotState).Filed ∧ I (e.restoreState saved.snapshotState) := by
  have finish : (e.restoreState saved.snapshotState).Restoring [] [] ∧
      I (e.restoreState saved.snapshotState) := by
    refine restoreState_preserves (I := fun e queues rest => e.Restoring queues rest ∧ I e) ?_ ?_
      ⟨cleared_restoring filed, start⟩
    · rintro e queues queue listed ⟨restoring, inv⟩
      obtain ⟨old, member, rfl⟩ := List.mem_map.mp listed
      obtain ⟨name, found⟩ := Dict.mem_values.mp member
      have kept := filed.named name old found
      have same : old.spec.name = name := kept.spec
      exact ⟨restoring.declare (.fresh rfl (same.symm ▸ kept.plain)),
        declare e _ _ inv (restoring.unknown _ List.mem_cons_self)⟩
    · rintro e queues rest name queue message found listed ⟨restoring, inv⟩
      obtain ⟨old, there, held, _⟩ := (mem_contents filed.named).mp listed
      exact ⟨restoring.restore found ((filed.named name old there).messages _ _ held).2,
        restore e name queue message inv found (restoring.fresh _ List.mem_cons_self) listed⟩
  exact ⟨finish.1.filed, finish.2⟩

theorem restore_filed {saved : QueueEngine} (filed : saved.Filed) :
    (e.restoreState saved.snapshotState).Filed :=
  (restore_preserves (I := fun _ => True) filed trivial (fun _ _ _ _ _ => trivial)
    (fun _ _ _ _ _ _ _ _ => trivial)).1

theorem Reachable.filed {allowed : QueueEngine → EngineOp → Prop}
    (fresh : ∀ e op, allowed e op → FreshIds e op) (reached : Reachable allowed e) : e.Filed := by
  induction reached with
  | start config clock => exact cleared_filed { config, clock } 0
  | step _ _ op ok filed => exact step_filed filed op (fresh _ op ok)
  | restore _ _ _ kept => exact restore_filed kept

end OneOpenBroker.Core.QueueEngine

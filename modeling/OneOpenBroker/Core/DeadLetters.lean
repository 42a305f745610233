import OneOpenBroker.Core.Liveness
import OneOpenBroker.Core.Placement
import OneOpenBroker.Library.Lists

/-! What clients are shown of dead letters and what they can do about them. A
requeue that is refused puts the message back, but as one that was never tried
and is ready, and does not list it again. The listing goes by the ids that
dead-lettering has noted, or by the ready heap if there are none, and is cut
before the ids of messages that are gone are left out. -/
namespace OneOpenBroker.Core.QueueEngine
open Collections Systems

/-! ## Refused requeues -/

/-- A requeue whose message finds its origin queue full. -/
structure Refused (e : QueueEngine) (queueName id : String) (dlq : DurableQueue) (message : Message) :
    Prop extends e.Withdraws queueName id dlq message where
  full : ∃ dest, (e.withdrawn queueName id dlq).queues.get? (originQueue queueName) = some dest ∧
    dest.isFull = true

/-- Two states of a queue that differ at most in the sequence numbers of the
ready entries of one message. -/
structure SameButSeq (id : String) (queue queue' : DurableQueue) : Prop where
  spec : queue'.spec = queue.spec
  stats : queue'.stats = queue.stats
  messages : queue'.messages.get? = queue.messages.get?
  inflight : queue'.inflight = queue.inflight
  delayedIds : queue'.delayedIds = queue.delayedIds
  dlqIds : queue'.dlqIds = queue.dlqIds
  others : (queue'.ready.filter (·.messageId ≠ id)).Perm (queue.ready.filter (·.messageId ≠ id))
  own : (queue'.ready.filter (·.messageId = id)).map (·.negPriority) =
    (queue.ready.filter (·.messageId = id)).map (·.negPriority)

/-- Nothing changed but the sequence numbers of one message in one queue. -/
structure Unmoved (q id : String) (e e' : QueueEngine) : Prop where
  others : ∀ name, name ≠ q → e'.queues.get? name = e.queues.get? name
  source : ∀ queue, e.queues.get? q = some queue →
    ∃ queue', e'.queues.get? q = some queue' ∧ SameButSeq id queue queue'
  byId : e'.byId.get? = e.byId.get?
  journal : e'.journal = e.journal
  visibilityHeap : e'.visibilityHeap = e.visibilityHeap
  delayed : e'.delayed = e.delayed
  recentAcks : e'.recentAcks = e.recentAcks

/-- The message looks as a refused requeue leaves it. -/
structure Untried (dlq : DurableQueue) (message : Message) : Prop where
  attempts : message.attempts = 0
  availableAt : message.availableAt = none
  unlisted : message.id ∉ dlq.dlqIds
  ready : (dlq.ready.filter (·.messageId = message.id)).map (·.negPriority) = [-message.priority]

variable {e : QueueEngine} {queueName id : String} {dlq : DurableQueue} {message : Message}
  {persist : Bool} {seq : Nat}

theorem Unmoved.refl (q id : String) (e : QueueEngine) : Unmoved q id e e :=
  ⟨fun _ _ => rfl, fun queue found => ⟨queue, found, ⟨rfl, rfl, rfl, rfl, rfl, rfl, .rfl, rfl⟩⟩,
    rfl, rfl, rfl, rfl, rfl⟩

/-- The entries of the DLQ once the message is back. -/
theorem refilled_ready (dlq : DurableQueue) (queueName : String) (message : Message) (seq : Nat) :
    ((refilled queueName message.id dlq message).pushReady seq (returned queueName message)).ready.Perm
      (⟨-message.priority, seq, message.id⟩ ::
        dlq.ready.filter (·.messageId ≠ message.id)) := by
  refine (List.perm_orderedInsert _ _ _).trans (List.Perm.cons _ ?_)
  exact List.perm_insertionSort _ _

theorem refilled_own (dlq : DurableQueue) (queueName : String) (message : Message) (seq : Nat) :
    ((refilled queueName message.id dlq message).pushReady seq (returned queueName message)).ready.filter
      (·.messageId = message.id) = [⟨-message.priority, seq, message.id⟩] := by
  refine List.perm_singleton.mp (((refilled_ready dlq queueName message seq).filter _).trans ?_)
  rw [List.filter_cons_of_pos (by simp), List.filter_filter]
  simp

theorem refilled_others (dlq : DurableQueue) (queueName : String) (message : Message) (seq : Nat) :
    (((refilled queueName message.id dlq message).pushReady seq
      (returned queueName message)).ready.filter (·.messageId ≠ message.id)).Perm
      (dlq.ready.filter (·.messageId ≠ message.id)) := by
  refine ((refilled_ready dlq queueName message seq).filter _).trans ?_
  rw [List.filter_cons_of_neg (by simp), List.filter_filter]
  simp

/-- The DLQ is as before exactly if the message was there untried. -/
theorem refilled_same_iff (held : dlq.messages.get? message.id = some message)
    (filed : message.queue = requeueSource queueName) : SameButSeq message.id dlq
      ((refilled queueName message.id dlq message).pushReady seq (returned queueName message)) ↔
      Untried dlq message := by
  have stored : ∀ m, ((refilled queueName message.id dlq message).pushReady seq
      (returned queueName message)).messages.get? m =
      if m = message.id then some (returned queueName message) else dlq.messages.get? m := by
    intro m
    simp only [DurableQueue.pushReady, refilled, Dict.get?_set, Dict.get?_erase]
    split <;> rfl
  constructor
  · intro same
    have back : returned queueName message = message := by
      have here := congrFun same.messages message.id
      rw [stored, if_pos rfl, held] at here
      exact Option.some.inj here
    refine ⟨congrArg Message.attempts back.symm, congrArg Message.availableAt back.symm,
      fun listed => ?_, ?_⟩
    · have kept : dlq.dlqIds.filter (· ≠ message.id) = dlq.dlqIds := same.dlqIds
      simpa using List.filter_eq_self.mp kept message.id listed
    · rw [← same.own, refilled_own]
      rfl
  · intro untried
    have back : returned queueName message = message := by
      unfold returned requeued
      rw [← filed, ← untried.attempts, ← untried.availableAt]
    refine ⟨rfl, rfl, funext fun m => ?_, rfl, rfl, ?_, refilled_others dlq queueName message seq, ?_⟩
    · rw [stored, back]
      split
      · rename_i same
        rw [same, held]
      · rfl
    · refine List.filter_eq_self.mpr fun m listed => decide_eq_true ?_
      rintro rfl
      exact untried.unlisted listed
    · rw [refilled_own, untried.ready]
      rfl

/-- The index after a refused requeue. -/
theorem putBack_byId (m : String) : (e.putBack queueName id dlq message).byId.get? m =
    if m = id then some (requeueSource queueName) else e.byId.get? m := by
  change ((e.byId.erase id).set id (requeueSource queueName)).get? m = _
  rw [Dict.get?_set, Dict.get?_erase]
  split <;> rfl

/-- A requeue that fails changes nothing exactly if it is not refused, or the
message was in the DLQ untried, ready and unlisted, and the index named the DLQ for
its id. -/
theorem dlqRequeue_failed_iff (reached : Reachable Anything e) (queueName id : String)
    (persist : Bool) :
    ((e.dlqRequeue queueName id persist).1 = false →
      Unmoved (requeueSource queueName) id e (e.dlqRequeue queueName id persist).2) ↔
    ∀ dlq message, e.Refused queueName id dlq message →
      Untried dlq message ∧ e.byId.get? id = some (requeueSource queueName) := by
  constructor
  · intro nothing dlq message refused
    have filed := reached.named.filed refused.heldThere
    obtain ⟨rfl, here⟩ := filed
    have shape : e.dlqRequeue queueName message.id persist =
        (false, e.putBack queueName message.id dlq message) := by
      rcases refused.result persist with ⟨dest, accepts, _⟩ | ⟨_, shape⟩
      · obtain ⟨full, there, limit⟩ := refused.full
        obtain rfl := Option.some.inj (there.symm.trans accepts.1)
        rw [accepts.2.1] at limit
        cases limit
      · exact shape
    rw [shape] at nothing
    obtain ⟨queue', there, same⟩ := (nothing rfl).source dlq refused.source
    rw [putBack_queues, Dict.get?_set_self] at there
    obtain rfl := Option.some.inj there
    refine ⟨(refilled_same_iff refused.held here).mp same, ?_⟩
    rw [← (nothing rfl).byId, putBack_byId, if_pos rfl]
  · intro untried failed
    rcases dlqRequeue_cases e queueName id persist with shape | ⟨dlq, message, draws⟩
    · rw [shape]
      exact .refl _ _ e
    · obtain ⟨rfl, here⟩ := reached.named.filed draws.heldThere
      rcases draws.result persist with ⟨_, _, shape⟩ | ⟨full, shape⟩
      · rw [shape] at failed
        cases failed
      · rw [shape]
        obtain ⟨asBefore, indexed⟩ := untried dlq message ⟨draws, full⟩
        refine ⟨fun name other => ?_, fun queue found => ?_, funext fun m => ?_, rfl, rfl, rfl, rfl⟩
        · rw [putBack_queues, Dict.get?_set_ne other]
          exact Dict.get?_set_ne other
        · obtain rfl := Option.some.inj (draws.source.symm.trans found)
          refine ⟨_, by rw [putBack_queues]; exact Dict.get?_set_self, ?_⟩
          exact (refilled_same_iff draws.held here).mpr asBefore
        · rw [putBack_byId]
          split
          · rename_i same
            rw [same, indexed]
          · rfl

/-- A message was dead-lettered, and its queue is full without it. -/
def displaced : QueueEngine := run (step true) { config := {}, clock := fun _ => 0 } [
  .declareQueue "orders" { maxLength := some 1 },
  .enqueue { id := "m1", queue := "orders", payload := [1], createdAt := 0, maxAttempts := 1 },
  .reserve "orders" "worker",
  .nack "m1" true,
  .enqueue { id := "m2", queue := "orders", payload := [2], createdAt := 0 }]

/-- A second refusal changes nothing any more. -/
theorem dlqRequeue_failed_twice : Unmoved (requeueSource "orders") "m1"
    (displaced.dlqRequeue "orders" "m1").2
    ((displaced.dlqRequeue "orders" "m1").2.dlqRequeue "orders" "m1").2 := by
  have reached : Reachable Anything displaced :=
    reachable_run (.start {} fun _ => 0) ⟨trivial, trivial, trivial, trivial, trivial, trivial⟩
  have once : Reachable Anything (displaced.dlqRequeue "orders" "m1").2 :=
    reached.step true (.dlqRequeue "orders" "m1") trivial
  refine (dlqRequeue_failed_iff once "orders" "m1" true).mpr ?_ (by decide +kernel)
  intro dlq message refused
  have untried : ((displaced.dlqRequeue "orders" "m1").2.queues.get? (requeueSource "orders")).all
      (fun dlq => (dlq.messages.get? "m1").all fun message => decide (message.attempts = 0 ∧
        message.availableAt = none ∧ message.id ∉ dlq.dlqIds ∧
        (dlq.ready.filter (·.messageId = message.id)).map (·.negPriority) = [-message.priority])) := by
    decide +kernel
  rw [refused.source, Option.all_some, refused.held, Option.all_some] at untried
  obtain ⟨attempts, moment, unlisted, ready⟩ := of_decide_eq_true untried
  exact ⟨⟨attempts, moment, unlisted, ready⟩, by decide +kernel⟩

/-- The first refusal forgets the attempts of the message. -/
theorem refusal_forgets_attempts : Reachable Anything displaced ∧
    (displaced.dlqRequeue "orders" "m1").1 = false ∧
    ¬ Unmoved (requeueSource "orders") "m1" displaced (displaced.dlqRequeue "orders" "m1").2 := by
  refine ⟨reachable_run (.start {} fun _ => 0) ⟨trivial, trivial, trivial, trivial, trivial, trivial⟩,
    by decide +kernel, fun unmoved => ?_⟩
  have before : (displaced.queues.get? (requeueSource "orders")).any (fun dlq =>
      (dlq.messages.get? "m1").any fun message => decide (message.attempts = 1)) := by
    decide +kernel
  have after : ((displaced.dlqRequeue "orders" "m1").2.queues.get? (requeueSource "orders")).any
      (fun dlq => (dlq.messages.get? "m1").any fun message => decide (message.attempts = 0)) := by
    decide +kernel
  obtain ⟨dlq, found, before⟩ := (Option.any_eq_true _ _).mp before
  obtain ⟨dlq', there, same⟩ := unmoved.source dlq found
  rw [there, Option.any_some, same.messages] at after
  obtain ⟨message, held, once⟩ := (Option.any_eq_true _ _).mp before
  rw [held, Option.any_some] at after
  have zero := of_decide_eq_true after
  rw [of_decide_eq_true once] at zero
  exact absurd zero (by decide)

/-! ## Listing dead letters -/

/-- What `dlq_info` shows of one message. -/
structure DlqEntry where
  id : String
  queue : String
  attempts : Int
  createdAt : ℚ
  headers : Option Protocol.Json

structure DlqInfo where
  queue : String
  dlq : String
  count : Nat
  messages : List DlqEntry

/-- The ids that `dlq_info` goes through. Those of the ready heap come in the
order in which the heap is laid out. -/
def dlqNames (layout : List ReadyEntry → List ReadyEntry) (queue : DurableQueue) : List String :=
  if queue.dlqIds = [] then (layout queue.ready).map (·.messageId) else queue.dlqIds

def dlqInfo (e : QueueEngine) (layout : List ReadyEntry → List ReadyEntry) (queueName : String) :
    Option DlqInfo :=
  let target := if !isDlq queueName then dlqName queueName else queueName
  (e.queues.get? target).map fun queue =>
    { queue := originQueue target
      dlq := target
      count := queue.readyCount + queue.inflightCount + queue.delayedCount
      messages := ((dlqNames layout queue).take 200).filterMap fun id =>
        (queue.messages.get? id).map fun message =>
          { id := message.id
            queue := originQueue target
            attempts := message.attempts
            createdAt := message.createdAt
            headers := message.headers } }

/-- The listing counts all messages of the DLQ and shows 200 of them, or all if
they are fewer, each once. -/
structure CompletelyShown (dlq : DurableQueue) (info : DlqInfo) : Prop where
  count : info.count = dlq.messages.size
  length : info.messages.length = min dlq.messages.size 200
  distinct : (info.messages.map (·.id)).Nodup
  held : ∀ entry ∈ info.messages, entry.id ∈ dlq.messages

/-- Every message of the DLQ is in one place and nothing else is, and the ids
that are looked at name its messages: the noted ones if there are any, else
those of the ready heap. -/
structure Showable (dlq : DurableQueue) : Prop where
  balanced : Balanced dlq
  ready : dlq.dlqIds = [] → (∀ m ∈ dlq.messages, m ∈ readyIds dlq) ∨ 200 ≤ dlq.readyCount
  once : dlq.dlqIds ≠ [] → ((dlq.dlqIds.take 200).filter (· ∈ dlq.messages.keys)).Nodup
  noted : dlq.dlqIds ≠ [] → (∀ m ∈ dlq.messages, m ∈ dlq.dlqIds.take 200) ∨
    200 ≤ dlq.dlqIds.length ∧ ∀ m ∈ dlq.dlqIds.take 200, m ∈ dlq.messages

variable {layout : List ReadyEntry → List ReadyEntry} {info : DlqInfo} {q : String}

theorem Placed.places {queue : DurableQueue} {m : String} (placed : Placed queue m)
    (held : m ∈ queue.messages) : 1 ≤ places queue m := by
  unfold QueueEngine.places
  rcases placed held with ready | flying | waiting
  · have counted := List.count_pos_iff.mpr (mem_readyIds.mpr ready)
    omega
  · rw [if_pos flying]
    omega
  · rw [if_pos waiting]
    omega

theorem dlqTarget (queueName : String) :
    (if !isDlq queueName then dlqName queueName else queueName) = dlqName queueName := by
  cases marked : isDlq queueName with
  | false => rfl
  | true => simp [dlqName, marked]

/-- The ids that are shown. -/
theorem dlqInfo_ids (named : e.Named) (found : e.queues.get? (dlqName q) = some dlq)
    (shown : e.dlqInfo layout q = some info) : info.count = dlq.depth ∧
      info.messages.map (·.id) = ((dlqNames layout dlq).take 200).filter (· ∈ dlq.messages.keys) := by
  unfold dlqInfo at shown
  rw [dlqTarget] at shown
  dsimp only at shown
  rw [found] at shown
  obtain rfl := Option.some.inj shown
  refine ⟨rfl, ?_⟩
  dsimp only
  rw [List.map_filterMap, ← List.filterMap_eq_filter]
  refine List.filterMap_congr fun id _ => ?_
  cases held : dlq.messages.get? id with
  | none =>
    have absent : id ∉ dlq.messages.keys := Dict.get?_eq_none.mp held
    simp [Option.guard, absent]
  | some message =>
    have present : id ∈ dlq.messages.keys := Dict.mem_of_get? held
    have filed := ((named _ dlq found).messages id message held).1
    simp [Option.guard, present, filed]

/-- Without noted ids, the ids that are looked at are those of ready messages. -/
theorem Balanced.dlqNames_take (balanced : Balanced dlq) (permutes : ∀ l, (layout l).Perm l)
    (empty : dlq.dlqIds = []) : ((dlqNames layout dlq).take 200).Nodup ∧
      (∀ m ∈ (dlqNames layout dlq).take 200, m ∈ dlq.messages) ∧
      ((dlqNames layout dlq).take 200).length = min 200 dlq.readyCount ∧
      (dlq.readyCount ≤ 200 → ∀ m, m ∈ (dlqNames layout dlq).take 200 ↔ m ∈ readyIds dlq) := by
  have names : (dlqNames layout dlq).Perm (readyIds dlq) := by
    rw [dlqNames, if_pos empty]
    exact (permutes _).map _
  have distinct : (readyIds dlq).Nodup := by
    refine List.nodup_iff_count_le_one.mpr fun m => ?_
    have bound := balanced.bound m
    unfold QueueEngine.places at bound
    omega
  have length : (dlqNames layout dlq).length = dlq.readyCount := by
    rw [names.length_eq, readyIds, List.length_map]
    rfl
  refine ⟨(names.nodup_iff.mpr distinct).sublist (List.take_sublist _ _), fun m listed => ?_, ?_,
    fun few m => ?_⟩
  · exact (balanced.ready (names.mem_iff.mp (List.mem_of_mem_take listed))).1
  · rw [List.length_take, length]
  · rw [List.take_of_length_le (length.trans_le few)]
    exact names.mem_iff

/-- The count of a listing says whether every message is in one place, and the
rest of it is about the ids that are looked at. -/
theorem dlqInfo_shown_iff (reached : Reachable Anything e)
    (found : e.queues.get? (dlqName q) = some dlq) (shown : e.dlqInfo layout q = some info) :
    CompletelyShown dlq info ↔ Balanced dlq ∧
      (((dlqNames layout dlq).take 200).filter (· ∈ dlq.messages.keys)).Nodup ∧
      ((∀ m ∈ dlq.messages, m ∈ (dlqNames layout dlq).take 200) ∨
        ((dlqNames layout dlq).take 200).length = 200 ∧
          ∀ m ∈ (dlqNames layout dlq).take 200, m ∈ dlq.messages) := by
  obtain ⟨count, ids⟩ := dlqInfo_ids reached.named found shown
  have placed : ∀ m ∈ dlq.messages, 1 ≤ places dlq m := fun m =>
    Placed.places ((reached.live _ dlq found).placed m)
  have length : info.messages.length =
      (((dlqNames layout dlq).take 200).filter (· ∈ dlq.messages.keys)).length := by
    rw [← ids, List.length_map]
  have bounded : ((dlqNames layout dlq).take 200).length ≤ 200 := List.length_take_le _ _
  have held : ∀ entry ∈ info.messages, entry.id ∈ dlq.messages := by
    intro entry listed
    have there : entry.id ∈ info.messages.map (·.id) := List.mem_map_of_mem listed
    rw [ids] at there
    exact Dict.mem_keys.mp (of_decide_eq_true (List.mem_filter.mp there).2)
  rw [balanced_iff_depth placed]
  constructor
  · intro complete
    have once := ids ▸ complete.distinct
    refine ⟨count.symm.trans complete.count, once, ?_⟩
    refine (Lists.length_filter_eq_min_iff dlq.messages.keys_nodup bounded once).mp ?_
    rw [← length, complete.length, Dict.length_keys]
  · rintro ⟨depth, once, cover⟩
    refine ⟨count.trans depth, ?_, ids ▸ once, held⟩
    have full := (Lists.length_filter_eq_min_iff dlq.messages.keys_nodup bounded once).mpr cover
    rw [length, full, Dict.length_keys]

/-- A listing is complete exactly if the DLQ is showable. -/
theorem dlqInfo_complete_iff (reached : Reachable Anything e) (permutes : ∀ l, (layout l).Perm l)
    (found : e.queues.get? (dlqName q) = some dlq) (shown : e.dlqInfo layout q = some info) :
    CompletelyShown dlq info ↔ Showable dlq := by
  rw [dlqInfo_shown_iff reached found shown]
  by_cases empty : dlq.dlqIds = []
  · constructor
    · rintro ⟨balanced, _, cover⟩
      obtain ⟨_, _, size, exact⟩ := balanced.dlqNames_take permutes empty
      refine ⟨balanced, fun _ => ?_, fun noted => absurd empty noted, fun noted => absurd empty noted⟩
      by_cases many : 200 ≤ dlq.readyCount
      · exact .inr many
      · rcases cover with every | ⟨full, _⟩
        · exact .inl fun m there => (exact (by omega) m).mp (every m there)
        · omega
    · rintro ⟨balanced, ready, _, _⟩
      obtain ⟨distinct, inside, size, exact⟩ := balanced.dlqNames_take permutes empty
      refine ⟨balanced, distinct.filter _, ?_⟩
      by_cases many : 200 ≤ dlq.readyCount
      · exact .inr ⟨by omega, inside⟩
      · have every := (ready empty).resolve_right many
        exact .inl fun m there => (exact (by omega) m).mpr (every m there)
  · have names : dlqNames layout dlq = dlq.dlqIds := if_neg empty
    rw [names]
    have size : (dlq.dlqIds.take 200).length = 200 ↔ 200 ≤ dlq.dlqIds.length := by
      rw [List.length_take]
      omega
    rw [size]
    constructor
    · rintro ⟨balanced, once, cover⟩
      exact ⟨balanced, fun none => absurd none empty, fun _ => once, fun _ => cover⟩
    · rintro ⟨balanced, _, once, cover⟩
      exact ⟨balanced, once empty, cover empty⟩

/-- A message was dead-lettered and is the only one of its DLQ. -/
def lone : QueueEngine := run (step true) { config := {}, clock := fun _ => 0 } [
  .declareQueue "orders" {},
  .enqueue { id := "m1", queue := "orders", payload := [1], createdAt := 0, maxAttempts := 1 },
  .reserve "orders" "worker",
  .nack "m1" true]

/-- It is shown. -/
theorem dlqInfo_complete_lone : ∃ dlq info, lone.queues.get? (dlqName "orders") = some dlq ∧
    lone.dlqInfo (fun heap => heap) "orders" = some info ∧ CompletelyShown dlq info := by
  have reached : Reachable Anything lone :=
    reachable_run (.start {} fun _ => 0) ⟨trivial, trivial, trivial, trivial, trivial⟩
  have sound : lone.Sound :=
    (reachable_run (.start {} fun _ => 0) (by decide +kernel) : Reachable ReadyRequeues lone).sound
  have there : (lone.queues.get? (dlqName "orders")).isSome := by decide +kernel
  obtain ⟨dlq, found⟩ := Option.isSome_iff_exists.mp there
  have noted : (lone.queues.get? (dlqName "orders")).all fun dlq => decide (dlq.dlqIds ≠ [] ∧
      ((dlq.dlqIds.take 200).filter (· ∈ dlq.messages.keys)).Nodup ∧
      ∀ m ∈ dlq.messages.keys, m ∈ dlq.dlqIds.take 200) := by
    decide +kernel
  rw [found, Option.all_some] at noted
  obtain ⟨some, once, every⟩ := of_decide_eq_true noted
  have answered : ∃ info, lone.dlqInfo (fun heap => heap) "orders" = Option.some info := by
    refine Option.isSome_iff_exists.mp ?_
    decide +kernel
  obtain ⟨info, shown⟩ := answered
  refine ⟨dlq, info, found, shown, ?_⟩
  exact (dlqInfo_complete_iff reached (fun _ => .rfl) found shown).mpr
    ⟨sound.balanced _ dlq found, fun none => absurd none some, fun _ => once, fun _ => .inl every⟩

/-- After a restart a second message is dead-lettered. -/
def restarted : QueueEngine := run (step true) (lone.restoreState lone.snapshotState) [
  .enqueue { id := "m2", queue := "orders", payload := [2], createdAt := 0, maxAttempts := 1 },
  .reserve "orders" "worker",
  .nack "m2" true]

/-- The DLQ holds both messages, and the listing shows the second one only. -/
theorem restored_dead_letter_hidden : Reachable FreshIds restarted ∧
    ∃ dlq info, restarted.queues.get? (dlqName "orders") = some dlq ∧ dlq.messages.size = 2 ∧
      restarted.dlqInfo (fun heap => heap) "orders" = some info ∧ info.messages.length = 1 ∧
      ¬ CompletelyShown dlq info := by
  have before : Reachable FreshIds lone := reachable_run (.start {} fun _ => 0) (by decide +kernel)
  refine ⟨reachable_run (before.restore before) (by decide +kernel), ?_⟩
  have held : (restarted.queues.get? (dlqName "orders")).any
      (fun dlq => decide (dlq.messages.size = 2)) := by
    decide +kernel
  have listed : (restarted.dlqInfo (fun heap => heap) "orders").any
      (fun info => decide (info.messages.length = 1)) := by
    decide +kernel
  obtain ⟨dlq, found, two⟩ := (Option.any_eq_true _ _).mp held
  obtain ⟨info, shown, one⟩ := (Option.any_eq_true _ _).mp listed
  have size := of_decide_eq_true two
  have length := of_decide_eq_true one
  refine ⟨dlq, info, found, size, shown, length, fun complete => ?_⟩
  have whole := complete.length
  rw [size, length] at whole
  exact absurd whole (by decide)

end OneOpenBroker.Core.QueueEngine

import OneOpenBroker.Core.RestartOrder
import OneOpenBroker.Core.Heaps

/-! The order of delivery. A queue delivers the message of the highest priority
and, within one priority, the one that became ready first. What became ready
when is told by a history of its own, kept beside the engine: the sequence
numbers of the code are not part of it, and the invariant is that they agree
with it. -/
namespace OneOpenBroker.Core.QueueEngine
open Collections Lists Systems

/-! ## What becomes ready -/

/-- The dead letter that a failure puts in a DLQ. -/
def buries (e : QueueEngine) (name id : String) (requeue : Bool) : List (String × String) :=
  match e.message? name id, e.spec? name with
  | some message, some spec =>
    if spec.deadLetter = true ∧ (requeue = true → message.maxAttempts ≤ message.attempts + 1) then
      [(dlqName name, id)]
    else []
  | _, _ => []

def buriesAll (e : QueueEngine) (name : String) (persist : Bool) :
    List String → List (String × String)
  | [] => []
  | id :: rest =>
    e.buries name id true ++ (e.failDelivery name id persist).2.buriesAll name persist rest

/-- The dead letters of a consumer recovery. -/
def recoveryBuries (size : Nat) (consumerId : String) (persist : Bool) :
    List String → QueueEngine → List (String × String)
  | [], _ => []
  | name :: rest, e =>
    if e.queues.size = size then
      match e.queues.get? name with
      | none => recoveryBuries size consumerId persist rest e
      | some queue =>
        e.buriesAll name persist (heldBy queue consumerId) ++ recoveryBuries size consumerId persist
          rest (e.failAll name persist (heldBy queue consumerId)).2
    else []

/-- The messages that are released from their delay. -/
def releases : List TimedEntry → QueueEngine → List (String × String)
  | [], _ => []
  | entry :: rest, e =>
    (if (e.releaseOne entry.queue entry.messageId).1 = 1 then [(entry.queue, entry.messageId)]
      else []) ++ releases rest (e.releaseOne entry.queue entry.messageId).2

/-- The dead letters of the deliveries that time out. -/
def timeoutBuries (now : ℚ) : List TimedEntry → QueueEngine → List (String × String)
  | [], _ => []
  | entry :: rest, e =>
    if entry.due ≤ now then
      match e.record? entry.queue entry.messageId with
      | none => timeoutBuries now rest e
      | some record =>
        if record.visibilityDeadline = entry.due then
          e.buries entry.queue entry.messageId true ++
            timeoutBuries now rest (e.failDelivery entry.queue entry.messageId true).2
        else timeoutBuries now rest e
    else []

/-- The engine that a tick sweeps, its clock read if no moment was given. -/
def tickBase (e : QueueEngine) (now : Option ℚ) : QueueEngine := now.elim e.now.2 fun _ => e

/-- The messages that an operation makes ready, with their queues and in their
order: published without a delay, released from one, dead-lettered, or put back
by a requeue that is refused. -/
def readied (persist : Bool) (e : QueueEngine) : EngineOp → List (String × String)
  | .declareQueue .. | .deleteQueue .. | .reserve .. | .ack .. => []
  | .enqueue message =>
    if (e.enqueue message persist).1 = .ok ∧ (dueMessage message e.now.1).availableAt = none then
      [(message.queue, message.id)]
    else []
  | .nack id requeue =>
    if (e.nack id requeue persist).1 = .ok then
      (e.byId.get? id).elim [] fun name => e.buries name id requeue
    else []
  | .recoverConsumer consumerId =>
    recoveryBuries e.queues.size consumerId persist e.queues.keys e
  | .tick now =>
    let ts := e.tickTime now
    let base := e.tickBase now
    releases (base.delayed.takeWhile (·.due ≤ ts))
        { base with delayed := base.delayed.dropWhile (·.due ≤ ts) } ++
      timeoutBuries ts (base.releaseDelayed ts).2.visibilityHeap (base.releaseDelayed ts).2
  | .dlqRequeue queueName id =>
    if (e.dlqRequeue queueName id persist).1 = true then [(originQueue queueName, id)]
    else if (e.message? (requeueSource queueName) id).isSome ∧ originQueue queueName ∈ e.queues then
      [(requeueSource queueName, id)]
    else []

/-- The engines of the runs without a restart, with what became ready in them. -/
inductive Lived : List (String × String) → QueueEngine → Prop where
  | start (config : EngineConfig) (clock : Nat → ℚ) : Lived [] { config, clock }
  | step {past : List (String × String)} {e : QueueEngine} (lived : Lived past e) (persist : Bool)
      (op : EngineOp) (ok : ReadyRequeues e op) :
      Lived (past ++ readied persist e op) (e.step persist op)

variable {e e' e'' : QueueEngine} {q m id name : String} {queue queue' : DurableQueue}
  {message : Message} {persist requeue : Bool} {past new new' : List (String × String)} {seq seq' : Nat}

/-! ## The ready heap and the history -/

/-- The heap is in order, its entries show the priorities of their messages,
and their sequence numbers agree with the history. -/
structure Ranked (past : List (String × String)) (seq : Nat) (q : String) (queue : DurableQueue) :
    Prop where
  sorted : queue.ready.Pairwise ReadyEntry.le
  priority : ∀ entry ∈ queue.ready, ∃ message,
    queue.messages.get? entry.messageId = some message ∧ entry.negPriority = -message.priority
  stamped : ∀ entry ∈ queue.ready, entry.seq ≤ seq
  known : ∀ entry ∈ queue.ready, (q, entry.messageId) ∈ past
  order : ∀ x ∈ queue.ready, ∀ y ∈ queue.ready,
    LastBefore (q, x.messageId) (q, y.messageId) past → x.seq < y.seq

/-- Every queue of the engine agrees with the history. -/
def Ranks (past : List (String × String)) (e : QueueEngine) : Prop :=
  Dict.All (Ranked past e.seq) e.queues

theorem Ranked.fresh {spec : QueueSpec} : Ranked past seq q { spec } := by
  refine ⟨List.Pairwise.nil, ?_, ?_, ?_, ?_⟩
  all_goals exact fun _ listed => absurd listed List.not_mem_nil

theorem Ranked.later (ranked : Ranked past seq q queue) (later : seq ≤ seq') :
    Ranked past seq' q queue :=
  ⟨ranked.sorted, ranked.priority, fun entry listed => (ranked.stamped entry listed).trans later,
    ranked.known, ranked.order⟩

/-- Entries went off the heap, and a message that has one was not replaced. -/
structure Thinned (queue queue' : DurableQueue) : Prop where
  fewer : queue'.ready.Sublist queue.ready
  messages : ∀ m ∈ readyIds queue', queue'.messages.get? m = queue.messages.get? m

theorem Ranked.thinned (ranked : Ranked past seq q queue) (thinned : Thinned queue queue') :
    Ranked past seq q queue' := by
  obtain ⟨fewer, messages⟩ := thinned
  refine ⟨ranked.sorted.sublist fewer, fun entry listed => ?_, fun entry listed => ?_,
    fun entry listed => ?_, fun x here y there => ?_⟩
  · rw [messages entry.messageId (mem_readyIds.mpr ⟨entry, listed, rfl⟩)]
    exact ranked.priority entry (fewer.subset listed)
  · exact ranked.stamped entry (fewer.subset listed)
  · exact ranked.known entry (fewer.subset listed)
  · exact ranked.order x (fewer.subset here) y (fewer.subset there)

/-- What becomes ready in other queues does not matter. -/
theorem Ranked.elsewhere (ranked : Ranked past seq q queue) (other : ∀ event ∈ new, event.1 ≠ q) :
    Ranked (past ++ new) seq q queue := by
  have apart : ∀ m, (q, m) ∉ new := fun m listed => other _ listed rfl
  exact ⟨ranked.sorted, ranked.priority, ranked.stamped,
    fun entry listed => List.mem_append_left _ (ranked.known entry listed),
    fun x here y there before => ranked.order x here y there (before.of_append (apart _) (apart _))⟩

/-- A message that was not ready becomes ready last. -/
theorem Ranked.pushReady (ranked : Ranked past seq q queue) (absent : message.id ∉ readyIds queue)
    (held : queue.messages.get? message.id = some message) :
    Ranked (past ++ [(q, message.id)]) (seq + 1) q (queue.pushReady (seq + 1) message) := by
  have listed : ∀ entry, entry ∈ (queue.pushReady (seq + 1) message).ready ↔
      entry = ⟨-message.priority, seq + 1, message.id⟩ ∨ entry ∈ queue.ready := fun _ => mem_heappush
  have other : ∀ entry ∈ queue.ready, entry.messageId ≠ message.id := fun entry there same =>
    absent (mem_readyIds.mpr ⟨entry, there, same⟩)
  refine ⟨ranked.sorted.orderedInsert _ _, fun entry there => ?_, fun entry there => ?_,
    fun entry there => ?_, fun x here y there before => ?_⟩
  · rcases (listed entry).mp there with rfl | old
    · exact ⟨message, held, rfl⟩
    · exact ranked.priority entry old
  · rcases (listed entry).mp there with rfl | old
    · exact le_rfl
    · exact (ranked.stamped entry old).trans (Nat.le_succ seq)
  · rcases (listed entry).mp there with rfl | old
    · exact List.mem_append_right _ List.mem_cons_self
    · exact List.mem_append_left _ (ranked.known entry old)
  · rcases (listed x).mp here with rfl | old
    · exact absurd before not_lastBefore_append
    · rcases (listed y).mp there with rfl | old'
      · exact Nat.lt_succ_of_le (ranked.stamped x old)
      · refine ranked.order x old y old' (before.of_append ?_ ?_)
        · simpa using other x old
        · simpa using other y old'

/-- Storing a queue in which a message has become ready. -/
theorem Ranked.push (ranked : Ranked past seq name queue) (absent : message.id ∉ readyIds queue)
    (held : queue.messages.get? message.id = some message) {queues : Dict String DurableQueue}
    (others : Dict.AllBut name (Ranked past seq) queues) :
    Dict.All (Ranked (past ++ [(name, message.id)]) (seq + 1))
      (queues.set name (queue.pushReady (seq + 1) message)) := by
  intro q queue' found
  rw [Dict.get?_set] at found
  split at found
  · rename_i here
    obtain rfl := Option.some.inj found
    subst here
    exact ranked.pushReady absent held
  · rename_i differ
    refine ((others q queue' differ found).elsewhere fun event listed => ?_).later (Nat.le_succ seq)
    rw [List.mem_singleton.mp listed]
    exact fun same => differ same.symm

/-! ## Steps and their accounts -/

/-- The heaps agree with the history after a step as before, if the history is
told these events. -/
def Accounts (new : List (String × String)) (e e' : QueueEngine) : Prop :=
  ∀ past, Ranks past e → Ranks (past ++ new) e'

theorem Accounts.trans (first : Accounts new e e') (second : Accounts new' e' e'') :
    Accounts (new ++ new') e e'' := by
  intro past ranks
  rw [← List.append_assoc]
  exact second _ (first past ranks)

/-- Nothing became ready in the first part of the step. -/
theorem Accounts.after (quiet : Accounts [] e e') (second : Accounts new e' e'') :
    Accounts new e e'' := quiet.trans second

theorem Accounts.same (queues : e'.queues = e.queues) (later : e.seq ≤ e'.seq) :
    Accounts [] e e' := by
  intro past ranks
  rw [List.append_nil]
  unfold Ranks
  rw [queues]
  exact ranks.imp fun _ _ ranked => ranked.later later

theorem Accounts.stored (found : e.queues.get? name = some queue)
    (stored : e'.queues = e.queues.set name queue') (later : e.seq ≤ e'.seq)
    (thinned : Thinned queue queue') : Accounts [] e e' := by
  intro past ranks
  rw [List.append_nil]
  unfold Ranks
  rw [stored]
  exact Dict.All.set (ranks.imp fun _ _ ranked => ranked.later later)
    (((ranks name queue found).thinned thinned).later later)

theorem Accounts.pushReady (found : e.queues.get? name = some queue) (thinned : Thinned queue queue')
    (absent : message.id ∉ readyIds queue')
    (held : queue'.messages.get? message.id = some message) :
    Accounts [(name, message.id)] e (e.pushReady name queue' message) :=
  fun _ ranks => ((ranks name queue found).thinned thinned).push absent held ranks.but

/-- No queue has the message on its ready heap. -/
def Unready (e : QueueEngine) (id : String) : Prop :=
  Dict.All (fun _ queue => id ∉ readyIds queue) e.queues

/-- A message that is placed elsewhere in a queue is ready in none. -/
theorem Sound.unready (sound : e.Sound) (found : e.queues.get? name = some queue)
    (held : id ∈ queue.messages) (elsewhere : id ∉ readyIds queue) : e.Unready id := by
  intro q other there
  by_cases same : q = name
  · subst same
    rw [found] at there
    cases there
    exact elsewhere
  · intro ready
    have absent := sound.lone held found same
    rw [message?_of_get there] at absent
    exact Dict.get?_eq_none.mp absent ((sound.balanced q other there).ready ready).1

/-! ## Failures -/

theorem Thinned.endDelivery : Thinned queue (queue.endDelivery id) :=
  ⟨List.Sublist.refl _, fun _ _ => rfl⟩

theorem Thinned.discard (absent : id ∉ readyIds queue) : Thinned queue (queue.discard id) :=
  ⟨List.Sublist.refl _, fun _ ready => Dict.get?_erase_ne fun same => absent (same ▸ ready)⟩

theorem Thinned.delay (absent : message.id ∉ readyIds queue) : Thinned queue (queue.delay message) :=
  ⟨List.Sublist.refl _, fun _ ready => Dict.get?_set_ne fun same => absent (same ▸ ready)⟩

theorem declareLeaf_accounts {args : QueueArgs} :
    Accounts [] e (e.declareLeaf name args persist) := by
  intro past ranks
  rw [List.append_nil]
  unfold Ranks
  rw [declareLeaf_seq]
  exact all_declareLeaf ranks .fresh

theorem moveToDlq_accounts (found : e.queues.get? name = some queue)
    (unready : e.Unready message.id) :
    Accounts (if queue.spec.deadLetter then [(dlqName name, message.id)] else []) e
      (e.moveToDlq name queue message persist) := by
  have left : Accounts [] e (e.discarded name queue message persist) :=
    .stored found discarded_queues discarded_seq.ge (.discard (unready name queue found))
  rw [moveToDlq_eq]
  split
  · have gone : (e.discarded name queue message persist).Unready message.id := by
      unfold Unready
      rw [discarded_queues]
      exact Dict.All.set unready (unready name queue found)
    obtain ⟨dest, known⟩ :=
      declareLeaf_known (e.discarded name queue message persist) (dlqName name) {} false
    have absent : message.id ∉ readyIds dest :=
      all_declareLeaf gone (by simp [readyIds]) _ dest known
    have declared : Accounts [] (e.discarded name queue message persist)
        ((e.discarded name queue message persist).declareLeaf (dlqName name) {} false) :=
      declareLeaf_accounts
    refine left.after (declared.after ?_)
    unfold bury
    rw [known]
    show Accounts [(dlqName name, (buried name message).id)] _ _
    refine .pushReady known ?_ absent Dict.get?_set_self
    exact ⟨List.Sublist.refl _, fun _ ready => Dict.get?_set_ne fun same => absent (same ▸ ready)⟩
  · exact left

/-- A failure makes nothing ready but the dead letter. -/
theorem conclude_accounts (requeue persist : Bool) (found : e.queues.get? name = some queue)
    (unready : e.Unready message.id) :
    Accounts (if queue.spec.deadLetter = true ∧
        (requeue = true → message.maxAttempts ≤ message.attempts + 1) then
      [(dlqName name, message.id)] else []) e (e.conclude name queue message requeue persist) := by
  rcases conclude_cases e name queue message requeue persist with ⟨spent, shape⟩ |
    ⟨again, below, shape⟩
  · have died : Accounts (if queue.spec.deadLetter then [(dlqName name, message.id)] else []) e
        (e.moveToDlq name queue (failed message requeue) persist) := moveToDlq_accounts found unready
    rw [shape]
    simpa only [iff_true_intro spent, and_true] using died
  · have kept : ¬ (queue.spec.deadLetter = true ∧
        (requeue = true → message.maxAttempts ≤ message.attempts + 1)) :=
      fun dies => absurd (dies.2 again) (by omega)
    rw [shape, if_neg kept]
    refine .stored found delayRetry_queues ?_ (.delay (unready name queue found))
    simp [delayRetry, pushDelayed, putQueue, now]

/-- A message that is out for delivery is ready nowhere. -/
theorem Sound.flying_unready (sound : e.Sound) (found : e.queues.get? name = some queue)
    (inflight : id ∈ queue.inflight) : e.Unready id :=
  sound.unready found (sound.carried found inflight) fun ready =>
    ((sound.balanced name queue found).ready ready).2.1 inflight

theorem failDelivery_accounts (sound : e.Sound) {record : InflightRecord}
    (flying : e.record? name id = some record) :
    Accounts (e.buries name id true) e (e.failDelivery name id persist).2 := by
  obtain ⟨queue, found, inflight⟩ := record?_some.mp flying
  have inside : id ∈ queue.inflight := Dict.mem_of_get? inflight
  obtain ⟨message, held⟩ := Dict.mem_iff.mp (sound.carried found inside)
  have filed : message.id = id := ((sound.named name queue found).messages id message held).1
  rcases failDelivery_cases e name id persist with ⟨absent, _⟩ | ⟨other, same, gone, _⟩ |
    ⟨other, message', same, there, shape⟩
  · rw [absent] at found
    cases found
  · rw [same] at found
    cases found
    exact absurd (Dict.mem_of_get? held) gone
  · rw [same] at found
    cases found
    obtain rfl := Option.some.inj (there.symm.trans held)
    have ended : Accounts [] e (e.putQueue name (queue.endDelivery id)) :=
      .stored same rfl le_rfl .endDelivery
    have before := sound.flying_unready same inside
    have unready : (e.putQueue name (queue.endDelivery id)).Unready message'.id := by
      rw [filed]
      exact Dict.All.set before (before name queue same)
    have concluded := ended.after (conclude_accounts true persist Dict.get?_set_self unready)
    rw [shape, buries, message?_of_get same, held, spec?_of_get same]
    rw [filed] at concluded
    exact concluded

theorem nack_accounts (sound : e.Sound) :
    Accounts (readied persist e (.nack id requeue)) e (e.nack id requeue persist).2 := by
  rcases nack_cases e id requeue persist with ⟨name, queue, message, nacks⟩ |
    ⟨refused, same | ⟨name, queue, indexed, found, gone, _⟩⟩
  · have filed : message.id = id :=
      ((sound.named name queue nacks.found).messages id message nacks.held).1
    have ended : Accounts [] e (e.nacked id requeue persist name queue) :=
      .stored nacks.found nacked_queues (by simp [nacked, putQueue])
        ⟨List.Sublist.refl _, fun _ _ => rfl⟩
    have known : (e.nacked id requeue persist name queue).queues.get? name =
        some (queue.endDelivery id).countNack := by
      rw [nacked_queues, Dict.get?_set_self]
    have unready : (e.nacked id requeue persist name queue).Unready message.id := by
      have before := sound.flying_unready nacks.found nacks.inflight
      unfold Unready
      rw [nacked_queues, filed]
      exact Dict.All.set before (before name queue nacks.found)
    have told : readied persist e (.nack id requeue) = e.buries name id requeue := by
      simp [readied, nacks.result, nacks.indexed]
    have concluded := ended.after (conclude_accounts requeue persist known unready)
    rw [told, nacks.shape, buries, message?_of_get nacks.found, nacks.held,
      spec?_of_get nacks.found]
    rw [filed] at concluded
    exact concluded
  · have told : readied persist e (.nack id requeue) = [] := if_neg refused
    rw [told, same]
    exact .same rfl le_rfl
  · obtain ⟨message, held⟩ := sound.indexed.held name id indexed
    rw [message?_of_get found] at held
    exact absurd (Dict.mem_of_get? held) gone

/-! ## Publishing and delivery -/

theorem Thinned.hold (absent : message.id ∉ readyIds queue) : Thinned queue (queue.hold message) :=
  ⟨List.Sublist.refl _, fun _ ready => Dict.get?_set_ne fun same => absent (same ▸ ready)⟩

theorem enqueue_accounts (unready : e.Unready message.id) :
    Accounts (readied persist e (.enqueue message)) e (e.enqueue message persist).2 := by
  rcases enqueue_cases e message persist with ⟨queue, accepts⟩ | ⟨refused, same⟩
  · have result : (e.enqueue message persist).1 = .ok := by rw [accepts.2.2]
    have absent : (dueMessage message e.now.1).id ∉ readyIds queue := by
      rw [dueMessage_id]
      exact unready _ queue accepts.1
    have queued : e.now.2.queues.get? (dueMessage message e.now.1).queue = some queue := by
      rw [dueMessage_queue]
      exact accepts.1
    have started : Accounts [] e e.now.2 := .same rfl le_rfl
    have ended : ∀ e' : QueueEngine, Accounts [] e' (e'.append persist
        (.messagePublish (dueMessage message e.now.1))) :=
      fun e' => .same append_queues append_seq.ge
    rw [accepts.2.2]
    cases due : (dueMessage message e.now.1).availableAt with
    | none =>
      have told : readied persist e (.enqueue message) = [(message.queue, message.id)] :=
        if_pos ⟨result, due⟩
      have pushed : Accounts [((dueMessage message e.now.1).queue, (dueMessage message e.now.1).id)]
          e.now.2 (e.now.2.accept queue (dueMessage message e.now.1)) := by
        unfold accept
        rw [due]
        exact .pushReady queued (.hold absent) absent Dict.get?_set_self
      rw [told]
      rw [dueMessage_queue, dueMessage_id] at pushed
      exact started.after (pushed.trans (ended _))
    | some moment =>
      have told : readied persist e (.enqueue message) = [] :=
        if_neg fun both => by rw [due] at both; exact absurd both.2 (by simp)
      have waits : Accounts [] e.now.2 (e.now.2.accept queue (dueMessage message e.now.1)) := by
        unfold accept
        rw [due]
        refine .stored queued rfl (Nat.le_succ _) ⟨List.Sublist.refl _, fun m ready => ?_⟩
        exact (Thinned.hold absent).messages m ready
      rw [told]
      exact started.after (waits.after (ended _))
  · have told : readied persist e (.enqueue message) = [] := if_neg fun both => refused both.1
    rw [told, same]
    exact .same rfl le_rfl

theorem reserve_accounts {queueName consumerId : String} :
    Accounts [] e (e.reserve queueName consumerId).2 := by
  rcases reserve_cases e queueName consumerId with ⟨queue, id, message, rest, reserves⟩ |
    ⟨_, ⟨same, _⟩ | ⟨queue, found, stale, shape⟩⟩
  · obtain ⟨_, _, _, skipped, entry, split, _⟩ := popDeliverable_some reserves.popped
    have fewer : rest.Sublist queue.ready := by
      rw [split]
      exact (List.sublist_cons_self entry rest).trans (List.sublist_append_right skipped _)
    exact .stored reserves.found reserves.queues reserve_seq ⟨fewer, fun _ _ => rfl⟩
  · rw [same]
    exact .same rfl le_rfl
  · rw [shape]
    exact .stored found rfl le_rfl ⟨List.nil_sublist _, fun _ _ => rfl⟩

theorem ack_accounts (sound : e.Sound) : Accounts [] e (e.ack id persist).2 := by
  rcases ack_cases e id persist with ⟨name, queue, settles⟩ | ⟨_, same⟩
  · have absent := sound.flying_unready settles.found settles.inflight name queue settles.found
    have thinned : Thinned queue (queue.settle id) :=
      ⟨List.Sublist.refl _, (Thinned.discard absent).messages⟩
    exact .stored settles.found settles.queues ack_seq.ge thinned
  · rw [same]
    exact .same rfl le_rfl

/-! ## Timers -/

theorem releaseOne_accounts (sound : e.Sound) :
    Accounts (if (e.releaseOne name id).1 = 1 then [(name, id)] else []) e
      (e.releaseOne name id).2 := by
  cases found : e.queues.get? name with
  | none =>
    have idle : e.releaseOne name id = (0, e) := by simp [releaseOne, found]
    rw [idle]
    exact .same rfl le_rfl
  | some queue =>
    by_cases marked : id ∈ queue.delayedIds
    · obtain ⟨there, idle⟩ := (sound.balanced name queue found).delayed marked
      obtain ⟨message, held⟩ := Dict.mem_iff.mp there
      have filed : (strip message).id = id :=
        ((sound.named name queue found).messages id message held).1
      have absent : id ∉ readyIds queue := fun ready =>
        ((sound.balanced name queue found).ready ready).2.2 marked
      have released : e.releaseOne name id = (1, e.pushReady name { queue with
          delayedIds := queue.delayedIds.erase id
          messages := queue.messages.set id (strip message) } (strip message)) := by
        simp [releaseOne, found, marked, held, idle, strip]
      rw [released, if_pos rfl]
      have pushed : Accounts [(name, (strip message).id)] e (e.pushReady name { queue with
          delayedIds := queue.delayedIds.erase id
          messages := queue.messages.set id (strip message) } (strip message)) := by
        refine .pushReady found ⟨List.Sublist.refl _, fun m ready => ?_⟩ (filed ▸ absent) ?_
        · exact Dict.get?_set_ne fun same => absent (same ▸ ready)
        · rw [filed]
          exact Dict.get?_set_self
      rw [filed] at pushed
      exact pushed
    · have idle : e.releaseOne name id = (0, e) := by simp [releaseOne, found, marked]
      rw [idle]
      exact .same rfl le_rfl

theorem releaseAll_accounts (due : List TimedEntry) (sound : e.Sound) :
    Accounts (releases due e) e (releaseAll due e).2 := by
  induction due generalizing e with
  | nil => exact .same rfl le_rfl
  | cons entry rest ih => exact (releaseOne_accounts sound).trans (ih (releaseOne_sound sound))

theorem timeoutEntries_accounts (now : ℚ) (entries : List TimedEntry) (sound : e.Sound) :
    Accounts (timeoutBuries now entries e) e (timeoutEntries now entries e).2 := by
  induction entries generalizing e with
  | nil => exact .same rfl le_rfl
  | cons entry rest ih =>
    unfold timeoutBuries timeoutEntries
    by_cases due : entry.due ≤ now
    · rw [if_pos due, if_pos due]
      cases flying : e.record? entry.queue entry.messageId with
      | none =>
        rw [record?] at flying
        rw [flying]
        exact ih sound
      | some record =>
        have there := flying
        rw [record?] at flying
        rw [flying]
        dsimp only
        by_cases current : record.visibilityDeadline = entry.due
        · rw [if_pos current, if_pos current]
          exact (failDelivery_accounts sound there).trans (ih (failDelivery_sound sound there))
        · rw [if_neg current, if_neg current]
          exact ih sound
    · rw [if_neg due, if_neg due]
      exact .same rfl le_rfl

theorem tick_accounts {now : Option ℚ} (sound : e.Sound) :
    Accounts (readied persist e (.tick now)) e (e.tick now).2 := by
  have sweep : ∀ base : QueueEngine, base.Sound →
      Accounts (releases (base.delayed.takeWhile (·.due ≤ e.tickTime now))
          { base with delayed := base.delayed.dropWhile (·.due ≤ e.tickTime now) } ++
        timeoutBuries (e.tickTime now) (base.releaseDelayed (e.tickTime now)).2.visibilityHeap
          (base.releaseDelayed (e.tickTime now)).2) base
        ((base.releaseDelayed (e.tickTime now)).2.timeoutInflight (e.tickTime now)).2 := by
    intro base sound
    have trimmed : QueueEngine.Sound
        { base with delayed := base.delayed.dropWhile (·.due ≤ e.tickTime now) } :=
      ⟨⟨sound.named, sound.indexed.filed, sound.indexed.held⟩, sound.balanced⟩
    have popped : Accounts [] base
        { base with delayed := base.delayed.dropWhile (·.due ≤ e.tickTime now) } := .same rfl le_rfl
    have woken : (base.releaseDelayed (e.tickTime now)).2.Sound :=
      releaseAll_preserves (fun _ _ _ sound => releaseOne_sound sound) trimmed
    exact (popped.after (releaseAll_accounts _ trimmed)).trans (timeoutEntries_accounts _ _ woken)
  cases now with
  | none =>
    have started : Accounts [] e e.now.2 := .same rfl le_rfl
    have sound' : e.now.2.Sound :=
      ⟨⟨sound.named, sound.indexed.filed, sound.indexed.held⟩, sound.balanced⟩
    exact started.after (sweep e.now.2 sound')
  | some ts => exact sweep e sound

/-! ## Consumer recovery -/

theorem failAll_accounts (persist : Bool) {ids : List String} (sound : e.Sound) (distinct : ids.Nodup)
    (there : ∀ id ∈ ids, ∃ record, e.record? name id = some record) :
    Accounts (e.buriesAll name persist ids) e (e.failAll name persist ids).2 := by
  induction ids generalizing e with
  | nil => exact .same rfl le_rfl
  | cons id rest ih =>
    obtain ⟨absent, tail⟩ := List.nodup_cons.mp distinct
    obtain ⟨record, flying⟩ := there id List.mem_cons_self
    refine (failDelivery_accounts sound flying).trans (ih (failDelivery_sound sound flying) tail ?_)
    intro other member
    have differ : other ≠ id := fun same => absent (same ▸ member)
    rw [failDelivery_record?, if_neg (fun same => differ same.2)]
    exact there other (List.mem_cons_of_mem _ member)

theorem recoverQueues_accounts (size : Nat) (consumerId : String) (names : List String)
    (sound : e.Sound) : Accounts (recoveryBuries size consumerId persist names e) e
      (recoverQueues size consumerId persist names e).2 := by
  induction names generalizing e with
  | nil => exact .same rfl le_rfl
  | cons name rest ih =>
    unfold recoveryBuries recoverQueues
    split
    · cases found : e.queues.get? name with
      | none => exact ih sound
      | some queue =>
        obtain ⟨distinct, collected⟩ := heldBy_spec consumerId (sound.named name queue found)
        have there : ∀ id ∈ heldBy queue consumerId, ∃ record, e.record? name id = some record ∧
            record.consumerId = consumerId := by
          intro id member
          rw [record?_of_get found]
          exact (collected id).mp member
        have swept : (e.failAll name persist (heldBy queue consumerId)).2.Sound :=
          failAll_preserves consumerId (fun _ _ _ sound flying _ => failDelivery_sound sound flying)
            distinct there sound
        have failures := failAll_accounts persist sound distinct fun id member =>
          (there id member).imp fun _ flying => flying.1
        exact failures.trans (ih swept)
    · exact .same rfl le_rfl

/-! ## Dead letters -/

variable {queueName consumerId : String} {dlq : DurableQueue}

/-- Rebuilding a heap that is in order only takes the entries of the message out. -/
theorem Ranked.withdraw (ranked : Ranked past seq q dlq) : Ranked past seq q (dlq.withdraw id) := by
  have ready : (dlq.withdraw id).ready = dlq.ready.filter (·.messageId ≠ id) :=
    (ranked.sorted.filter _).insertionSort_eq
  refine ranked.thinned ⟨?_, fun m member => ?_⟩
  · rw [ready]
    exact List.filter_sublist
  · refine Dict.get?_erase_ne fun same => ?_
    obtain ⟨entry, listed, named⟩ := mem_readyIds.mp member
    rw [ready] at listed
    simpa [named, same] using List.mem_filter.mp listed

theorem withdraw_unready : id ∉ readyIds (dlq.withdraw id) := by
  rw [mem_readyIds]
  rintro ⟨entry, listed, named⟩
  have left : entry ∈ dlq.ready.filter (·.messageId ≠ id) :=
    (List.perm_insertionSort ReadyEntry.le _).mem_iff.mp listed
  simpa [named] using List.mem_filter.mp left

theorem withdrawn_accounts (draws : e.Withdraws queueName id dlq message) :
    Accounts [] e (e.withdrawn queueName id dlq) := by
  intro past ranks
  rw [List.append_nil]
  exact Dict.All.set ranks (ranks _ dlq draws.source).withdraw

theorem withdrawn_unready (sound : e.Sound) (draws : e.Withdraws queueName id dlq message) :
    (e.withdrawn queueName id dlq).Unready id := by
  have others : Dict.AllBut (requeueSource queueName) (fun _ queue => id ∉ readyIds queue)
      e.queues := by
    intro q queue differ found ready
    have absent := sound.lone (Dict.mem_of_get? draws.held) draws.source differ
    rw [message?_of_get found] at absent
    exact Dict.get?_eq_none.mp absent ((sound.balanced q queue found).ready ready).1
  exact others.set withdraw_unready

theorem dlqRequeue_accounts (sound : e.Sound) :
    Accounts (readied persist e (.dlqRequeue queueName id)) e
      (e.dlqRequeue queueName id persist).2 := by
  by_cases found : ∃ dlq message, e.Withdraws queueName id dlq message
  · obtain ⟨dlq, message, draws⟩ := found
    have filed : message.id = id := (sound.named.filed draws.heldThere).1
    have unready := withdrawn_unready sound draws
    rcases draws.result persist with ⟨dest, accepts, shape⟩ | ⟨_, shape⟩
    · have told : readied persist e (.dlqRequeue queueName id) = [(originQueue queueName, id)] := by
        simp [readied, shape]
      have queued : readied false (e.withdrawn queueName id dlq)
          (.enqueue (requeued queueName message)) = [(originQueue queueName, id)] := by
        rw [readied, if_pos ⟨by rw [accepts.2.2], rfl⟩]
        exact congrArg (fun id => [(originQueue queueName, id)]) filed
      have enqueued : Accounts [(originQueue queueName, id)] (e.withdrawn queueName id dlq)
          ((e.withdrawn queueName id dlq).enqueue (requeued queueName message) false).2 :=
        queued ▸ enqueue_accounts (filed.symm ▸ unready)
      have ended : ∀ e' op, Accounts [] e' (e'.append persist op) :=
        fun _ _ => .same append_queues append_seq.ge
      rw [told, shape]
      exact (withdrawn_accounts draws).after (enqueued.trans (ended _ _))
    · have told : readied persist e (.dlqRequeue queueName id) =
          [(requeueSource queueName, id)] := by
        have there : originQueue queueName ∈ e.queues := Dict.mem_iff.mpr draws.dest
        simp [readied, shape, draws.heldThere, there]
      have known : (e.withdrawn queueName id dlq).queues.get? (requeueSource queueName) =
          some (dlq.withdraw id) := Dict.get?_set_self
      have same : (returned queueName message).id = id := filed
      have thinned : Thinned (dlq.withdraw id) (refilled queueName id dlq message) :=
        ⟨List.Sublist.refl _, fun _ ready =>
          Dict.get?_set_ne fun same => withdraw_unready (same ▸ ready)⟩
      have pushed : Accounts [(requeueSource queueName, (returned queueName message).id)]
          (e.withdrawn queueName id dlq) (e.putBack queueName id dlq message) := by
        refine .pushReady known thinned ?_ ?_
        · rw [same]
          exact withdraw_unready
        · rw [same]
          exact Dict.get?_set_self
      rw [told, shape]
      rw [same] at pushed
      exact (withdrawn_accounts draws).after pushed
  · have nothing : e.dlqRequeue queueName id persist = (false, e) :=
      (dlqRequeue_cases e queueName id persist).resolve_right found
    have told : readied persist e (.dlqRequeue queueName id) = [] := by
      rw [readied, nothing, if_neg (by simp), if_neg]
      rintro ⟨held, dest⟩
      obtain ⟨message, held⟩ := Option.isSome_iff_exists.mp held
      obtain ⟨dlq, source, inside⟩ := message?_some.mp held
      exact found ⟨dlq, message, source, Dict.mem_iff.mp dest, inside⟩
    rw [told, nothing]
    exact .same rfl le_rfl

/-! ## Runs -/

/-- One operation is accounted for by what it makes ready. -/
theorem step_accounts (sound : e.Sound) (op : EngineOp) (ok : ReadyRequeues e op) :
    Accounts (readied persist e op) e (e.step persist op) := by
  cases op with
  | declareQueue name args =>
    intro past ranks
    have same : (e.step persist (.declareQueue name args)).seq = e.seq := declareQueue_seq
    rw [readied, List.append_nil, Ranks, same]
    exact all_declareQueue ranks fun _ _ => .fresh
  | deleteQueue name =>
    intro past ranks
    have same : (e.step persist (.deleteQueue name)).seq = e.seq := deleteQueue_seq
    rw [readied, List.append_nil, Ranks, same]
    exact all_deleteQueue ranks
  | enqueue message =>
    refine enqueue_accounts fun q queue found ready => ok ?_
    obtain ⟨old, held⟩ := Dict.mem_iff.mp ((sound.balanced q queue found).ready ready).1
    exact ⟨q, old, (message?_of_get found).trans held⟩
  | reserve queueName consumerId => exact reserve_accounts
  | ack messageId => exact ack_accounts sound
  | nack messageId requeue => exact nack_accounts sound
  | recoverConsumer consumerId => exact recoverQueues_accounts _ _ _ sound
  | tick now => exact tick_accounts sound
  | dlqRequeue queueName messageId => exact dlqRequeue_accounts sound

theorem Lived.sound (lived : Lived past e) : e.Sound := by
  induction lived with
  | start config clock => exact Reachable.sound (.start config clock)
  | step _ persist op ok sound => exact step_sound sound op ok

theorem Lived.ranks (lived : Lived past e) : Ranks past e := by
  induction lived with
  | start config clock => exact Dict.all_empty
  | step lived persist op ok ranks => exact step_accounts lived.sound op ok _ ranks

/-! ## The order of delivery -/

/-- What waits in a balanced queue is ready there. -/
theorem Balanced.waits (balanced : Balanced queue) (waits : Waits queue m) :
    m ∈ readyIds queue := by
  obtain ⟨held, idle, awake⟩ := waits
  have total := balanced m
  unfold places at total
  rw [if_pos held, if_neg idle, if_neg awake] at total
  exact List.count_pos_iff.mp (by omega)

/-- The first entry of the heap is of a message with the highest priority, and
no message with that priority became ready earlier. -/
theorem Ranked.first (ranked : Ranked past seq q queue) {entry other : ReadyEntry}
    {rest : List ReadyEntry} {delivered : Message} (split : queue.ready = entry :: rest)
    (held : queue.messages.get? entry.messageId = some delivered) (listed : other ∈ queue.ready)
    (held' : queue.messages.get? other.messageId = some message) :
    message.priority ≤ delivered.priority ∧ (message.priority = delivered.priority →
      ¬ LastBefore (q, other.messageId) (q, entry.messageId) past) := by
  have here : entry ∈ queue.ready := split ▸ List.mem_cons_self
  have before : ReadyEntry.le entry other := by
    rw [split] at listed
    rcases List.mem_cons.mp listed with rfl | later
    · exact (total_of ReadyEntry.le other other).elim id id
    · have sorted := ranked.sorted
      rw [split] at sorted
      exact (List.pairwise_cons.mp sorted).1 other later
  obtain ⟨_, there, shown⟩ := ranked.priority entry here
  obtain rfl := Option.some.inj (there.symm.trans held)
  obtain ⟨_, there', shown'⟩ := ranked.priority other listed
  obtain rfl := Option.some.inj (there'.symm.trans held')
  rcases before with high | ⟨same, earlier⟩
  · refine ⟨by omega, fun equal => by omega⟩
  · refine ⟨by omega, fun _ last => ?_⟩
    exact absurd (ranked.order other listed entry here last) (Nat.not_lt.mpr earlier)

/-- The raising engines of the runs without a restart, with what became ready in
them up to the first overflow. -/
inductive RaisingLived (allowed : QueueEngine → EngineOp → Prop) :
    List (String × String) → QueueEngine → Prop where
  | start (config : EngineConfig) (clock : Nat → ℚ) : RaisingLived allowed [] { config, clock }
  | step {past : List (String × String)} {e : QueueEngine} (lived : RaisingLived allowed past e)
      (persist : Bool) (op : EngineOp) (ok : allowed e op) :
      RaisingLived allowed (past ++ readied persist e op) (Raising.step persist e op)

/-- The history of a run in which every delay is a number. -/
theorem RaisingLived.plain (lived : RaisingLived (Raising.Numbered ReadyRequeues) past e) :
    Lived past e := by
  induction lived with
  | start config clock => exact .start config clock
  | step _ persist op ok plain =>
    rw [step_agrees plain.sound.named ok.2]
    exact plain.step persist op ok.1

/-- What becomes ready in a sequence of operations of the raising engine. -/
def history (persist : Bool) (e : QueueEngine) : List EngineOp → List (String × String)
  | [] => []
  | op :: rest => readied persist e op ++ history persist (Raising.step persist e op) rest

theorem raisingLived_run {allowed : QueueEngine → EngineOp → Prop} {ops : List EngineOp}
    (lived : RaisingLived allowed past e) (ok : Allowed (Raising.step persist) allowed e ops) :
    RaisingLived allowed (past ++ history persist e ops) (run (Raising.step persist) e ops) := by
  induction ops generalizing past e with
  | nil => exact (List.append_nil past).symm ▸ lived
  | cons op rest ih =>
    have next := ih (lived.step persist op ok.1) ok.2
    rwa [List.append_assoc] at next

end OneOpenBroker.Core.QueueEngine

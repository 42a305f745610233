import OneOpenBroker.Core.Stamps
import OneOpenBroker.Library.WorkQueues

/-! The engine as work queues. A held message is a task: out while its queue
has a delivery of it, waiting while it names a moment, and ready else. As long
as placement is exclusive every operation of the engine, with all its loops, is
a trace of moves of tasks that shows what the operation answers. -/
namespace OneOpenBroker.Core.QueueEngine
open Collections Systems WorkQueues

/-- The part of a message that no operation changes while it is held. -/
def essence (message : Message) : Message :=
  { message with queue := "", attempts := 0, availableAt := none }

def placeOf (e : QueueEngine) (q id : String) (message : Message) : Place String :=
  match e.record? q id with
  | some record => .out record.consumerId
  | none => if message.availableAt.isSome then .waiting else .ready

def taskOf (e : QueueEngine) (q id : String) (message : Message) : Entry String String Message where
  queue := q
  body := essence message
  attempts := message.attempts
  limit := message.maxAttempts
  place := e.placeOf q id message

/-- The tasks of an engine, found through its index. -/
def tasks (e : QueueEngine) : Store String String String Message := fun id =>
  (e.byId.get? id).bind fun q => (e.message? q id).map (e.taskOf q id)

/-- What the answer to an operation shows. -/
def shows (persist : Bool) (e : QueueEngine) : EngineOp → List (Event String String String Message)
  | .enqueue message =>
    if (e.enqueue message persist).1 = .ok then
      [.published message.id message.queue (essence message)]
    else []
  | .reserve queueName consumerId =>
    match (e.reserve queueName consumerId).1 with
    | some message =>
      [.delivered message.id queueName consumerId (essence message) message.attempts]
    | none => []
  | .ack messageId => if (e.ack messageId persist).1 = .ok then [.settled messageId] else []
  | .nack messageId requeue =>
    if (e.nack messageId requeue persist).1 = .ok then [.failed messageId requeue] else []
  | .dlqRequeue queueName messageId =>
    if (e.dlqRequeue queueName messageId persist).1 = true then
      [.revived messageId (originQueue queueName)]
    else []
  | .declareQueue .. | .deleteQueue _ | .recoverConsumer _ | .tick _ => []

variable {e e' : QueueEngine} {name q id m : String} {queue : DurableQueue} {message : Message}
  {record : InflightRecord} {persist requeue : Bool} {written : List JournalOp}

/-! ## Tasks -/

theorem tasks_held (indexed : e.Indexed) (held : e.message? q id = some message) :
    e.tasks id = some (e.taskOf q id message) := by
  simp [tasks, indexed.filed q id message held, held]

theorem tasks_absent (absent : ∀ q, e.message? q id = none) : e.tasks id = none := by
  simp [tasks, absent]

theorem placeOf_out (flying : e.record? q id = some record) :
    e.placeOf q id message = .out record.consumerId := by
  simp [placeOf, flying]

theorem placeOf_idle (idle : e.record? q id = none) : e.placeOf q id message =
    if message.availableAt.isSome then .waiting else .ready := by
  simp [placeOf, idle]

theorem taskOf_idle (idle : e.record? q id = none) : (e.taskOf q id message).Idle := by
  intro consumer out
  have place : (e.taskOf q id message).place = _ := placeOf_idle idle
  rw [place] at out
  split at out <;> cases out

/-- A task depends on what the queues hold and deliver under its id. -/
theorem tasks_congr (indexed : e.Indexed) (indexed' : e'.Indexed)
    (messages : ∀ q, e'.message? q id = e.message? q id)
    (records : ∀ q, e'.record? q id = e.record? q id) : e'.tasks id = e.tasks id := by
  by_cases held : ∃ q message, e.message? q id = some message
  · obtain ⟨q, message, held⟩ := held
    rw [tasks_held indexed held, tasks_held indexed' ((messages q).trans held)]
    simp only [taskOf, placeOf, records]
  · push Not at held
    have absent : ∀ q, e.message? q id = none := fun q =>
      Option.eq_none_iff_forall_ne_some.mpr (held q)
    rw [tasks_absent absent, tasks_absent fun q => (messages q).trans (absent q)]

theorem tasks_same (indexed : e.Indexed) (indexed' : e'.Indexed) (messages : e'.message? = e.message?)
    (records : e'.record? = e.record?) : e'.tasks = e.tasks :=
  funext fun _ => tasks_congr indexed indexed' (fun _ => by rw [messages]) fun _ => by rw [records]

/-- Where only one id is touched, only its task changes. -/
theorem tasks_update (indexed : e.Indexed) (indexed' : e'.Indexed)
    (messages : ∀ q m, m ≠ id → e'.message? q m = e.message? q m)
    (records : ∀ q m, m ≠ id → e'.record? q m = e.record? q m) {new : Option (Entry String String Message)}
    (result : e'.tasks id = new) : e'.tasks = Function.update e.tasks id new := by
  funext m
  by_cases here : m = id
  · rw [here, Function.update_self, result]
  · rw [Function.update_of_ne here]
    exact tasks_congr indexed indexed' (fun q => messages q m here) fun q => records q m here

/-- A delivery is of a task that is out with its consumer. -/
theorem Timely.flying (timely : e.Timely) (flying : e.record? q id = some record) :
    ∃ message, e.message? q id = some message ∧ e.tasks id = some (e.taskOf q id message) ∧
      (e.taskOf q id message).place = .out record.consumerId := by
  obtain ⟨queue, found, inflight⟩ := record?_some.mp flying
  obtain ⟨message, held⟩ := Dict.mem_iff.mp (timely.toSound.carried found (Dict.mem_of_get? inflight))
  have there : e.message? q id = some message := (message?_of_get found).trans held
  exact ⟨message, there, tasks_held timely.indexed there, placeOf_out flying⟩

/-- A message has no delivery outside the queue that holds it. -/
theorem Timely.idle_elsewhere (timely : e.Timely) (held : e.message? q id = some message)
    (differ : name ≠ q) : e.record? name id = none := by
  by_contra flying
  obtain ⟨record, flying⟩ := Option.ne_none_iff_exists'.mp flying
  obtain ⟨message', there, _⟩ := timely.flying flying
  rw [timely.indexed.lone held differ] at there
  cases there

/-! ## One operation -/

/-- The moves behind a change of the engine, with what it shows. -/
abbrev Moves (e : QueueEngine) (seen : List (Event String String String Message)) (e' : QueueEngine) :
    Prop :=
  Explains Next Label.event e.tasks seen e'.tasks

theorem Moves.still (indexed : e.Indexed) (indexed' : e'.Indexed) (messages : e'.message? = e.message?)
    (records : e'.record? = e.record?) : Moves e [] e' := by
  unfold Moves
  rw [tasks_same indexed indexed' messages records]
  exact .refl _

/-- The end of a failed delivery is a retry, a burial, or the loss of the task. -/
theorem Exit.moves (exit : Exit e name id requeue persist written e') (how : Failure)
    (timely : e.Timely) (indexed : e'.Indexed) (flying : e.record? name id = some record)
    (records : ∀ q m, e'.record? q m = if q = name ∧ m = id then none else e.record? q m)
    (cause : how = .rejected ↔ requeue = false) : Moves e (how.event id).toList e' := by
  obtain ⟨message, there, held, out⟩ := timely.flying flying
  have others : ∀ q m, m ≠ id → e'.record? q m = e.record? q m := fun q m differ => by
    rw [records, if_neg fun same => differ same.2]
  have idle : e'.record? name id = none := by rw [records, if_pos ⟨rfl, rfl⟩]
  have charge : message.attempts + (if requeue then 1 else 0) =
      ((e.taskOf name id message).charged how).attempts := by
    cases requeue <;> simp_all [Entry.charged, taskOf]
  have spent : (requeue = true → message.maxAttempts ≤ message.attempts + 1) →
      (e.taskOf name id message).Spent how := fun spent other =>
    spent (by cases requeue <;> simp_all)
  cases exit with
  | gone absent =>
    rw [absent] at there
    cases there
  | retried kept due held' again below messages =>
    obtain rfl := Option.some.inj (there.symm.trans held')
    have after : e'.tasks id =
        some { (e.taskOf name id message).charged how with place := .waiting } := by
      rw [tasks_held indexed ((messages name id).trans (if_pos ⟨rfl, rfl⟩)), taskOf, placeOf_idle idle]
      simp [Entry.charged, taskOf, QueueEngine.failed, essence, charge]
    unfold Moves
    rw [tasks_update timely.indexed indexed (fun q m differ => by
      rw [messages, if_neg fun same => differ same.2]) others after]
    exact Explains.step (Next.retry how held out (by simp [cause, again]) below)
  | moved kept spec held' known on spent' messages =>
    obtain rfl := Option.some.inj (there.symm.trans held')
    have plain := timely.named.plain known on
    have idle' : e'.record? (dlqName name) id = none := by
      rw [records]
      split
      · rfl
      · exact timely.idle_elsewhere there (dlqName_ne plain)
    have after : e'.tasks id = some { (e.taskOf name id message).charged how with
        queue := dlqName name, place := .ready } := by
      rw [tasks_held indexed ((messages (dlqName name) id).trans (if_pos ⟨rfl, rfl⟩)), taskOf,
        placeOf_idle idle']
      simp [Entry.charged, taskOf, buried, QueueEngine.failed, essence, charge]
    unfold Moves
    rw [tasks_update timely.indexed indexed (fun q m differ => by
      rw [messages, if_neg fun same => differ same.2, if_neg fun same => differ same.2]) others after]
    exact Explains.step (Next.bury how (dlqName name) held out (spent spent'))
  | dropped kept spec held' known off spent' messages =>
    obtain rfl := Option.some.inj (there.symm.trans held')
    have after : e'.tasks id = none := tasks_absent fun q => by
      rw [messages]
      split
      · rfl
      · exact timely.indexed.lone there fun same => by simp_all
    unfold Moves
    rw [tasks_update timely.indexed indexed (fun q m differ => by
      rw [messages, if_neg fun same => differ same.2]) others after]
    exact Explains.step (Next.drop how held out (spent spent'))

theorem failDelivery_moves (timely : e.Timely) (flying : e.record? name id = some record) :
    Moves e [] (e.failDelivery name id persist).2 :=
  (failDelivery_exit timely.named).moves .lost timely
    (failDelivery_sound timely.toSound flying).indexed flying (fun _ _ => failDelivery_record?) (by simp)

theorem nack_moves (timely : e.Timely) :
    Moves e (shows persist e (.nack id requeue)) (e.nack id requeue persist).2 := by
  have indexed : (e.nack id requeue persist).2.Indexed := (nack_sound timely.toSound).indexed
  rcases nack_cases e id requeue persist with ⟨name, queue, message, nacks⟩ |
    ⟨refused, same | ⟨name, queue, indexed', found, gone, _⟩⟩
  · obtain ⟨record, inflight⟩ := Dict.mem_iff.mp nacks.inflight
    have flying : e.record? name id = some record := (record?_of_get nacks.found).trans inflight
    have moves := (nacks.exit timely.named).moves (if requeue then .returned else .rejected) timely
      indexed flying (fun _ _ => nacks.record?) (by cases requeue <;> simp)
    rw [shows, if_pos nacks.result]
    cases requeue <;> exact moves
  · rw [shows, if_neg refused, same]
    exact .refl _
  · obtain ⟨message, held⟩ := timely.indexed.held name id indexed'
    rw [message?_of_get found] at held
    exact absurd (Dict.mem_of_get? held) gone

theorem enqueue_moves (timely : e.Timely) (fresh : ¬ e.Held message.id) :
    Moves e (shows persist e (.enqueue message)) (e.enqueue message persist).2 := by
  have indexed : (e.enqueue message persist).2.Indexed := (enqueue_sound timely.toSound fresh).indexed
  rcases enqueue_cases e message persist with ⟨queue, accepts⟩ | ⟨refused, same⟩
  · have absent : ∀ q, e.message? q message.id = none := fun q =>
      Option.eq_none_iff_forall_ne_some.mpr fun old held => fresh ⟨q, old, held⟩
    have idle : (e.enqueue message persist).2.record? message.queue message.id = none := by
      rw [accepts.record?]
      by_contra flying
      obtain ⟨record, flying⟩ := Option.ne_none_iff_exists'.mp flying
      obtain ⟨old, there, _⟩ := timely.flying flying
      rw [absent] at there
      cases there
    have after := tasks_held indexed (accepts.message?.trans (if_pos ⟨rfl, rfl⟩))
    have ok : (e.enqueue message persist).1 = .ok := by rw [accepts.2.2]
    have body : essence (dueMessage message e.now.1) = essence message := by
      obtain ⟨due, shape⟩ := dueMessage_eq message e.now.1
      rw [shape]
      rfl
    unfold Moves
    rw [tasks_update timely.indexed indexed (fun q m differ => by
      rw [accepts.message?, if_neg fun same => differ same.2]) (fun q m _ => by rw [accepts.record?])
      after, shows, if_pos ok, ← body]
    exact Explains.step (Next.publish (tasks_absent absent) (taskOf_idle idle))
  · rw [shows, if_neg refused, same]
    exact .refl _

theorem reserve_moves {consumerId : String} (timely : e.Timely) :
    Moves e (shows persist e (.reserve name consumerId)) (e.reserve name consumerId).2 := by
  have indexed : (e.reserve name consumerId).2.Indexed := (reserve_sound timely.toSound).indexed
  rcases reserve_cases e name consumerId with ⟨queue, id, message, rest, reserves⟩ | ⟨nothing, _⟩
  · obtain ⟨held, idle, awake, _⟩ := popDeliverable_some reserves.popped
    have there : e.message? name id = some message := (message?_of_get reserves.found).trans held
    obtain rfl := (timely.named.filed there).1
    have ready : (e.taskOf name message.id message).place = .ready := by
      rw [taskOf, placeOf_idle ((record?_of_get reserves.found).trans (Dict.get?_eq_none.mpr idle)),
        if_neg]
      exact fun moment => awake ((timely.stamped _ _ reserves.found _).mpr ⟨message, held, moment⟩)
    have flying : (e.reserve name consumerId).2.record? name message.id =
        some (e.deliveryRecord queue name consumerId message.id) := by
      rw [reserves.record?, if_pos ⟨rfl, rfl⟩]
    have after : (e.reserve name consumerId).2.tasks message.id =
        some { e.taskOf name message.id message with place := .out consumerId } := by
      rw [tasks_held indexed (by rw [reserve_message?]; exact there), taskOf, placeOf_out flying]
      rfl
    unfold Moves
    rw [tasks_update timely.indexed indexed (fun q m _ => by rw [reserve_message?])
      (fun q m differ => by rw [reserves.record?, if_neg fun same => differ same.2]) after,
      shows, reserves.result]
    exact Explains.step (Next.deliver consumerId (tasks_held timely.indexed there) ready)
  · rw [shows, nothing]
    exact .still timely.indexed indexed reserve_message? (reserve_none_record? nothing)

theorem ack_moves (timely : e.Timely) :
    Moves e (shows persist e (.ack id)) (e.ack id persist).2 := by
  have indexed : (e.ack id persist).2.Indexed := (ack_sound timely.toSound).indexed
  rcases ack_cases e id persist with ⟨name, queue, settles⟩ | ⟨refused, same⟩
  · obtain ⟨record, inflight⟩ := Dict.mem_iff.mp settles.inflight
    obtain ⟨message, there, held, out⟩ :=
      timely.flying ((record?_of_get settles.found).trans inflight)
    have after : (e.ack id persist).2.tasks id = none := tasks_absent fun q => by
      rw [settles.message?]
      split
      · rfl
      · exact timely.indexed.lone there fun same => by simp_all
    unfold Moves
    rw [tasks_update timely.indexed indexed (fun q m differ => by
        rw [settles.message?, if_neg fun same => differ same.2])
      (fun q m differ => by rw [settles.record?, if_neg fun same => differ same.2]) after,
      shows, if_pos settles.result]
    exact Explains.step (Next.settle held out)
  · rw [shows, if_neg refused, same]
    exact .refl _

theorem releaseOne_moves (timely : e.Timely) : Moves e [] (e.releaseOne name id).2 := by
  have indexed : (e.releaseOne name id).2.Indexed := (releaseOne_sound timely.toSound).indexed
  obtain ⟨_, records, _⟩ := releaseOne_observe e name id
  rcases releaseOne_cases e name id with ⟨_, same⟩ | ⟨queue, found, marked, elsewhere, _⟩ |
    ⟨queue, message, found, marked, held, flying, shape⟩
  · rw [same]
    exact .refl _
  · obtain ⟨held, idle⟩ := (timely.balanced _ _ found).delayed marked
    exact elsewhere.elim (fun gone => absurd held gone) (fun flying => absurd flying idle)
  · have there : e.message? name id = some message := (message?_of_get found).trans held
    have idle : e.record? name id = none :=
      (record?_of_get found).trans (Dict.get?_eq_none.mpr flying)
    have moment : message.availableAt.isSome := by
      obtain ⟨other, same, moment⟩ := (timely.stamped _ _ found id).mp marked
      rwa [Option.some.inj (held.symm.trans same)]
    have waiting : (e.taskOf name id message).place = .waiting := by
      rw [taskOf, placeOf_idle idle, if_pos moment]
    have messages : ∀ q m, (e.releaseOne name id).2.message? q m =
        if q = name ∧ m = id then some (strip message) else e.message? q m := by
      intro q m
      rw [shape, message?_of_set (e := e) rfl]
      by_cases here : q = name
      · subst here
        simp [message?_of_get found, DurableQueue.pushReady, Dict.get?_set]
      · simp [here]
    have after : (e.releaseOne name id).2.tasks id =
        some { e.taskOf name id message with place := .ready } := by
      rw [tasks_held indexed ((messages name id).trans (if_pos ⟨rfl, rfl⟩)), taskOf,
        placeOf_idle (by rw [records]; exact idle)]
      simp [taskOf, strip, essence]
    unfold Moves
    rw [tasks_update timely.indexed indexed (fun q m differ => by
      rw [messages, if_neg fun same => differ same.2]) (fun q m _ => by rw [records]) after]
    exact Explains.step (Next.release (tasks_held timely.indexed there) waiting)

/-- A requeue gives the message its attempts back, also where the origin queue
refuses it and it stays in the DLQ. -/
theorem dlqRequeue_moves (timely : e.Timely) (settled : e.Settled name id) :
    Moves e (shows persist e (.dlqRequeue name id)) (e.dlqRequeue name id persist).2 := by
  have indexed : (e.dlqRequeue name id persist).2.Indexed :=
    (dlqRequeue_sound timely.toSound settled).indexed
  have requeue := dlqRequeue_requeue timely.named name id persist
  rw [shows]
  rcases dlqRequeue_cases e name id persist with nothing | ⟨dlq, message, draws⟩
  · rw [nothing]
    exact .refl _
  · have there := draws.heldThere
    have idle (q : String) : e.record? q id = none := by
      by_cases source : q = requeueSource name
      · rw [source, record?_of_get draws.source]
        exact Dict.get?_eq_none.mpr (settled dlq message draws).1
      · exact timely.idle_elsewhere there source
    have held := tasks_held timely.indexed there
    generalize (e.dlqRequeue name id persist).1 = result at requeue ⊢
    generalize (e.dlqRequeue name id persist).2 = e' at requeue indexed ⊢
    cases requeue with
    | missing => exact .refl _
    | moved other _ held' messages records =>
      obtain rfl := Option.some.inj (there.symm.trans held')
      have after : e'.tasks id = some { e.taskOf (requeueSource name) id message with
          queue := originQueue name, attempts := 0, place := .ready } := by
        rw [tasks_held indexed ((messages (originQueue name) id).trans (if_pos ⟨rfl, rfl⟩)), taskOf,
          placeOf_idle (by rw [records]; exact idle _)]
        rfl
      unfold Moves
      rw [tasks_update timely.indexed indexed (fun q m differ => by
        rw [messages, if_neg fun same => differ same.2, if_neg fun same => differ same.2])
        (fun q m _ => by rw [records]) after]
      exact Explains.step (Next.revive (originQueue name) held (taskOf_idle (idle _)))
    | refused other _ held' messages records =>
      obtain rfl := Option.some.inj (there.symm.trans held')
      have after : e'.tasks id = some { e.taskOf (requeueSource name) id message with
          attempts := 0, place := .ready } := by
        rw [tasks_held indexed ((messages (requeueSource name) id).trans (if_pos ⟨rfl, rfl⟩)), taskOf,
          placeOf_idle (by rw [records]; exact idle _)]
        rfl
      unfold Moves
      rw [tasks_update timely.indexed indexed (fun q m differ => by
        rw [messages, if_neg fun same => differ same.2]) (fun q m _ => by rw [records]) after]
      exact Explains.step (Next.refuse held (taskOf_idle (idle _)))

/-- The tasks that are left when queues are deleted. -/
theorem tasks_deleted (indexed : e.Indexed) (indexed' : e'.Indexed) (deleted : String → Bool)
    (messages : ∀ q m, e'.message? q m = if deleted q then none else e.message? q m)
    (records : ∀ q m, e'.record? q m = if deleted q then none else e.record? q m) (id : String) :
    e'.tasks id = (e.tasks id).filter fun entry => !deleted entry.queue := by
  by_cases held : ∃ q message, e.message? q id = some message
  · obtain ⟨q, message, held⟩ := held
    rw [tasks_held indexed held]
    have queue : (e.taskOf q id message).queue = q := rfl
    by_cases gone : deleted q = true
    · rw [Option.filter_some_neg (by simp [queue, gone])]
      refine tasks_absent fun other => ?_
      rw [messages]
      split
      · rfl
      · exact indexed.lone held fun same => by simp_all
    · rw [Option.filter_some_pos (by simpa [queue] using gone),
        tasks_held indexed' ((messages q id).trans ((if_neg gone).trans held))]
      simp only [taskOf, placeOf, records, if_neg gone]
  · push Not at held
    have absent : ∀ q, e.message? q id = none := fun q =>
      Option.eq_none_iff_forall_ne_some.mpr (held q)
    rw [tasks_absent absent, tasks_absent fun q => by rw [messages, absent, ite_self]]
    rfl

theorem deleteQueue_moves (timely : e.Timely) : Moves e [] (e.deleteQueue name persist).2 := by
  classical
  have indexed : (e.deleteQueue name persist).2.Indexed := deleteQueue_indexed timely.indexed
  have left := tasks_deleted timely.indexed indexed (fun q => decide (e.Deletes name q))
    (fun q m => by rw [deleteQueue_message?]; by_cases gone : e.Deletes name q <;> simp [gone])
    fun q m => by rw [deleteQueue_record?]; by_cases gone : e.Deletes name q <;> simp [gone]
  by_cases grave : ∃ spec, e.spec? name = some spec ∧ spec.deadLetter = true
  · have both : (e.deleteQueue name persist).2.tasks = fun id =>
        ((e.tasks id).filter (·.queue ≠ name)).filter (·.queue ≠ dlqName name) := by
      funext id
      refine (left id).trans ?_
      cases e.tasks id with
      | none => rfl
      | some entry => simp [Deletes, grave]
    unfold Moves
    rw [both]
    exact (Explains.step (Next.purge e.tasks name)).trans (Explains.step (Next.purge _ (dlqName name)))
  · have one : (e.deleteQueue name persist).2.tasks = fun id =>
        (e.tasks id).filter (·.queue ≠ name) := by
      funext id
      refine (left id).trans ?_
      simp [Deletes, grave]
    unfold Moves
    rw [one]
    exact Explains.step (Next.purge e.tasks name)

/-- What a sweep does message by message is silent as a whole. -/
theorem recoverConsumer_moves {consumerId : String} (timely : e.Timely) :
    Moves e [] (e.recoverConsumer consumerId persist).2 := by
  have both : (e.recoverConsumer consumerId persist).2.Timely ∧
      Moves e [] (e.recoverConsumer consumerId persist).2 :=
    recoverConsumer_preserves (I := fun e' => e'.Timely ∧ Moves e [] e') (fun _ both => both.1.named)
      (fun _ _ _ _ both flying _ => ⟨failDelivery_timely both.1 flying,
        both.2.trans (failDelivery_moves both.1 flying)⟩) ⟨timely, .refl _⟩
  exact both.2

theorem tick_moves {now : Option ℚ} (timely : e.Timely) : Moves e [] (e.tick now).2 := by
  have both : (e.tick now).2.Timely ∧ Moves e [] (e.tick now).2 :=
    tick_preserves (I := fun e' => e'.Timely ∧ Moves e [] e')
      (fun _ _ _ both => ⟨releaseOne_timely both.1, both.2.trans (releaseOne_moves both.1)⟩)
      (fun _ _ _ _ both flying _ => ⟨failDelivery_timely both.1 flying,
        both.2.trans (failDelivery_moves both.1 flying)⟩)
      (fun _ _ _ _ both =>
        ⟨⟨⟨⟨both.1.named, both.1.indexed.filed, both.1.indexed.held⟩, both.1.balanced⟩,
          both.1.stamped⟩, both.2⟩)
      ⟨timely, .refl _⟩
  exact both.2

/-! ## Runs -/

/-- The engine refines the work queues wherever placement is exclusive. -/
theorem engine_refines (persist : Bool) : Refines (step persist) ReadyRequeues (shows persist) Timely
    tasks Next Label.event where
  keeps e op timely ok := step_timely timely op ok
  explains e op timely ok := by
    cases op with
    | declareQueue name args =>
      exact Moves.still timely.indexed (step_timely timely (.declareQueue name args) trivial).indexed
        declareQueue_observe.1 declareQueue_observe.2
    | deleteQueue name => exact deleteQueue_moves timely
    | enqueue message => exact enqueue_moves timely ok
    | reserve queueName consumerId => exact reserve_moves timely
    | ack messageId => exact ack_moves timely
    | nack messageId requeue => exact nack_moves timely
    | recoverConsumer consumerId => exact recoverConsumer_moves timely
    | tick now => exact tick_moves timely
    | dlqRequeue queueName messageId => exact dlqRequeue_moves timely ok

/-- **Life of a message.** Every run of the engine with exclusive placement, from
every state that such runs and restores reach, is a trace of the work queues:
what its operations answer is what the trace shows, and the messages that are
held at the end, with their queues, attempts and places, are its tasks. -/
theorem runs_explained (reached : Reachable ReadyRequeues e) {ops : List EngineOp}
    (ok : Allowed (step persist) ReadyRequeues e ops) :
    Explains Next Label.event e.tasks (observed (step persist) (shows persist) e ops)
      (run (step persist) e ops).tasks :=
  (engine_refines persist).run reached.timely ok

/-- A message that is published twice, delivered four times and settled twice. -/
def lifeRun : List EngineOp := [
  .declareQueue "orders" { maxAttempts := some 2 },
  .enqueue { id := "m1", queue := "orders", payload := [1], createdAt := 0, maxAttempts := 2 },
  .reserve "orders" "worker", .nack "m1" true, .tick (some 5),
  .reserve "orders" "worker", .tick (some 1000),
  .dlqRequeue "orders" "m1", .reserve "orders" "worker", .ack "m1",
  .enqueue { id := "m1", queue := "orders", payload := [2], createdAt := 6 },
  .reserve "orders" "worker", .ack "m1"]

theorem runs_explained_life : Explains Next Label.event created.tasks
    (observed (step true) (shows true) created lifeRun) (run (step true) created lifeRun).tasks :=
  runs_explained (.start {} fun _ => 0) (by decide +kernel)

/-- An engine that was just created, whatever its configuration and clock. -/
theorem start_tasks (config : EngineConfig) (clock : Nat → ℚ) (id : String) :
    tasks { config, clock } id = none := rfl

/-- In every run that starts with an empty engine and keeps placement exclusive,
no message is acked and nacked more often than it was delivered, also where
its id is used again. -/
theorem answers_matched (config : EngineConfig) (clock : Nat → ℚ) {ops : List EngineOp}
    (ok : Allowed (step persist) ReadyRequeues { config, clock } ops) (id : String) :
    (observed (step persist) (shows persist) { config, clock } ops).countP (Event.answers id) ≤
      (observed (step persist) (shows persist) { config, clock } ops).countP (Event.delivers id) := by
  have explains := (engine_refines persist).run (Reachable.start config clock).timely ok
  have counted := answers_le_delivers explains id
  rw [outs_idle (fun entry held => by rw [start_tasks] at held; cases held)] at counted
  omega

theorem answers_matched_life :
    (observed (step true) (shows true) created lifeRun).countP (Event.answers "m1") ≤
      (observed (step true) (shows true) created lifeRun).countP (Event.delivers "m1") :=
  answers_matched {} (fun _ => 0) (by decide +kernel) "m1"

/-- In every such run a delivery of a message comes after the publish of that
message, with the same contents, and neither was its id published again nor
was it acked in between. -/
theorem deliveries_published (config : EngineConfig) (clock : Nat → ℚ) {ops : List EngineOp}
    (ok : Allowed (step persist) ReadyRequeues { config, clock } ops) {id q consumerId : String}
    {body : Message} {attempts : ℤ} {past rest : List (Event String String String Message)}
    (delivered : observed (step persist) (shows persist) { config, clock } ops =
      past ++ .delivered id q consumerId body attempts :: rest) :
    ∃ before origin between, past = before ++ .published id origin body :: between ∧
      ∀ event ∈ between, event.publishes id = false ∧ event ≠ .settled id := by
  have explains := (engine_refines persist).run (Reachable.start config clock).timely ok
  rw [delivered] at explains
  exact published_before_delivered (start_tasks config clock id) explains

theorem deliveries_published_life : ∃ past rest q consumerId body attempts,
    observed (step true) (shows true) created lifeRun =
      past ++ .delivered "m1" q consumerId body attempts :: rest ∧
    ∃ before origin between, past = before ++ .published "m1" origin body :: between ∧
      ∀ event ∈ between, event.publishes "m1" = false ∧ event ≠ .settled "m1" := by
  have last : ((observed (step true) (shows true) created lifeRun).drop 8).head?.any
      (Event.delivers "m1") = true := by decide +kernel
  simp only [Option.any_eq_true, List.head?_eq_some_iff] at last
  obtain ⟨event, ⟨rest, split⟩, delivers⟩ := last
  have whole := List.take_append_drop 8 (observed (step true) (shows true) created lifeRun)
  rw [split] at whole
  cases event <;> simp [Event.delivers] at delivers
  subst delivers
  exact ⟨_, rest, _, _, _, _, whole.symm,
    deliveries_published {} (fun _ => 0) (by decide +kernel) whole.symm⟩

end OneOpenBroker.Core.QueueEngine

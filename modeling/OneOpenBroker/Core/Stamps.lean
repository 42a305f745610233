import OneOpenBroker.Core.Placement

/-! The moment a message becomes available is written in the message itself and
in the delayed ids of its queue. As long as placement is exclusive the two
agree: a message names such a moment exactly while it is delayed, so none that
is delivered carries one, and a snapshot has one for each that must wait. -/
namespace OneOpenBroker.Core.QueueEngine
open Collections Systems

/-- The delayed ids are those of the held messages that name a moment. -/
def Stamped (queue : DurableQueue) : Prop :=
  ∀ m, m ∈ queue.delayedIds ↔
    ∃ message, queue.messages.get? m = some message ∧ message.availableAt.isSome

variable {e : QueueEngine} {name q id m : String} {queue queue' : DurableQueue}
  {message : Message} {persist requeue : Bool}

/-! ## Updates of one queue -/

theorem Stamped.fresh {spec : QueueSpec} {stats : QueueStats} : Stamped { spec, stats } := by
  intro m
  simp

theorem Stamped.change (stamped : Stamped queue) (messages : queue'.messages = queue.messages)
    (delayed : queue'.delayedIds = queue.delayedIds) : Stamped queue' := by
  intro m
  rw [messages, delayed]
  exact stamped m

/-- A message that is not delayed leaves. -/
theorem Stamped.erase (stamped : Stamped queue) (awake : id ∉ queue.delayedIds)
    (messages : queue'.messages = queue.messages.erase id)
    (delayed : queue'.delayedIds = queue.delayedIds) : Stamped queue' := by
  intro m
  rw [messages, delayed]
  by_cases here : m = id
  · simp [here, awake]
  · simpa [here] using stamped m

/-- A message that is not delayed is stored without a moment. -/
theorem Stamped.store (stamped : Stamped queue) (awake : id ∉ queue.delayedIds)
    (none : message.availableAt = none) (messages : queue'.messages = queue.messages.set id message)
    (delayed : queue'.delayedIds = queue.delayedIds) : Stamped queue' := by
  intro m
  rw [messages, delayed]
  by_cases here : m = id
  · simp [here, awake, none]
  · simpa [here] using stamped m

/-- A message is delayed until its moment. -/
theorem Stamped.await (stamped : Stamped queue) (due : message.availableAt.isSome)
    (messages : queue'.messages = queue.messages.set id message)
    (delayed : queue'.delayedIds = insert id queue.delayedIds) : Stamped queue' := by
  intro m
  rw [messages, delayed]
  by_cases here : m = id
  · simp [here, due]
  · simpa [here] using stamped m

/-- A message whose moment has come is delayed no more. -/
theorem Stamped.release (stamped : Stamped queue) (none : message.availableAt = none)
    (messages : queue'.messages = queue.messages.set id message)
    (delayed : queue'.delayedIds = queue.delayedIds.erase id) : Stamped queue' := by
  intro m
  rw [messages, delayed]
  by_cases here : m = id
  · simp [here, none]
  · simpa [here] using stamped m

theorem Stamped.absent (stamped : Stamped queue) (absent : id ∉ queue.messages) :
    id ∉ queue.delayedIds := by
  rw [stamped]
  rintro ⟨message, held, _⟩
  exact absent (Dict.mem_of_get? held)

theorem Stamped.accepted {seq : Nat} (stamped : Stamped queue) (absent : message.id ∉ queue.messages) :
    Stamped (accepted queue seq message) := by
  unfold QueueEngine.accepted
  split
  · rename_i due moment
    exact stamped.await (by rw [moment]; rfl) rfl rfl
  · rename_i moment
    exact stamped.store (stamped.absent absent) moment rfl rfl

theorem Stamped.graved {seq : Nat} (stamped : Stamped queue) (awake : message.id ∉ queue.delayedIds)
    (none : message.availableAt = none) : Stamped (graved queue seq message) :=
  stamped.store awake none rfl rfl

/-! ## One step -/

/-- The invariant of the runs in which placement is exclusive, with the moments. -/
structure Timely (e : QueueEngine) : Prop extends Sound e where
  stamped : Dict.All (fun _ => Stamped) e.queues

/-- A message that is out for delivery is not delayed. -/
theorem Timely.awake (timely : e.Timely) (found : e.queues.get? name = some queue)
    (inflight : id ∈ queue.inflight) : id ∉ queue.delayedIds :=
  fun delayed => ((timely.balanced name queue found).delayed delayed).2 inflight

/-- A failure whose message is not delayed delays it, or moves it to the DLQ. -/
theorem conclude_stamped (found : e.queues.get? name = some queue)
    (others : Dict.AllBut name (fun _ => Stamped) e.queues) (stamped : Stamped queue)
    (awake : message.id ∉ queue.delayedIds)
    (lone : ∀ q, q ≠ name → e.message? q message.id = none) :
    Dict.All (fun _ => Stamped) (e.conclude name queue message requeue persist).queues := by
  rcases conclude_cases e name queue message requeue persist with ⟨_, shape⟩ | ⟨_, _, shape⟩
  · rw [shape]
    refine all_moveToDlq others ?_ .fresh fun dest stamped' view => stamped'.graved ?_ rfl
    · exact stamped.erase awake rfl rfl
    · refine stamped'.absent ?_
      have ids : (buried name (failed message requeue)).id = message.id := rfl
      rw [ids, ← Dict.get?_eq_none, view, discarded_message? found]
      split
      · rfl
      · rename_i apart
        exact lone _ fun here => apart ⟨here, rfl⟩
  · rw [shape, delayRetry_queues]
    exact others.set (stamped.await rfl rfl rfl)

theorem failDelivery_timely (timely : e.Timely) {record : InflightRecord}
    (flying : e.record? name id = some record) : (e.failDelivery name id persist).2.Timely := by
  refine ⟨failDelivery_sound timely.toSound flying, ?_⟩
  obtain ⟨queue, found, inflight⟩ := record?_some.mp flying
  have inside : id ∈ queue.inflight := Dict.mem_of_get? inflight
  have before := timely.stamped name queue found
  rcases failDelivery_cases e name id persist with ⟨absent, _⟩ | ⟨other, same, gone, shape⟩ |
    ⟨other, message, same, there, shape⟩
  · rw [absent] at found
    cases found
  · obtain rfl := Option.some.inj (found.symm.trans same)
    rw [shape]
    exact timely.stamped.set before
  · obtain rfl := Option.some.inj (found.symm.trans same)
    have ids : message.id = id := ((timely.named name queue found).messages id message there).1
    have awake : message.id ∉ queue.delayedIds := ids.symm ▸ timely.awake found inside
    rw [shape]
    refine conclude_stamped Dict.get?_set_self timely.stamped.but.stored (before.change rfl rfl)
      awake fun q differ => ?_
    · obtain ⟨messages, _⟩ := endDelivery_observe id found
        (show (e.putQueue name (queue.endDelivery id)).queues = _ from rfl)
      rw [messages, ids]
      exact timely.lone (Dict.mem_of_get? there) found differ

theorem nack_timely (timely : e.Timely) : (e.nack id requeue persist).2.Timely := by
  refine ⟨nack_sound timely.toSound, ?_⟩
  rcases nack_cases e id requeue persist with ⟨name, queue, message, nacks⟩ |
    ⟨_, same | ⟨name, queue, indexed, found, gone, shape⟩⟩
  · have known : (e.nacked id requeue persist name queue).queues.get? name =
        some (queue.endDelivery id).countNack := by
      rw [nacked_queues, Dict.get?_set_self]
    have others : Dict.AllBut name (fun _ => Stamped)
        (e.nacked id requeue persist name queue).queues := by
      rw [nacked_queues]
      exact timely.stamped.but.stored
    have ids : message.id = id :=
      ((timely.named name queue nacks.found).messages id message nacks.held).1
    have awake : message.id ∉ queue.delayedIds :=
      ids.symm ▸ timely.awake nacks.found nacks.inflight
    rw [nacks.shape]
    refine conclude_stamped known others ((timely.stamped name queue nacks.found).change rfl rfl)
      awake fun q differ => ?_
    · rw [nacks.observe.1, ids]
      exact timely.lone (Dict.mem_of_get? nacks.held) nacks.found differ
  · rw [same]
    exact timely.stamped
  · rw [shape]
    exact timely.stamped.set (timely.stamped name queue found)

theorem enqueue_timely (timely : e.Timely) (fresh : ¬ e.Held message.id) :
    (e.enqueue message persist).2.Timely := by
  refine ⟨enqueue_sound timely.toSound fresh, ?_⟩
  rcases enqueue_cases e message persist with ⟨queue, accepts⟩ | ⟨_, same⟩
  · rw [accepts.queues]
    refine timely.stamped.set ((timely.stamped _ _ accepts.1).accepted fun there => fresh ?_)
    rw [dueMessage_id] at there
    obtain ⟨old, held⟩ := Dict.mem_iff.mp there
    exact ⟨message.queue, old, (message?_of_get accepts.1).trans held⟩
  · rw [same]
    exact timely.stamped

theorem reserve_timely {consumerId : String} (timely : e.Timely) :
    (e.reserve name consumerId).2.Timely := by
  refine ⟨reserve_sound timely.toSound, ?_⟩
  rcases reserve_cases e name consumerId with ⟨queue, id, message, rest, reserves⟩ |
    ⟨_, ⟨same, _⟩ | ⟨queue, found, _, shape⟩⟩
  · rw [reserves.queues]
    exact timely.stamped.set ((timely.stamped _ _ reserves.found).change rfl rfl)
  · rw [same]
    exact timely.stamped
  · rw [shape]
    exact timely.stamped.set ((timely.stamped _ _ found).change rfl rfl)

theorem ack_timely (timely : e.Timely) : (e.ack id persist).2.Timely := by
  refine ⟨ack_sound timely.toSound, ?_⟩
  rcases ack_cases e id persist with ⟨name, queue, settles⟩ | ⟨_, same⟩
  · rw [settles.queues]
    exact timely.stamped.set ((timely.stamped _ _ settles.found).erase
      (timely.awake settles.found settles.inflight) rfl rfl)
  · rw [same]
    exact timely.stamped

theorem releaseOne_timely (timely : e.Timely) : (e.releaseOne name id).2.Timely := by
  refine ⟨releaseOne_sound timely.toSound, ?_⟩
  rcases releaseOne_cases e name id with ⟨_, shape⟩ | ⟨queue, found, marked, elsewhere, _⟩ |
    ⟨queue, message, found, _, _, _, shape⟩
  · rw [shape]
    exact timely.stamped
  · obtain ⟨held, idle⟩ := (timely.balanced _ _ found).delayed marked
    exact elsewhere.elim (fun gone => absurd held gone) (fun flying => absurd flying idle)
  · rw [shape]
    exact timely.stamped.set ((timely.stamped _ _ found).release rfl rfl rfl)

theorem dlqRequeue_timely (timely : e.Timely) (settled : e.Settled name id) :
    (e.dlqRequeue name id persist).2.Timely := by
  refine ⟨dlqRequeue_sound timely.toSound settled, ?_⟩
  rcases dlqRequeue_cases e name id persist with nothing | ⟨dlq, message, draws⟩
  · rw [nothing]
    exact timely.stamped
  · have awake := (settled dlq message draws).2
    have before := timely.stamped _ _ draws.source
    have drawn : Stamped (dlq.withdraw id) := before.erase awake rfl rfl
    rcases draws.result persist with ⟨dest, accepts, shape⟩ | ⟨_, shape⟩
    · have taken : Dict.All (fun _ => Stamped) (e.withdrawn name id dlq).queues :=
        timely.stamped.set drawn
      rw [shape, append_queues, accepts.queues]
      exact taken.set ((taken _ _ accepts.1).accepted (draws.absent timely.toFiled accepts))
    · rw [shape, putBack_queues]
      have filled : Stamped (refilled name id dlq message) := drawn.store awake rfl rfl rfl
      exact timely.stamped.but.stored.set (filled.change rfl rfl)

theorem step_timely (timely : e.Timely) (op : EngineOp) (ok : ReadyRequeues e op) :
    (e.step persist op).Timely := by
  cases op with
  | declareQueue name args =>
    exact ⟨step_sound timely.toSound (.declareQueue name args) trivial,
      all_declareQueue timely.stamped fun _ _ => .fresh⟩
  | deleteQueue name =>
    exact ⟨step_sound timely.toSound (.deleteQueue name) trivial, all_deleteQueue timely.stamped⟩
  | enqueue message => exact enqueue_timely timely ok
  | reserve queueName consumerId => exact reserve_timely timely
  | ack messageId => exact ack_timely timely
  | nack messageId requeue => exact nack_timely timely
  | recoverConsumer consumerId =>
    exact recoverConsumer_preserves (fun _ timely => timely.named)
      (fun _ _ _ _ timely flying _ => failDelivery_timely timely flying) timely
  | tick now =>
    exact tick_preserves (fun _ _ _ timely => releaseOne_timely timely)
      (fun _ _ _ _ timely flying _ => failDelivery_timely timely flying)
      (fun _ _ _ _ timely =>
        ⟨⟨⟨timely.named, timely.indexed.filed, timely.indexed.held⟩, timely.balanced⟩,
          timely.stamped⟩)
      timely
  | dlqRequeue queueName messageId => exact dlqRequeue_timely timely ok

/-- A restore delays again what was saved as delayed, and that is what names a moment. -/
theorem restore_timely {saved : QueueEngine} (timely : saved.Timely) :
    (e.restoreState saved.snapshotState).Timely := by
  refine ⟨restore_sound timely.toSound, ?_⟩
  have fits : ∀ entry ∈ saved.snapshotState.contents,
      entry.2.state = .delayed ↔ entry.2.message.availableAt.isSome := by
    rintro ⟨name, message⟩ listed
    obtain ⟨queue, found, held, state⟩ := (mem_contents timely.named).mp listed
    have stamp := timely.stamped name queue found message.message.id
    rw [held] at stamp
    simp only [Option.some.injEq, exists_eq_left'] at stamp
    have apart : message.message.id ∈ queue.inflight → message.message.id ∉ queue.delayedIds :=
      timely.awake found
    rw [state, ← stamp]
    unfold messageState
    grind
  refine (restore_preserves (I := fun e => Dict.All (fun _ => Stamped) e.queues) timely.toFiled
    Dict.all_empty (fun e spec stats stamped _ => stamped.set .fresh)
    fun e name queue message stamped found fresh listed => ?_).2
  rw [restoreMessage_queues]
  refine stamped.set ?_
  have before := stamped name queue found
  have absent : message.message.id ∉ queue.messages := by
    intro there
    obtain ⟨old, held⟩ := Dict.mem_iff.mp there
    exact fresh ⟨name, old, (message?_of_get found).trans held⟩
  have stamp := fits (name, message) listed
  unfold refit
  cases state : message.state with
  | delayed => exact before.await (stamp.mp state) rfl rfl
  | inflight | ready | dead =>
    have none : message.message.availableAt = none := by
      rw [← Option.not_isSome_iff_eq_none, ← stamp, state]
      rintro ⟨⟩
    exact before.store (before.absent absent) none rfl rfl

theorem Reachable.timely (reached : Reachable ReadyRequeues e) : e.Timely := by
  induction reached with
  | start config clock => exact ⟨⟨cleared_filed { config, clock } 0, Dict.all_empty⟩, Dict.all_empty⟩
  | step _ _ op ok timely => exact step_timely timely op ok
  | restore _ _ _ kept => exact restore_timely kept

/-- In every state that runs and restores with exclusive placement reach, the
delayed ids of a queue are those of its messages that name a moment, and a
message that is delivered names none. -/
theorem moments_exact (reached : Reachable ReadyRequeues e) (found : e.queues.get? q = some queue) :
    (∀ m, m ∈ queue.delayedIds ↔
      ∃ message, queue.messages.get? m = some message ∧ message.availableAt.isSome) ∧
    ∀ consumerId message, (e.reserve q consumerId).1 = some message → message.availableAt = none := by
  have timely := reached.timely
  have stamped := timely.stamped q queue found
  refine ⟨stamped, fun consumerId message delivered => ?_⟩
  rcases reserve_cases e q consumerId with ⟨other, id, message', rest, reserves⟩ | ⟨nothing, _⟩
  · obtain rfl := Option.some.inj (found.symm.trans reserves.found)
    obtain rfl := Option.some.inj (delivered.symm.trans reserves.result)
    obtain ⟨held, _, awake, _⟩ := popDeliverable_some reserves.popped
    by_contra moment
    exact awake ((stamped id).mpr ⟨message, held, Option.isSome_iff_ne_none.mpr moment⟩)
  · rw [nothing] at delivered
    cases delivered

/-- A message that failed waits, and one that came later is ready. -/
def waitingRun : List EngineOp := [
  .declareQueue "orders" {},
  .enqueue { id := "m1", queue := "orders", payload := [1], createdAt := 0 },
  .reserve "orders" "worker", .nack "m1" true,
  .enqueue { id := "m2", queue := "orders", payload := [2], createdAt := 1 }]

theorem moments_exact_waiting : ∃ queue,
    (run (step true) created waitingRun).queues.get? "orders" = some queue ∧
    "m1" ∈ queue.delayedIds ∧
    (∃ message, queue.messages.get? "m1" = some message ∧ message.availableAt.isSome) ∧
    ∃ message, ((run (step true) created waitingRun).reserve "orders" "worker").1 = some message ∧
      message.availableAt = none := by
  have known : ((run (step true) created waitingRun).queues.get? "orders").any
      (fun queue => decide ("m1" ∈ queue.delayedIds)) = true := by
    decide +kernel
  have taken : ((run (step true) created waitingRun).reserve "orders" "worker").1.isSome = true := by
    decide +kernel
  simp only [Option.any_eq_true, decide_eq_true_eq] at known
  obtain ⟨queue, found, waits⟩ := known
  obtain ⟨message, delivered⟩ := Option.isSome_iff_exists.mp taken
  have reached : Reachable ReadyRequeues (run (step true) created waitingRun) :=
    reachable_run (.start {} fun _ => 0) (by decide +kernel)
  obtain ⟨agree, clear⟩ := moments_exact reached found
  exact ⟨queue, found, waits, (agree "m1").mp waits, message, delivered, clear _ _ delivered⟩

end OneOpenBroker.Core.QueueEngine

import OneOpenBroker.Core.EngineRuns

/-! No message gets stuck. Ready entries, inflight records and delayed ids
are the three ways out of a queue, and the two heaps are what ends a delivery
or a delay. The heaps are shared by all queues and keep stale entries, so the
invariant says that whatever a queue waits for has its entry, and nothing
about the entries no queue waits for. -/
namespace OneOpenBroker.Core.QueueEngine
open Collections Systems

/-- A live path to delivery for message `m` of queue `q`. -/
def LivePath (e : QueueEngine) (q : String) (queue : DurableQueue) (m : String) : Prop :=
  (∃ entry ∈ queue.ready, entry.messageId = m) ∨
  (∃ record, queue.inflight.get? m = some record ∧ ∃ entry ∈ e.visibilityHeap,
    entry.due = record.visibilityDeadline ∧ entry.queue = q ∧ entry.messageId = m) ∨
  (m ∈ queue.delayedIds ∧ ∃ entry ∈ e.delayed, entry.queue = q ∧ entry.messageId = m)

/-- A message has left the queue, or is somewhere it can leave from. -/
def Placed (queue : DurableQueue) (m : String) : Prop :=
  m ∈ queue.messages →
    (∃ entry ∈ queue.ready, entry.messageId = m) ∨ m ∈ queue.inflight ∨ m ∈ queue.delayedIds

/-- Every delivery and every delay of the queue has its entry in the heap. -/
structure Scheduled (heap delayed : List TimedEntry) (q : String) (queue : DurableQueue) : Prop where
  timed : ∀ m record, queue.inflight.get? m = some record → ∃ entry ∈ heap,
    entry.due = record.visibilityDeadline ∧ entry.queue = q ∧ entry.messageId = m
  waking : ∀ m ∈ queue.delayedIds, ∃ entry ∈ delayed, entry.queue = q ∧ entry.messageId = m

/-- The invariant of one queue under heaps that may already be partly drained. -/
structure Covered (heap delayed : List TimedEntry) (q : String) (queue : DurableQueue) : Prop
    extends Scheduled heap delayed q queue where
  placed : ∀ m, Placed queue m

/-- The same with the delivery of one message just ended. -/
structure Interrupted (id : String) (heap delayed : List TimedEntry) (q : String)
    (queue : DurableQueue) : Prop extends Scheduled heap delayed q queue where
  others : ∀ m, m ≠ id → Placed queue m

def Live (e : QueueEngine) : Prop := Dict.All (Covered e.visibilityHeap e.delayed) e.queues

variable {heap heap' delayed delayed' : List TimedEntry} {queue queue' : DurableQueue}
  {q id m name : String} {message : Message} {e e' : QueueEngine} {persist requeue : Bool}

theorem Covered.livePath (covered : Covered e.visibilityHeap e.delayed q queue)
    (held : m ∈ queue.messages) : e.LivePath q queue m := by
  rcases covered.placed m held with ready | inflight | waiting
  · exact .inl ready
  · obtain ⟨record, found⟩ := Dict.mem_iff.mp inflight
    exact .inr (.inl ⟨record, found, covered.timed m record found⟩)
  · exact .inr (.inr ⟨waiting, covered.waking m waiting⟩)

/-! ## One queue -/

theorem Scheduled.grow (scheduled : Scheduled heap delayed q queue)
    (more : ∀ entry ∈ heap, entry ∈ heap') (more' : ∀ entry ∈ delayed, entry ∈ delayed') :
    Scheduled heap' delayed' q queue := by
  constructor
  · intro m record found
    obtain ⟨entry, there, due⟩ := scheduled.timed m record found
    exact ⟨entry, more entry there, due⟩
  · intro m waiting
    obtain ⟨entry, there, same⟩ := scheduled.waking m waiting
    exact ⟨entry, more' entry there, same⟩

theorem Covered.grow (covered : Covered heap delayed q queue)
    (more : ∀ entry ∈ heap, entry ∈ heap') (more' : ∀ entry ∈ delayed, entry ∈ delayed') :
    Covered heap' delayed' q queue :=
  ⟨covered.toScheduled.grow more more', covered.placed⟩

/-- Fewer deliveries and the same delays need no new entries. -/
theorem Scheduled.shrink (scheduled : Scheduled heap delayed q queue)
    (records : ∀ m record, queue'.inflight.get? m = some record →
      queue.inflight.get? m = some record)
    (waiting : ∀ m ∈ queue'.delayedIds, m ∈ queue.delayedIds) : Scheduled heap delayed q queue' :=
  ⟨fun m record found => scheduled.timed m record (records m record found),
    fun m marked => scheduled.waking m (waiting m marked)⟩

theorem Covered.fresh {spec : QueueSpec} {stats : QueueStats} :
    Covered heap delayed q { spec, stats } :=
  ⟨⟨fun _ _ found => by simp at found, fun _ marked => by simp at marked⟩,
    fun _ held => by simp at held⟩

theorem Placed.pushed {seq : Nat} : Placed (queue.pushReady seq message) message.id :=
  fun _ => .inl ⟨_, mem_heappush.mpr (.inl rfl), rfl⟩

theorem Placed.pushReady {seq : Nat} (placed : Placed queue m) :
    Placed (queue.pushReady seq message) m := by
  intro held
  rcases placed held with ⟨entry, there, same⟩ | inflight | waiting
  · exact .inl ⟨entry, mem_heappush.mpr (.inr there), same⟩
  · exact .inr (.inl inflight)
  · exact .inr (.inr waiting)

/-- Storing a message and pushing it ready. -/
theorem Interrupted.pushReady (gap : Interrupted message.id heap delayed q queue) (seq : Nat) :
    Covered heap delayed q (queue.pushReady seq message) := by
  refine ⟨gap.toScheduled.shrink (fun _ _ found => found) (fun _ marked => marked), fun m => ?_⟩
  by_cases same : m = message.id
  · subst same
    exact Placed.pushed
  · exact (gap.others m same).pushReady

/-- Changing what is stored under one id leaves the other messages placed. -/
theorem Covered.interrupt (covered : Covered heap delayed q queue)
    (messages : ∀ m, m ≠ id → (m ∈ queue'.messages → m ∈ queue.messages))
    (ready : ∀ entry ∈ queue.ready, entry.messageId ≠ id → entry ∈ queue'.ready)
    (inflight : ∀ m, m ≠ id → queue'.inflight.get? m = queue.inflight.get? m)
    (ended : ∀ record, queue'.inflight.get? id = some record →
      queue.inflight.get? id = some record)
    (waiting : queue'.delayedIds = queue.delayedIds) : Interrupted id heap delayed q queue' := by
  refine ⟨covered.toScheduled.shrink ?_ (fun m marked => waiting ▸ marked), fun m differ held => ?_⟩
  · intro m record found
    by_cases same : m = id
    · subst same
      exact ended record found
    · rw [← inflight m same]
      exact found
  · rcases covered.placed m (messages m differ held) with ⟨entry, there, same⟩ | flying | marked
    · exact .inl ⟨entry, ready entry there (fun named => differ (same.symm.trans named)), same⟩
    · refine .inr (.inl ?_)
      rw [← Dict.isSome_get?, inflight m differ, Dict.isSome_get?]
      exact flying
    · exact .inr (.inr (waiting ▸ marked))

/-- A message that left needs no path. -/
theorem Interrupted.absent (gap : Interrupted id heap delayed q queue)
    (gone : id ∉ queue.messages) : Covered heap delayed q queue := by
  refine ⟨gap.toScheduled, fun m => ?_⟩
  by_cases same : m = id
  · subst same
    exact fun held => absurd held gone
  · exact gap.others m same

theorem Interrupted.discard (gap : Interrupted id heap delayed q queue) :
    Covered heap delayed q (queue.discard id) := by
  refine ⟨gap.toScheduled.shrink (fun _ _ found => found) (fun _ marked => marked), ?_⟩
  intro m held
  have there : m ≠ id ∧ m ∈ queue.messages := by simpa [DurableQueue.discard] using held
  exact gap.others m there.1 there.2

/-- A failed message waits under an entry that was just pushed. -/
theorem Interrupted.delay (gap : Interrupted message.id heap delayed q queue)
    (more : ∀ entry ∈ delayed, entry ∈ delayed')
    (pushed : ∃ entry ∈ delayed', entry.queue = q ∧ entry.messageId = message.id) :
    Covered heap delayed' q (queue.delay message) := by
  refine ⟨⟨gap.timed, fun m marked => ?_⟩, fun m held => ?_⟩
  · rcases Finset.mem_insert.mp marked with same | before
    · exact same ▸ pushed
    · obtain ⟨entry, there, same⟩ := gap.waking m before
      exact ⟨entry, more entry there, same⟩
  · by_cases same : m = message.id
    · exact .inr (.inr (Finset.mem_insert.mpr (.inl same)))
    · have before : m ∈ queue.messages := by simpa [DurableQueue.delay, same] using held
      rcases gap.others m same before with ready | inflight | waiting
      · exact .inl ready
      · exact .inr (.inl inflight)
      · exact .inr (.inr (Finset.mem_insert.mpr (.inr waiting)))

theorem Covered.endDelivery (covered : Covered heap delayed q queue) :
    Interrupted id heap delayed q (queue.endDelivery id) := by
  refine covered.interrupt (fun _ _ held => held) (fun _ there _ => there) ?_ ?_ rfl
  · intro m differ
    exact Dict.get?_erase_ne differ
  · intro record found
    simp [DurableQueue.endDelivery] at found

/-- An accepted message is ready, or delayed under an entry just pushed. -/
theorem Covered.accepted {seq : Nat} (covered : Covered heap delayed message.queue queue)
    (more : ∀ entry ∈ delayed, entry ∈ delayed')
    (pushed : message.availableAt.isSome → ∃ entry ∈ delayed',
      entry.queue = message.queue ∧ entry.messageId = message.id) :
    Covered heap delayed' message.queue (accepted queue seq message) := by
  have held : Interrupted message.id heap delayed message.queue (queue.hold message) :=
    covered.interrupt (fun m differ there => by simpa [DurableQueue.hold, differ] using there)
      (fun _ there _ => there) (fun _ _ => rfl) (fun _ found => found) rfl
  unfold QueueEngine.accepted
  split
  · rename_i due scheduled
    have waiting := held.delay more (pushed (by rw [scheduled]; rfl))
    refine ⟨waiting.toScheduled.shrink (fun _ _ found => found) (fun _ marked => marked), ?_⟩
    intro m there
    exact waiting.placed m (by simpa [DurableQueue.delay, DurableQueue.hold] using there)
  · exact (held.pushReady seq).grow (fun _ there => there) more

/-- Reserving discards only entries of messages that have another path. -/
theorem Covered.deliver {rest : List ReadyEntry} {record : InflightRecord}
    (covered : Covered heap delayed q queue)
    (popped : popDeliverable queue queue.ready = (some (id, message), rest))
    (same : record.messageId = id)
    (pushed : ∃ entry ∈ heap, entry.due = record.visibilityDeadline ∧ entry.queue = q ∧
      entry.messageId = id) : Covered heap delayed q (queue.deliver rest record) := by
  obtain ⟨held, idle, awake, skipped, found, split, popped, stale⟩ := popDeliverable_some popped
  have flying : ∀ m, m ∈ (queue.deliver rest record).inflight ↔ m = id ∨ m ∈ queue.inflight := by
    intro m
    simp [DurableQueue.deliver, same]
  refine ⟨⟨fun m later there => ?_, covered.waking⟩, fun m there => ?_⟩
  · simp only [DurableQueue.deliver, Dict.get?_set, same] at there
    split at there
    · rename_i here
      cases there
      exact here ▸ pushed
    · exact covered.timed m later there
  · rcases covered.placed m there with ⟨entry, listed, named⟩ | inflight | waiting
    · rw [split] at listed
      rcases List.mem_append.mp listed with early | late
      · -- A skipped entry of a held message is stale because the message is elsewhere.
        rcases stale entry early with gone | inflight | waiting
        · exact absurd there (named ▸ gone)
        · exact .inr (.inl ((flying m).mpr (.inr (named ▸ inflight))))
        · exact .inr (.inr (named ▸ waiting))
      · rcases List.mem_cons.mp late with rfl | kept
        · exact .inr (.inl ((flying m).mpr (.inl (named.symm.trans popped))))
        · exact .inl ⟨entry, kept, named⟩
    · exact .inr (.inl ((flying m).mpr (.inr inflight)))
    · exact .inr (.inr waiting)

theorem Covered.drained (covered : Covered heap delayed q queue)
    (stale : ∀ entry ∈ queue.ready, Stale queue entry) :
    Covered heap delayed q { queue with ready := [] } := by
  refine ⟨⟨covered.timed, covered.waking⟩, fun m there => ?_⟩
  rcases covered.placed m there with ⟨entry, listed, named⟩ | inflight | waiting
  · rcases stale entry listed with gone | inflight | waiting
    · exact absurd there (named ▸ gone)
    · exact .inr (.inl (named ▸ inflight))
    · exact .inr (.inr (named ▸ waiting))
  · exact .inr (.inl inflight)
  · exact .inr (.inr waiting)

theorem Covered.settle (covered : Covered heap delayed q queue) :
    Covered heap delayed q (queue.settle id) := by
  have ended : Interrupted id heap delayed q (queue.settle id) := by
    refine covered.interrupt (fun m differ held => ?_) (fun _ there _ => there) (fun m differ => ?_)
      (fun record found => ?_) rfl
    · have there : m ≠ id ∧ m ∈ queue.messages := by simpa [DurableQueue.settle] using held
      exact there.2
    · exact Dict.get?_erase_ne differ
    · simp [DurableQueue.settle] at found
  exact ended.absent (by simp [DurableQueue.settle])

/-- Taking a message out of a DLQ, wherever it is there. -/
theorem Covered.withdraw (covered : Covered heap delayed q queue) :
    Interrupted id heap delayed q (queue.withdraw id) := by
  refine covered.interrupt (fun m differ held => ?_) (fun entry there differ => ?_) (fun _ _ => rfl)
    (fun _ found => found) rfl
  · have there : m ≠ id ∧ m ∈ queue.messages := by simpa [DurableQueue.withdraw] using held
    exact there.2
  · simp [DurableQueue.withdraw, there, differ]

theorem Covered.graved {seq : Nat} (covered : Covered heap delayed q queue) :
    Covered heap delayed q (graved queue seq message) := by
  have held : Interrupted message.id heap delayed q
      { queue.hold message with dlqIds := queue.dlqIds ++ [message.id] } :=
    covered.interrupt (fun m differ there => by simpa [DurableQueue.hold, differ] using there)
      (fun _ there _ => there) (fun _ _ => rfl) (fun _ found => found) rfl
  exact held.pushReady seq

/-- A restored message is ready, or delayed under an entry just pushed. -/
theorem Covered.refit {saved : SavedMessage} {seq : Nat} (covered : Covered heap delayed q queue)
    (more : ∀ entry ∈ delayed, entry ∈ delayed')
    (pushed : saved.state = .delayed → ∃ entry ∈ delayed',
      entry.queue = q ∧ entry.messageId = saved.message.id) :
    Covered heap delayed' q (refit queue seq saved) := by
  have held : Interrupted saved.message.id heap delayed q
      { queue with messages := queue.messages.set saved.message.id saved.message } :=
    covered.interrupt (fun m differ there => by simpa [differ] using there)
      (fun _ there _ => there) (fun _ _ => rfl) (fun _ found => found) rfl
  have ready := (held.pushReady seq).grow (fun _ there => there) more
  unfold QueueEngine.refit
  cases state : saved.state with
  | delayed =>
    have waiting := held.delay more (pushed state)
    refine ⟨waiting.toScheduled.shrink (fun _ _ found => found) (fun _ marked => marked), ?_⟩
    intro m there
    exact waiting.placed m (by simpa [DurableQueue.delay] using there)
  | inflight => exact ready
  | ready => exact ready
  | dead => exact ready

/-! ## One step -/

/-- A failure whose record was just taken out ends with every message on a path. -/
theorem conclude_covered (others : Dict.AllBut name (Covered heap e.delayed) e.queues)
    (gap : Interrupted id heap e.delayed name queue) (same : message.id = id) :
    Dict.All (Covered heap (e.conclude name queue message requeue persist).delayed)
      (e.conclude name queue message requeue persist).queues := by
  have filed : (failed message requeue).id = id := same
  rcases conclude_cases e name queue message requeue persist with ⟨_, shape⟩ | ⟨_, _, shape⟩
  · rw [shape, moveToDlq_frame.2.1]
    refine all_moveToDlq others ?_ .fresh (fun dest covered _ => covered.graved)
    rw [filed]
    exact gap.discard
  · have heaped : (e.delayRetry name queue (failed message requeue) persist).delayed =
        heappush TimedEntry.le _ e.delayed := delayRetry_frame.2.2.1

    have more : ∀ entry ∈ e.delayed,
        entry ∈ (e.delayRetry name queue (failed message requeue) persist).delayed := by
      intro entry there
      rw [heaped]
      exact mem_heappush.mpr (.inr there)
    rw [shape, delayRetry_queues]
    have wider : Dict.AllBut name (Covered heap
        (e.delayRetry name queue (failed message requeue) persist).delayed) e.queues :=
      fun q queue differ found => (others q queue differ found).grow (fun _ there => there) more
    refine wider.set ?_
    subst filed
    refine Interrupted.delay gap more ?_
    rw [heaped]
    exact ⟨_, mem_heappush.mpr (.inl rfl), rfl, rfl⟩

/-- A failed delivery, under a visibility heap that need not have its entry any more. -/
theorem failDelivery_covered (named : e.Named)
    (others : Dict.AllBut name (Covered heap e.delayed) e.queues)
    (ended : ∀ queue, e.queues.get? name = some queue →
      Interrupted id heap e.delayed name (queue.endDelivery id)) :
    Dict.All (Covered heap (e.failDelivery name id persist).2.delayed)
      (e.failDelivery name id persist).2.queues := by
  rcases failDelivery_cases e name id persist with ⟨absent, shape⟩ | ⟨queue, found, gone, shape⟩ |
    ⟨queue, message, found, held, shape⟩
  · rw [shape]
    intro q queue found
    refine others q queue (fun same => ?_) found
    rw [same, absent] at found
    cases found
  · rw [shape]
    exact others.set ((ended queue found).absent gone)
  · rw [shape]
    exact conclude_covered others.stored (ended queue found)
      ((named name queue found).messages id message held).1

theorem failDelivery_live (named : e.Named) (live : e.Live) :
    (e.failDelivery name id persist).2.Live := by
  unfold Live
  rw [failDelivery_frame.2.1]
  exact failDelivery_covered named live.but fun queue found => (live name queue found).endDelivery

theorem nack_live (named : e.Named) (live : e.Live) : (e.nack id requeue persist).2.Live := by
  rcases nack_cases e id requeue persist with ⟨name, queue, message, nacks⟩ |
    ⟨_, same | ⟨name, queue, _, found, gone, shape⟩⟩
  · have gap : Interrupted id e.visibilityHeap e.delayed name (queue.endDelivery id).countNack := by
      have ended : Interrupted id e.visibilityHeap e.delayed name (queue.endDelivery id) :=
        (live name queue nacks.found).endDelivery
      exact ⟨ended.toScheduled.shrink (fun _ _ found => found) (fun _ marked => marked), ended.others⟩
    have later : (e.nacked id requeue persist name queue).delayed = e.delayed := by
      simp [nacked, putQueue]
    have heap : (e.nacked id requeue persist name queue).visibilityHeap = e.visibilityHeap := by
      simp [nacked, putQueue]
    have message : message.id = id :=
      ((named name queue nacks.found).messages id message nacks.held).1
    unfold Live
    rw [nacks.shape, conclude_frame.2.1, heap]
    refine conclude_covered ?_ (later.symm ▸ gap) message
    rw [nacked_queues, later]
    exact live.but.stored
  · exact (congrArg Live same).mpr live
  · rw [shape]
    exact live.set ((live name queue found).endDelivery.absent gone)

theorem enqueue_live (live : e.Live) : (e.enqueue message persist).2.Live := by
  rcases enqueue_cases e message persist with ⟨queue, accepts⟩ | ⟨_, same⟩
  · have shape := accepts.2.2
    obtain ⟨more, pushed⟩ := accept_delayed e.now.2 queue (dueMessage message e.now.1)
    unfold Live
    rw [accepts.queues, shape, append_visibilityHeap, append_delayed, accept_frame.2.1]
    have wider : Dict.All (Covered e.visibilityHeap
        (e.now.2.accept queue (dueMessage message e.now.1)).delayed) e.queues :=
      fun q queue found => (live q queue found).grow (fun _ there => there) more
    refine wider.set ?_
    have same : (dueMessage message e.now.1).queue = message.queue := dueMessage_queue
    have covered := live message.queue queue accepts.1
    rw [← same] at covered ⊢
    exact covered.accepted more pushed
  · exact (congrArg Live same).mpr live

theorem reserve_live {queueName consumerId : String} (live : e.Live) :
    (e.reserve queueName consumerId).2.Live := by
  have delayed : (e.reserve queueName consumerId).2.delayed = e.delayed := reserve_frame.2.1
  rcases reserve_cases e queueName consumerId with ⟨queue, id, message, rest, reserves⟩ |
    ⟨_, ⟨same, _⟩ | ⟨queue, found, stale, shape⟩⟩
  · have more : ∀ entry ∈ e.visibilityHeap,
        entry ∈ (e.reserve queueName consumerId).2.visibilityHeap := by
      intro entry there
      rw [reserves.heap]
      exact mem_heappush.mpr (.inr there)
    have wider : Dict.All (Covered (e.reserve queueName consumerId).2.visibilityHeap e.delayed)
        e.queues :=
      fun q queue found => (live q queue found).grow more (fun _ there => there)
    unfold Live
    rw [delayed, reserves.queues]
    refine wider.set ((wider _ _ reserves.found).deliver reserves.popped rfl ?_)
    rw [reserves.heap]
    exact ⟨_, mem_heappush.mpr (.inl rfl), rfl, rfl, rfl⟩
  · exact (congrArg Live same).mpr live
  · rw [shape]
    exact live.set ((live queueName queue found).drained stale)

theorem ack_live (live : e.Live) : (e.ack id persist).2.Live := by
  obtain ⟨heap, delayed, _⟩ := ack_frame e id persist
  unfold Live
  rw [heap, delayed]
  rcases ack_cases e id persist with ⟨name, queue, settles⟩ | ⟨_, same⟩
  · rw [settles.queues]
    exact live.set (live name queue settles.found).settle
  · rw [same]
    exact live

theorem recoverConsumer_live {consumerId : String} (named : e.Named) (live : e.Live) :
    (e.recoverConsumer consumerId persist).2.Live := by
  have both : (e.recoverConsumer consumerId persist).2.Named ∧
      (e.recoverConsumer consumerId persist).2.Live :=
    recoverConsumer_preserves (I := fun e => e.Named ∧ e.Live) (fun _ inv => inv.1)
      (fun _ _ _ _ inv _ _ => ⟨failDelivery_named inv.1, failDelivery_live inv.1 inv.2⟩)
      ⟨named, live⟩
  exact both.2

theorem dlqRequeue_live {queueName : String} (named : e.Named) (live : e.Live) :
    (e.dlqRequeue queueName id persist).2.Live := by
  rcases dlqRequeue_cases e queueName id persist with nothing | ⟨dlq, message, draws⟩
  · rw [nothing]
    exact live
  · have drawn : Interrupted id e.visibilityHeap e.delayed (requeueSource queueName)
        (dlq.withdraw id) := (live _ _ draws.source).withdraw
    rcases draws.result persist with ⟨dest, accepts, shape⟩ | ⟨_, shape⟩
    · have taken : (e.withdrawn queueName id dlq).Live :=
        live.set (drawn.absent (by simp [DurableQueue.withdraw]))
      rw [shape]
      unfold Live
      simp only [append_queues, append_visibilityHeap, append_delayed]
      exact enqueue_live taken
    · rw [shape]
      have back : Covered e.visibilityHeap e.delayed (requeueSource queueName)
          ((refilled queueName id dlq message).pushReady (e.seq + 1) (returned queueName message)) := by
        have same : message.id = id := (named.filed draws.heldThere).1
        subst same
        have gap : Interrupted (returned queueName message).id e.visibilityHeap e.delayed
            (requeueSource queueName) (refilled queueName message.id dlq message) := by
          refine (live _ _ draws.source).interrupt (fun m differ held => ?_)
            (fun entry there differ => ?_) (fun _ _ => rfl) (fun _ found => found) rfl
          · have other : m ≠ message.id := differ
            simpa [refilled, other] using held
          · have other : entry.messageId ≠ message.id := differ
            simp [refilled, DurableQueue.withdraw, there, other]
        exact gap.pushReady _
      exact live.but.stored.set back

/-! ## Timers -/

/-- An entry of the delayed heap may go once its message is released. -/
theorem releaseOne_live {entry : TimedEntry} {due : List TimedEntry} (named : e.Named)
    (all : Dict.All (Covered heap (entry :: due)) e.queues) :
    Dict.All (Covered heap due) (e.releaseOne entry.queue entry.messageId).2.queues := by
  -- Only the queue of the entry can have been waiting for it.
  have drop : ∀ q queue, (q = entry.queue → entry.messageId ∉ queue.delayedIds) →
      Covered heap (entry :: due) q queue → Covered heap due q queue := by
    intro q queue awake covered
    refine ⟨⟨covered.timed, fun m marked => ?_⟩, covered.placed⟩
    obtain ⟨other, there, same, named⟩ := covered.waking m marked
    rcases List.mem_cons.mp there with rfl | kept
    · exact absurd (named.symm ▸ marked) (awake same.symm)
    · exact ⟨other, kept, same, named⟩
  -- Its message must leave the delayed ids together with it.
  have wake : ∀ queue, Covered heap (entry :: due) entry.queue queue →
      Interrupted entry.messageId heap due entry.queue
        { queue with delayedIds := queue.delayedIds.erase entry.messageId } := by
    intro queue covered
    refine ⟨⟨covered.timed, fun m marked => ?_⟩, fun m differ there => ?_⟩
    · obtain ⟨differ, before⟩ := Finset.mem_erase.mp marked
      obtain ⟨other, there, same, named⟩ := covered.waking m before
      rcases List.mem_cons.mp there with rfl | kept
      · exact absurd named.symm differ
      · exact ⟨other, kept, same, named⟩
    · rcases covered.placed m there with ready | inflight | waiting
      · exact .inl ready
      · exact .inr (.inl inflight)
      · exact .inr (.inr (Finset.mem_erase.mpr ⟨differ, waiting⟩))
  have others : Dict.AllBut entry.queue (Covered heap due) e.queues :=
    fun q queue differ found => drop q queue (fun same => absurd same differ) (all q queue found)
  rcases releaseOne_cases e entry.queue entry.messageId with ⟨awake, shape⟩ |
    ⟨queue, found, _, elsewhere, shape⟩ | ⟨queue, message, found, _, held, _, shape⟩
  · rw [shape]
    intro q queue found
    exact drop q queue (fun same => awake queue (same ▸ found)) (all q queue found)
  · rw [shape]
    have covered := all _ queue found
    have woken : Interrupted entry.messageId heap due entry.queue
        { queue with delayedIds := queue.delayedIds.erase entry.messageId } :=
      wake queue covered
    refine others.set ⟨woken.toScheduled, fun m there => ?_⟩
    by_cases same : m = entry.messageId
    · rcases elsewhere with gone | inflight
      · exact absurd there (same ▸ gone)
      · exact .inr (.inl (same ▸ inflight))
    · exact woken.others m same there
  · rw [shape]
    have woken := wake queue (all _ queue found)
    have filed : (strip message).id = entry.messageId :=
      ((named _ queue found).messages _ message held).1
    have gap : Interrupted (strip message).id heap due entry.queue
        { queue with
          delayedIds := queue.delayedIds.erase entry.messageId
          messages := queue.messages.set entry.messageId (strip message) } := by
      refine ⟨⟨woken.timed, woken.waking⟩, fun m differ there => ?_⟩
      rw [filed] at differ
      exact woken.others m differ (by simpa [differ] using there)
    exact others.set (gap.pushReady _)

theorem releaseDelayed_live {now : ℚ} (named : e.Named) (live : e.Live) :
    (e.releaseDelayed now).2.Live := by
  have sweep : ∀ (due : List TimedEntry) (e : QueueEngine), e.Named →
      Dict.All (Covered e.visibilityHeap (due ++ e.delayed)) e.queues →
      (releaseAll due e).2.Live := by
    intro due
    induction due with
    | nil => exact fun e _ all => all
    | cons entry due ih =>
      intro e named all
      obtain ⟨heap, delayed⟩ :=
        releaseOne_heaps e entry.queue entry.messageId
      refine ih (e.releaseOne entry.queue entry.messageId).2 (releaseOne_named named) ?_
      rw [heap, delayed]
      exact releaseOne_live named all
  refine sweep _ _ named ?_
  rw [List.takeWhile_append_dropWhile]
  exact live

/-- An entry of the visibility heap may go when no record has its deadline. -/
theorem timeoutEntries_live {now : ℚ} {entries : List TimedEntry} (named : e.Named)
    (all : Dict.All (Covered entries e.delayed) e.queues) :
    (timeoutEntries now entries e).2.Live := by
  induction entries generalizing e with
  | nil => exact all
  | cons entry rest ih =>
    -- Only the record with the entry's deadline can have been waiting for it.
    have drop : ∀ q queue, (q = entry.queue → ∀ record,
        queue.inflight.get? entry.messageId = some record → record.visibilityDeadline ≠ entry.due) →
        Covered (entry :: rest) e.delayed q queue → Covered rest e.delayed q queue := by
      intro q queue stale covered
      refine ⟨⟨fun m record found => ?_, covered.waking⟩, covered.placed⟩
      obtain ⟨other, there, due, same, named⟩ := covered.timed m record found
      rcases List.mem_cons.mp there with rfl | kept
      · exact absurd due.symm (stale same.symm record (named.symm ▸ found))
      · exact ⟨other, kept, due, same, named⟩
    unfold timeoutEntries
    split
    · split
      · rename_i nothing
        refine ih named fun q queue found => drop q queue (fun same record there => ?_) (all q queue found)
        subst same
        simp [found, there] at nothing
      · rename_i record there
        split
        · rename_i current
          have others : Dict.AllBut entry.queue (Covered rest e.delayed) e.queues :=
            fun q queue differ found =>
              drop q queue (fun same => absurd same differ) (all q queue found)
          have ended : ∀ queue, e.queues.get? entry.queue = some queue →
              Interrupted entry.messageId rest e.delayed entry.queue
                (queue.endDelivery entry.messageId) := by
            intro queue found
            have before : Interrupted entry.messageId (entry :: rest) e.delayed entry.queue
                (queue.endDelivery entry.messageId) := (all _ queue found).endDelivery
            refine ⟨⟨fun m record left => ?_, before.waking⟩, before.others⟩
            obtain ⟨other, there, due, same, named⟩ := before.timed m record left
            rcases List.mem_cons.mp there with rfl | kept
            · rw [← named] at left
              simp [DurableQueue.endDelivery] at left
            · exact ⟨other, kept, due, same, named⟩
          exact ih (failDelivery_named named) (failDelivery_covered named others ended)
        · rename_i stale
          refine ih named fun q queue found => drop q queue (fun same other here => ?_) (all q queue found)
          subst same
          simp only [found, Option.bind_some, here, Option.some.injEq] at there
          exact there ▸ stale
    · exact all

theorem tick_live {now : Option ℚ} (named : e.Named) (live : e.Live) : (e.tick now).2.Live := by
  have sweep : ∀ (base : QueueEngine) ts, base.Named → base.Live →
      ((base.releaseDelayed ts).2.timeoutInflight ts).2.Live := by
    intro base ts named live
    have released : (base.releaseDelayed ts).2.Named :=
      releaseAll_preserves (fun _ _ _ named => releaseOne_named named) named
    exact timeoutEntries_live released (releaseDelayed_live named live)
  cases now with
  | none => exact sweep e.now.2 e.now.1 named live
  | some ts => exact sweep e ts named live

/-! ## Runs -/

theorem restore_live {saved : QueueEngine} (kept : saved.Named) :
    (e.restoreState saved.snapshotState).Live := by
  refine restoreState_preserves (I := fun e _ _ => e.Live) ?_ ?_ Dict.all_empty
  · intro e _ queue _ live
    exact live.set .fresh
  · intro e _ _ name queue message found listed live
    obtain ⟨old, there, held, _⟩ := (mem_contents kept).mp listed
    have filed := (kept name old there).messages _ _ held
    obtain ⟨more, pushed⟩ := restoreMessage_delayed e name queue message
    have wider : Dict.All (Covered e.visibilityHeap
        (e.restoreMessage name queue message).delayed) e.queues :=
      fun q queue found => (live q queue found).grow (fun _ there => there) more
    unfold Live
    rw [restoreMessage_queues, restoreMessage_frame.2.1]
    refine wider.set ?_
    rw [filed.2] at pushed
    exact (live name queue found).refit more pushed

/-- Every operation leaves every message on a path, also with reused ids. -/
theorem step_live (named : e.Named) (live : e.Live) (op : EngineOp) : (e.step persist op).Live := by
  cases op with
  | declareQueue name args =>
    obtain ⟨_, heap, delayed, _⟩ := declareQueue_frame e name args persist
    unfold Live step
    rw [heap, delayed]
    exact all_declareQueue live fun _ _ => .fresh
  | deleteQueue name =>
    obtain ⟨heap, delayed, _⟩ := deleteQueue_frame e name persist
    unfold Live step
    rw [heap, delayed]
    exact all_deleteQueue live
  | enqueue message => exact enqueue_live live
  | reserve queueName consumerId => exact reserve_live live
  | ack messageId => exact ack_live live
  | nack messageId requeue => exact nack_live named live
  | recoverConsumer consumerId => exact recoverConsumer_live named live
  | tick now => exact tick_live named live
  | dlqRequeue queueName messageId => exact dlqRequeue_live named live

theorem Reachable.live {allowed : QueueEngine → EngineOp → Prop} (reached : Reachable allowed e) :
    e.Live := by
  induction reached with
  | start => exact Dict.all_empty
  | step reached persist op _ live => exact step_live reached.named live op
  | restore _ kept _ _ => exact restore_live kept.named

/-- A message is delivered, fails and waits for its retry. -/
def retriedRun : List EngineOp := [
  .declareQueue "orders" {},
  .enqueue { id := "m1", queue := "orders", payload := [1], createdAt := 0 },
  .reserve "orders" "worker",
  .nack "m1" true]

end OneOpenBroker.Core.QueueEngine

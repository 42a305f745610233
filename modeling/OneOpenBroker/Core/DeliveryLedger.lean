import OneOpenBroker.Core.Accounting
import OneOpenBroker.Core.Placement

/-! What became of the deliveries of a queue. Each one ends in an ack, in a
retry or as a dead letter, once, or is still outstanding. The counters never
show more ends than deliveries; they show fewer only where a restart forgot
deliveries or an id was used twice at a time. -/
namespace OneOpenBroker.Core.QueueEngine
open Collections Systems

/-- The ends of deliveries, and the deliveries that are outstanding. -/
def accountedFor (queue : DurableQueue) : Nat :=
  queue.stats.acked + queue.stats.retried + queue.stats.dead + queue.inflight.size

/-- The books of a queue on its deliveries, closed where no delivery was forgotten. -/
structure Ledger (closed : Bool) (queue : DurableQueue) : Prop where
  nacked : queue.stats.nacked ≤ queue.stats.retried + queue.stats.dead
  bound : accountedFor queue ≤ queue.stats.delivered
  whole : closed = true → accountedFor queue = queue.stats.delivered

/-- The books of the engine. Where they are closed, placement is exclusive. -/
structure Ledgers (closed : Bool) (e : QueueEngine) : Prop where
  named : e.Named
  sound : closed = true → e.Sound
  all : Dict.All (fun _ => Ledger closed) e.queues

variable {e : QueueEngine} {name id q : String} {queue queue' : DurableQueue} {message : Message}
  {persist requeue closed : Bool}

/-! ## Updates of one queue -/

theorem Ledger.fresh {spec : QueueSpec} : Ledger closed { spec } := ⟨le_rfl, le_rfl, fun _ => rfl⟩

theorem Ledger.change (ledger : Ledger closed queue) (inflight : queue'.inflight = queue.inflight)
    (delivered : queue'.stats.delivered = queue.stats.delivered)
    (acked : queue'.stats.acked = queue.stats.acked) (nacked : queue'.stats.nacked = queue.stats.nacked)
    (retried : queue'.stats.retried = queue.stats.retried)
    (dead : queue'.stats.dead = queue.stats.dead) : Ledger closed queue' := by
  have same : accountedFor queue' = accountedFor queue := by
    simp only [accountedFor, inflight, acked, retried, dead]
  exact ⟨by rw [nacked, retried, dead]; exact ledger.nacked, by rw [same, delivered]; exact ledger.bound,
    fun shut => by rw [same, delivered]; exact ledger.whole shut⟩

theorem Ledger.deliver {rest : List ReadyEntry} {record : InflightRecord}
    (ledger : Ledger closed queue) (idle : record.messageId ∉ queue.inflight) :
    Ledger closed (queue.deliver rest record) := by
  have size : (queue.inflight.set record.messageId record).size = queue.inflight.size + 1 :=
    Dict.size_set_of_not_mem idle
  have more : accountedFor (queue.deliver rest record) = accountedFor queue + 1 := by
    simp only [accountedFor, DurableQueue.deliver]
    omega
  exact ⟨ledger.nacked, more ▸ Nat.succ_le_succ ledger.bound,
    fun shut => more.trans (congrArg Nat.succ (ledger.whole shut))⟩

theorem Ledger.settle (ledger : Ledger closed queue) (inflight : id ∈ queue.inflight) :
    Ledger closed (queue.settle id) := by
  have size : (queue.inflight.erase id).size + 1 = queue.inflight.size := Dict.size_erase_of_mem inflight
  have same : accountedFor (queue.settle id) = accountedFor queue := by
    simp only [accountedFor, DurableQueue.settle]
    omega
  exact ⟨ledger.nacked, same.trans_le ledger.bound, fun shut => same.trans (ledger.whole shut)⟩

/-- A delivery was taken out of the books and its end is not yet in them. -/
structure Ending (closed : Bool) (queue : DurableQueue) : Prop where
  nacked : queue.stats.nacked ≤ queue.stats.retried + queue.stats.dead + 1
  bound : accountedFor queue + 1 ≤ queue.stats.delivered
  whole : closed = true → accountedFor queue + 1 = queue.stats.delivered

theorem Ledger.ending (ledger : Ledger closed queue) (inflight : id ∈ queue.inflight) :
    Ending closed (queue.endDelivery id) ∧ Ending closed (queue.endDelivery id).countNack := by
  have size : (queue.inflight.erase id).size + 1 = queue.inflight.size := Dict.size_erase_of_mem inflight
  have less : accountedFor (queue.endDelivery id) + 1 = accountedFor queue := by
    simp only [accountedFor, DurableQueue.endDelivery]
    omega
  have ended : Ending closed (queue.endDelivery id) :=
    ⟨Nat.le_succ_of_le ledger.nacked, less.trans_le ledger.bound,
      fun shut => less.trans (ledger.whole shut)⟩
  exact ⟨ended, Nat.succ_le_succ ledger.nacked, ended.bound, ended.whole⟩

/-- A delivery whose message is gone is forgotten. -/
theorem Ledger.forget (ledger : Ledger false queue) (id : String) :
    Ledger false (queue.endDelivery id) := by
  have size : (queue.inflight.erase id).size ≤ queue.inflight.size := Dict.size_erase_le
  have less : accountedFor (queue.endDelivery id) ≤ accountedFor queue := by
    simp only [accountedFor, DurableQueue.endDelivery]
    omega
  exact ⟨ledger.nacked, less.trans ledger.bound, by simp⟩

theorem Ending.discard (ending : Ending closed queue) : Ledger closed (queue.discard id) := by
  have more : accountedFor (queue.discard id) = accountedFor queue + 1 := by
    simp only [accountedFor, DurableQueue.discard]
    omega
  exact ⟨ending.nacked, more.trans_le ending.bound, fun shut => more.trans (ending.whole shut)⟩

theorem Ending.delay (ending : Ending closed queue) : Ledger closed (queue.delay message) := by
  have more : accountedFor (queue.delay message) = accountedFor queue + 1 := by
    simp only [accountedFor, DurableQueue.delay]
    omega
  refine ⟨?_, more.trans_le ending.bound, fun shut => more.trans (ending.whole shut)⟩
  have before := ending.nacked
  simp only [DurableQueue.delay]
  omega

/-! ## One step -/

/-- A failure enters the end of its delivery in the books. -/
theorem conclude_ledgers (others : Dict.AllBut name (fun _ => Ledger closed) e.queues)
    (ending : Ending closed queue) :
    Dict.All (fun _ => Ledger closed) (e.conclude name queue message requeue persist).queues := by
  rcases conclude_cases e name queue message requeue persist with ⟨_, shape⟩ | ⟨_, _, shape⟩
  · rw [shape]
    exact all_moveToDlq others ending.discard .fresh
      fun dest ledger _ => ledger.change rfl rfl rfl rfl rfl rfl
  · rw [shape, delayRetry_queues]
    exact others.set ending.delay

/-- Where the books are closed the message of a delivery is held. -/
theorem Ledgers.carried (ledgers : e.Ledgers closed) (found : e.queues.get? name = some queue)
    (inflight : id ∈ queue.inflight) (gone : id ∉ queue.messages) : closed = false := by
  cases closed with
  | false => rfl
  | true => exact absurd ((ledgers.sound rfl).carried found inflight) gone

theorem failDelivery_ledgers {record : InflightRecord} (ledgers : e.Ledgers closed)
    (flying : e.record? name id = some record) : (e.failDelivery name id persist).2.Ledgers closed := by
  refine ⟨failDelivery_named ledgers.named,
    fun shut => failDelivery_sound (ledgers.sound shut) flying, ?_⟩
  obtain ⟨queue, found, there⟩ := record?_some.mp flying
  have inflight : id ∈ queue.inflight := Dict.mem_of_get? there
  have ledger := ledgers.all name queue found
  have ending := (ledger.ending inflight).1
  rcases failDelivery_cases e name id persist with ⟨absent, _⟩ | ⟨other, same, gone, shape⟩ |
    ⟨other, message, same, _, shape⟩
  · rw [absent] at found
    cases found
  · obtain rfl := Option.some.inj (found.symm.trans same)
    obtain rfl := ledgers.carried found inflight gone
    rw [shape]
    exact ledgers.all.set (ledger.forget id)
  · obtain rfl := Option.some.inj (found.symm.trans same)
    rw [shape]
    exact conclude_ledgers ledgers.all.but.stored ending

theorem nack_ledgers (ledgers : e.Ledgers closed) : (e.nack id requeue persist).2.Ledgers closed := by
  refine ⟨nack_named ledgers.named, fun shut => nack_sound (ledgers.sound shut), ?_⟩
  rcases nack_cases e id requeue persist with ⟨name, queue, message, nacks⟩ |
    ⟨_, same | ⟨name, queue, indexed, found, gone, shape⟩⟩
  · have others : Dict.AllBut name (fun _ => Ledger closed)
        (e.nacked id requeue persist name queue).queues := by
      rw [nacked_queues]
      exact ledgers.all.but.stored
    rw [nacks.shape]
    exact conclude_ledgers others ((ledgers.all name queue nacks.found).ending nacks.inflight).2
  · rw [same]
    exact ledgers.all
  · rw [shape]
    refine ledgers.all.set ?_
    cases closed with
    | false => exact (ledgers.all name queue found).forget id
    | true =>
      obtain ⟨message, held⟩ := (ledgers.sound rfl).indexed.held name id indexed
      rw [message?_of_get found] at held
      exact absurd (Dict.mem_of_get? held) gone

theorem reserve_ledgers {consumerId : String} (ledgers : e.Ledgers closed) :
    Dict.All (fun _ => Ledger closed) (e.reserve name consumerId).2.queues := by
  rcases reserve_cases e name consumerId with ⟨queue, id, message, rest, reserves⟩ |
    ⟨_, ⟨same, _⟩ | ⟨queue, found, _, shape⟩⟩
  · obtain ⟨_, idle, _⟩ := popDeliverable_some reserves.popped
    rw [reserves.queues]
    exact ledgers.all.set ((ledgers.all _ _ reserves.found).deliver idle)
  · rw [same]
    exact ledgers.all
  · rw [shape]
    exact ledgers.all.set ((ledgers.all _ _ found).change rfl rfl rfl rfl rfl rfl)

theorem ack_ledgers (ledgers : e.Ledgers closed) :
    Dict.All (fun _ => Ledger closed) (e.ack id persist).2.queues := by
  rcases ack_cases e id persist with ⟨name, queue, settles⟩ | ⟨_, same⟩
  · rw [settles.queues]
    exact ledgers.all.set ((ledgers.all _ _ settles.found).settle settles.inflight)
  · rw [same]
    exact ledgers.all

theorem Ledger.accepted {seq : Nat} (ledger : Ledger closed queue) :
    Ledger closed (accepted queue seq message) := by
  unfold QueueEngine.accepted
  split <;> exact ledger.change rfl rfl rfl rfl rfl rfl

theorem enqueue_ledgers (all : Dict.All (fun _ => Ledger closed) e.queues) :
    Dict.All (fun _ => Ledger closed) (e.enqueue message persist).2.queues := by
  rcases enqueue_cases e message persist with ⟨queue, accepts⟩ | ⟨_, same⟩
  · rw [accepts.queues]
    exact all.set (all _ _ accepts.1).accepted
  · rw [same]
    exact all

theorem releaseOne_ledgers (ledgers : e.Ledgers closed) : (e.releaseOne name id).2.Ledgers closed := by
  refine ⟨releaseOne_named ledgers.named, fun shut => releaseOne_sound (ledgers.sound shut), ?_⟩
  rcases releaseOne_cases e name id with ⟨_, same⟩ | ⟨queue, found, _, _, shape⟩ |
    ⟨queue, message, found, _, _, _, shape⟩
  · rw [same]
    exact ledgers.all
  all_goals
    rw [shape]
    exact ledgers.all.set ((ledgers.all _ _ found).change rfl rfl rfl rfl rfl rfl)

/-- A requeue neither makes nor ends a delivery. -/
theorem dlqRequeue_ledgers (ledgers : e.Ledgers closed) :
    Dict.All (fun _ => Ledger closed) (e.dlqRequeue name id persist).2.queues := by
  rcases dlqRequeue_cases e name id persist with nothing | ⟨dlq, message, draws⟩
  · rw [nothing]
    exact ledgers.all
  · have drawn : Dict.All (fun _ => Ledger closed) (e.withdrawn name id dlq).queues :=
      ledgers.all.set ((ledgers.all _ _ draws.source).change rfl rfl rfl rfl rfl rfl)
    rcases draws.result persist with ⟨dest, accepts, shape⟩ | ⟨_, shape⟩
    · rw [shape, append_queues]
      exact enqueue_ledgers drawn
    · rw [shape, putBack_queues]
      exact drawn.set ((ledgers.all _ _ draws.source).change rfl rfl rfl rfl rfl rfl)

theorem step_ledgers (ledgers : e.Ledgers closed) (op : EngineOp)
    (ok : closed = true → ReadyRequeues e op) : (e.step persist op).Ledgers closed := by
  have named : (e.step persist op).Named := step_named ledgers.named op
  have sound (shut : closed = true) : (e.step persist op).Sound :=
    step_sound (ledgers.sound shut) op (ok shut)
  cases op with
  | declareQueue name args =>
    exact ⟨named, sound, all_declareQueue ledgers.all fun _ _ => .fresh⟩
  | deleteQueue name => exact ⟨named, sound, all_deleteQueue ledgers.all⟩
  | enqueue message => exact ⟨named, sound, enqueue_ledgers ledgers.all⟩
  | reserve queueName consumerId => exact ⟨named, sound, reserve_ledgers ledgers⟩
  | ack messageId => exact ⟨named, sound, ack_ledgers ledgers⟩
  | nack messageId requeue => exact nack_ledgers ledgers
  | recoverConsumer consumerId =>
    exact recoverConsumer_preserves (fun _ ledgers => ledgers.named)
      (fun _ _ _ _ ledgers flying _ => failDelivery_ledgers ledgers flying) ledgers
  | tick now =>
    exact tick_preserves (fun _ _ _ ledgers => releaseOne_ledgers ledgers)
      (fun _ _ _ _ ledgers flying _ => failDelivery_ledgers ledgers flying)
      (fun _ _ _ _ ledgers => ⟨ledgers.named, fun shut =>
        ⟨⟨(ledgers.sound shut).named, (ledgers.sound shut).indexed.filed,
          (ledgers.sound shut).indexed.held⟩, (ledgers.sound shut).balanced⟩, ledgers.all⟩)
      ledgers
  | dlqRequeue queueName messageId => exact ⟨named, sound, dlqRequeue_ledgers ledgers⟩

/-! ## Runs -/

theorem start_ledgers (config : EngineConfig) (clock : Nat → ℚ) :
    Ledgers closed { config, clock } :=
  ⟨Dict.all_empty, fun _ => (Reachable.start config clock).sound, Dict.all_empty⟩

/-- A restart keeps the counters and forgets the deliveries that were outstanding. -/
theorem restore_ledgers {saved : QueueEngine} (ledgers : saved.Ledgers false) :
    (e.restoreState saved.snapshotState).Ledgers false := by
  refine ⟨restore_named ledgers.named, nofun, ?_⟩
  refine restoreState_preserves (I := fun e _ _ => Dict.All (fun _ => Ledger false) e.queues)
    (fun e queues saved' listed all => ?_) (fun e queues rest name queue message found _ all => ?_)
    Dict.all_empty
  · obtain ⟨old, member, rfl⟩ := List.mem_map.mp listed
    obtain ⟨name, found⟩ := Dict.mem_values.mp member
    have ledger := ledgers.all name old found
    refine all.set ⟨ledger.nacked, le_trans ?_ ledger.bound, nofun⟩
    exact Nat.add_le_add_left (Nat.zero_le _) _
  · rw [restoreMessage_queues]
    exact all.set ((all _ _ found).change refit_inflight (by rw [refit_stats]) (by rw [refit_stats])
      (by rw [refit_stats]) (by rw [refit_stats]) (by rw [refit_stats]))

theorem Reachable.ledgers (reached : Reachable Anything e) : e.Ledgers false := by
  induction reached with
  | start config clock => exact start_ledgers config clock
  | step _ _ op _ ledgers => exact step_ledgers ledgers op nofun
  | restore _ _ _ kept => exact restore_ledgers kept

/-- **Ends of deliveries.** In every state that a run reaches in which every retry
has a delay, whatever ids were used and whatever was restored, the acks, retries
and dead letters of a queue with its outstanding deliveries are no more than its
deliveries, and its nacks no more than its retries and dead letters. -/
theorem deliveries_end_once (reached : Raising.Reachable (Raising.Numbered Anything) e)
    (found : e.queues.get? q = some queue) :
    queue.stats.acked + queue.stats.retried + queue.stats.dead + queue.inflight.size ≤
      queue.stats.delivered ∧
    queue.stats.nacked ≤ queue.stats.retried + queue.stats.dead :=
  ⟨(reached.plain.ledgers.all q queue found).bound, (reached.plain.ledgers.all q queue found).nacked⟩

theorem Ledgers.numbered (ledgers : e.Ledgers true) (op : EngineOp)
    (ok : Raising.Numbered ReadyRequeues e op) : (Raising.step persist e op).Ledgers true := by
  rw [step_agrees ledgers.named ok.2]
  exact step_ledgers ledgers op fun _ => ok.1

/-- In every run without a restart in which placement is exclusive and every
retry has a delay, the two are equal: each delivery has ended in exactly one way
or is outstanding. -/
theorem deliveries_accounted (config : EngineConfig) (clock : Nat → ℚ) {ops : List EngineOp}
    (ok : Allowed (Raising.step persist) (Raising.Numbered ReadyRequeues) { config, clock } ops)
    (found : (run (Raising.step persist) { config, clock } ops).queues.get? q = some queue) :
    queue.stats.delivered =
      queue.stats.acked + queue.stats.retried + queue.stats.dead + queue.inflight.size := by
  have ledgers : (run (Raising.step persist) { config, clock } ops).Ledgers true :=
    run_preserves (I := fun e => e.Ledgers true)
      (fun e op ledgers (ok : Raising.Numbered ReadyRequeues e op) => ledgers.numbered op ok)
      (start_ledgers config clock) ok
  exact ((ledgers.all q queue found).whole rfl).symm

/-- One delivery is acked, one retried, one dead-lettered, one outstanding. -/
def endedRun : List EngineOp := [
  .declareQueue "orders" {},
  .enqueue { id := "m1", queue := "orders", payload := [1], createdAt := 0, maxAttempts := 2 },
  .enqueue { id := "m2", queue := "orders", payload := [2], createdAt := 1 },
  .reserve "orders" "worker", .nack "m1" true, .tick (some 5),
  .reserve "orders" "worker", .ack "m2", .reserve "orders" "worker", .tick (some 400),
  .enqueue { id := "m3", queue := "orders", payload := [3], createdAt := 2 },
  .reserve "orders" "worker"]

theorem deliveries_accounted_ended : ∃ queue,
    (run (Raising.step true) created endedRun).queues.get? "orders" = some queue ∧
    queue.stats.delivered =
      queue.stats.acked + queue.stats.retried + queue.stats.dead + queue.inflight.size := by
  have known : ((run (Raising.step true) created endedRun).queues.get? "orders").isSome = true := by
    decide +kernel
  obtain ⟨queue, found⟩ := Option.isSome_iff_exists.mp known
  exact ⟨queue, found, deliveries_accounted {} (fun _ => 0) (by decide +kernel) found⟩

theorem deliveries_end_once_restarted : ∃ queue,
    (created.restoreState (run (Raising.step true) created endedRun).snapshotState).queues.get?
      "orders" = some queue ∧
    queue.stats.acked + queue.stats.retried + queue.stats.dead + queue.inflight.size ≤
      queue.stats.delivered ∧
    queue.stats.nacked ≤ queue.stats.retried + queue.stats.dead := by
  have known : ((created.restoreState
      (run (Raising.step true) created endedRun).snapshotState).queues.get? "orders").isSome = true := by
    decide +kernel
  obtain ⟨queue, found⟩ := Option.isSome_iff_exists.mp known
  have start : Raising.Reachable (Raising.Numbered Anything) created := .start {} fun _ => 0
  have ended : Raising.Reachable (Raising.Numbered Anything) (run (Raising.step true) created endedRun) :=
    Raising.reachable_run start (by decide +kernel)
  exact ⟨queue, found, deliveries_end_once (start.restore ended) found⟩

end OneOpenBroker.Core.QueueEngine

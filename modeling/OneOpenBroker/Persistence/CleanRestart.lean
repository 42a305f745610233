import OneOpenBroker.Core.RetryDelays
import OneOpenBroker.Core.Stamps
import OneOpenBroker.Core.RestartOrder
import OneOpenBroker.Persistence.RouteRecovery
import OneOpenBroker.Persistence.Sequence

/-! A broker that is shut down with a snapshot and started again. The snapshot
has the number of the last record, so whatever the start finds of the AOF it
applies none of it, and the broker goes on with its queues, exchanges and
bindings. Deliveries end without a failure, and the delays that passed in the
meantime end with the first tick. -/
namespace OneOpenBroker.Persistence
open Collections Systems OneOpenBroker.Core QueueEngine RoutingEngine

variable {r live : RoutingEngine} {e saved : QueueEngine} {q m : String} {queue queue' : DurableQueue}
  {message : Message} {seq : Nat}

/-! ## Lives -/

/-- The ids that a publish gives to its messages. -/
def postedIds (r : RoutingEngine) (args : PublishArgs) (stamp : String → Stamp) : List String :=
  let (r, exchange, routingKey) := r.ensureQueue args true
  let targets := r.routeTargets (exchange.getD defaultExchange) routingKey
  targets.map fun target => (messageFor r.queues args (exchange.getD defaultExchange) routingKey
    (targets.length = 1) stamp target).id

/-- A publish uses new ids, and a message is requeued out of a DLQ only while
it is ready there. -/
def Tame (r : RoutingEngine) : BrokerOp → Prop
  | .publish args stamp =>
    (postedIds r args stamp).Nodup ∧ ∀ id ∈ postedIds r args stamp, ¬ r.queues.Held id
  | .dlqRequeue queueName messageId => r.queues.Settled queueName messageId
  | _ => True

instance : DecidableRel Tame := fun r op =>
  match op with
  | .publish args stamp => inferInstanceAs (Decidable ((postedIds r args stamp).Nodup ∧
      ∀ id ∈ postedIds r args stamp, ¬ r.queues.Held id))
  | .dlqRequeue queueName messageId => inferInstanceAs (Decidable (r.queues.Settled queueName messageId))
  | .declareQueue .. | .deleteQueue .. | .declareExchange .. | .deleteExchange .. | .bind ..
  | .unbind .. | .register .. | .reserve .. | .ack .. | .nack .. | .recoverConsumer .. | .tick .. =>
    inferInstanceAs (Decidable True)

/-- The runtime of a broker that was started on the snapshot of another. -/
def reborn (r live : RoutingEngine) : RoutingEngine :=
  let copy := restoreSnapshot r (snapshot live)
  { copy with queues := copy.queues.tick.2 }

/-- The runtimes of brokers that work, shut down and start again. -/
inductive Lived : RoutingEngine → Prop where
  | booted (config : EngineConfig) (clock : Nat → ℚ) : Lived (booted config clock)
  | step {r : RoutingEngine} (lived : Lived r) (op : BrokerOp) (ok : Tame r op) : Lived (step r op)
  | restart {r : RoutingEngine} (lived : Lived r) (config : EngineConfig) (clock : Nat → ℚ) :
    Lived (reborn (Persistence.booted config clock) r)

theorem Lived.run {ops : List BrokerOp} (lived : Lived r) (ok : Allowed Persistence.step Tame r ops) :
    Lived (Systems.run Persistence.step r ops) :=
  run_preserves (fun _ op lived tame => lived.step op tame) lived ok

theorem append_timely (timely : e.Timely) (op : JournalOp) : (e.append true op).Timely :=
  ⟨⟨⟨timely.named, timely.indexed.filed, timely.indexed.held⟩, timely.balanced⟩, timely.stamped⟩

theorem fanOut_timely {build : String → Message} {targets routed : List String} {lastId : String}
    (timely : e.Timely) (distinct : (targets.map fun target => (build target).id).Nodup)
    (fresh : ∀ target ∈ targets, ¬ e.Held (build target).id) :
    (fanOut build true targets routed lastId e).2.Timely := by
  induction targets generalizing e routed lastId with
  | nil => exact timely
  | cons target rest ih =>
    obtain ⟨absent, distinct⟩ := List.nodup_cons.mp distinct
    have later : ∀ other ∈ rest, ¬ e.Held (build other).id :=
      fun other member => fresh other (List.mem_cons_of_mem _ member)
    rcases target_cases e (build target) true with missing | ⟨queue, found, full⟩ | ⟨queue, accepts⟩
    · rw [fanOut_missing missing]
      exact ih timely distinct later
    · rw [fanOut_full found full]
      exact timely
    · rw [fanOut_accepts accepts]
      have accepted : (e.enqueue (build target) true).2.Timely :=
        step_timely timely (.enqueue (build target)) (fresh target List.mem_cons_self)
      refine ih accepted distinct fun other member => ?_
      rintro ⟨q, held, there⟩
      change (e.enqueue (build target) true).2.message? q _ = some held at there
      rw [accepts.message?] at there
      split at there
      · rename_i same
        exact absent (List.mem_map.mpr ⟨other, member, same.2⟩)
      · exact later other member ⟨q, held, there⟩

/-- What holds of a broker in all its lives. -/
structure Fit (r : RoutingEngine) : Prop where
  timely : r.queues.Timely
  routed : Routed r

theorem step_fit (fit : Fit r) (op : BrokerOp) (ok : Tame r op) : Fit (step r op) := by
  refine ⟨?_, step_routed fit.routed op⟩
  have work (r : RoutingEngine) (timely : r.queues.Timely) (op : EngineOp)
      (ok : ReadyRequeues r.queues op) : (r.queues.step true op).Timely := step_timely timely op ok
  have routing (r : RoutingEngine) (timely : r.queues.Timely) :=
    routing_preserves (r := r) (I := QueueEngine.Timely) (fun _ op _ inv => append_timely inv op) timely
  have declare (r : RoutingEngine) (timely : r.queues.Timely) (name : String) (args : QueueArgs) :
      (onQueueDeclared { r with queues := r.queues.declareQueue name args } name).queues.Timely :=
    (routing { r with queues := r.queues.declareQueue name args }
      (work r timely (.declareQueue name args) trivial)).2.2.1 _ _ _
  cases op with
  | declareQueue name args => exact declare r fit.timely name args
  | deleteQueue name => exact work r fit.timely (.deleteQueue name) trivial
  | declareExchange name type durable => exact (routing r fit.timely).1 name type durable
  | deleteExchange name => exact (routing r fit.timely).2.1 name
  | bind exchange queue routingKey => exact (routing r fit.timely).2.2.1 exchange queue routingKey
  | unbind exchange queue routingKey => exact (routing r fit.timely).2.2.2 exchange queue routingKey
  | register queue => exact work r fit.timely (.declareQueue queue {}) trivial
  | publish args stamp =>
    have same := (ensureQueue_observe r args true).1
    have ensured : (r.ensureQueue args true).1.queues.Timely := by
      unfold ensureQueue
      split
      · exact fit.timely
      · dsimp only
        split
        · split
          · exact fit.timely
          · exact declare r fit.timely _ {}
        · exact fit.timely
    obtain ⟨distinct, fresh⟩ := ok
    unfold postedIds at distinct fresh
    unfold step publish
    dsimp only at distinct fresh ⊢
    split
    · split
      · exact ensured
      · refine fanOut_timely ensured distinct fun target member => ?_
        rintro ⟨q, held, there⟩
        rw [same] at there
        exact fresh _ (List.mem_map_of_mem member) ⟨q, held, there⟩
    · exact ensured
  | reserve queueName consumerId => exact work r fit.timely (.reserve queueName consumerId) trivial
  | ack messageId => exact work r fit.timely (.ack messageId) trivial
  | nack messageId requeue => exact work r fit.timely (.nack messageId requeue) trivial
  | recoverConsumer consumerId => exact work r fit.timely (.recoverConsumer consumerId) trivial
  | tick now => exact work r fit.timely (.tick now) trivial
  | dlqRequeue queueName messageId => exact work r fit.timely (.dlqRequeue queueName messageId) ok

/-! ## The restored queues -/

/-- A queue comes back with its messages in their order. -/
theorem Refilled.same_messages (named : QueueNamed q queue)
    (refilled : Refilled queue.spec queue.stats (saveQueue queue).messages seq queue') :
    queue'.messages = queue.messages := by
  have entries : queue'.messages.entries = queue.messages.entries := by
    rw [refilled.messages]
    unfold saveQueue Dict.values
    rw [List.map_map, List.map_map]
    refine (List.map_congr_left fun entry there => ?_).trans (List.map_id _)
    exact Prod.ext (named.messages _ _ (Dict.get?_eq_some.mpr there)).1 rfl
  generalize queue'.messages = copy at entries
  generalize queue.messages = live at entries
  cases copy
  cases live
  cases entries
  rfl

/-- What a restore brings back: every queue with its spec, counters and messages. -/
theorem restored_contents (named : saved.Named) (base : QueueEngine) (q : String) :
    ((base.restoreState saved.snapshotState).queues.get? q).map
        (fun queue => (queue.spec, queue.stats, queue.messages)) =
      (saved.queues.get? q).map fun queue => (queue.spec, queue.stats, queue.messages) := by
  obtain ⟨known, unknown⟩ := restored_queue (q := q) named base
  cases found : saved.queues.get? q with
  | none => rw [unknown found]
  | some queue =>
    obtain ⟨queue', seq, there, refilled⟩ := known queue found
    rw [there]
    simp [refilled.spec, refilled.stats, Refilled.same_messages (named q queue found) refilled]

theorem restored_message? (named : saved.Named) (base : QueueEngine) :
    (base.restoreState saved.snapshotState).message? = saved.message? := by
  funext q m
  have contents := congrArg (Option.map (·.2.2)) (restored_contents named base q)
  simp only [Option.map_map] at contents
  have lookup (e : QueueEngine) : e.message? q m =
      ((e.queues.get? q).map ((·.2.2) ∘ fun queue =>
        (queue.spec, queue.stats, queue.messages))).bind (·.get? m) := by
    unfold message?
    cases e.queues.get? q <;> rfl
  rw [lookup, contents, ← lookup]

/-- Every entry of the delayed heap is of a held message, and due at its moment. -/
def Rerung (e : QueueEngine) : Prop :=
  ∀ entry ∈ e.delayed, ∃ message, e.message? entry.queue entry.messageId = some message ∧
    ∀ due, message.availableAt = some due → due ≠ 0 → entry.due = due

theorem restore_rerung (filed : saved.Filed) (base : QueueEngine) :
    Rerung (base.restoreState saved.snapshotState) := by
  refine (restore_preserves (e := base) filed (I := Rerung) (fun _ none => nomatch none) ?_ ?_).2
  · intro e spec stats rerung unknown entry listed
    obtain ⟨message, held, moment⟩ := rerung entry listed
    refine ⟨message, ?_, moment⟩
    rw [message?_of_set (e := e) rfl, if_neg]
    · exact held
    · intro here
      obtain ⟨queue, found, _⟩ := message?_some.mp held
      exact unknown (here ▸ Dict.mem_of_get? found)
  · intro e name queue saved' rerung found fresh listed entry there
    rw [restoreMessage_message? found]
    have old (before : entry ∈ e.delayed) : ∃ message,
        (if entry.queue = name ∧ entry.messageId = saved'.message.id then some saved'.message
          else e.message? entry.queue entry.messageId) = some message ∧
        ∀ due, message.availableAt = some due → due ≠ 0 → entry.due = due := by
      obtain ⟨message, held, moment⟩ := rerung entry before
      refine ⟨message, ?_, moment⟩
      rw [if_neg]
      · exact held
      · rintro ⟨_, same⟩
        exact fresh ⟨entry.queue, message, same ▸ held⟩
    have own : saved'.message.queue = name := by
      obtain ⟨queue', there, held, _⟩ := (mem_contents filed.named).mp listed
      exact ((filed.named name queue' there).messages _ _ held).2
    unfold restoreMessage at there
    dsimp only at there
    split at there
    · obtain ⟨reads, same⟩ := restoredDue_eq
        { e with byId := e.byId.set saved'.message.id saved'.message.queue } saved'.message
      rw [same] at there
      rcases mem_heappush.mp there with rfl | before
      · refine ⟨saved'.message, if_pos ⟨own, rfl⟩, fun due moment zero => ?_⟩
        simp [restoredDue, moment, zero]
      · exact old before
    all_goals exact old there

theorem restore_clock (base : QueueEngine) (state : EngineSnapshot) :
    (base.restoreState state).clock = base.clock :=
  restoreState_preserves (I := fun e _ _ => e.clock = base.clock) (fun _ _ _ _ same => same)
    (fun e _ _ name queue message _ _ same =>
      (restoreMessage_heap e name queue message).1.1.trans same) rfl

/-! ## The first tick -/

/-- What a tick at a moment makes of a message that is not out for delivery. -/
def roused (ts : ℚ) (message : Message) : Message :=
  if ∃ due ∈ message.availableAt, due ≤ ts then strip message else message

/-- Without deliveries a tick only wakes messages. -/
structure Wakes (e e' : QueueEngine) : Prop where
  timely : e'.Timely
  idle : Idle e'
  messages : ∀ q m, e'.message? q m = e.message? q m ∨
    e'.message? q m = (e.message? q m).map strip
  queues : ∀ q, (e'.queues.get? q).map (fun queue => (queue.spec, queue.stats)) =
    (e.queues.get? q).map fun queue => (queue.spec, queue.stats)

theorem releaseOne_wakes {name id : String} (timely : e.Timely) (idle : Idle e) :
    Wakes e (e.releaseOne name id).2 := by
  have idle' : Idle (e.releaseOne name id).2 := idle.of_eq (releaseOne_observe e name id).2.1
  have timely' : (e.releaseOne name id).2.Timely := releaseOne_timely timely
  rcases releaseOne_cases e name id with ⟨_, same⟩ | ⟨queue, found, _, _, shape⟩ |
    ⟨queue, message, found, _, held, _, shape⟩
  · rw [same] at timely' idle' ⊢
    exact ⟨timely', idle', fun _ _ => .inl rfl, fun _ => rfl⟩
  · rw [shape] at timely' idle' ⊢
    refine ⟨timely', idle', fun q m => .inl ?_, fun q => ?_⟩
    · rw [message?_of_set (e := e) rfl]
      split
      · rename_i here
        rw [here, message?_of_get found]
      · rfl
    · change ((e.queues.set name _).get? q).map _ = _
      rw [Dict.get?_set]
      split
      · rename_i here
        rw [here, found]
        rfl
      · rfl
  · rw [shape] at timely' idle' ⊢
    refine ⟨timely', idle', fun q m => ?_, fun q => ?_⟩
    · rw [message?_of_set (e := e) rfl]
      by_cases here : q = name ∧ m = id
      · obtain ⟨rfl, rfl⟩ := here
        exact .inr (by simp [DurableQueue.pushReady, message?_of_get found, held])
      · refine .inl ?_
        split
        · rename_i there
          have other : ¬ m = id := fun same => here ⟨there, same⟩
          simp [DurableQueue.pushReady, other, there, message?_of_get found]
        · rfl
    · change ((e.queues.set name _).get? q).map _ = _
      rw [Dict.get?_set]
      split
      · rename_i here
        rw [here, found]
        rfl
      · rfl

theorem Wakes.trans {e' e'' : QueueEngine} (first : Wakes e e') (second : Wakes e' e'') :
    Wakes e e'' := by
  refine ⟨second.timely, second.idle, fun q m => ?_, fun q => (second.queues q).trans (first.queues q)⟩
  have twice : strip ∘ strip = strip := rfl
  rcases second.messages q m with same | stripped
  · rw [same]
    exact first.messages q m
  · rw [stripped]
    rcases first.messages q m with before | before
    · rw [before]
      exact .inr rfl
    · rw [before, Option.map_map, twice]
      exact .inr rfl

theorem tick_wakes (timely : e.Timely) (idle : Idle e) (now : Option ℚ) : Wakes e (e.tick now).2 := by
  refine tick_preserves (I := Wakes e)
    (fun e' name id wakes => wakes.trans (releaseOne_wakes wakes.timely wakes.idle))
    (fun e' name id record wakes flying _ => ?_) (fun e' _ _ _ wakes => ?_)
    ⟨timely, idle, fun _ _ => .inl rfl, fun _ => rfl⟩
  · rw [wakes.idle name id] at flying
    cases flying
  · have sound := wakes.timely
    exact ⟨⟨⟨⟨sound.named, sound.indexed.filed, sound.indexed.held⟩, sound.balanced⟩, sound.stamped⟩,
      wakes.idle, wakes.messages, wakes.queues⟩

/-- A message that names a moment is on delay until then. -/
theorem stamped_onDelay (timely : e.Timely) (idle : Idle e) (held : e.message? q m = some message)
    {due : ℚ} (moment : message.availableAt = some due) : e.OnDelay q m due := by
  obtain ⟨queue, found, inside⟩ := message?_some.mp held
  refine ⟨⟨message, held, moment⟩, ⟨queue, found, ?_⟩, idle q m⟩
  exact (timely.stamped q queue found m).mpr ⟨message, inside, by rw [moment]; rfl⟩

/-- The first tick after a restore wakes the messages whose moment has come
and no others. -/
theorem tick_roused (timely : e.Timely) (idle : Idle e) (rung : Rung e.Past e) (rerung : Rerung e)
    (forward : Monotone e.clock) (positive : 0 ≤ e.clock 0) (q m : String) :
    e.tick.2.message? q m = (e.message? q m).map (roused (e.tickTime none)) := by
  have wakes : Wakes e e.tick.2 := tick_wakes timely idle none
  have after : 0 ≤ e.tickTime none := positive.trans (forward (Nat.zero_le _))
  cases held : e.message? q m with
  | none =>
    rcases wakes.messages q m with same | same <;> rw [same, held] <;> rfl
  | some message =>
    have outcome : e.tick.2.message? q m = some message ∨ e.tick.2.message? q m = some (strip message) := by
      rcases wakes.messages q m with same | same
      · exact .inl (same.trans held)
      · exact .inr (by rw [same, held]; rfl)
    rw [Option.map_some, roused]
    split
    · rename_i woken
      obtain ⟨due, moment, late⟩ := woken
      refine outcome.resolve_left fun kept => ?_
      have awake : ¬ e.tick.2.Asleep q m :=
        (stamped_onDelay timely idle held moment).wakes rung timely.named forward trivial late
      exact awake (stamped_onDelay wakes.timely wakes.idle kept moment).asleep
    · rename_i waits
      cases moment : message.availableAt with
      | none =>
        have same : strip message = message := by
          cases message
          cases moment
          rfl
        rwa [same, or_self] at outcome
      | some due =>
        have early : e.tickTime none < due := by
          by_contra late
          exact waits ⟨due, moment, not_lt.mp late⟩
        have delay := stamped_onDelay timely idle held moment
        have kept : e.tick.2.Kept q m := by
          have punctual : Punctual q m due e (.tick none) := by
            rintro entry listed rfl rfl past
            obtain ⟨other, there, exact⟩ := rerung entry listed
            obtain rfl := Option.some.inj (held.symm.trans there)
            rwa [← exact due moment (ne_of_gt (after.trans_lt early))]
          exact (delay.kept timely.toFiled).tick punctual early
        refine outcome.resolve_right fun stripped => ?_
        obtain ⟨queue, found, inside⟩ := message?_some.mp stripped
        obtain ⟨old, there, stamp⟩ := (wakes.timely.stamped q queue found m).mp (kept.asleep found).1
        obtain rfl := Option.some.inj (inside.symm.trans there)
        cases stamp

/-! ## The restart -/

/-- What a broker that was shut down and started again has of its earlier life. -/
structure Survives (live copy : RoutingEngine) (ts : ℚ) : Prop where
  exchanges : copy.exchanges.get? = live.exchanges.get?
  bindings : copy.bindings.Nodup ∧ ∀ binding, binding ∈ copy.bindings ↔
    binding ∈ live.bindings ∧ binding.queue ∈ live.queues.queues
  queues : ∀ q, (copy.queues.queues.get? q).map (fun queue => (queue.spec, queue.stats)) =
    (live.queues.queues.get? q).map fun queue => (queue.spec, queue.stats)
  messages : ∀ q m, copy.queues.message? q m = (live.queues.message? q m).map (roused ts)
  idle : ∀ q m, copy.queues.record? q m = none
  placed : ∀ q queue, copy.queues.queues.get? q = some queue → (readyIds queue).Nodup ∧
    ∀ m message, queue.messages.get? m = some message →
      (m ∈ readyIds queue ↔ message.availableAt = none) ∧
      (m ∈ queue.delayedIds ↔ message.availableAt.isSome)

/-- In a queue without deliveries a message is ready or on delay, as it says itself. -/
theorem placed_by_moment (balanced : Balanced queue) (stamped : Stamped queue)
    (idle : ∀ m, m ∉ queue.inflight) : (readyIds queue).Nodup ∧
    ∀ m message, queue.messages.get? m = some message →
      (m ∈ readyIds queue ↔ message.availableAt = none) ∧
      (m ∈ queue.delayedIds ↔ message.availableAt.isSome) := by
  refine ⟨List.nodup_iff_count_le_one.mpr fun m => ?_, fun m message held => ?_⟩
  · have bound := balanced.bound m
    unfold places at bound
    omega
  · have delayed : m ∈ queue.delayedIds ↔ message.availableAt.isSome := by
      rw [stamped m, held]
      simp
    refine ⟨?_, delayed⟩
    rw [← Option.not_isSome_iff_eq_none, ← delayed]
    refine ⟨fun ready => (balanced.ready ready).2.2, fun awake => ?_⟩
    have total := balanced m
    unfold places at total
    rw [if_neg (idle m), if_neg awake, if_pos (Dict.mem_of_get? held)] at total
    exact List.count_pos_iff.mp (by omega)

theorem reborn_queues : (reborn r live).queues =
    (r.queues.restoreState live.queues.snapshotState).tick.2 := by
  change (restoreSnapshot r (snapshot live)).queues.tick.2 = _
  rw [restoreSnapshot_queues]
  rfl

/-- A recovery from the snapshot and no records. -/
theorem reborn_recovers (r live : RoutingEngine) :
    reborn r live = (recoverInto r (some (0, snapshot live)) []).2 := rfl

theorem reborn_wakes (fit : Fit live) (r : RoutingEngine) :
    Wakes (r.queues.restoreState live.queues.snapshotState) (reborn r live).queues := by
  rw [reborn_queues]
  exact tick_wakes (restore_timely fit.timely) (restore_rebuilt fit.timely.named).idle none

theorem reborn_fit (fit : Fit live) (r : RoutingEngine) : Fit (reborn r live) := by
  have wakes := reborn_wakes fit r
  obtain ⟨exchanges, single, _, bindings⟩ := restored_routing fit.routed r
  refine ⟨wakes.timely, wakes.timely.named, fun name exchange found => ?_, ?_, single,
    fun binding member => ?_⟩
  · exact fit.routed.labels name exchange (by rw [← exchanges]; exact found)
  · exact (congrFun exchanges _).trans fit.routed.root
  · have known := fit.routed.known binding ((bindings binding).mp member).1
    rw [← Dict.isSome_get?] at known ⊢
    rwa [← exchanges] at known

theorem reborn_survives (fit : Fit live) (forward : Monotone r.queues.clock)
    (positive : 0 ≤ r.queues.clock 0) : ∃ i, Survives live (reborn r live) (r.queues.clock i) := by
  have wakes := reborn_wakes fit r
  obtain ⟨exchanges, single, _, bindings⟩ := restored_routing fit.routed r
  have clock : (r.queues.restoreState live.queues.snapshotState).clock = r.queues.clock :=
    restore_clock _ _
  refine ⟨(r.queues.restoreState live.queues.snapshotState).reads, exchanges, ⟨single, bindings⟩,
    fun q => ?_, fun q m => ?_, wakes.idle, fun q queue found => ?_⟩
  · rw [wakes.queues q]
    have contents := congrArg (Option.map fun view => (view.1, view.2.1))
      (restored_contents fit.timely.named r.queues q)
    rwa [Option.map_map, Option.map_map] at contents
  · rw [reborn_queues, tick_roused (restore_timely fit.timely) (restore_rebuilt fit.timely.named).idle
      (restore_rung fit.timely.toFiled) (restore_rerung fit.timely.toFiled r.queues)
      (by rwa [clock]) (by rwa [clock]), restored_message? fit.timely.named, ← clock]
    rfl
  · exact placed_by_moment (wakes.timely.balanced q queue found) (wakes.timely.stamped q queue found)
      fun m => wakes.idle.not_inflight found

theorem Lived.fit (lived : Lived r) : Fit r := by
  induction lived with
  | booted config clock =>
    refine ⟨?_, booted_routed⟩
    rw [booted_queues]
    exact ⟨⟨cleared_filed { config, clock } 0, Dict.all_empty⟩, Dict.all_empty⟩
  | step _ op ok fit => exact step_fit fit op ok
  | restart _ config clock fit => exact reborn_fit fit _

namespace Lifecycle
open Streams Records

variable {ρ σ μ : Type*} {crc32 : List UInt8 → UInt32} {json : JsonCodec μ} {rt : Runtime ρ σ μ}
  {s : State ρ σ μ} {p : Process ρ}

/-- A broker that is stopped, with a snapshot that covers what is left of its AOF. -/
structure Sealed (crc32 : List UInt8 → UInt32) (json : JsonCodec μ) (seq : Nat) (state : σ)
    (s : State ρ σ μ) : Prop where
  stopped : s.process = none
  file : s.disk.snapshot = some (seq, state)
  covered : ∃ records pieces k, Encoded crc32 json records pieces ∧
    s.disk.aof.getD [] = pieces.flatten.take k ∧ ∀ rec ∈ records, rec.seq ≤ seq

theorem shutdown_sealed (made : AOFRecord μ → Prop) (rt : Runtime ρ σ μ)
    (ordered : Ordered crc32 json made s) (running : s.process = some p) :
    Sealed crc32 json p.writer.seq (rt.snapshot p.runtime) (s.step crc32 json rt (.shutdown true)) := by
  obtain ⟨records, waiting, pieces, follows⟩ := ordered.follows p running
  have written := follows.write
  simp only [State.step, running]
  refine ⟨rfl, rfl, records ++ waiting, _, (pieces ++ p.writer.queue.map (·.2)).flatten.length,
    written.written, ?_, follows.bound⟩
  rw [List.take_length]
  exact congrArg (·.getD []) written.file

theorem Sealed.crash {seq : Nat} {state : σ} (closed : Sealed crc32 json seq state s) (k : Nat) :
    Sealed crc32 json seq state (s.step crc32 json rt (.crash k)) := by
  obtain ⟨records, pieces, kept, encoded, file, bound⟩ := closed.covered
  refine ⟨rfl, closed.file, records, pieces, min k kept, encoded, ?_, bound⟩
  have short : (s.disk.aof.map (·.take k)).getD [] = (s.disk.aof.getD []).take k := by
    cases s.disk.aof <;> simp
  exact short.trans (by rw [file, List.take_take])

theorem Sealed.crashes {seq : Nat} {state : σ} (closed : Sealed crc32 json seq state s)
    (rt : Runtime ρ σ μ) (cuts : List Nat) :
    Sealed crc32 json seq state (run (State.step crc32 json rt) s (cuts.map .crash)) := by
  induction cuts generalizing s with
  | nil => exact closed
  | cons k cuts ih => exact ih (closed.crash k)

/-- The start applies no record. -/
theorem Sealed.start {seq : Nat} {state : σ} (closed : Sealed crc32 json seq state s) :
    (s.step crc32 json rt .start).process = some ⟨rt.tick (rt.restoreSnapshot rt.fresh state),
      ({} : AOFWriter).attachExistingSeq seq⟩ := by
  obtain ⟨records, pieces, k, encoded, file, bound⟩ := closed.covered
  obtain ⟨n, _, seqs, _⟩ := encoded_read encoded k
  rw [← file, ← readAof_getD] at seqs
  have number : snapSeq s.disk = seq := by
    rw [snapSeq, closed.file]
    rfl
  have nothing : uncovered (snapSeq s.disk) (readAof crc32 json s.disk.aof).1 = [] := by
    refine List.filter_eq_nil_iff.mpr fun rec member => ?_
    have there : rec.seq ∈ (records.take n).map (·.seq) := by
      rw [← seqs]
      exact List.mem_map_of_mem member
    obtain ⟨old, listed, same⟩ := List.mem_map.mp there
    have low := bound old (List.mem_of_mem_take listed)
    rw [number, decide_eq_true_eq]
    omega
  simp only [State.step, closed.stopped]
  rw [start_eq, lastSeq, nothing, number, restored, closed.file]
  rfl

/-- **Clean restart.** After every history of a broker and its files, a shutdown
with a snapshot and a start on what crashes leave of the files bring back what
the broker had: exchanges, bindings of the queues that exist, queues with their
specs and counters, and every message in its queue, ready or on delay. Messages
that were out for delivery are ready with the attempts they had, those whose
delay is over have been woken, the numbers of the records go on, and nothing is
journaled. -/
theorem clean_restart_survives (crc32 : List UInt8 → UInt32) (json : JsonCodec JournalOp)
    (config : EngineConfig) {clock : Nat → ℚ} {events : List (Event RoutingEngine JournalOp)}
    {p : Process RoutingEngine} (forward : Monotone clock) (positive : 0 ≤ clock 0)
    (running : (after crc32 json (brokerRuntime (booted config clock)) events).process = some p)
    (lived : Lived p.runtime) (cuts : List Nat) : ∃ copy writer i,
      (run (State.step crc32 json (brokerRuntime (booted config clock)))
        (after crc32 json (brokerRuntime (booted config clock)) events)
        (.shutdown true :: cuts.map .crash ++ [.start])).process = some ⟨copy, writer⟩ ∧
      writer.seq = p.writer.seq ∧ Lived copy ∧ Survives p.runtime copy (clock i) ∧
      copy.queues.journal.ops = [] := by
  have closed : Sealed crc32 json p.writer.seq (snapshot p.runtime)
      (run (State.step crc32 json (brokerRuntime (booted config clock)))
        (after crc32 json (brokerRuntime (booted config clock)) events)
        (.shutdown true :: cuts.map .crash)) :=
    (shutdown_sealed (fun _ => True) (brokerRuntime (booted config clock))
      (after_ordered fun event _ => by cases event <;> simp [Event.Makes]) running).crashes
      (brokerRuntime (booted config clock)) cuts
  have fresh : (booted config clock).queues.clock = clock := by rw [booted_queues]
  obtain ⟨i, survives⟩ : ∃ i, Survives p.runtime (reborn (booted config clock) p.runtime)
      ((booted config clock).queues.clock i) :=
    reborn_survives lived.fit (by rwa [fresh]) (by rwa [fresh])
  rw [fresh] at survives
  refine ⟨reborn (booted config clock) p.runtime, ({} : AOFWriter).attachExistingSeq p.writer.seq, i, ?_,
    rfl, lived.restart config clock, survives, ?_⟩
  · rw [run_append]
    exact closed.start
  · have saved : ∀ taken ∈ some (0, snapshot p.runtime), ∃ e : QueueEngine, e.Filed ∧
        taken.2.queues = e.snapshotState := by
      intro taken same
      obtain rfl := Option.some.inj same
      exact ⟨p.runtime.queues, lived.fit.timely.toFiled, rfl⟩
    have rebuilt : Rebuilt (booted config clock).queues := booted_rebuilt.1
    rw [reborn_recovers, recoverInto_silent [] rebuilt saved, booted_queues]
    rfl

/-- One message waits for its retry and another one is out for delivery. -/
def busyRun : List BrokerOp :=
  [publishOne "jobs" "m1", .reserve "jobs" "worker", .nack "m1" true, publishOne "jobs" "m2",
    .reserve "jobs" "worker"]

def ackRecords : JsonCodec JournalOp where
  dumps _ := [0x7B, 0x7D]
  loads bytes := if bytes = [0x7B, 0x7D] then .ok (.messageAck "m0" "jobs") else .error "Expecting value"
  empty := .messageAck "m0" "jobs"

theorem clean_restart_survives_busy : ∃ copy writer,
    (run (State.step Words.crc32 ackRecords (brokerRuntime idleBroker))
      (after Words.crc32 ackRecords (brokerRuntime idleBroker)
        [.start, .command (run step idleBroker busyRun)])
      [.shutdown true, .crash 7, .start]).process = some ⟨copy, writer⟩ ∧
    copy.queues.record? "jobs" "m2" = none ∧
    (copy.queues.message? "jobs" "m1").map (fun message => (message.attempts, message.availableAt)) =
      some (1, some 1) ∧
    (copy.queues.message? "jobs" "m2").map (fun message => (message.attempts, message.availableAt)) =
      some (0, none) := by
  have lived : Lived (run step idleBroker busyRun) := (Lived.booted _ _).run (by decide +kernel)
  have running : (after Words.crc32 ackRecords (brokerRuntime idleBroker)
      [.start, .command (run step idleBroker busyRun)]).process =
        some ⟨run step idleBroker busyRun, ({} : AOFWriter).attachExistingSeq 0⟩ := rfl
  obtain ⟨copy, writer, i, started, _, _, survives, _⟩ :=
    clean_restart_survives Words.crc32 ackRecords {} monotone_const le_rfl running lived [7]
  refine ⟨copy, writer, started, survives.idle "jobs" "m2", ?_, ?_⟩
  · rw [survives.messages, Option.map_map]
    decide +kernel
  · rw [survives.messages, Option.map_map]
    decide +kernel

end Lifecycle

end OneOpenBroker.Persistence

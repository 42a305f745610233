import OneOpenBroker.Broker.Pumps
import OneOpenBroker.Core.RaisingConsumers
import OneOpenBroker.Core.RestartOrder
import OneOpenBroker.Library.Rotation

/-! Work-conserving delivery. A turn that finds nobody has asked every consumer
of the queue, wherever the rotation stands, and a reservation that finds nothing
has left no message behind that can be delivered. The loops over reservations
end because each one takes an entry off the ready heap. -/
namespace OneOpenBroker.Core
open Collections QueueEngine Systems

namespace ConsumerManager

/-! ## The states -/

/-- The calls on the registry and on its engine. -/
inductive Call where
  | engine (persist : Bool) (op : EngineOp)
  | note (op : JournalOp)
  | register (consumerId connectionId : String) (queues : List String) (prefetchCount : Int)
      (tag : String)
  | qos (consumerId : String) (prefetchCount : Int)
  | onAck (consumerId : String)
  | cancel (consumerId : String)
  | disconnectConnection (connectionId : String) (order : List String)
  | tryReserve (queueName : String)

def after (c : ConsumerManager) (e : QueueEngine) : Call → ConsumerManager × QueueEngine
  | .engine persist op => (c, e.step persist op)
  | .note op => (c, e.append true op)
  | .register consumerId connectionId queues prefetchCount tag =>
    c.register e consumerId connectionId queues prefetchCount tag
  | .qos consumerId prefetchCount => ((c.qos consumerId prefetchCount).2, e)
  | .onAck consumerId => (c.onAck consumerId, e)
  | .cancel consumerId => (c.cancel e consumerId).2
  | .disconnectConnection connectionId order => (c.disconnectConnection e connectionId order).2
  | .tryReserve queueName => (c.tryReserve e queueName).2

/-- The states that the calls lead to in any order, with any rotation index of
any queue, and with restarts from the snapshots of other runs. -/
inductive Reachable : ConsumerManager → QueueEngine → Prop where
  | start (config : EngineConfig) (clock : Nat → ℚ) : Reachable {} { config, clock }
  | call {c : ConsumerManager} {e : QueueEngine} (reached : Reachable c e) (call : Call) :
      Reachable (c.after e call).1 (c.after e call).2
  | rotate {c : ConsumerManager} {e : QueueEngine} (reached : Reachable c e) {name : String}
      {queue : DurableQueue} (found : e.queues.get? name = some queue) (rrIndex : Nat) :
      Reachable c (e.putQueue name { queue with rrIndex })
  | restart {c c' : ConsumerManager} {e saved : QueueEngine} (reached : Reachable c e)
      (kept : Reachable c' saved) : Reachable {} (e.restoreState saved.snapshotState)

/-- The messages of the engine have their ways out, and the registry files its
consumers under their own ids and drops those that it cancels. -/
structure Intact (c : ConsumerManager) (e : QueueEngine) : Prop where
  named : e.Named
  live : e.Live
  keyed : ∀ id consumer, c.consumers.get? id = some consumer →
    consumer.consumerId = id ∧ consumer.cancelled = false

variable {c c' : ConsumerManager} {e e' : QueueEngine} {id m name : String} {queue : DurableQueue}
  {consumer : Consumer} {message : Message}

/-- Who takes turns on a queue, and where its rotation stands, is no matter of its messages. -/
theorem seated_live (live : e.Live) (found : e.queues.get? name = some queue)
    (consumerIds : List String) (rrIndex : Nat) :
    (e.putQueue name { queue with consumerIds, rrIndex }).Live := by
  have before := live name queue found
  exact Dict.All.set live ⟨⟨before.timed, before.waking⟩, before.placed⟩

theorem seated_named (named : e.Named) (found : e.queues.get? name = some queue) (rrIndex : Nat) :
    (e.putQueue name { queue with rrIndex }).Named :=
  have turned : Alike e (e.putQueue name { queue with rrIndex }) := putQueue_alike found rfl rfl rfl
  turned.named named

theorem join_live (named : e.Named) (live : e.Live) : (join id e name).Live := by
  have declared : (e.step true (.declareQueue name {})).Live := step_live named live _
  unfold join
  dsimp only
  split
  · exact declared
  · rename_i queue found
    split
    · exact declared
    · exact seated_live declared found _ queue.rrIndex

theorem join_named (named : e.Named) : (join id e name).Named := by
  refine join_preserves (fun e name named => ?_) (fun _ _ alike named => alike.named named) named
  have declared : (e.step true (.declareQueue name {})).Named := step_named named _
  exact declared

theorem joins_intact (intact : Intact c e) (queues : List String) :
    Intact c (queues.foldl (join id) e) := by
  induction queues generalizing e with
  | nil => exact intact
  | cons name rest ih =>
    exact ih ⟨join_named intact.named, join_live intact.named intact.live, intact.keyed⟩

theorem leaves_live (live : e.Live) (queues : List String) : (queues.foldl (leave id) e).Live := by
  induction queues generalizing e with
  | nil => exact live
  | cons name rest ih =>
    refine ih ?_
    unfold leave
    split
    · exact live
    · rename_i queue found
      exact seated_live live found _ queue.rrIndex

theorem updateQos_intact (intact : Intact c e) (id : String) (change : QoS → QoS) :
    Intact (c.updateQos id change) e := by
  refine ⟨intact.named, intact.live, fun other consumer found => ?_⟩
  rw [updateQos_get?] at found
  split at found
  · rename_i same
    obtain ⟨old, there, rfl⟩ := Option.map_eq_some_iff.mp found
    exact same ▸ intact.keyed id old there
  · exact intact.keyed other consumer found

theorem cancel_intact (intact : Intact c e) :
    Intact (c.cancel e id).2.1 (c.cancel e id).2.2 := by
  unfold cancel
  split
  · exact intact
  · rename_i consumer found
    have left : (consumer.queues.foldl (leave id) e).Named :=
      (leaves_alike id consumer.queues e).named intact.named
    have swept : ((consumer.queues.foldl (leave id) e).step true (.recoverConsumer id)).Named :=
      step_named left _
    refine ⟨swept, recoverConsumer_live left (leaves_live intact.live _),
      fun other consumer found => ?_⟩
    dsimp only at found
    rw [Dict.get?_erase] at found
    split at found
    · cases found
    · exact intact.keyed other consumer found

theorem cancelAll_intact (intact : Intact c e) (ids : List String) :
    Intact (cancelAll ids c e).2.1 (cancelAll ids c e).2.2 :=
  cancelAll_rule (fun _ _ _ intact => cancel_intact intact) ids intact

theorem tryReserve_intact (intact : Intact c e) (queueName : String) :
    Intact (c.tryReserve e queueName).2.1 (c.tryReserve e queueName).2.2 := by
  unfold tryReserve
  split
  · exact intact
  · rename_i queue found
    dsimp only
    have live := seated_live intact.live found queue.consumerIds (c.nextOn queue).1
    have named := seated_named intact.named found (c.nextOn queue).1
    split
    · exact ⟨named, live, intact.keyed⟩
    · rename_i consumerId consumer chosen
      generalize e.putQueue queueName { queue with rrIndex := (c.nextOn queue).1 } = turned at *
      have named' : (turned.step true (.reserve queueName consumerId)).Named := step_named named _
      have live' : (turned.reserve queueName consumerId).2.Live := reserve_live live
      have shape' : turned.step true (.reserve queueName consumerId) =
        (turned.reserve queueName consumerId).2 := rfl
      rw [shape'] at named'
      split
      · rename_i e' shape
        rw [shape] at named' live'
        exact ⟨named', live', intact.keyed⟩
      · rename_i message e' shape
        rw [shape] at named' live'
        have kept : Intact c e' := ⟨named', live', intact.keyed⟩
        exact updateQos_intact kept consumerId fun qos => qos.onDeliver.2

theorem call_intact (intact : Intact c e) (call : Call) :
    Intact (c.after e call).1 (c.after e call).2 := by
  cases call with
  | engine persist op =>
    exact ⟨step_named intact.named op, step_live intact.named intact.live op, intact.keyed⟩
  | note op => exact ⟨intact.named, intact.live, intact.keyed⟩
  | register consumerId connectionId queues prefetchCount tag =>
    have joined : Intact c (queues.foldl (join consumerId) e) := joins_intact intact queues
    refine ⟨joined.named, joined.live, fun other consumer found => ?_⟩
    have known : (c.register e consumerId connectionId queues prefetchCount tag).1.consumers.get?
      other = some consumer := found
    rw [register_get?] at known
    split at known
    · rename_i same
      cases known
      exact ⟨same.symm, rfl⟩
    · exact intact.keyed other consumer known
  | qos consumerId prefetchCount =>
    exact updateQos_intact intact consumerId fun qos => qos.setPrefetch prefetchCount
  | onAck consumerId => exact updateQos_intact intact consumerId QoS.onAck
  | cancel consumerId => exact cancel_intact intact
  | disconnectConnection connectionId order => exact cancelAll_intact intact _
  | tryReserve queueName => exact tryReserve_intact intact queueName

theorem Reachable.intact (reached : Reachable c e) : Intact c e := by
  induction reached with
  | start config clock => exact ⟨Dict.all_empty, Dict.all_empty, fun _ _ found => by simp at found⟩
  | call _ call intact => exact call_intact intact call
  | rotate _ found rrIndex intact =>
    exact ⟨seated_named intact.named found rrIndex, seated_live intact.live found _ rrIndex,
      intact.keyed⟩
  | restart _ _ _ kept =>
    exact ⟨restore_named kept.named, restore_live kept.named, fun _ _ found => by simp at found⟩

/-! ## Reservations -/

/-- Where someone is able, it is someone's turn. -/
theorem exists_turnOf {ids : List String} {turns index k : Nat} (within : k < turns)
    (here : ids[(index + k) % ids.length]? = some id) (able : c.Able id) :
    ∃ id, c.TurnOf ids turns index id := by
  induction k using Nat.strong_induction_on generalizing id with
  | _ k ih =>
    by_cases earlier : ∃ j < k, ∃ other, ids[(index + j) % ids.length]? = some other ∧ c.Able other
    · obtain ⟨j, before, other, there, able'⟩ := earlier
      exact ih j before (before.trans within) there able'
    · exact ⟨id, k, within, here, able, fun j before other there able' =>
        earlier ⟨j, before, other, there, able'⟩⟩

/-- If a full round of turns finds nobody, nobody is able. -/
theorem nextOn_none (nobody : (c.nextOn queue).2 = none) (member : id ∈ queue.consumerIds) :
    ¬ c.Able id := by
  intro able
  obtain ⟨k, within, here⟩ := Rotation.exists_turn member queue.rrIndex
  obtain ⟨other, turn⟩ := exists_turnOf within here able
  obtain ⟨consumer, chosen⟩ := nextConsumer_iff.mpr turn
  rw [nextOn, chosen] at nobody
  cases nobody

/-- No reservation is made only if nobody is able or nothing can be delivered. -/
theorem tryReserve_idle (intact : Intact c e) (found : e.queues.get? name = some queue)
    (nothing : (c.tryReserve e name).1 = none) :
    (∀ id ∈ queue.consumerIds, ¬ c.Able id) ∨ ∀ m, ¬ Waits queue m := by
  unfold tryReserve at nothing
  rw [found] at nothing
  dsimp only at nothing
  rcases chosen : (c.nextOn queue).2 with _ | ⟨consumerId, consumer⟩
  · exact .inl fun id member => nextOn_none chosen member
  · right
    rw [chosen] at nothing
    dsimp only at nothing
    have there : (e.putQueue name { queue with rrIndex := (c.nextOn queue).1 }).queues.get? name =
        some { queue with rrIndex := (c.nextOn queue).1 } := Dict.get?_set_self
    rcases reserve_cases (e.putQueue name { queue with rrIndex := (c.nextOn queue).1 }) name
      consumerId with ⟨_, _, _, _, reserves⟩ | ⟨_, ⟨_, absent⟩ | ⟨other, known, stale, _⟩⟩
    · rcases shape : (e.putQueue name { queue with rrIndex := (c.nextOn queue).1 }).reserve name
        consumerId with ⟨_ | message, e'⟩
      · have result := reserves.result
        rw [shape] at result
        cases result
      · rw [shape] at nothing
        cases nothing
    · rw [there] at absent
      cases absent
    · rw [there] at known
      obtain rfl := Option.some.inj known
      rintro m ⟨held, idle, awake⟩
      rcases (intact.live name queue found).placed m held with ⟨entry, listed, rfl⟩ | flying |
        waiting
      · rcases stale entry listed with gone | flying | waiting
        · exact gone held
        · exact idle flying
        · exact awake waiting
      · exact idle flying
      · exact awake waiting

/-! ## The loops -/

/-- The entries on the ready heap of a queue. -/
def readyEntries (e : QueueEngine) (name : String) : Nat :=
  ((e.queues.get? name).map (·.readyCount)).getD 0

theorem Takes.fewer (takes : c.Takes e name id consumer m message e') :
    readyEntries e' name < readyEntries e name := by
  obtain ⟨before, after, found, found', _, shorter⟩ := takes.shorter
  simpa [readyEntries, found, found'] using shorter

/-- Draining ends within one round more than there are ready entries. -/
theorem drainQueue_ends {rounds : Nat} (enough : readyEntries e name < rounds) :
    ∃ drained, ∀ rounds' ≥ rounds, c.drainQueue rounds' e name = some drained := by
  induction rounds generalizing c e with
  | zero => omega
  | succ rounds ih =>
    have more : ∀ rounds' ≥ rounds + 1, ∃ rest ≥ rounds, rounds' = rest + 1 :=
      fun rounds' larger => ⟨rounds' - 1, by omega, by omega⟩
    rcases tryReserve_cases c e name with ⟨e', nothing, _⟩ | ⟨id, consumer, m, message, e', takes⟩
    · refine ⟨([], c, e'), fun rounds' larger => ?_⟩
      obtain ⟨rest, _, rfl⟩ := more rounds' larger
      unfold drainQueue
      rw [nothing]
    · obtain ⟨⟨delivered, after⟩, ends⟩ := ih (c := c.updateQos id fun qos => qos.onDeliver.2)
        (takes.fewer.trans_le (Nat.le_of_lt_succ enough))
      refine ⟨(({ consumer with qos := consumer.qos.onDeliver.2 }, message) :: delivered, after),
        fun rounds' larger => ?_⟩
      obtain ⟨rest, left, rfl⟩ := more rounds' larger
      unfold drainQueue
      rw [takes.result]
      dsimp only
      rw [ends rest left]
      rfl

/-- Calls of `try_reserve` in a row, up to the first one that returns nothing. -/
inductive Drains (queueName : String) : ConsumerManager → QueueEngine → List (Consumer × Message) →
    ConsumerManager → QueueEngine → Prop where
  | done {c c' : ConsumerManager} {e e' : QueueEngine}
      (nothing : c.tryReserve e queueName = (none, c', e')) : Drains queueName c e [] c' e'
  | more {c c' c'' : ConsumerManager} {e e' e'' : QueueEngine} {item : Consumer × Message}
      {items : List (Consumer × Message)} (made : c.tryReserve e queueName = (some item, c', e'))
      (rest : Drains queueName c' e' items c'' e'') : Drains queueName c e (item :: items) c'' e''

/-- What the loop of `drain_queue` returns is what the calls return one by one. -/
theorem drainQueue_drains {rounds : Nat} {items : List (Consumer × Message)}
    (drained : c.drainQueue rounds e name = some (items, c', e')) : Drains name c e items c' e' := by
  induction rounds generalizing c e items with
  | zero => cases drained
  | succ rounds ih =>
    unfold drainQueue at drained
    rcases shape : c.tryReserve e name with ⟨_ | item, c'', e''⟩
    · rw [shape] at drained
      simp only [Option.some.injEq, Prod.mk.injEq] at drained
      obtain ⟨rfl, rfl, rfl⟩ := drained
      exact .done shape
    · rw [shape] at drained
      obtain ⟨⟨rest, after⟩, ends, same⟩ := Option.map_eq_some_iff.mp drained
      simp only [Prod.mk.injEq] at same
      obtain ⟨rfl, rfl⟩ := same
      exact .more shape (ih ends)

/-! ## Calls that may raise -/

/-- The calls on the engine that raises. The others never retry a message. -/
def raisingAfter (c : ConsumerManager) (e : QueueEngine) : Call → ConsumerManager × QueueEngine
  | .engine persist op => (c, Raising.step persist e op)
  | .cancel consumerId => (c.raisingCancel e consumerId).2
  | .disconnectConnection connectionId order => (c.raisingDisconnect e connectionId order).2
  | call => c.after e call

/-- The states that such calls lead to where they are allowed, again with any
rotation index and with restarts. -/
inductive RaisingReachable (allowed : ConsumerManager → QueueEngine → Call → Prop) :
    ConsumerManager → QueueEngine → Prop where
  | start (config : EngineConfig) (clock : Nat → ℚ) : RaisingReachable allowed {} { config, clock }
  | call {c : ConsumerManager} {e : QueueEngine} (reached : RaisingReachable allowed c e) (call : Call)
      (ok : allowed c e call) :
      RaisingReachable allowed (c.raisingAfter e call).1 (c.raisingAfter e call).2
  | rotate {c : ConsumerManager} {e : QueueEngine} (reached : RaisingReachable allowed c e)
      {name : String} {queue : DurableQueue} (found : e.queues.get? name = some queue)
      (rrIndex : Nat) : RaisingReachable allowed c (e.putQueue name { queue with rrIndex })
  | restart {c c' : ConsumerManager} {e saved : QueueEngine} (reached : RaisingReachable allowed c e)
      (kept : RaisingReachable allowed c' saved) :
      RaisingReachable allowed {} (e.restoreState saved.snapshotState)

/-- `retry_delay` returns a number in the call. -/
def CallHasDelays (c : ConsumerManager) (e : QueueEngine) : Call → Prop
  | .engine _ op => HasDelays e op
  | .cancel consumerId => HasDelays e (.recoverConsumer consumerId)
  | .disconnectConnection connectionId _ =>
    Clear (fun _ record => record.consumerId ∈ c.listed connectionId) e
  | _ => True

theorem raisingAfter_agrees (named : e.Named) {call : Call} (delays : CallHasDelays c e call) :
    c.raisingAfter e call = c.after e call := by
  cases call with
  | engine persist op =>
    change (c, Raising.step persist e op) = _
    rw [step_agrees named delays]
    rfl
  | cancel consumerId =>
    change (c.raisingCancel e consumerId).2 = _
    rw [cancel_agrees named delays]
    rfl
  | disconnectConnection connectionId order =>
    change (c.raisingDisconnect e connectionId order).2 = _
    rw [disconnect_agrees named delays]
    rfl
  | note | register | qos | onAck | tryReserve => rfl

theorem RaisingReachable.plain (reached : RaisingReachable CallHasDelays c e) : Reachable c e := by
  induction reached with
  | start config clock => exact .start config clock
  | call _ call ok plain =>
    rw [raisingAfter_agrees plain.intact.named ok]
    exact plain.call call
  | rotate _ found rrIndex plain => exact plain.rotate found rrIndex
  | restart _ _ plain kept => exact plain.restart kept

/-- The same calls on the registry and the engine as one state. -/
def raisingStep (s : ConsumerManager × QueueEngine) (call : Call) : ConsumerManager × QueueEngine :=
  s.1.raisingAfter s.2 call

theorem raisingReachable_run {allowed : ConsumerManager → QueueEngine → Call → Prop} {calls : List Call}
    {s : ConsumerManager × QueueEngine} (reached : RaisingReachable allowed s.1 s.2)
    (ok : Allowed raisingStep (fun s call => allowed s.1 s.2 call) s calls) :
    RaisingReachable allowed (run raisingStep s calls).1 (run raisingStep s calls).2 :=
  run_preserves (I := fun s : ConsumerManager × QueueEngine => RaisingReachable allowed s.1 s.2)
    (fun _ call reached ok => reached.call call ok) reached ok

/-- One consumer has its window full, the other one has no limit, and it is the
turn of the first. -/
def staffed : ConsumerManager × QueueEngine :=
  run raisingStep ({}, created) [
    .register "first" "wire" ["jobs"] 1 "", .register "second" "wire" ["jobs"] 0 "",
    .engine true (.enqueue { id := "m1", queue := "jobs", payload := [1], createdAt := 0 }),
    .tryReserve "jobs", .tryReserve "jobs",
    .engine true (.enqueue { id := "m2", queue := "jobs", payload := [2], createdAt := 0 })]

/-- A message fails for the 1025th time, and then a consumer without a limit
registers for its queue. -/
def strandedCalls : List Call :=
  Raising.strandedRun.map (.engine false) ++ [.register "worker" "wire" ["jobs"] 0 ""]

theorem run_engine (ops : List EngineOp) (c : ConsumerManager) (e : QueueEngine) :
    run raisingStep (c, e) (ops.map (.engine false)) = (c, run (Raising.step false) e ops) := by
  induction ops generalizing e with
  | nil => rfl
  | cons op rest ih => exact ih (Raising.step false e op)

end ConsumerManager
end OneOpenBroker.Core

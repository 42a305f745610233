import OneOpenBroker.Broker.ServerRuns

/-! The gate of the server: `_on_connect` turns a connection away when the
metrics count as many as the configuration allows, and `_drop` counts one out
after its consumers are cancelled. A cancellation that raises keeps `_drop` from
counting, so the count is that of the connections and of the cleanups that
failed, and a failed cleanup takes a place for good. -/
namespace OneOpenBroker.Broker
open Collections OneOpenBroker.Core Systems

/-- The connections of `MetricsRegistry`. -/
structure Metrics where
  connections : Nat := 0
  totalConnections : Nat := 0

def Metrics.onConnect (m : Metrics) : Metrics :=
  { connections := m.connections + 1, totalConnections := m.totalConnections + 1 }

def Metrics.onDisconnect (m : Metrics) : Metrics :=
  if 0 < m.connections then { m with connections := m.connections - 1 } else m

/-- The server with its metrics. The last field only records which cleanups failed. -/
structure Gate where
  server : Server
  maxConnections : Int
  metrics : Metrics := {}
  stuck : List String := []

namespace Gate

/-- `_on_connect`. A connection that is turned away is closed at once. -/
def accept (g : Gate) (connectionId : String) : Gate :=
  if g.maxConnections ≤ g.metrics.connections then g
  else { g with server := g.server.accept connectionId, metrics := g.metrics.onConnect }

/-- `_drop`, with the metrics after the consumers were cancelled. -/
def drop (g : Gate) (connectionId : String) (order : List String) : Gate :=
  let server := g.server.drop connectionId order
  if connectionId ∈ g.server.connections then
    if (g.server.handler.drop connectionId order).1 then { g with server, metrics := g.metrics.onDisconnect }
    else { g with server, stuck := connectionId :: g.stuck }
  else { g with server }

/-- The read loop of a connection is over. -/
def leave (g : Gate) (connectionId : String) (order : List String) : Gate :=
  let dropped := g.drop connectionId order
  { dropped with server := { dropped.server with loops := g.server.loops.erase connectionId } }

def step (g : Gate) : ServerEvent → Gate
  | .accept connectionId =>
    if g.server.running.isNone ∧ connectionId ∉ g.server.known then g.accept connectionId else g
  | .leave connectionId order =>
    match g.server.running, g.server.loops.get? connectionId with
    | none, some .reading | none, some .leaving => g.leave connectionId order
    | some (running, _), some _ =>
      if running = connectionId then
        let left := g.leave connectionId order
        { left with server := { left.server with running := none } }
      else g
    | _, _ => g
  | .dropSlow connectionId order =>
    if g.server.running.isNone ∧ connectionId ∈ g.server.slow then
      let dropped := g.drop connectionId order
      { dropped with server := { dropped.server with slow := g.server.slow.erase connectionId } }
    else g
  | event => { g with server := g.server.step event }

/-- A server that was just started, with its limit. -/
def opened (config : EngineConfig) (clock : Nat → ℚ) (sends : Nat → Bool) (fsync : Fsync)
    (maxConnections : Int) : Gate :=
  { server := .started config clock sends fsync, maxConnections }

end Gate

/-! ## The register of the connections -/

/-- The connections of a server, those it ever had, and those it dropped. -/
structure SameRegister (s s' : Server) : Prop where
  connections : s'.connections = s.connections
  known : s'.known = s.known
  dropped : s'.dropped = s.dropped

namespace Server

variable {s s' : Server} {connectionId : String} {rest : List Frame}

theorem proceed_register (same : SameRegister s s') : SameRegister s (s'.proceed connectionId rest) := by
  unfold proceed
  split
  · exact ⟨same.connections, same.known, same.dropped⟩
  · exact ⟨same.connections, same.known, same.dropped⟩

theorem resume_register (same : SameRegister s s') :
    SameRegister s (s'.disconnectSlow.proceed connectionId rest) := by
  apply proceed_register
  exact ⟨same.connections, same.known, same.dropped⟩

theorem serve_register {frame : Frame} {room : Bool} :
    SameRegister s (s.serve connectionId frame rest room) := by
  have answered : SameRegister s (s.answer connectionId frame room).2 := by
    unfold answer
    dsimp only
    split <;> exact ⟨rfl, rfl, rfl⟩
  unfold serve
  split
  · rename_i shape
    rw [shape] at answered
    unfold awaitDurable
    split
    · exact ⟨answered.connections, answered.known, answered.dropped⟩
    · exact resume_register answered
  · rename_i shape
    rw [shape] at answered
    exact ⟨answered.connections, answered.known, answered.dropped⟩

/-- What `_drop` does to the register. -/
theorem drop_register (order : List String) (there : connectionId ∈ s.connections) :
    (s.drop connectionId order).connections = s.connections.filter (· ≠ connectionId) ∧
    (s.drop connectionId order).known = s.known ∧
    (s.drop connectionId order).dropped = connectionId :: s.dropped := by
  unfold drop
  rw [if_pos there]
  exact ⟨rfl, rfl, rfl⟩

/-- Only connecting and dropping change the register. -/
theorem step_register {event : ServerEvent} (connects : ∀ id, event ≠ .accept id)
    (leaves : ∀ id order, event ≠ .leave id order) (drops : ∀ id order, event ≠ .dropSlow id order) :
    SameRegister s (s.step event) := by
  have same : SameRegister s s := ⟨rfl, rfl, rfl⟩
  cases event with
  | accept id => exact absurd rfl (connects id)
  | leave id order => exact absurd rfl (leaves id order)
  | dropSlow id order => exact absurd rfl (drops id order)
  | receive id frames =>
    unfold step
    dsimp only
    split
    · exact proceed_register same
    · exact same
  | serve room =>
    unfold step
    dsimp only
    split
    · exact serve_register
    · exact same
  | resume id =>
    unfold step
    dsimp only
    split
    · split
      · exact same
      · exact resume_register same
    · exact same
  | write due => exact ⟨rfl, rfl, rfl⟩
  | ticker | take | resolve =>
    unfold step
    dsimp only
    split <;> exact ⟨rfl, rfl, rfl⟩

end Server

namespace Gate

variable {g g' : Gate} {connectionId : String} {order : List String} {event : ServerEvent}

/-! ## The count -/

/-- The count is that of the connections and of the cleanups that failed, it
stays within the limit, and each connection is there or was dropped once. -/
structure Counted (g : Gate) : Prop where
  count : g.metrics.connections = g.server.connections.length + g.stuck.length
  total : g.metrics.totalConnections = g.server.known.length
  limit : (g.metrics.connections : Int) ≤ max 0 g.maxConnections
  parts : g.server.known.Perm (g.server.connections ++ g.server.dropped)
  distinct : g.server.known.Nodup
  failed : g.stuck.Sublist g.server.dropped

/-- What the count does not depend on. -/
theorem Counted.frame (counted : Counted g) (register : SameRegister g.server g'.server)
    (metrics : g'.metrics = g.metrics) (limit : g'.maxConnections = g.maxConnections)
    (stuck : g'.stuck = g.stuck) : Counted g' := by
  obtain ⟨connections, known, dropped⟩ := register
  constructor
  · rw [metrics, connections, stuck, counted.count]
  · rw [metrics, known, counted.total]
  · rw [metrics, limit]
    exact counted.limit
  · rw [known, connections, dropped]
    exact counted.parts
  · rw [known]
    exact counted.distinct
  · rw [stuck, dropped]
    exact counted.failed

theorem Counted.accept (counted : Counted g) (new : connectionId ∉ g.server.known) :
    Counted (g.accept connectionId) := by
  unfold Gate.accept
  split
  · exact counted
  · rename_i open'
    constructor
    · have count := counted.count
      simp only [Metrics.onConnect, Server.accept, List.length_append, List.length_singleton]
      omega
    · simp [Metrics.onConnect, Server.accept, counted.total]
    · simp only [Metrics.onConnect]
      omega
    · have moved : (connectionId :: (g.server.connections ++ g.server.dropped)).Perm
          (g.server.connections ++ [connectionId] ++ g.server.dropped) := by
        rw [List.append_assoc]
        exact List.perm_middle.symm
      exact (counted.parts.cons connectionId).trans moved
    · exact List.nodup_cons.mpr ⟨new, counted.distinct⟩
    · exact counted.failed

/-- Taking a connection out of the register. -/
theorem Counted.taken (counted : Counted g) (there : connectionId ∈ g.server.connections) :
    (g.server.connections.filter (· ≠ connectionId)).length + 1 = g.server.connections.length ∧
    g.server.known.Perm (g.server.connections.filter (· ≠ connectionId) ++ connectionId :: g.server.dropped) := by
  have whole : (g.server.connections ++ g.server.dropped).Nodup := counted.parts.nodup counted.distinct
  have rest : g.server.connections.filter (· ≠ connectionId) = g.server.connections.erase connectionId := by
    rw [whole.of_append_left.erase_eq_filter]
    exact List.filter_congr fun _ _ => Bool.eq_iff_iff.mpr (by simp)
  rw [rest]
  constructor
  · have some : 0 < g.server.connections.length := List.length_pos_of_mem there
    rw [List.length_erase_of_mem there]
    omega
  · refine counted.parts.trans (((List.perm_cons_erase there).append_right _).trans ?_)
    exact List.perm_middle.symm

/-- A connection that is dropped leaves its place, unless its cleanup failed. -/
theorem Counted.drop (counted : Counted g) : Counted (g.drop connectionId order) := by
  unfold Gate.drop
  dsimp only
  by_cases there : connectionId ∈ g.server.connections
  · obtain ⟨connections, known, dropped⟩ := Server.drop_register order there
    obtain ⟨fewer, parts⟩ := counted.taken there
    have count := counted.count
    have limit := counted.limit
    rw [if_pos there]
    split
    · have less : g.metrics.onDisconnect =
          { g.metrics with connections := g.metrics.connections - 1 } := if_pos (by omega)
      refine ⟨?_, ?_, ?_, ?_, known ▸ counted.distinct, dropped ▸ counted.failed.cons connectionId⟩ <;>
        dsimp only
      · rw [less, connections]
        dsimp only
        omega
      · rw [less, known]
        exact counted.total
      · rw [less]
        dsimp only
        omega
      · rw [known, connections, dropped]
        exact parts
    · refine ⟨?_, ?_, limit, ?_, known ▸ counted.distinct, dropped ▸ counted.failed.cons_cons connectionId⟩ <;>
        dsimp only
      · rw [connections, List.length_cons]
        omega
      · rw [known]
        exact counted.total
      · rw [known, connections, dropped]
        exact parts
  · rw [if_neg there]
    refine counted.frame ?_ rfl rfl rfl
    unfold Server.drop
    rw [if_neg there]
    exact ⟨rfl, rfl, rfl⟩

theorem Counted.leave (counted : Counted g) : Counted (g.leave connectionId order) :=
  counted.drop.frame ⟨rfl, rfl, rfl⟩ rfl rfl rfl

/-- The other steps are those of the server. -/
theorem Counted.inside (counted : Counted g) (event : ServerEvent) (connects : ∀ id, event ≠ .accept id)
    (leaves : ∀ id order, event ≠ .leave id order) (drops : ∀ id order, event ≠ .dropSlow id order) :
    Counted { g with server := g.server.step event } :=
  counted.frame (Server.step_register connects leaves drops) rfl rfl rfl

theorem Counted.step (counted : Counted g) (event : ServerEvent) : Counted (g.step event) := by
  cases event with
  | accept connectionId =>
    unfold Gate.step
    dsimp only
    split
    · rename_i new
      exact counted.accept new.2
    · exact counted
  | leave connectionId order =>
    unfold Gate.step
    dsimp only
    split
    · exact counted.leave
    · exact counted.leave
    · split
      · exact counted.leave.frame ⟨rfl, rfl, rfl⟩ rfl rfl rfl
      · exact counted
    · exact counted
  | dropSlow connectionId order =>
    unfold Gate.step
    dsimp only
    split
    · exact counted.drop.frame ⟨rfl, rfl, rfl⟩ rfl rfl rfl
    · exact counted
  | receive connectionId frames => exact counted.inside (.receive connectionId frames) (by simp) (by simp) (by simp)
  | serve room => exact counted.inside (.serve room) (by simp) (by simp) (by simp)
  | resume connectionId => exact counted.inside (.resume connectionId) (by simp) (by simp) (by simp)
  | ticker => exact counted.inside .ticker (by simp) (by simp) (by simp)
  | take => exact counted.inside .take (by simp) (by simp) (by simp)
  | write due => exact counted.inside (.write due) (by simp) (by simp) (by simp)
  | resolve => exact counted.inside .resolve (by simp) (by simp) (by simp)

/-! ## The server behind the gate -/

theorem drop_server : (g.drop connectionId order).server = g.server.drop connectionId order := by
  unfold Gate.drop
  dsimp only
  split
  · split <;> rfl
  · rfl

theorem leave_server : (g.leave connectionId order).server =
    { g.server.drop connectionId order with loops := g.server.loops.erase connectionId } := by
  simp [Gate.leave, drop_server]

/-- The gate lets the server do what it would do, or turns a connection away. -/
theorem step_server (g : Gate) (event : ServerEvent) : (g.step event).server = g.server.step event ∨
    g.maxConnections ≤ g.metrics.connections ∧ g.step event = g ∧ ∃ id, event = .accept id := by
  cases event with
  | accept connectionId =>
    unfold Gate.step Server.step
    dsimp only
    split
    · unfold Gate.accept
      split
      · rename_i full
        exact .inr ⟨full, rfl, connectionId, rfl⟩
      · exact .inl rfl
    · exact .inl rfl
  | leave connectionId order =>
    refine .inl ?_
    cases running : g.server.running with
    | none =>
      cases loop : g.server.loops.get? connectionId with
      | none => simp [Gate.step, Server.step, running, loop]
      | some state => cases state <;> simp [Gate.step, Server.step, running, loop, leave_server]
    | some current =>
      cases loop : g.server.loops.get? connectionId with
      | none => simp [Gate.step, Server.step, running, loop]
      | some state =>
        by_cases same : current.1 = connectionId <;>
          simp [Gate.step, Server.step, running, loop, same, leave_server]
  | dropSlow connectionId order =>
    refine .inl ?_
    unfold Gate.step Server.step
    dsimp only
    split
    · rw [drop_server]
    · rfl
  | receive | serve | resume | ticker | take | write | resolve => exact .inl rfl

/-! ## Places that are lost -/

theorem accept_fixed : (g.accept connectionId).maxConnections = g.maxConnections ∧
    (g.accept connectionId).stuck = g.stuck := by
  unfold Gate.accept
  split <;> exact ⟨rfl, rfl⟩

theorem drop_stuck : (g.drop connectionId order).maxConnections = g.maxConnections ∧
    g.stuck <:+ (g.drop connectionId order).stuck := by
  unfold Gate.drop
  dsimp only
  split
  · split
    · exact ⟨rfl, List.suffix_refl _⟩
    · exact ⟨rfl, List.suffix_cons _ _⟩
  · exact ⟨rfl, List.suffix_refl _⟩

/-- A cleanup that failed is never made up for. -/
theorem step_stuck (g : Gate) (event : ServerEvent) :
    (g.step event).maxConnections = g.maxConnections ∧ g.stuck <:+ (g.step event).stuck := by
  cases event with
  | accept connectionId =>
    unfold Gate.step
    dsimp only
    split
    · exact ⟨accept_fixed.1, accept_fixed.2 ▸ List.suffix_refl _⟩
    · exact ⟨rfl, List.suffix_refl _⟩
  | leave connectionId order =>
    unfold Gate.step
    dsimp only
    split
    · exact drop_stuck
    · exact drop_stuck
    · split
      · exact drop_stuck
      · exact ⟨rfl, List.suffix_refl _⟩
    · exact ⟨rfl, List.suffix_refl _⟩
  | dropSlow connectionId order =>
    unfold Gate.step
    dsimp only
    split
    · exact drop_stuck
    · exact ⟨rfl, List.suffix_refl _⟩
  | receive | serve | resume | ticker | take | write | resolve => exact ⟨rfl, List.suffix_refl _⟩

/-- Who is let in. -/
theorem accept_known (g : Gate) (connectionId : String) :
    (g.step (.accept connectionId)).server.known = connectionId :: g.server.known ↔
      g.server.running = none ∧ connectionId ∉ g.server.known ∧ (g.metrics.connections : Int) < g.maxConnections := by
  have away : g.server.known ≠ connectionId :: g.server.known := fun same => by
    have shorter := congrArg List.length same
    simp at shorter
  unfold Gate.step
  dsimp only
  split
  · rename_i free
    unfold Gate.accept
    split
    · rename_i full
      exact iff_of_false away fun ⟨_, _, room⟩ => by omega
    · rename_i room
      exact iff_of_true rfl ⟨Option.isNone_iff_eq_none.mp free.1, free.2, by omega⟩
  · rename_i busy
    exact iff_of_false away fun ⟨idle, new, _⟩ => busy ⟨by rw [idle]; rfl, new⟩

/-- A gate with no place left lets nobody in. -/
theorem step_shut (counted : Counted g) (lost : g.maxConnections ≤ g.stuck.length) (event : ServerEvent) :
    (g.step event).server.known = g.server.known := by
  have count := counted.count
  rcases step_server g event with same | ⟨_, same, _⟩
  · by_cases connects : ∃ id, event = .accept id
    · obtain ⟨id, rfl⟩ := connects
      unfold Gate.step
      dsimp only
      split
      · unfold Gate.accept
        rw [if_pos (by omega)]
      · rfl
    · by_cases leaves : ∃ id order, event = .leave id order ∨ event = .dropSlow id order
      · obtain ⟨id, order, leaves⟩ := leaves
        have kept : (g.server.drop id order).known = g.server.known := by
          by_cases there : id ∈ g.server.connections
          · exact (Server.drop_register _ there).2.1
          · unfold Server.drop
            rw [if_neg there]
        rw [same]
        rcases leaves with rfl | rfl
        · unfold Server.step
          dsimp only
          split
          · exact kept
          · exact kept
          · split
            · exact kept
            · rfl
          · rfl
        · unfold Server.step
          dsimp only
          split
          · exact kept
          · rfl
      · rw [same]
        exact (Server.step_register (fun id same => connects ⟨id, same⟩)
          (fun id order same => leaves ⟨id, order, .inl same⟩)
          fun id order same => leaves ⟨id, order, .inr same⟩).known
  · rw [same]

/-! ## Runs -/

theorem opened_counted (config : EngineConfig) (clock : Nat → ℚ) (sends : Nat → Bool) (fsync : Fsync)
    (maxConnections : Int) : Counted (opened config clock sends fsync maxConnections) where
  count := rfl
  total := rfl
  limit := Int.le_max_left 0 maxConnections
  parts := .nil
  distinct := List.nodup_nil
  failed := .slnil

theorem run_shut {events : List ServerEvent} (counted : Counted g) (lost : g.maxConnections ≤ g.stuck.length) :
    (run step g events).server.known = g.server.known := by
  induction events generalizing g with
  | nil => rfl
  | cons event rest ih =>
    obtain ⟨limit, grows⟩ := step_stuck g event
    have more := grows.length_le
    exact (ih (counted.step event) (by rw [limit]; omega)).trans (step_shut counted lost event)

/-- **Places of a server.** In every run the connections and the cleanups that
failed together are what the metrics count, and never more than the limit; each
connection that was ever let in is there or was dropped once; a new one is let in
exactly if there is a place; and when cleanups that failed hold all the places,
nobody is let in any more. -/
theorem places_counted (config : EngineConfig) (clock : Nat → ℚ) (sends : Nat → Bool) (fsync : Fsync)
    (maxConnections : Int) {events : List ServerEvent} {g : Gate}
    (reached : run step (opened config clock sends fsync maxConnections) events = g) :
    g.metrics.connections = g.server.connections.length + g.stuck.length ∧
    (g.metrics.connections : Int) ≤ max 0 maxConnections ∧
    g.metrics.totalConnections = g.server.known.length ∧
    (g.server.known.Perm (g.server.connections ++ g.server.dropped) ∧ g.server.known.Nodup) ∧
    (∀ id, (g.step (.accept id)).server.known = id :: g.server.known ↔
      g.server.running = none ∧ id ∉ g.server.known ∧
        (g.server.connections.length + g.stuck.length : Int) < maxConnections) ∧
    (maxConnections ≤ g.stuck.length → ∀ more, (run step g more).server.known = g.server.known) := by
  have counted : Counted g ∧ g.maxConnections = maxConnections := by
    subst reached
    refine run_invariant (I := fun g => Counted g ∧ g.maxConnections = maxConnections) (fun g event inv => ?_)
      ⟨opened_counted .., rfl⟩
    exact ⟨inv.1.step event, (step_stuck g event).1.trans inv.2⟩
  obtain ⟨counted, rfl⟩ := counted
  refine ⟨counted.count, counted.limit, counted.total, ⟨counted.parts, counted.distinct⟩, fun id => ?_,
    fun lost more => run_shut counted lost⟩
  rw [accept_known, counted.count]
  simp

/-- The only place is lost with a connection whose consumer cannot be cancelled:
its last attempt failed, and the dead-letter queue was deleted. -/
def lostPlace : List ServerEvent := [
  .accept "c1",
  .receive "c1" [
    .command (.publish { payload := [1], queue := some "jobs", maxAttempts := some 1 } fun _ => ⟨"m1", 0⟩),
    .command (.deleteQueue "jobs.DLQ"),
    .command (.consume ["jobs"] "" "worker" none "" .u1)],
  .serve true, .serve true, .serve true, .leave "c1" ["worker"]]

def lastPlace : Gate := run step (opened {} (fun _ => 0) (fun _ => true) .none 1) lostPlace

theorem places_counted_lost : lastPlace.server.connections = [] ∧
    ∀ more, (run step lastPlace more).server.known = ["c1"] := by
  have stuck : lastPlace.stuck = ["c1"] := by decide +kernel
  have known : lastPlace.server.known = ["c1"] := by decide +kernel
  have places := places_counted {} (fun _ => 0) (fun _ => true) .none 1
    (show run step (opened {} (fun _ => 0) (fun _ => true) .none 1) lostPlace = lastPlace from rfl)
  refine ⟨by decide +kernel, fun more => ?_⟩
  rw [← known]
  exact places.2.2.2.2.2 (by rw [stuck]; decide) more

end Gate
end OneOpenBroker.Broker

import OneOpenBroker.Library.Runs
import OneOpenBroker.Pubsub.Subscriptions
import OneOpenBroker.Security.Introspection

/-! The engine with its counters, and runs of all its operations. The two
tables mirror each other after any of them. What `disconnect` leaves of a
connection with channels is an empty set: it removes the set first, and
`unsubscribe` brings it back when it discards from it. -/
namespace OneOpenBroker.Pubsub
open Collections Systems OneOpenBroker.Security

/-- The engine with its counters. -/
structure Hub where
  engine : PubSubEngine := {}
  stats : Dict String ChannelStats := ∅
  totalPublished : Nat := 0
  totalFanout : Nat := 0

/-- A row of `list_channels`. -/
structure ChannelRow where
  channel : String
  subscribers : Nat
  published : Nat
  fanout : Nat

/-- `send_event`, with the state of what is behind it. -/
abbrev SendEvent (σ : Type*) := String → List UInt8 → σ → Bool × σ

inductive PubSubOp (σ : Type*) where
  | subscribe (connectionId channel : String)
  | unsubscribe (connectionId channel : String)
  | disconnect (connectionId : String)
  | publish (channel : String) (payload : List UInt8) (sendEvent : SendEvent σ)
  | listChannels

/-- What the loop of `publish` has done so far. -/
structure Fanned (σ : Type*) where
  hub : Hub
  world : σ
  delivered : Nat := 0
  slow : List String := []

namespace Hub

variable {σ : Type*}

/-- A change to the counters of a channel, which are there from the first
look at them. -/
def count (h : Hub) (channel : String) (change : ChannelStats → ChannelStats) : Hub :=
  { h with stats := h.stats.set channel (change ((h.stats.get? channel).getD {})) }

/-- A round of the loop of `publish`. -/
def sendTo (channel : String) (payload : List UInt8) (sendEvent : SendEvent σ) (f : Fanned σ)
    (connectionId : String) : Fanned σ :=
  let (ok, world) := sendEvent connectionId payload f.world
  if ok then
    let hub := { f.hub with totalFanout := f.hub.totalFanout + 1 }
    { f with
      hub := hub.count channel fun stats => { stats with fanout := stats.fanout + 1 }
      world
      delivered := f.delivered + 1 }
  else
    { f with
      hub := f.hub.count channel fun stats => { stats with slowDrops := stats.slowDrops + 1 }
      world
      slow := f.slow ++ [connectionId] }

def publish (h : Hub) (channel : String) (payload : List UInt8) (sendEvent : SendEvent σ) (world : σ) :
    Fanned σ :=
  let hub := { h with totalPublished := h.totalPublished + 1 }
  let hub := hub.count channel fun stats => { stats with published := stats.published + 1 }
  (h.engine.subscribers channel).foldl (sendTo channel payload sendEvent) { hub, world }

/-- The names that `list_channels` goes through. -/
def names (h : Hub) : List String :=
  Core.RoutingEngine.sortedNames (h.engine.subs.keys ++ h.stats.keys)

def listChannels (h : Hub) : List ChannelRow × Hub :=
  let stats := h.names.foldl touch h.stats
  (h.names.map fun name =>
    let counters := (stats.get? name).getD {}
    { channel := name
      subscribers := (h.engine.subscribers name).length
      published := counters.published
      fanout := counters.fanout },
   { h with stats })

def step (s : Hub × σ) : PubSubOp σ → Hub × σ
  | .subscribe connectionId channel =>
    ({ s.1 with engine := s.1.engine.subscribe connectionId channel }, s.2)
  | .unsubscribe connectionId channel =>
    ({ s.1 with engine := (s.1.engine.unsubscribe connectionId channel).2 }, s.2)
  | .disconnect connectionId => ({ s.1 with engine := s.1.engine.disconnect connectionId }, s.2)
  | .publish channel payload sendEvent =>
    let fanned := s.1.publish channel payload sendEvent s.2
    (fanned.hub, fanned.world)
  | .listChannels => (s.1.listChannels.2, s.2)

/-- The answer that is made of a row. -/
def rowEntries (row : ChannelRow) : List (String × Untyped.Value) := [
  ("channel", string row.channel), ("subscribers", integer row.subscribers),
  ("published", integer row.published), ("fanout", integer row.fanout)]

/-- Clients are told what the engine lists. -/
theorem listChannels_eq (r : Runtime) :
    let listed := listChannels { engine := r.handler.pubsub, stats := r.stats }
    r.listChannels.1 = listed.1.map (fun row => dict (rowEntries row)) ∧
      r.listChannels.2.stats = listed.2.stats := by
  refine ⟨?_, rfl⟩
  simp only [Runtime.listChannels, listChannels, List.map_map]
  rfl

end Hub

/-! ## The two tables -/

namespace PubSubEngine

variable {p : PubSubEngine} {connectionId other channel name : String}

/-- The tables say the same. -/
structure Mirrored (p : PubSubEngine) : Prop extends Linked p where
  sets : ∀ connectionId, (p.channels connectionId).Nodup
  subscribed : ∀ connectionId channel, channel ∈ p.channels connectionId →
    connectionId ∈ p.subscribers channel

theorem Mirrored.iff (mirrored : Mirrored p) :
    connectionId ∈ p.subscribers channel ↔ channel ∈ p.channels connectionId :=
  ⟨mirrored.listed channel connectionId, mirrored.subscribed connectionId channel⟩

theorem mirrored_empty : Mirrored {} :=
  ⟨linked_empty, fun _ => List.nodup_nil, fun _ _ member => nomatch member⟩

theorem subscribe_channels : (p.subscribe connectionId channel).channels other =
    if other = connectionId then (p.channels connectionId).insert channel else p.channels other := by
  simp only [channels, subscribe, Dict.get?_set]
  split <;> rfl

theorem Mirrored.subscribe (mirrored : Mirrored p) :
    Mirrored (p.subscribe connectionId channel) := by
  refine ⟨mirrored.toLinked.subscribe, fun other => ?_, fun other name member => ?_⟩
  · rw [subscribe_channels]
    split
    · exact (mirrored.sets connectionId).insert
    · exact mirrored.sets other
  · rw [subscribe_channels] at member
    rw [mem_subscribe]
    split at member
    · rename_i same
      subst same
      rcases List.mem_insert_iff.mp member with rfl | before
      · exact .inr ⟨rfl, rfl⟩
      · exact .inl (mirrored.subscribed other name before)
    · exact .inl (mirrored.subscribed other name member)

theorem unsubscribe_own (known : connectionId ∈ p.subscribers channel) :
    (p.unsubscribe connectionId channel).2.channels connectionId =
      (p.channels connectionId).erase channel := by
  simp [unsubscribe, known, channels]

theorem unsubscribe_unknown (unknown : connectionId ∉ p.subscribers channel) :
    p.unsubscribe connectionId channel = (false, p) := by
  simp [unsubscribe, unknown]

theorem Mirrored.unsubscribe (mirrored : Mirrored p) :
    Mirrored (p.unsubscribe connectionId channel).2 := by
  by_cases known : connectionId ∈ p.subscribers channel
  · refine ⟨mirrored.toLinked.unsubscribe, fun other => ?_, fun other name member => ?_⟩
    · by_cases same : other = connectionId
      · subst same
        rw [unsubscribe_own known]
        exact (mirrored.sets other).erase channel
      · rw [unsubscribe_channels same]
        exact mirrored.sets other
    · rw [mem_unsubscribe mirrored.distinct]
      by_cases same : other = connectionId
      · subst same
        rw [unsubscribe_own known, (mirrored.sets other).mem_erase_iff] at member
        exact ⟨mirrored.subscribed other name member.2, fun both => member.1 both.2⟩
      · rw [unsubscribe_channels same] at member
        exact ⟨mirrored.subscribed other name member, fun both => same both.1⟩
  · rw [unsubscribe_unknown known]
    exact mirrored

/-! ## Disconnecting -/

/-- The loop of `disconnect`. -/
def unsubscribes (connectionId : String) (names : List String) (p : PubSubEngine) : PubSubEngine :=
  names.foldl (fun p channel => (p.unsubscribe connectionId channel).2) p

/-- Discarding from a set makes no set of the others. -/
theorem unsubscribe_keys : other ∈ (p.unsubscribe connectionId channel).2.byConnection ↔
    other ∈ p.byConnection ∨ connectionId ∈ p.subscribers channel ∧ other = connectionId := by
  by_cases known : connectionId ∈ p.subscribers channel
  · simp [unsubscribe, known, or_comm]
  · simp [unsubscribe_unknown known, known]

theorem unsubscribes_keys (names : List String) (there : other ∈ p.byConnection) :
    other ∈ (unsubscribes connectionId names p).byConnection := by
  induction names generalizing p with
  | nil => exact there
  | cons channel rest ih => exact ih (unsubscribe_keys.mpr (.inl there))

theorem unsubscribes_others (names : List String) (differ : other ≠ connectionId)
    (absent : other ∉ p.byConnection) :
    other ∉ (unsubscribes connectionId names p).byConnection := by
  induction names generalizing p with
  | nil => exact absent
  | cons channel rest ih => exact ih (by simp [unsubscribe_keys, absent, differ])

theorem unsubscribes_own (names : List String) (bare : p.channels connectionId = []) :
    (unsubscribes connectionId names p).channels connectionId = [] := by
  induction names generalizing p with
  | nil => exact bare
  | cons channel rest ih =>
    apply ih
    dsimp only
    by_cases known : connectionId ∈ p.subscribers channel
    · rw [unsubscribe_own known, bare]
      rfl
    · rw [unsubscribe_unknown known]
      exact bare

theorem Mirrored.disconnect (mirrored : Mirrored p) : Mirrored (p.disconnect connectionId) := by
  obtain ⟨_, _, channels⟩ := mem_unsubscribes connectionId (p.channels connectionId)
    (p := { p with byConnection := p.byConnection.erase connectionId }) mirrored.distinct
  have own : (p.disconnect connectionId).channels connectionId = [] :=
    unsubscribes_own (p.channels connectionId) (by simp [PubSubEngine.channels])
  have others : ∀ other, other ≠ connectionId →
      (p.disconnect connectionId).channels other = p.channels other := by
    intro other differ
    refine (channels other differ).trans ?_
    simp [PubSubEngine.channels, differ]
  refine ⟨mirrored.toLinked.disconnect, fun other => ?_, fun other name member => ?_⟩
  · by_cases same : other = connectionId
    · simp [same, own]
    · simpa [others other same] using mirrored.sets other
  · rw [mem_disconnect mirrored.toLinked]
    by_cases same : other = connectionId
    · simp [same, own] at member
    · rw [others other same] at member
      exact ⟨mirrored.subscribed other name member, same⟩

/-- Nothing is left of a connection. -/
structure Clean (p : PubSubEngine) (connectionId : String) : Prop where
  subs : ∀ channel, connectionId ∉ p.subscribers channel
  byConnection : connectionId ∉ p.byConnection

/-- A connection that was subscribed to a channel is left with an empty set. -/
theorem disconnect_clean_iff (mirrored : Mirrored p) :
    Clean (p.disconnect connectionId) connectionId ↔ p.channels connectionId = [] := by
  have apart : ∀ channel, connectionId ∉ (p.disconnect connectionId).subscribers channel := by
    intro channel there
    exact ((mem_disconnect mirrored.toLinked).mp there).2 rfl
  constructor
  · intro clean
    cases own : p.channels connectionId with
    | nil => rfl
    | cons channel rest =>
      have known : connectionId ∈ p.subscribers channel :=
        mirrored.subscribed connectionId channel (by simp [own])
      refine absurd ?_ clean.byConnection
      unfold disconnect
      rw [own, List.foldl_cons]
      exact unsubscribes_keys rest (unsubscribe_keys.mpr (.inr ⟨known, rfl⟩))
  · intro bare
    refine ⟨apart, ?_⟩
    simp [disconnect, bare]

theorem Clean.subscribe (clean : Clean p other) (differ : other ≠ connectionId) :
    Clean (p.subscribe connectionId channel) other := by
  constructor
  · intro name
    simp [mem_subscribe, clean.subs name, differ]
  · simp [PubSubEngine.subscribe, differ, clean.byConnection]

theorem Clean.unsubscribe (clean : Clean p other) (mirrored : Mirrored p) :
    Clean (p.unsubscribe connectionId channel).2 other := by
  constructor
  · intro name
    simp [mem_unsubscribe mirrored.distinct, clean.subs name]
  · rw [unsubscribe_keys]
    rintro (before | ⟨known, rfl⟩)
    · exact clean.byConnection before
    · exact clean.subs channel known

theorem Clean.disconnect (clean : Clean p other) (mirrored : Mirrored p) :
    Clean (p.disconnect connectionId) other := by
  by_cases same : other = connectionId
  · subst same
    rw [disconnect_clean_iff mirrored]
    simp [channels, Dict.get?_eq_none.mpr clean.byConnection]
  · constructor
    · intro name
      simp [mem_disconnect mirrored.toLinked, clean.subs name]
    · exact unsubscribes_others (p.channels connectionId) same (by simp [clean.byConnection])

end PubSubEngine

open PubSubEngine

namespace Hub

variable {σ : Type*} {h : Hub} {world : σ} {s : Hub × σ} {channel connectionId : String}
  {payload : List UInt8} {ops : List (PubSubOp σ)}

/-! ## Publishing -/

/-- A send function that writes its calls down. -/
def logged (sendEvent : SendEvent σ) : SendEvent (σ × List (String × List UInt8)) :=
  fun connectionId payload (world, calls) =>
    let (ok, world) := sendEvent connectionId payload world
    (ok, world, calls ++ [(connectionId, payload)])

theorem sendTo_engine (f : Fanned σ) (sendEvent : SendEvent σ) :
    (sendTo channel payload sendEvent f connectionId).hub.engine = f.hub.engine := by
  unfold sendTo
  dsimp only
  split <;> rfl

/-- Publishing leaves the two tables alone. -/
theorem publish_engine (sendEvent : SendEvent σ) :
    (h.publish channel payload sendEvent world).hub.engine = h.engine := by
  have kept : ∀ (ids : List String) (f : Fanned σ),
      (ids.foldl (sendTo channel payload sendEvent) f).hub.engine = f.hub.engine := by
    intro ids
    induction ids with
    | nil => exact fun _ => rfl
    | cons id rest ih => exact fun f => (ih _).trans (sendTo_engine f sendEvent)
  exact kept _ _

/-- A round calls the send function once and counts its answer once. -/
theorem fan_counts (channel : String) (payload : List UInt8) (ids : List String) (sendEvent : SendEvent σ)
    (f : Fanned (σ × List (String × List UInt8))) :
    let after := ids.foldl (sendTo channel payload (logged sendEvent)) f
    after.world.2 = f.world.2 ++ ids.map (·, payload) ∧
      after.delivered + after.slow.length = f.delivered + f.slow.length + ids.length := by
  induction ids generalizing f with
  | nil => simp
  | cons id rest ih =>
    obtain ⟨calls, total⟩ := ih (sendTo channel payload (logged sendEvent) f id)
    rw [List.foldl_cons]
    refine ⟨calls.trans ?_, total.trans ?_⟩
    · unfold sendTo logged
      dsimp only
      split <;> simp
    · unfold sendTo
      dsimp only
      split <;> simp only [List.length_append, List.length_cons, List.length_nil] <;> omega

/-- One call for each subscriber, and as many answers as subscribers. -/
def SendsOnce (h : Hub) (σ : Type*) : Prop :=
  ∀ (channel : String) (payload : List UInt8) (sendEvent : SendEvent σ) (world : σ),
    let fanned := h.publish channel payload (logged sendEvent) (world, [])
    fanned.world.2 = (h.engine.subscribers channel).map (·, payload) ∧
      (h.engine.subscribers channel).Nodup ∧
      fanned.delivered + fanned.slow.length = (h.engine.subscribers channel).length

theorem sendsOnce (linked : h.engine.Linked) : SendsOnce h σ := by
  intro channel payload sendEvent world
  obtain ⟨calls, total⟩ := fan_counts channel payload
    (h.engine.subscribers channel) sendEvent
    { hub := ({ h with totalPublished := h.totalPublished + 1 }).count channel
        fun stats => { stats with published := stats.published + 1 }
      world := (world, []) }
  refine ⟨calls.trans (List.nil_append _), linked.distinct channel, total.trans ?_⟩
  simp

/-! ## Runs -/

/-- What an operation does to the two tables. -/
def applied (p : PubSubEngine) : PubSubOp σ → PubSubEngine
  | .subscribe connectionId channel => p.subscribe connectionId channel
  | .unsubscribe connectionId channel => (p.unsubscribe connectionId channel).2
  | .disconnect connectionId => p.disconnect connectionId
  | .publish .. | .listChannels => p

theorem step_engine (op : PubSubOp σ) : (step s op).1.engine = applied s.1.engine op := by
  cases op with
  | publish channel payload sendEvent => exact publish_engine sendEvent
  | _ => rfl

theorem step_mirrored (mirrored : s.1.engine.Mirrored) (op : PubSubOp σ) :
    (step s op).1.engine.Mirrored := by
  rw [step_engine]
  cases op with
  | subscribe connectionId channel => exact mirrored.subscribe
  | unsubscribe connectionId channel => exact mirrored.unsubscribe
  | disconnect connectionId => exact mirrored.disconnect
  | publish channel payload sendEvent => exact mirrored
  | listChannels => exact mirrored

/-- Only subscribing brings a connection back. -/
theorem step_clean (mirrored : s.1.engine.Mirrored) (clean : s.1.engine.Clean connectionId)
    (op : PubSubOp σ) (away : ∀ channel, op ≠ .subscribe connectionId channel) :
    (step s op).1.engine.Clean connectionId := by
  rw [step_engine]
  cases op with
  | subscribe other channel =>
    exact clean.subscribe fun same => away channel (same ▸ rfl)
  | unsubscribe other channel => exact clean.unsubscribe mirrored
  | disconnect other => exact clean.disconnect mirrored
  | publish channel payload sendEvent => exact clean
  | listChannels => exact clean

/-- The connection was disconnected and has not subscribed since. -/
def Gone (ops : List (PubSubOp σ)) (connectionId : String) : Prop :=
  ∃ before after, ops = before ++ .disconnect connectionId :: after ∧
    ∀ op ∈ after, ∀ channel, op ≠ .subscribe connectionId channel

/-- The state after operations on a fresh engine. -/
def reached (world : σ) (ops : List (PubSubOp σ)) : Hub := (run step ({}, world) ops).1

theorem reached_mirrored (world : σ) (ops : List (PubSubOp σ)) :
    (reached world ops).engine.Mirrored :=
  run_invariant (I := fun s : Hub × σ => s.1.engine.Mirrored)
    (fun _ op mirrored => step_mirrored mirrored op) mirrored_empty

theorem run_clean (mirrored : s.1.engine.Mirrored) (clean : s.1.engine.Clean connectionId)
    (away : ∀ op ∈ ops, ∀ channel, op ≠ .subscribe connectionId channel) :
    (run step s ops).1.engine.Clean connectionId := by
  induction ops generalizing s with
  | nil => exact clean
  | cons op rest ih =>
    obtain ⟨here, later⟩ := List.forall_mem_cons.mp away
    exact ih (step_mirrored mirrored op) (step_clean mirrored clean op here) later

/-- In every state of the run the tables mirror each other, publishing sends
once to each subscriber, and nothing is left of the connections that are gone. -/
def Consistent (world : σ) (ops : List (PubSubOp σ)) : Prop :=
  ∀ early, early <+: ops →
    (∀ connectionId channel, connectionId ∈ (reached world early).engine.subscribers channel ↔
      channel ∈ (reached world early).engine.channels connectionId) ∧
    SendsOnce (reached world early) σ ∧
    ∀ connectionId, Gone early connectionId → (reached world early).engine.Clean connectionId

/-- **The indexes of the engine.** They are consistent and clean in every state
of a run exactly if the run disconnects no connection that is subscribed to a
channel. -/
theorem consistent_iff (world : σ) (ops : List (PubSubOp σ)) : Consistent world ops ↔
    ∀ early connectionId, early ++ [.disconnect connectionId] <+: ops →
      ∀ channel, connectionId ∉ (reached world early).engine.subscribers channel := by
  constructor
  · intro consistent early connectionId inside channel subscribed
    have mirrored := reached_mirrored world early
    have clean := (consistent _ inside).2.2 connectionId ⟨early, [], rfl, by simp⟩
    unfold reached at clean
    rw [run_append, run_cons, run_nil, step_engine] at clean
    have bare := (disconnect_clean_iff mirrored).mp clean
    have known := mirrored.listed channel connectionId subscribed
    simp [bare] at known
  · intro idle early inside
    have mirrored := reached_mirrored world early
    refine ⟨fun _ _ => mirrored.iff, sendsOnce mirrored.toLinked, fun connectionId gone => ?_⟩
    obtain ⟨before, after, rfl, away⟩ := gone
    rw [List.append_cons] at inside ⊢
    have mirrored := reached_mirrored world before
    have unknown := idle before connectionId ((List.prefix_append _ after).trans inside)
    have bare : (reached world before).engine.channels connectionId = [] :=
      List.eq_nil_iff_forall_not_mem.mpr fun channel member =>
        unknown channel (mirrored.subscribed connectionId channel member)
    have clean : (reached world (before ++ [.disconnect connectionId])).engine.Clean connectionId := by
      unfold reached
      rw [run_append, run_cons, run_nil, step_engine]
      exact (disconnect_clean_iff mirrored).mpr bare
    have went : reached world (before ++ [.disconnect connectionId] ++ after) =
        (run step (run step ({}, world) (before ++ [.disconnect connectionId])) after).1 := by
      unfold reached
      rw [run_append]
    rw [went]
    exact run_clean (reached_mirrored world _) clean away

/-- After the disconnect the set of the connection is there again, empty. -/
theorem disconnect_leaves_set :
    ¬ Consistent () [.subscribe "c1" "news", .disconnect "c1"] := by
  intro consistent
  have gone : Gone (σ := Unit) [.subscribe "c1" "news", .disconnect "c1"] "c1" :=
    ⟨[.subscribe "c1" "news"], [], rfl, by simp⟩
  have clean := (consistent _ List.prefix_rfl).2.2 "c1" gone
  exact clean.byConnection (by decide)

end Hub
end OneOpenBroker.Pubsub

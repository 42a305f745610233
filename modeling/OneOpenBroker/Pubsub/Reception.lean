import OneOpenBroker.Library.Simulation
import OneOpenBroker.Pubsub.Publishing

/-! What a subscriber is offered. A connection is offered what is published on
the channels it follows, once and in order, and which channels it follows
depends on its own requests alone: neither the other connections nor the
answers of anyone's send function have a part in it. The counters of the engine
are counts of these offers. -/
namespace OneOpenBroker.Pubsub
open Collections Systems OneOpenBroker.Security

/-- A call of `send_event`, with its answer. -/
structure Offer where
  connectionId : String
  channel : String
  payload : List UInt8
  sent : Bool
  deriving DecidableEq

/-- A send function that writes its calls and answers down. -/
def noted {σ : Type*} (channel : String) (sendEvent : SendEvent σ) : SendEvent (σ × List Offer) :=
  fun connectionId payload (world, offers) =>
    let (sent, world) := sendEvent connectionId payload world
    (sent, world, offers ++ [⟨connectionId, channel, payload, sent⟩])

/-- What an offer is to the connection that gets it. -/
def Offer.seenBy (connectionId : String) (offer : Offer) : Option (String × List UInt8) :=
  if offer.connectionId = connectionId then some (offer.channel, offer.payload) else none

/-! ## One connection -/

/-- What a connection has to do with: its own requests, and what is published. -/
inductive Concern where
  | subscribe (channel : String)
  | unsubscribe (channel : String)
  | disconnect
  | publish (channel : String) (payload : List UInt8)

def PubSubOp.concern {σ : Type*} (connectionId : String) : PubSubOp σ → Option Concern
  | .subscribe other channel => if other = connectionId then some (.subscribe channel) else none
  | .unsubscribe other channel => if other = connectionId then some (.unsubscribe channel) else none
  | .disconnect other => if other = connectionId then some .disconnect else none
  | .publish channel payload _ => some (.publish channel payload)
  | .listChannels => none

namespace Concern

/-- The channels that a connection follows. -/
def follow (names : Finset String) : Concern → Finset String
  | .subscribe channel => insert channel names
  | .unsubscribe channel => names.erase channel
  | .disconnect => ∅
  | .publish .. => names

/-- What it is to be offered. -/
def heard (names : Finset String) : Concern → List (String × List UInt8)
  | .publish channel payload => if channel ∈ names then [(channel, payload)] else []
  | _ => []

end Concern

namespace Hub

variable {σ : Type*} {h : Hub} {s : Hub × σ} {world : σ} {channel name connectionId other : String}
  {payload : List UInt8} {sendEvent : SendEvent σ} {ids : List String}

/-- The offers of an operation. -/
def offers (s : Hub × σ) : PubSubOp σ → List Offer
  | .publish channel payload sendEvent =>
    (s.1.publish channel payload (noted channel sendEvent) (s.2, [])).world.2
  | _ => []

/-! ## The offers of a publish -/

/-- Writing down is all that `noted` adds. -/
theorem publish_noted (offers : List Offer) :
    let plain := h.publish channel payload sendEvent world
    let written := h.publish channel payload (noted channel sendEvent) (world, offers)
    written.hub = plain.hub ∧ written.world.1 = plain.world := by
  have same : ∀ (ids : List String) (f : Fanned (σ × List Offer)) (g : Fanned σ),
      f.hub = g.hub → f.world.1 = g.world →
      (ids.foldl (sendTo channel payload (noted channel sendEvent)) f).hub =
          (ids.foldl (sendTo channel payload sendEvent) g).hub ∧
        (ids.foldl (sendTo channel payload (noted channel sendEvent)) f).world.1 =
          (ids.foldl (sendTo channel payload sendEvent) g).world := by
    intro ids
    induction ids with
    | nil => exact fun _ _ hub world => ⟨hub, world⟩
    | cons id rest ih =>
      intro f g hub world
      apply ih
      · unfold sendTo noted
        dsimp only
        rw [hub, world]
        split <;> rfl
      · unfold sendTo noted
        dsimp only
        rw [world]
        split <;> rfl
  exact same _ _ _ rfl rfl

/-- A round makes one offer. -/
theorem sendTo_offer (f : Fanned (σ × List Offer)) :
    (sendTo channel payload (noted channel sendEvent) f connectionId).world.2 = f.world.2 ++
      [⟨connectionId, channel, payload, (sendEvent connectionId payload f.world.1).1⟩] := by
  unfold sendTo noted
  dsimp only
  split <;> rfl

/-- The subscribers are offered the payload in turn. -/
theorem publish_offers (s : Hub × σ) (channel : String) (payload : List UInt8)
    (sendEvent : SendEvent σ) :
    (offers s (.publish channel payload sendEvent)).map
        (fun offer => (offer.connectionId, offer.channel, offer.payload)) =
      (s.1.engine.subscribers channel).map fun connectionId => (connectionId, channel, payload) := by
  have rounds : ∀ (ids : List String) (f : Fanned (σ × List Offer)),
      ((ids.foldl (sendTo channel payload (noted channel sendEvent)) f).world.2).map
          (fun offer => (offer.connectionId, offer.channel, offer.payload)) =
        f.world.2.map (fun offer => (offer.connectionId, offer.channel, offer.payload)) ++
          ids.map fun connectionId => (connectionId, channel, payload) := by
    intro ids
    induction ids with
    | nil => simp
    | cons id rest ih =>
      intro f
      simp [ih, sendTo_offer]
  exact rounds _ _

/-- A subscriber sees one offer, and nobody else sees any. -/
theorem publish_seen (linked : s.1.engine.Linked) :
    (offers s (.publish channel payload sendEvent)).filterMap (Offer.seenBy connectionId) =
      if connectionId ∈ s.1.engine.subscribers channel then [(channel, payload)] else [] := by
  have view : (offers s (.publish channel payload sendEvent)).filterMap (Offer.seenBy connectionId) =
      ((offers s (.publish channel payload sendEvent)).map
          fun offer => (offer.connectionId, offer.channel, offer.payload)).filterMap
        fun call => if call.1 = connectionId then some call.2 else none := by
    rw [List.filterMap_map]
    rfl
  have each : ∀ ids : List String,
      (ids.map fun id => (id, channel, payload)).filterMap
          (fun call => if call.1 = connectionId then some call.2 else none) =
        List.replicate (ids.count connectionId) (channel, payload) := by
    intro ids
    induction ids with
    | nil => rfl
    | cons id rest ih =>
      by_cases same : id = connectionId
      · simp [same, ih, List.replicate_succ]
      · simp [same, ih]
  rw [view, publish_offers, each, (linked.distinct channel).count]
  split <;> rfl

/-! ## Who follows what -/

/-- The engine lists a connection under the channels that it follows. -/
structure Followed (s : Hub × σ) (connectionId : String) (names : Finset String) : Prop where
  mirrored : s.1.engine.Mirrored
  exact : ∀ channel, connectionId ∈ s.1.engine.subscribers channel ↔ channel ∈ names

variable {names : Finset String} {op : PubSubOp σ} {concern : Concern}

theorem followed_empty (world : σ) (connectionId : String) :
    Followed (({} : Hub), world) connectionId ∅ := by
  refine ⟨PubSubEngine.mirrored_empty, fun channel => ?_⟩
  simp [PubSubEngine.subscribers]

/-- The operations that do not concern a connection are nothing to it. -/
theorem Followed.apart (followed : Followed s connectionId names)
    (foreign : op.concern connectionId = none) :
    Followed (step s op) connectionId names ∧
      (offers s op).filterMap (Offer.seenBy connectionId) = [] := by
  refine ⟨⟨step_mirrored followed.mirrored op, fun channel => ?_⟩, ?_⟩
  · rw [step_engine, ← followed.exact]
    cases op with
    | subscribe other name =>
      have differ : connectionId ≠ other := by
        rintro rfl
        simp [PubSubOp.concern] at foreign
      simp [applied, PubSubEngine.mem_subscribe, differ]
    | unsubscribe other name =>
      have differ : connectionId ≠ other := by
        rintro rfl
        simp [PubSubOp.concern] at foreign
      simp [applied, PubSubEngine.mem_unsubscribe followed.mirrored.distinct, differ]
    | disconnect other =>
      have differ : connectionId ≠ other := by
        rintro rfl
        simp [PubSubOp.concern] at foreign
      simp [applied, PubSubEngine.mem_disconnect followed.mirrored.toLinked, differ]
    | publish name payload sendEvent => cases foreign
    | listChannels => rfl
  · cases op with
    | publish name payload sendEvent => cases foreign
    | _ => rfl

/-- What concerns a connection changes what it follows, and is offered to it if
it follows the channel. -/
theorem Followed.together (followed : Followed s connectionId names)
    (own : op.concern connectionId = some concern) :
    Followed (step s op) connectionId (concern.follow names) ∧
      (offers s op).filterMap (Offer.seenBy connectionId) = concern.heard names := by
  have members := followed.exact
  have mirrored := step_mirrored followed.mirrored op
  cases op with
  | subscribe other name =>
    obtain ⟨rfl, rfl⟩ : other = connectionId ∧ Concern.subscribe name = concern := by
      simpa [PubSubOp.concern] using own
    refine ⟨⟨mirrored, fun channel => ?_⟩, rfl⟩
    simp [step_engine, applied, PubSubEngine.mem_subscribe, members, Concern.follow, or_comm]
  | unsubscribe other name =>
    obtain ⟨rfl, rfl⟩ : other = connectionId ∧ Concern.unsubscribe name = concern := by
      simpa [PubSubOp.concern] using own
    refine ⟨⟨mirrored, fun channel => ?_⟩, rfl⟩
    simp [step_engine, applied, PubSubEngine.mem_unsubscribe followed.mirrored.distinct, members,
      Concern.follow, and_comm]
  | disconnect other =>
    obtain ⟨rfl, rfl⟩ : other = connectionId ∧ Concern.disconnect = concern := by
      simpa [PubSubOp.concern] using own
    refine ⟨⟨mirrored, fun channel => ?_⟩, rfl⟩
    simp [step_engine, applied, PubSubEngine.mem_disconnect followed.mirrored.toLinked, Concern.follow]
  | publish name payload sendEvent =>
    cases own
    refine ⟨⟨mirrored, fun channel => ?_⟩, ?_⟩
    · rw [step_engine]
      exact members channel
    · rw [publish_seen followed.mirrored.toLinked]
      simp only [Concern.heard, members]
  | listChannels => cases own

/-! ## The counters -/

/-- What the counters of a channel are to be after publishes and offers. -/
def tally (published : List String) (offers : List Offer) (channel : String) : ChannelStats where
  published := published.count channel
  fanout := offers.countP fun offer => offer.channel = channel ∧ offer.sent
  slowDrops := offers.countP fun offer => offer.channel = channel ∧ ¬ offer.sent

/-- The counters are those of the publishes and the offers. -/
structure Tallied (h : Hub) (published : List String) (offers : List Offer) : Prop where
  total : h.totalPublished = published.length
  fanout : h.totalFanout = offers.countP (·.sent)
  channels : ∀ channel, (h.stats.get? channel).getD {} = tally published offers channel

variable {published : List String} {made : List Offer}

theorem tallied_empty : Tallied {} [] [] := ⟨rfl, rfl, fun _ => rfl⟩

/-- The tables have no part in the counters. -/
theorem Tallied.moved (tallied : Tallied h published made) (engine : PubSubEngine) :
    Tallied { h with engine } published made := ⟨tallied.total, tallied.fanout, tallied.channels⟩

theorem count_stats (change : ChannelStats → ChannelStats) :
    ((h.count channel change).stats.get? name).getD {} =
      if name = channel then change ((h.stats.get? name).getD {}) else (h.stats.get? name).getD {} := by
  unfold count
  rw [Dict.get?_set]
  by_cases same : name = channel
  · simp [same]
  · simp [same]

/-- A publish is counted before its offers are made. -/
theorem Tallied.publish (tallied : Tallied h published made) :
    Tallied (({ h with totalPublished := h.totalPublished + 1 }).count channel
      fun stats => { stats with published := stats.published + 1 }) (published ++ [channel]) made := by
  refine ⟨?_, tallied.fanout, fun name => ?_⟩
  · simp [count, tallied.total]
  · rw [count_stats]
    dsimp only
    rw [tallied.channels]
    by_cases same : name = channel
    · simp [tally, same]
    · simp [tally, same, Ne.symm same]

theorem Tallied.accepted (tallied : Tallied h published made) :
    Tallied (({ h with totalFanout := h.totalFanout + 1 }).count channel
        fun stats => { stats with fanout := stats.fanout + 1 })
      published (made ++ [⟨connectionId, channel, payload, true⟩]) := by
  refine ⟨tallied.total, ?_, fun name => ?_⟩
  · simp [count, tallied.fanout, List.countP_append]
  · rw [count_stats]
    dsimp only
    rw [tallied.channels]
    by_cases same : name = channel
    · simp [tally, same, List.countP_append]
    · simp [tally, same, List.countP_append, Ne.symm same]

theorem Tallied.refused (tallied : Tallied h published made) :
    Tallied (h.count channel fun stats => { stats with slowDrops := stats.slowDrops + 1 })
      published (made ++ [⟨connectionId, channel, payload, false⟩]) := by
  refine ⟨tallied.total, ?_, fun name => ?_⟩
  · simp [count, tallied.fanout, List.countP_append]
  · rw [count_stats, tallied.channels]
    by_cases same : name = channel
    · simp [tally, same, List.countP_append]
    · simp [tally, same, List.countP_append, Ne.symm same]

/-- A round counts the offer that it makes. -/
theorem Tallied.sendTo {f : Fanned (σ × List Offer)}
    (tallied : Tallied f.hub published (made ++ f.world.2)) :
    let after := Hub.sendTo channel payload (noted channel sendEvent) f connectionId
    Tallied after.hub published (made ++ after.world.2) := by
  intro after
  have offered : after.world.2 = f.world.2 ++
      [⟨connectionId, channel, payload, (sendEvent connectionId payload f.world.1).1⟩] := sendTo_offer f
  rw [offered, ← List.append_assoc]
  cases answer : (sendEvent connectionId payload f.world.1).1 with
  | true =>
    have hub : after.hub = ({ f.hub with totalFanout := f.hub.totalFanout + 1 }).count channel
        fun stats => { stats with fanout := stats.fanout + 1 } := by
      simp [after, Hub.sendTo, noted, answer]
    rw [hub]
    exact tallied.accepted
  | false =>
    have hub : after.hub = f.hub.count channel
        fun stats => { stats with slowDrops := stats.slowDrops + 1 } := by
      simp [after, Hub.sendTo, noted, answer]
    rw [hub]
    exact tallied.refused

theorem touch_stats {stats : Dict String ChannelStats} (names : List String) :
    ((names.foldl touch stats).get? channel).getD {} = (stats.get? channel).getD {} := by
  induction names generalizing stats with
  | nil => rfl
  | cons name rest ih =>
    rw [List.foldl_cons, ih]
    unfold touch
    split
    · rfl
    · rename_i absent
      rw [Dict.get?_set]
      by_cases same : channel = name
      · simp [same, Dict.get?_eq_none.mpr absent]
      · simp [same]

end Hub

/-- The channel of a publish. -/
def PubSubOp.published {σ : Type*} : PubSubOp σ → Option String
  | .publish channel _ _ => some channel
  | _ => none

namespace Hub

variable {σ : Type*} {s : Hub × σ} {published : List String} {made : List Offer}

theorem Tallied.step (tallied : Tallied s.1 published made) (op : PubSubOp σ) :
    Tallied (Hub.step s op).1 (published ++ op.published.toList) (made ++ offers s op) := by
  cases op with
  | publish channel payload sendEvent =>
    have rounds : ∀ (ids : List String) (f : Fanned (σ × List Offer)),
        Tallied f.hub (published ++ [channel]) (made ++ f.world.2) →
        Tallied (ids.foldl (Hub.sendTo channel payload (noted channel sendEvent)) f).hub
          (published ++ [channel])
          (made ++ (ids.foldl (Hub.sendTo channel payload (noted channel sendEvent)) f).world.2) := by
      intro ids
      induction ids with
      | nil => exact fun _ counted => counted
      | cons id rest ih => exact fun f counted => ih _ counted.sendTo
    have plain := (@publish_noted _ s.1 s.2 channel payload sendEvent []).1
    unfold Hub.step
    dsimp only
    rw [← plain]
    apply rounds
    rw [List.append_nil]
    exact tallied.publish
  | listChannels =>
    refine ⟨?_, ?_, fun channel => ?_⟩
    · simpa [Hub.step, listChannels, PubSubOp.published] using tallied.total
    · simpa [Hub.step, listChannels, offers] using tallied.fanout
    · simpa [Hub.step, listChannels, touch_stats, PubSubOp.published, offers]
        using tallied.channels channel
  | _ => simpa [Hub.step, PubSubOp.published, offers] using tallied.moved _

/-! ## Runs -/

/-- The offers of a run. -/
def offered (world : σ) (ops : List (PubSubOp σ)) : List Offer :=
  observed Hub.step offers ({}, world) ops

theorem run_followed (world : σ) (ops : List (PubSubOp σ)) (connectionId : String) :
    Followed (run Hub.step ({}, world) ops) connectionId
        (run Concern.follow ∅ (ops.filterMap (PubSubOp.concern connectionId))) ∧
      (offered world ops).filterMap (Offer.seenBy connectionId) =
        observed Concern.follow Concern.heard ∅ (ops.filterMap (PubSubOp.concern connectionId)) := by
  have apart : ∀ (s : Hub × σ) names op, Followed s connectionId names →
      op.concern connectionId = none → Followed (Hub.step s op) connectionId names ∧
        (offers s op).filterMap (Offer.seenBy connectionId) = [] :=
    fun _ _ _ followed foreign => followed.apart foreign
  have together : ∀ (s : Hub × σ) names op concern, Followed s connectionId names →
      op.concern connectionId = some concern →
      Followed (Hub.step s op) connectionId (concern.follow names) ∧
        (offers s op).filterMap (Offer.seenBy connectionId) = concern.heard names :=
    fun _ _ _ _ followed own => followed.together own
  exact observed_part apart together (followed_empty world connectionId) ops

theorem run_tallied (world : σ) (ops : List (PubSubOp σ)) :
    Tallied (reached world ops) (ops.filterMap PubSubOp.published) (offered world ops) := by
  have further : ∀ (ops : List (PubSubOp σ)) (s : Hub × σ) (published : List String)
      (earlier : List Offer), Tallied s.1 published earlier → Tallied (run Hub.step s ops).1
        (published ++ ops.filterMap PubSubOp.published) (earlier ++ observed Hub.step offers s ops) := by
    intro ops
    induction ops with
    | nil => simp [observed]
    | cons op rest ih =>
      intro s published earlier tallied
      have later := ih _ _ _ (tallied.step op)
      rw [List.append_assoc, List.append_assoc] at later
      rw [run_cons, List.filterMap_cons]
      cases named : op.published <;> simpa [named, observed] using later
  exact further ops _ [] [] tallied_empty

/-- **Subscribers are served apart.** A connection is offered, once and in
order, what is published on the channels that it follows by then, and it is
listed under these channels; both depend on its own requests and on the
publishes alone. The counters, which are also those of the rows that are
listed, are the numbers of publishes and of offers by their answers. -/
theorem subscribers_served (world : σ) (ops : List (PubSubOp σ)) :
    (∀ connectionId,
      (offered world ops).filterMap (Offer.seenBy connectionId) =
          observed Concern.follow Concern.heard ∅ (ops.filterMap (PubSubOp.concern connectionId)) ∧
        ∀ channel, connectionId ∈ (reached world ops).engine.subscribers channel ↔
          channel ∈ run Concern.follow ∅ (ops.filterMap (PubSubOp.concern connectionId))) ∧
      Tallied (reached world ops) (ops.filterMap PubSubOp.published) (offered world ops) ∧
      ∀ row ∈ (reached world ops).listChannels.1,
        row.subscribers = ((reached world ops).engine.subscribers row.channel).length ∧
          let stats := tally (ops.filterMap PubSubOp.published) (offered world ops) row.channel
          row.published = stats.published ∧ row.fanout = stats.fanout := by
  refine ⟨fun connectionId => ?_, run_tallied world ops, fun row listed => ?_⟩
  · obtain ⟨followed, seen⟩ := run_followed world ops connectionId
    exact ⟨seen, followed.exact⟩
  · obtain ⟨name, _, rfl⟩ := List.mem_map.mp listed
    simp [touch_stats, (run_tallied world ops).channels]

end Hub
end OneOpenBroker.Pubsub

import OneOpenBroker.Library.Dict

/-! Ephemeral channels, `pubsub/channels.py`. A subscription is kept twice:
under its channel, in the order of subscribing, and under its connection. The
send function that a subscriber registers is never called, and the counters
are read by nothing here; both are left out. -/
namespace OneOpenBroker.Pubsub
open Collections

structure PubSubEngine where
  subs : Dict String (List String) := ∅
  byConnection : Dict String (List String) := ∅

namespace PubSubEngine

/-- The subscribers of a channel. -/
def subscribers (p : PubSubEngine) (channel : String) : List String := (p.subs.get? channel).getD []

/-- The channels that a connection is subscribed to. -/
def channels (p : PubSubEngine) (connectionId : String) : List String :=
  (p.byConnection.get? connectionId).getD []

def subscribe (p : PubSubEngine) (connectionId channel : String) : PubSubEngine :=
  let known := p.subscribers channel
  { subs := p.subs.set channel (if connectionId ∈ known then known else known ++ [connectionId])
    byConnection := p.byConnection.set connectionId ((p.channels connectionId).insert channel) }

/-- The set of the connection is a default one: it is there afterwards, even
if it is empty. -/
def unsubscribe (p : PubSubEngine) (connectionId channel : String) : Bool × PubSubEngine :=
  let known := p.subscribers channel
  if connectionId ∈ known then
    let left := known.erase connectionId
    (true,
      { subs := if left = [] then p.subs.erase channel else p.subs.set channel left
        byConnection := p.byConnection.set connectionId ((p.channels connectionId).erase channel) })
  else (false, p)

def disconnect (p : PubSubEngine) (connectionId : String) : PubSubEngine :=
  (p.channels connectionId).foldl (fun p channel => (p.unsubscribe connectionId channel).2)
    { p with byConnection := p.byConnection.erase connectionId }

/-- The result of `publish`, with the outcomes of the sends to the subscribers
in order: how many got the message, and which are slow. -/
def publish (p : PubSubEngine) (channel : String) (sent : List Bool) : Nat × List String :=
  let outcomes := (p.subscribers channel).zip sent
  (outcomes.countP (·.2), (outcomes.filter (!·.2)).map (·.1))

end PubSubEngine
end OneOpenBroker.Pubsub

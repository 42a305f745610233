import OneOpenBroker.Core.SweepSteps
import OneOpenBroker.Core.Snapshot
import OneOpenBroker.Core.FloatTimes
import OneOpenBroker.Protocol.Values
import OneOpenBroker.Core.EngineRuns
import OneOpenBroker.Core.Overflow
import OneOpenBroker.Core.Parked
import OneOpenBroker.Core.RaisingConsumers
import OneOpenBroker.Core.Liveness
import OneOpenBroker.Library.Runs
import OneOpenBroker.Core.Placement
import OneOpenBroker.Core.Conservation
import OneOpenBroker.Core.Acks
import OneOpenBroker.Core.Republish
import OneOpenBroker.Core.Accounting
import OneOpenBroker.Core.Budget
import OneOpenBroker.Core.Routing
import OneOpenBroker.Core.FanOut
import OneOpenBroker.Persistence.Recovery
import OneOpenBroker.Core.Effects
import OneOpenBroker.Persistence.BrokerRuns
import OneOpenBroker.Persistence.Resurrection
import OneOpenBroker.Persistence.Ledger
import OneOpenBroker.Persistence.Fidelity
import OneOpenBroker.Persistence.Restart
import OneOpenBroker.Pubsub.Subscriptions
import OneOpenBroker.Broker.Prefetch
import OneOpenBroker.Broker.Exhaustion
import OneOpenBroker.Broker.PullOnly
import OneOpenBroker.Broker.Durability
import OneOpenBroker.Broker.Dropped
import OneOpenBroker.Untyped.Failures
import OneOpenBroker.Core.Redelivery
import OneOpenBroker.Protocol.Packets
import OneOpenBroker.Persistence.Sequence
import OneOpenBroker.Broker.Publishable
import OneOpenBroker.Broker.Fairness
import OneOpenBroker.Persistence.RouteRecovery
import OneOpenBroker.Core.Timeouts
import OneOpenBroker.Broker.Dangling
import OneOpenBroker.Broker.Delays
import OneOpenBroker.Core.RestartOrder
import OneOpenBroker.Persistence.WriterOrder
import OneOpenBroker.Persistence.LossWindow
import OneOpenBroker.Security.Auth
import OneOpenBroker.Broker.SlowList
import OneOpenBroker.Security.Monitor
import OneOpenBroker.Untyped.Deliverable
import OneOpenBroker.Core.RetryDelays
import OneOpenBroker.Core.ConsumerRecovery
import OneOpenBroker.Core.DeadLetters
import OneOpenBroker.Persistence.Capacity
import OneOpenBroker.Core.DeliveryOrder
import OneOpenBroker.Broker.WorkConservation
import OneOpenBroker.Broker.Destinations
import OneOpenBroker.Persistence.SnapshotRoundTrip
import OneOpenBroker.Protocol.FrameLayout
import OneOpenBroker.Protocol.ReaderBounds
import OneOpenBroker.Pubsub.Publishing
import OneOpenBroker.Client.Consuming
import OneOpenBroker.Client.Iterating
import OneOpenBroker.Broker.Heartbeats
import OneOpenBroker.Persistence.Waiters
import OneOpenBroker.Kombu.Rejects
import OneOpenBroker.Protocol.Metadata
import OneOpenBroker.Library.Simulation
import OneOpenBroker.Library.WorkQueues
import OneOpenBroker.Core.Stamps
import OneOpenBroker.Core.LifeCycle
import OneOpenBroker.Core.Leases
import OneOpenBroker.Core.DeliveryLedger
import OneOpenBroker.Persistence.CleanRestart
import OneOpenBroker.Broker.Outbound
import OneOpenBroker.Broker.Sessions
import OneOpenBroker.Library.Relabel
import OneOpenBroker.Untyped.Typed
import OneOpenBroker.Untyped.TypedSteps
import OneOpenBroker.Untyped.TypedRuns
import OneOpenBroker.Core.AckWindow
import OneOpenBroker.Broker.Admission
import OneOpenBroker.Security.Confinement
import OneOpenBroker.Pubsub.Reception
import OneOpenBroker.Protocol.Wire
import OneOpenBroker.Broker.Calls
import OneOpenBroker.Broker.Quiescence
import OneOpenBroker.Broker.JournalWriter

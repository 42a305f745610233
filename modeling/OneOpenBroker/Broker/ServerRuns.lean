import OneOpenBroker.Broker.Server

/-! Runs of the server. The steps differ in where the tasks of the connections
stand, which no property here is about, so an invariant has to survive four
things: an answered frame, the cleanup of a connection, a round of the ticker,
and the journal writer. -/
namespace OneOpenBroker.Broker.Server
open Collections OneOpenBroker.Core

/-- What an invariant of the runs that meet a condition has to survive. -/
structure Kept (allowed : Server → ServerEvent → Prop) (I : Server → Prop) : Prop where
  frame : ∀ s s', I s → s'.handler.queues = s.handler.queues →
    s'.handler.consumers = s.handler.consumers → s'.handler.pubsub = s.handler.pubsub →
    s'.aof = s.aof → s'.placed = s.placed → s'.dropped = s.dropped → I s'
  answer : ∀ s connectionId frame rest room, I s → s.running = some (connectionId, frame :: rest) →
    allowed s (.serve room) → I (s.answer connectionId frame room).2
  drop : ∀ s connectionId order, I s →
    allowed s (.leave connectionId order) ∨ allowed s (.dropSlow connectionId order) →
    I (s.drop connectionId order)
  ticker : ∀ s, I s → allowed s .ticker → I (s.withHandler s.handler.ticker)
  take : ∀ s, I s → I { s with aof := s.aof.take }
  write : ∀ s due, I s → I { s with aof := s.aof.write due }
  resolve : ∀ s, I s → I { s with aof := s.aof.resolve }

variable {allowed : Server → ServerEvent → Prop} {I : Server → Prop} {s : Server}
  {connectionId : String} {rest : List Frame}

section Steps

variable (kept : Kept allowed I)
include kept

theorem Kept.proceed (inv : I s) : I (s.proceed connectionId rest) := by
  unfold Server.proceed
  split
  · exact kept.frame _ _ inv rfl rfl rfl rfl rfl rfl
  · exact kept.frame _ _ inv rfl rfl rfl rfl rfl rfl

/-- The end of the loop's body. -/
theorem Kept.disconnectSlow (inv : I s) : I (s.disconnectSlow.proceed connectionId rest) := by
  apply kept.proceed
  exact kept.frame _ _ inv rfl rfl rfl rfl rfl rfl

theorem Kept.serve {frame : Frame} {room : Bool} (inv : I (s.answer connectionId frame room).2) :
    I (s.serve connectionId frame rest room) := by
  unfold Server.serve
  split
  · rename_i shape
    rw [shape] at inv
    unfold Server.awaitDurable
    split
    · exact kept.frame _ _ inv rfl rfl rfl rfl rfl rfl
    · exact kept.disconnectSlow inv
  · rename_i shape
    rw [shape] at inv
    exact kept.frame _ _ inv rfl rfl rfl rfl rfl rfl

theorem Kept.step {event : ServerEvent} (inv : I s) (ok : allowed s event) : I (s.step event) := by
  cases event with
  | accept connectionId =>
    unfold Server.step
    dsimp only
    split
    · exact kept.frame _ _ inv rfl rfl rfl rfl rfl rfl
    · exact inv
  | receive connectionId frames =>
    unfold Server.step
    dsimp only
    split
    · exact kept.proceed inv
    · exact inv
  | serve room =>
    unfold Server.step
    dsimp only
    split
    · rename_i running
      exact kept.serve (kept.answer s _ _ _ room inv running ok)
    · exact inv
  | resume connectionId =>
    unfold Server.step
    dsimp only
    split
    · split
      · exact inv
      · exact kept.disconnectSlow inv
    · exact inv
  | leave connectionId order =>
    have dropped := kept.drop s connectionId order inv (.inl ok)
    unfold Server.step
    dsimp only
    split
    · exact kept.frame _ _ dropped rfl rfl rfl rfl rfl rfl
    · exact kept.frame _ _ dropped rfl rfl rfl rfl rfl rfl
    · split
      · exact kept.frame _ _ dropped rfl rfl rfl rfl rfl rfl
      · exact inv
    · exact inv
  | dropSlow connectionId order =>
    have dropped := kept.drop s connectionId order inv (.inr ok)
    unfold Server.step
    dsimp only
    split
    · exact kept.frame _ _ dropped rfl rfl rfl rfl rfl rfl
    · exact inv
  | ticker =>
    unfold Server.step
    dsimp only
    split
    · exact kept.ticker s inv ok
    · exact inv
  | take =>
    unfold Server.step
    dsimp only
    split
    · exact kept.take s inv
    · exact inv
  | write due => exact kept.write s due inv
  | resolve =>
    unfold Server.step
    dsimp only
    split
    · exact kept.resolve s inv
    · exact inv

theorem Kept.reachable
    (start : ∀ config clock sends fsync, I (started config clock sends fsync))
    (reached : Reachable allowed s) : I s := by
  induction reached with
  | start config clock sends fsync => exact start config clock sends fsync
  | step _ event ok inv => exact kept.step inv ok

end Steps

theorem Reachable.run {events : List ServerEvent} (reached : Reachable allowed s)
    (ok : Systems.Allowed Server.step allowed s events) :
    Reachable allowed (Systems.run Server.step s events) :=
  Systems.run_preserves (fun _ event reached ok => reached.step event ok) reached ok

end OneOpenBroker.Broker.Server

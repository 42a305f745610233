import OneOpenBroker.Client.AsyncClient

/-! Which iterator yields which message. The messages of all channels come in
one queue of the client. An iterator takes them until it finds one of its
channel and lets go of those it passes over, whoever waits for them. -/
namespace OneOpenBroker.Client
open Collections Systems

namespace Iteration

/-- The first request of the iterator waits for its response. -/
def asking (iteration : Iteration) : Bool :=
  match iteration.stage with
  | .subscribing _ => true
  | _ => false

/-- The iterator is active or about to become so. -/
def live (iteration : Iteration) : Bool := iteration.active || iteration.asking

theorem not_asking_of_active {iteration : Iteration} (running : iteration.active) :
    ¬ iteration.asking := by
  unfold active at running
  unfold asking
  cases stage : iteration.stage <;> simp [stage] at running ⊢

end Iteration

namespace AsyncBroker

/-- The loop of the iterator runs. -/
def Active (b : AsyncBroker) (iterator : Nat) : Prop :=
  ∃ iteration, b.iterations.get? iterator = some iteration ∧ iteration.active

/-- The iterator that goes through the queue in a step, with its channel. -/
def puller (b : AsyncBroker) : ClientStep → Option (Nat × String)
  | .subscribed iterator =>
    match b.iterations.get? iterator with
    | some ⟨channel, .subscribing rid⟩ =>
      if rid ∈ b.proto.done ∧ (b.proto.accepted rid).isSome then some (iterator, channel) else none
    | _ => none
  | .wakeIterator iterator =>
    match b.iterations.get? iterator with
    | some ⟨channel, .waiting⟩ => some (iterator, channel)
    | _ => none
  | .next iterator =>
    match b.iterations.get? iterator with
    | some ⟨channel, .yielded⟩ => some (iterator, channel)
    | _ => none
  | _ => none

/-- No two iterators that are active, or about to be, share a channel. -/
def Apart (b : AsyncBroker) : ClientStep → Prop
  | .subscribe _ channel => ∀ other iteration, b.iterations.get? other = some iteration →
      iteration.live → iteration.channel ≠ channel
  | _ => True

/-- The iterator passes over messages only whose own iterator is not active any
more, and the message it yields came in while it was active itself, or while no
iterator of the channel was. -/
def CarefulFor (b : AsyncBroker) (iterator : Nat) (channel : String) : Prop :=
  (∀ message ∈ b.proto.pubsub.takeWhile (·.channel ≠ channel), ∀ owner ∈ message.owner,
    ¬ b.Active owner) ∧
  ∀ message ∈ (b.proto.pubsub.dropWhile (·.channel ≠ channel)).head?, ∀ owner ∈ message.owner,
    owner = iterator

def Careful (b : AsyncBroker) (step : ClientStep) : Prop :=
  ∀ iterator channel, b.puller step = some (iterator, channel) → b.CarefulFor iterator channel

instance (b : AsyncBroker) (iterator : Nat) : Decidable (b.Active iterator) :=
  decidable_of_iff ((b.iterations.get? iterator).any (·.active)) (Option.any_eq_true _ _)

instance (b : AsyncBroker) : ∀ step, Decidable (b.Apart step)
  | .subscribe _ channel => decidable_of_iff
      (∀ entry ∈ b.iterations.entries, entry.2.live → entry.2.channel ≠ channel)
      ⟨fun apart other iteration found => apart (other, iteration) (Dict.get?_eq_some.mp found),
        fun apart entry member => apart entry.1 entry.2 (Dict.get?_eq_some.mpr member)⟩
  | .receive _ | .endOfStream | .close | .timeout _ | .consume .. | .answered _ | .wake _ | .cancel _
  | .subscribed _ | .wakeIterator _ | .next _ | .finish _ | .unsubscribed _ =>
    inferInstanceAs (Decidable True)

instance (b : AsyncBroker) (iterator : Nat) (channel : String) :
    Decidable (b.CarefulFor iterator channel) := inferInstanceAs (Decidable (_ ∧ _))

instance (b : AsyncBroker) (step : ClientStep) : Decidable (b.Careful step) :=
  match walker : b.puller step with
  | none => .isTrue fun _ _ who => nomatch walker.symm.trans who
  | some (iterator, channel) => decidable_of_iff (b.CarefulFor iterator channel)
      ⟨fun careful _ _ who => by cases walker.symm.trans who; exact careful,
        fun careful => careful iterator channel walker⟩

/-- The messages that came in while an iterator was active on their channel. -/
def ownedBy (iterator : Nat) (messages : List PubSubMessage) : List PubSubMessage :=
  messages.filter (·.owner = some iterator)

/-- What an iterator yielded of its own messages. -/
def yieldedBy (b : AsyncBroker) (iterator : Nat) : List PubSubMessage :=
  ownedBy iterator ((b.yields.filter (·.1 = iterator)).map (·.2))

/-- Of the messages that came in while it was active, an active iterator has
yielded the first ones in order, and the others are still in the queue. What
came in for an iterator is yielded by no other, and every iterator yields
messages of its channel only. -/
structure Served (b : AsyncBroker) : Prop where
  own : ∀ iterator, b.Active iterator →
    ownedBy iterator b.received = b.yieldedBy iterator ++ ownedBy iterator b.proto.pubsub
  others : ∀ entry ∈ b.yields, ∀ owner ∈ entry.2.owner, owner = entry.1
  channel : ∀ entry ∈ b.yields, ∃ iteration, b.iterations.get? entry.1 = some iteration ∧
    iteration.channel = entry.2.channel

/-- What holds of the iterators and their messages in any case. -/
structure Tracked (b : AsyncBroker) : Prop where
  owner : ∀ message ∈ b.received, ∀ owner ∈ message.owner, ∃ iteration,
    b.iterations.get? owner = some iteration ∧ iteration.channel = message.channel ∧
      ¬ iteration.asking
  queued : ∀ message ∈ b.proto.pubsub, message ∈ b.received
  yielded : ∀ entry ∈ b.yields, entry.2 ∈ b.received
  apart : ∀ iterator other iteration iteration', b.iterations.get? iterator = some iteration →
    b.iterations.get? other = some iteration' → iteration.live → iteration'.live →
    iteration.channel = iteration'.channel → iterator = other

/-- An iterator goes through the queue: it passes over messages of other
channels, and yields the first of its own if there is one. -/
structure Pulls (b : AsyncBroker) (step : ClientStep) (b' : AsyncBroker) (iterator : Nat)
    (iteration : Iteration) (skipped hit rest : List PubSubMessage) : Prop where
  who : b.puller step = some (iterator, iteration.channel)
  found : b.iterations.get? iterator = some iteration
  live : iteration.live
  passed : b.proto.pubsub.takeWhile (·.channel ≠ iteration.channel) = skipped
  ahead : b.proto.pubsub.dropWhile (·.channel ≠ iteration.channel) = hit ++ rest
  single : hit.length ≤ 1
  missed : hit = [] → rest = []
  pubsub : b'.proto.pubsub = rest
  received : b'.received = b.received
  yields : b'.yields = b.yields ++ hit.map (iterator, ·)
  iterations : ∃ stage, b'.iterations = b.iterations.set iterator { iteration with stage } ∧
    ({ iteration with stage } : Iteration).active

/-- What a step does with the messages and the iterators. -/
inductive Serves (b : AsyncBroker) (step : ClientStep) (b' : AsyncBroker) : Prop where
  | comes (messages : List PubSubMessage) (nobody : b.puller step = none)
      (owners : ∀ message ∈ messages, message.owner = b.activeOn message.channel)
      (pubsub : b'.proto.pubsub = b.proto.pubsub ++ messages)
      (received : b'.received = b.received ++ messages) (yields : b'.yields = b.yields)
      (iterations : b'.iterations = b.iterations)
  | changes (iterator : Nat) (iteration : Iteration) (nobody : b.puller step = none)
      (pubsub : b'.proto.pubsub = b.proto.pubsub) (received : b'.received = b.received)
      (yields : b'.yields = b.yields) (iterations : b'.iterations = b.iterations.set iterator iteration)
      (idle : ¬ iteration.active)
      (origin : (iterator ∉ b.iterations ∧ step = .subscribe iterator iteration.channel) ∨
        ¬ iteration.asking ∧
        ∃ before, b.iterations.get? iterator = some before ∧ before.channel = iteration.channel)
  | pulls (iterator : Nat) (iteration : Iteration) (skipped hit rest : List PubSubMessage)
      (pulled : Pulls b step b' iterator iteration skipped hit rest)

variable {b b' : AsyncBroker} {iterator other : Nat} {iteration : Iteration} {channel : String}
  {step : ClientStep} {messages : List PubSubMessage} {message : PubSubMessage}

/-! ## One step -/

theorem stage_changes {stage : Stage} (found : b.iterations.get? iterator = some iteration)
    (nobody : b.puller step = none) (idle : ¬ ({ iteration with stage } : Iteration).active)
    (later : ¬ ({ iteration with stage } : Iteration).asking) :
    Serves b step (b.stage iterator iteration stage) :=
  .changes iterator { iteration with stage } nobody rfl rfl rfl rfl idle
    (.inr ⟨later, iteration, found, rfl⟩)

theorem same_serves (nobody : b.puller step = none) (pubsub : b'.proto.pubsub = b.proto.pubsub)
    (received : b'.received = b.received) (yields : b'.yields = b.yields)
    (iterations : b'.iterations = b.iterations) : Serves b step b' :=
  .comes [] nobody (by simp) (by simp [pubsub]) (by simp [received]) yields iterations

theorem refl_serves (nobody : b.puller step = none) : Serves b step b :=
  same_serves nobody rfl rfl rfl rfl

theorem pull_serves (who : b.puller step = some (iterator, iteration.channel))
    (found : b.iterations.get? iterator = some iteration) (live : iteration.live) :
    Serves b step (b.pull iterator iteration) := by
  unfold pull
  cases ahead : b.proto.pubsub.dropWhile (·.channel ≠ iteration.channel) with
  | nil =>
    exact .pulls iterator iteration _ [] []
      { who, found, live, ahead
        passed := rfl
        single := by simp
        missed := fun _ => rfl
        pubsub := rfl
        received := rfl
        yields := (List.append_nil _).symm
        iterations := ⟨.waiting, rfl, by simp [Iteration.active]⟩ }
  | cons message rest =>
    exact .pulls iterator iteration _ [message] rest
      { who, found, live, ahead
        passed := rfl
        single := by simp
        missed := nofun
        pubsub := rfl
        received := rfl
        yields := rfl
        iterations := ⟨.yielded, rfl, by simp [Iteration.active]⟩ }

/-- Calls of `consume` leave messages and iterators alone. -/
theorem take_serves {consumers : Dict String String} {call : Nat} {queue : String}
    (nobody : b.puller step = none) : Serves b step ({ b with consumers }.take call queue) := by
  unfold take
  split <;> exact same_serves nobody (by simp [*]) rfl rfl rfl

theorem subscribe_serves (unknown : iterator ∉ b.iterations) :
    Serves b (.subscribe iterator channel) (b.subscribe iterator channel) := by
  have same := ProtocolClient.request_pubsub (c := b.proto) (.subscribe channel)
  unfold subscribe
  rcases shape : b.proto.request (.subscribe channel) with ⟨_ | rid, proto⟩ <;> rw [shape] at same
  · exact .changes iterator ⟨channel, .ended⟩ rfl same rfl rfl rfl (by simp [Iteration.active])
      (.inl ⟨unknown, rfl⟩)
  · exact .changes iterator ⟨channel, .subscribing rid⟩ rfl same rfl rfl rfl
      (by simp [Iteration.active]) (.inl ⟨unknown, rfl⟩)

theorem finish_serves (found : b.iterations.get? iterator = some iteration) :
    Serves b (.finish iterator) (b.finish iterator iteration) := by
  have same := ProtocolClient.request_pubsub (c := b.proto) (.unsubscribe iteration.channel)
  unfold finish
  rcases shape : b.proto.request (.unsubscribe iteration.channel) with ⟨_ | rid, proto⟩ <;>
    rw [shape] at same
  · exact .changes iterator { iteration with stage := .ended } rfl same rfl rfl rfl
      (by simp [Iteration.active]) (.inr ⟨by simp [Iteration.asking], iteration, found, rfl⟩)
  · exact .changes iterator { iteration with stage := .unsubscribing rid } rfl same rfl rfl rfl
      (by simp [Iteration.active]) (.inr ⟨by simp [Iteration.asking], iteration, found, rfl⟩)

theorem consume_serves (call : Nat) (queue : String) (prefetch : Int) :
    Serves b (.consume call queue prefetch) (b.consume call queue prefetch) := by
  have same := ProtocolClient.request_pubsub (c := b.proto) (.consume queue prefetch)
  unfold consume
  split
  · exact take_serves rfl
  · rcases shape : b.proto.request (.consume queue prefetch) with ⟨_ | rid, proto⟩ <;> rw [shape] at same
    · exact same_serves rfl same rfl rfl rfl
    · exact same_serves rfl same rfl rfl rfl

theorem answered_serves (call : Nat) (queue : String) (rid : Nat) :
    Serves b (.answered call) (b.answered call queue rid) := by
  unfold answered
  split
  · exact take_serves rfl
  · exact same_serves rfl rfl rfl rfl rfl

theorem subscribed_serves {rid : Nat}
    (found : b.iterations.get? iterator = some ⟨channel, .subscribing rid⟩) (done : rid ∈ b.proto.done) :
    Serves b (.subscribed iterator) (b.subscribed iterator ⟨channel, .subscribing rid⟩ rid) := by
  unfold subscribed
  cases accepted : b.proto.accepted rid with
  | none =>
    exact stage_changes found (by simp [puller, found, accepted]) (by simp [Iteration.active])
      (by simp [Iteration.asking])
  | some answer =>
    exact pull_serves (by simp [puller, found, done, accepted]) found
      (by simp [Iteration.live, Iteration.asking])

theorem owned_messages (frame : Incoming) :
    ∀ message ∈ b.proto.messagesOf (b.owned frame), message.owner = b.activeOn message.channel := by
  cases frame with
  | pubsubMessage message =>
    unfold owned ProtocolClient.messagesOf
    dsimp only
    split <;> simp
  | _ => simp [owned, ProtocolClient.messagesOf]

theorem step_serves (b : AsyncBroker) (step : ClientStep) : Serves b step (b.step step) := by
  cases step with
  | receive frame =>
    exact .comes _ rfl (owned_messages frame) (ProtocolClient.receive_pubsub _) rfl rfl rfl
  | endOfStream => exact same_serves rfl (by simp [AsyncBroker.step]) rfl rfl rfl
  | close => exact same_serves rfl (by simp [AsyncBroker.step]) rfl rfl rfl
  | timeout rid => exact same_serves rfl (by simp [AsyncBroker.step]) rfl rfl rfl
  | consume call queue prefetch =>
    unfold AsyncBroker.step
    dsimp only
    split
    · exact refl_serves rfl
    · exact consume_serves call queue prefetch
  | answered call =>
    unfold AsyncBroker.step
    dsimp only
    split
    · split
      · exact answered_serves call _ _
      · exact refl_serves rfl
    · exact refl_serves rfl
  | wake call =>
    unfold AsyncBroker.step
    dsimp only
    split
    · exact take_serves rfl
    · exact refl_serves rfl
  | cancel call =>
    unfold AsyncBroker.step
    dsimp only
    split
    · exact same_serves rfl rfl rfl rfl rfl
    · exact refl_serves rfl
  | subscribe iterator channel =>
    unfold AsyncBroker.step
    dsimp only
    split
    · exact refl_serves rfl
    · exact subscribe_serves ‹_›
  | subscribed iterator =>
    unfold AsyncBroker.step
    dsimp only
    split
    · rename_i channel rid found
      split
      · exact subscribed_serves found ‹_›
      · rename_i undone
        exact refl_serves (by simp [puller, found, undone])
    · exact refl_serves (by simp only [puller])
  | wakeIterator iterator =>
    unfold AsyncBroker.step
    dsimp only
    split
    · rename_i channel found
      exact pull_serves (by simp [puller, found]) found (by simp [Iteration.live, Iteration.active])
    · exact refl_serves (by simp only [puller])
  | next iterator =>
    unfold AsyncBroker.step
    dsimp only
    split
    · rename_i channel found
      exact pull_serves (by simp [puller, found]) found (by simp [Iteration.live, Iteration.active])
    · exact refl_serves (by simp only [puller])
  | finish iterator =>
    unfold AsyncBroker.step
    dsimp only
    split
    · rename_i iteration found
      split
      · exact finish_serves found
      · split
        · exact stage_changes found rfl (by simp [Iteration.active]) (by simp [Iteration.asking])
        · exact refl_serves rfl
    · exact refl_serves rfl
  | unsubscribed iterator =>
    unfold AsyncBroker.step
    dsimp only
    split
    · rename_i channel rid found
      split
      · exact stage_changes found rfl (by simp [Iteration.active]) (by simp [Iteration.asking])
      · exact refl_serves rfl
    · exact refl_serves rfl

/-! ## Owners -/

theorem activeOn_some (owner : b.activeOn channel = some iterator) : ∃ iteration,
    b.iterations.get? iterator = some iteration ∧ iteration.active ∧ iteration.channel = channel := by
  have holds := List.find?_some owner
  obtain ⟨iteration, found, both⟩ := (Option.any_eq_true _ _).mp holds
  exact ⟨iteration, found, by simpa using both⟩

/-- An active iterator owns what comes in for its channel. -/
theorem Tracked.activeOn (tracked : Tracked b) (found : b.iterations.get? iterator = some iteration)
    (active : iteration.active) : b.activeOn iteration.channel = some iterator := by
  cases owner : b.activeOn iteration.channel with
  | none =>
    have nobody := List.find?_eq_none.mp owner iterator (Dict.mem_of_get? found)
    simp [found, active] at nobody
  | some other =>
    obtain ⟨iteration', found', active', same⟩ := activeOn_some owner
    have live : iteration.live := by simp [Iteration.live, active]
    have live' : iteration'.live := by simp [Iteration.live, active']
    rw [tracked.apart other iterator iteration' iteration found' found live' live same]

theorem mem_ownedBy : message ∈ ownedBy iterator messages ↔
    message ∈ messages ∧ message.owner = some iterator := by
  simp [ownedBy]

theorem ownedBy_eq_nil : ownedBy iterator messages = [] ↔
    ∀ message ∈ messages, message.owner ≠ some iterator := by
  simp [ownedBy]

theorem ownedBy_append {first second : List PubSubMessage} :
    ownedBy iterator (first ++ second) = ownedBy iterator first ++ ownedBy iterator second := by
  simp [ownedBy]

/-- What an iterator yields is added to its own yields. -/
theorem yieldedBy_append {hit : List PubSubMessage}
    (yields : b'.yields = b.yields ++ hit.map (iterator, ·)) : b'.yieldedBy other =
      b.yieldedBy other ++ if other = iterator then ownedBy other hit else [] := by
  unfold yieldedBy
  rw [yields, List.filter_append, List.map_append, ownedBy_append]
  congr 1
  by_cases same : other = iterator
  · subst same
    simp [List.filter_map, Function.comp_def]
  · have differ : iterator ≠ other := fun here => same here.symm
    simp [List.filter_map, Function.comp_def, same, differ, ownedBy]

theorem tracked_empty : Tracked {} :=
  ⟨by simp, by simp, by simp, fun _ _ _ _ found => nomatch found⟩

section Pulled

variable {skipped hit rest : List PubSubMessage}
  (pulled : Pulls b step b' iterator iteration skipped hit rest)
include pulled

theorem Pulls.split : b.proto.pubsub = skipped ++ (hit ++ rest) := by
  rw [← pulled.ahead, ← pulled.passed, List.takeWhile_append_dropWhile]

theorem Pulls.apart : ∀ message ∈ skipped, message.channel ≠ iteration.channel := by
  intro message member
  rw [← pulled.passed] at member
  simpa using List.all_eq_true.mp List.all_takeWhile message member

theorem Pulls.own : ∀ message ∈ hit, message.channel = iteration.channel := by
  have first := List.head?_dropWhile_not (·.channel ≠ iteration.channel) b.proto.pubsub
  rw [pulled.ahead] at first
  match hit, pulled.single with
  | [], _ => simp
  | [message], _ => simpa using first

/-- The iterators that were there, with their channels. -/
theorem Pulls.get? {iteration' : Iteration} (there : b'.iterations.get? other = some iteration') :
    ∃ before, b.iterations.get? other = some before ∧ before.channel = iteration'.channel ∧
      (iteration'.live → before.live) := by
  obtain ⟨stage, iterations, running⟩ := pulled.iterations
  rw [iterations, Dict.get?_set] at there
  split at there
  · rename_i here
    subst here
    obtain rfl := Option.some.inj there
    exact ⟨iteration, pulled.found, rfl, fun _ => pulled.live⟩
  · exact ⟨iteration', there, rfl, id⟩

theorem Pulls.stays {before : Iteration} (there : b.iterations.get? other = some before)
    (later : ¬ before.asking) : ∃ iteration', b'.iterations.get? other = some iteration' ∧
      iteration'.channel = before.channel ∧ ¬ iteration'.asking := by
  obtain ⟨stage, iterations, running⟩ := pulled.iterations
  rw [iterations, Dict.get?_set]
  split
  · rename_i here
    cases (here ▸ there).symm.trans pulled.found
    exact ⟨_, rfl, rfl, Iteration.not_asking_of_active running⟩
  · exact ⟨before, there, rfl, later⟩

theorem Pulls.active_iff (differ : other ≠ iterator) : b'.Active other ↔ b.Active other := by
  obtain ⟨stage, iterations, _⟩ := pulled.iterations
  rw [Active, Active, iterations, Dict.get?_set_ne differ]

theorem Pulls.inside (tracked : Tracked b) : ∀ message ∈ skipped ++ (hit ++ rest), message ∈ b.received := by
  rw [← pulled.split]
  exact tracked.queued

theorem Pulls.tracked (tracked : Tracked b) : Tracked b' := by
  have inside := pulled.inside tracked
  refine ⟨fun message member owner owned => ?_, fun message member => ?_, fun entry member => ?_, ?_⟩
  · rw [pulled.received] at member
    obtain ⟨before, found, same, later⟩ := tracked.owner message member owner owned
    obtain ⟨iteration', found', kept, later'⟩ := pulled.stays found later
    exact ⟨iteration', found', kept.trans same, later'⟩
  · rw [pulled.pubsub] at member
    rw [pulled.received]
    exact inside message (by simp [member])
  · rw [pulled.yields, List.mem_append] at member
    rw [pulled.received]
    rcases member with before | new
    · exact tracked.yielded entry before
    · obtain ⟨message, listed, rfl⟩ := List.mem_map.mp new
      exact inside message (by simp [listed])
  · intro first second one two found₁ found₂ live₁ live₂ same
    obtain ⟨before₁, there₁, same₁, was₁⟩ := pulled.get? found₁
    obtain ⟨before₂, there₂, same₂, was₂⟩ := pulled.get? found₂
    exact tracked.apart first second before₁ before₂ there₁ there₂ (was₁ live₁) (was₂ live₂)
      (same₁.trans (same.trans same₂.symm))

/-- The condition in terms of what the iterator passed over and found. -/
theorem Pulls.careful_iff : Careful b step ↔
    (∀ message ∈ skipped, ∀ owner ∈ message.owner, ¬ b.Active owner) ∧
      ∀ message ∈ hit, ∀ owner ∈ message.owner, owner = iterator := by
  have first : ∀ message, message ∈ (hit ++ rest).head? ↔ message ∈ hit := by
    intro message
    match hit, pulled.single, pulled.missed with
    | [], _, missed => simp [missed rfl]
    | [found], _, _ => simp [eq_comm]
  constructor
  · intro careful
    obtain ⟨passes, finds⟩ := careful iterator iteration.channel pulled.who
    rw [pulled.passed] at passes
    rw [pulled.ahead] at finds
    exact ⟨passes, fun message member => finds message ((first message).mpr member)⟩
  · rintro ⟨passes, finds⟩ walker channel who
    cases pulled.who.symm.trans who
    rw [CarefulFor, pulled.passed, pulled.ahead]
    exact ⟨passes, fun message member => finds message ((first message).mp member)⟩

end Pulled

theorem Serves.tracked (serves : Serves b step b') (tracked : Tracked b) (fits : b.Apart step) :
    Tracked b' := by
  cases serves with
  | comes messages _ owners pubsub received yields iterations =>
    refine ⟨fun message member owner owned => ?_, fun message member => ?_, fun entry member => ?_, ?_⟩
    · rw [iterations]
      rw [received, List.mem_append] at member
      rcases member with before | new
      · exact tracked.owner message before owner owned
      · rw [owners message new] at owned
        obtain ⟨iteration, found, active, same⟩ := activeOn_some owned
        exact ⟨iteration, found, same, Iteration.not_asking_of_active active⟩
    · rw [pubsub, List.mem_append] at member
      rw [received, List.mem_append]
      exact member.imp_left (tracked.queued message)
    · rw [yields] at member
      rw [received]
      exact List.mem_append_left _ (tracked.yielded entry member)
    · rw [iterations]
      exact tracked.apart
  | changes iterator iteration _ pubsub received yields iterations idle origin =>
    refine ⟨fun message member owner owned => ?_, ?_, ?_, ?_⟩
    · rw [received] at member
      obtain ⟨iteration', found, same, later⟩ := tracked.owner message member owner owned
      rw [iterations, Dict.get?_set]
      split
      · rename_i here
        subst here
        rcases origin with ⟨unknown, _⟩ | ⟨late, before, there, kept⟩
        · exact absurd (Dict.mem_of_get? found) unknown
        · cases there.symm.trans found
          exact ⟨iteration, rfl, kept.symm.trans same, late⟩
      · exact ⟨iteration', found, same, later⟩
    · rw [pubsub, received]
      exact tracked.queued
    · rw [yields, received]
      exact tracked.yielded
    · have live_only_new : iteration.live → iterator ∉ b.iterations ∧
          step = .subscribe iterator iteration.channel := by
        intro live
        rcases origin with new | ⟨late, _⟩
        · exact new
        · simp [Iteration.live, idle, late] at live
      have alone : iteration.live → ∀ other iteration', b.iterations.get? other = some iteration' →
          iteration'.live → iteration'.channel ≠ iteration.channel := by
        intro live other iteration' found live'
        have new := (live_only_new live).2
        subst new
        exact fits other iteration' found live'
      intro first second one two found found' live live' same
      rw [iterations, Dict.get?_set] at found found'
      split at found <;> split at found'
      · rename_i here there
        exact here.trans there.symm
      · obtain rfl := Option.some.inj found
        exact absurd same.symm (alone live second two found' live')
      · obtain rfl := Option.some.inj found'
        exact absurd same (alone live' first one found live)
      · exact tracked.apart first second one two found found' live live' same
  | pulls iterator iteration skipped hit rest pulled => exact pulled.tracked tracked

/-! ## Serving -/

theorem served_empty : Served {} := ⟨fun _ _ => rfl, by simp, by simp⟩

/-- A message without a place in the queue was owed to nobody. -/
theorem ownedBy_apart (tracked : Tracked b) (found : b.iterations.get? iterator = some iteration)
    (inside : ∀ message ∈ messages, message ∈ b.received)
    (apart : ∀ message ∈ messages, message.channel ≠ iteration.channel) :
    ownedBy iterator messages = [] := by
  rw [ownedBy_eq_nil]
  intro message member owned
  obtain ⟨iteration', found', same, _⟩ := tracked.owner message (inside message member) iterator owned
  cases found.symm.trans found'
  exact apart message member same.symm

/-- Nothing is owed to an iterator whose request is not answered. -/
theorem ownedBy_asking (messages : List PubSubMessage) (tracked : Tracked b) (found : b.iterations.get? iterator = some iteration)
    (asking : iteration.asking) (inside : ∀ message ∈ messages, message ∈ b.received) :
    ownedBy iterator messages = [] := by
  rw [ownedBy_eq_nil]
  intro message member owned
  obtain ⟨iteration', found', _, later⟩ := tracked.owner message (inside message member) iterator owned
  cases found.symm.trans found'
  exact later asking

/-- Without an iterator going through the queue all are served as before. -/
theorem Serves.served (serves : Serves b step b') (nobody : b.puller step = none) (served : Served b) :
    Served b' := by
  cases serves with
  | comes messages _ _ pubsub received yields iterations =>
    refine ⟨fun iterator active => ?_, by rw [yields]; exact served.others, ?_⟩
    · have running : b.Active iterator := by rwa [Active, iterations] at active
      rw [received, pubsub, yieldedBy, yields, ownedBy_append, ownedBy_append, served.own iterator running,
        List.append_assoc]
      rfl
    · rw [yields, iterations]
      exact served.channel
  | changes iterator iteration _ pubsub received yields iterations idle origin =>
    refine ⟨fun other active => ?_, by rw [yields]; exact served.others, fun entry member => ?_⟩
    · have running : b.Active other := by
        obtain ⟨iteration', found, active⟩ := active
        rw [iterations, Dict.get?_set] at found
        split at found
        · obtain rfl := Option.some.inj found
          exact absurd active idle
        · exact ⟨iteration', found, active⟩
      rw [received, pubsub, yieldedBy, yields]
      exact served.own other running
    · rw [yields] at member
      obtain ⟨iteration', found, same⟩ := served.channel entry member
      rw [iterations, Dict.get?_set]
      split
      · rename_i here
        rcases origin with ⟨unknown, _⟩ | ⟨_, before, there, kept⟩
        · exact absurd (Dict.mem_of_get? (here ▸ found)) unknown
        · cases (here ▸ there).symm.trans found
          exact ⟨iteration, rfl, kept.symm.trans same⟩
      · exact ⟨iteration', found, same⟩
  | pulls _ _ _ _ _ pulled => cases nobody.symm.trans pulled.who

section Pulled

variable {skipped hit rest : List PubSubMessage}
  (pulled : Pulls b step b' iterator iteration skipped hit rest)
include pulled

/-- What the iterator passes over is not its own. -/
theorem Pulls.own_skipped (tracked : Tracked b) : ownedBy iterator skipped = [] :=
  ownedBy_apart tracked pulled.found
    (fun message member => pulled.inside tracked message (List.mem_append_left _ member)) pulled.apart

theorem Pulls.careful (tracked : Tracked b) (served : Served b) (served' : Served b') :
    (∀ message ∈ skipped, ∀ owner ∈ message.owner, ¬ b.Active owner) ∧
      ∀ message ∈ hit, ∀ owner ∈ message.owner, owner = iterator := by
  refine ⟨fun message member owner owned running => ?_, fun message member => ?_⟩
  · have differ : owner ≠ iterator := by
      rintro rfl
      exact ownedBy_eq_nil.mp (pulled.own_skipped tracked) message member owned
    have before := served.own owner running
    have after := served'.own owner ((pulled.active_iff differ).mpr running)
    rw [pulled.received, pulled.pubsub, yieldedBy_append pulled.yields, if_neg differ, List.append_nil,
      before, pulled.split, ownedBy_append, ownedBy_append] at after
    have lengths := congrArg List.length after
    have positive := List.length_pos_of_mem (mem_ownedBy.mpr ⟨member, owned⟩)
    simp only [List.length_append] at lengths
    omega
  · exact served'.others (iterator, message)
      (pulled.yields ▸ List.mem_append_right _ (List.mem_map_of_mem member))

/-- What is owed to the iterator itself, which may have been waiting for its
first response so far. -/
theorem Pulls.serves_itself (tracked : Tracked b) (served : Served b) : ownedBy iterator b.received =
    b.yieldedBy iterator ++ ownedBy iterator hit ++ ownedBy iterator rest := by
  by_cases asking : iteration.asking
  · have nothing := fun messages inside =>
      ownedBy_asking messages tracked pulled.found asking inside
    have inside := pulled.inside tracked
    have none_yielded : b.yieldedBy iterator = [] := by
      refine nothing _ fun message member => ?_
      obtain ⟨entry, listed, rfl⟩ := List.mem_map.mp member
      exact tracked.yielded entry (List.mem_filter.mp listed).1
    rw [none_yielded, nothing b.received fun _ member => member,
      nothing hit fun message member => inside message (by simp [member]),
      nothing rest fun message member => inside message (by simp [member])]
    rfl
  · have live := pulled.live
    have was : b.Active iterator :=
      ⟨iteration, pulled.found, by simpa [Iteration.live, asking] using live⟩
    rw [served.own iterator was, pulled.split, ownedBy_append, ownedBy_append,
      pulled.own_skipped tracked, List.nil_append, List.append_assoc]

theorem Pulls.served (tracked : Tracked b) (served : Served b)
    (passes : ∀ message ∈ skipped, ∀ owner ∈ message.owner, ¬ b.Active owner)
    (finds : ∀ message ∈ hit, ∀ owner ∈ message.owner, owner = iterator) : Served b' := by
  refine ⟨fun other running => ?_, fun entry member => ?_, fun entry member => ?_⟩
  · rw [pulled.received, pulled.pubsub, yieldedBy_append pulled.yields]
    by_cases same : other = iterator
    · rw [if_pos same, same]
      exact pulled.serves_itself tracked served
    · have was := (pulled.active_iff same).mp running
      have none_skipped : ownedBy other skipped = [] := by
        rw [ownedBy_eq_nil]
        exact fun message member owned => passes message member other owned was
      have none_hit : ownedBy other hit = [] := by
        rw [ownedBy_eq_nil]
        exact fun message member owned => same (finds message member other owned)
      rw [if_neg same, List.append_nil, served.own other was, pulled.split, ownedBy_append,
        ownedBy_append, none_skipped, none_hit]
      rfl
  · rw [pulled.yields, List.mem_append] at member
    rcases member with before | new
    · exact served.others entry before
    · obtain ⟨message, listed, rfl⟩ := List.mem_map.mp new
      exact finds message listed
  · obtain ⟨stage, iterations, _⟩ := pulled.iterations
    rw [pulled.yields, List.mem_append] at member
    rw [iterations, Dict.get?_set]
    rcases member with before | new
    · obtain ⟨iteration', found, same⟩ := served.channel entry before
      split
      · rename_i here
        cases (here ▸ found).symm.trans pulled.found
        exact ⟨_, rfl, same⟩
      · exact ⟨iteration', found, same⟩
    · obtain ⟨message, listed, rfl⟩ := List.mem_map.mp new
      rw [if_pos rfl]
      exact ⟨_, rfl, (pulled.own message listed).symm⟩

end Pulled

/-- An iterator that goes through the queue serves everyone exactly if it is
careful. -/
theorem Serves.served_iff (serves : Serves b step b') (tracked : Tracked b) (served : Served b) :
    Served b' ↔ Careful b step := by
  cases walker : b.puller step with
  | none => exact iff_of_true (serves.served walker served) fun _ _ who => nomatch walker.symm.trans who
  | some _ =>
    cases serves with
    | comes _ nobody | changes _ _ nobody => exact nomatch walker.symm.trans nobody
    | pulls iterator iteration skipped hit rest pulled =>
      rw [pulled.careful_iff]
      exact ⟨pulled.careful tracked served, fun both => pulled.served tracked served both.1 both.2⟩

/-! ## Runs -/

/-- **Which iterator yields which message.** In every run in which active
iterators have channels of their own, each yields what came in while it was
active, in order, and no other does, exactly if every iterator that goes
through the queue is careful. -/
theorem iterators_served_iff (steps : List ClientStep) (apart : Allowed AsyncBroker.step Apart {} steps) :
    (∀ early, early <+: steps → Served (run AsyncBroker.step {} early)) ↔
      Allowed AsyncBroker.step Careful {} steps :=
  always_iff_of_fits (fun b step fits tracked => (step_serves b step).tracked tracked fits)
    (fun b step _ tracked served => (step_serves b step).served_iff tracked served)
    served_empty tracked_empty apart

/-- Two iterators start, on the channels `a` and `b`. -/
def twoIterators : List ClientStep := [
  .subscribe 1 "a", .receive (.response 1 { ok := true }), .subscribed 1,
  .subscribe 2 "b", .receive (.response 2 { ok := true }), .subscribed 2]

/-- Each message comes in when the iterator of its channel is the one to go on. -/
theorem iterators_served_in_turn : Served (run AsyncBroker.step {} (twoIterators ++ [
    .receive (.pubsubMessage { channel := "b", payload := [1] }), .wakeIterator 2,
    .receive (.pubsubMessage { channel := "a", payload := [2] }), .wakeIterator 1])) :=
  (iterators_served_iff _ (by decide)).mpr (by decide) _ List.prefix_rfl

/-- A message of `b` is taken by the iterator of `a`, which waits longer. -/
theorem iterator_steals : Allowed AsyncBroker.step Apart {} (twoIterators ++ [
      .receive (.pubsubMessage { channel := "b", payload := [1] }), .wakeIterator 1]) ∧
    ¬ ∀ early, early <+: twoIterators ++ [
      .receive (.pubsubMessage { channel := "b", payload := [1] }), .wakeIterator 1] →
      Served (run AsyncBroker.step {} early) := by
  refine ⟨by decide, fun served => ?_⟩
  have kept := (served _ List.prefix_rfl).own 2 (by decide)
  exact absurd kept (by decide)

end AsyncBroker
end OneOpenBroker.Client

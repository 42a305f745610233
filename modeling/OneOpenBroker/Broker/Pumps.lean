import OneOpenBroker.Broker.Handler
import OneOpenBroker.Core.ConsumerSteps

/-! The delivery loop. A round that delivers takes at least one entry off the
ready heap of its queue, so the rounds that `pumpQueue` allows are enough and
it satisfies the equation of the loop it stands for. The rule of the loop
follows: what a round preserves, the whole loop preserves. -/
namespace OneOpenBroker.Broker.Handler
open Collections OneOpenBroker.Core QueueEngine ConsumerManager

variable {h : Handler} {queue id m : String} {consumer : Consumer} {message : Message}
  {e' : QueueEngine}

/-- The handler after a reservation, with `sent` sends tried so far. -/
def took (h : Handler) (queue id : String) (consumer : Consumer) (message : Message)
    (e' : QueueEngine) (sent : Nat) (outcome : Outcome) : Handler :=
  hand (withQueues { h with
      consumers := h.consumers.updateQos id fun qos => qos.onDeliver.2, sent } e')
    queue { consumer with qos := consumer.qos.onDeliver.2 } message outcome

/-- The delivery that `refuse` gives back. -/
def rejected (h : Handler) (messageId consumerId : String) : Handler :=
  (h.withQueues (h.queues.nack messageId true).2).onAck consumerId

theorem tryReserve_none (nothing : h.consumers.tryReserve h.queues queue = (none, h.consumers, e')) :
    h.tryReserve queue = (none, h.withQueues e') := by
  unfold tryReserve
  rw [nothing]

theorem tryReserve_some (takes : h.consumers.Takes h.queues queue id consumer m message e') :
    h.tryReserve queue = (some ({ consumer with qos := consumer.qos.onDeliver.2 }, message),
      withQueues { h with consumers := h.consumers.updateQos id fun qos => qos.onDeliver.2 } e') := by
  unfold tryReserve
  rw [takes.result]

/-! ## One round -/

theorem round_idle {rounds : Nat}
    (nothing : h.consumers.tryReserve h.queues queue = (none, h.consumers, e')) :
    pumpRounds (rounds + 1) h queue = h.withQueues e' := by
  rw [pumpRounds, tryReserve_none nothing]

/-- A round that reserves sends the message, and either goes on or gives the
delivery back and stops. -/
theorem round_takes (takes : h.consumers.Takes h.queues queue id consumer m message e') :
    ∃ sent, (∀ rounds, pumpRounds (rounds + 1) h queue =
        pumpRounds rounds (h.took queue id consumer message e' sent .pushed) queue) ∨
      ∀ rounds, pumpRounds (rounds + 1) h queue =
        (h.took queue id consumer message e' sent .refused).rejected message.id
          consumer.consumerId := by
  have shape := tryReserve_some takes
  generalize middle : withQueues { h with
    consumers := h.consumers.updateQos id fun qos => qos.onDeliver.2 } e' = h' at shape
  by_cases connected : consumer.connectionId ∈ h'.senders
  · refine ⟨h'.sent + 1, ?_⟩
    cases outcome : h'.sends h'.sent with
    | true =>
      left
      intro rounds
      simp only [pumpRounds, shape, send, if_pos connected, outcome]
      subst middle
      rfl
    | false =>
      right
      intro rounds
      simp only [pumpRounds, shape, send, if_pos connected, outcome]
      subst middle
      rfl
  · refine ⟨h'.sent, .inr fun rounds => ?_⟩
    simp only [pumpRounds, shape, send, if_neg connected]
    subst middle
    rfl

/-! ## The loop -/

theorem took_readyCount {sent : Nat} {outcome : Outcome}
    (takes : h.consumers.Takes h.queues queue id consumer m message e') :
    (h.took queue id consumer message e' sent outcome).readyCount queue < h.readyCount queue := by
  obtain ⟨before, after, found, found', _, shorter⟩ := takes.shorter
  have here : h.readyCount queue = before.readyCount := by simp [readyCount, found]
  have there : (h.took queue id consumer message e' sent outcome).readyCount queue =
      after.readyCount := by
    change ((e'.queues.get? queue).map (·.readyCount)).getD 0 = after.readyCount
    simp [found']
  omega

/-- More rounds than ready entries make no difference. -/
theorem pumpRounds_enough {rounds rounds' : Nat} (enough : h.readyCount queue < rounds)
    (enough' : h.readyCount queue < rounds') :
    pumpRounds rounds h queue = pumpRounds rounds' h queue := by
  induction rounds generalizing h rounds' with
  | zero => omega
  | succ rounds ih =>
    obtain ⟨more, rfl⟩ : ∃ more, rounds' = more + 1 := ⟨rounds' - 1, by omega⟩
    rcases tryReserve_cases h.consumers h.queues queue with ⟨e', nothing, _⟩ |
      ⟨id, consumer, m, message, e', takes⟩
    · rw [round_idle nothing, round_idle nothing]
    · obtain ⟨sent, pushed | refused⟩ := round_takes takes
      · have fewer : (h.took queue id consumer message e' sent .pushed).readyCount queue <
          h.readyCount queue := took_readyCount takes
        rw [pushed, pushed]
        apply ih <;> omega
      · rw [refused, refused]

/-- The loop ends within those rounds, and with their result. -/
theorem pumpLoop_ends {rounds : Nat} (enough : h.readyCount queue < rounds) :
    pumpLoop rounds h queue = some (h.pumpQueue queue) := by
  have same : pumpLoop rounds h queue = some (pumpRounds rounds h queue) := by
    induction rounds generalizing h with
    | zero => omega
    | succ rounds ih =>
      unfold pumpLoop pumpRounds
      rcases tryReserve_cases h.consumers h.queues queue with ⟨e', nothing, _⟩ |
        ⟨id, consumer, m, message, e', takes⟩
      · rw [tryReserve_none nothing]
      · have fewer : ∀ sent, (h.took queue id consumer message e' sent .pushed).readyCount queue <
            h.readyCount queue := fun _ => took_readyCount takes
        rw [tryReserve_some takes]
        dsimp only
        generalize middle : withQueues { h with
          consumers := h.consumers.updateQos id fun qos => qos.onDeliver.2 } e' = h'
        by_cases connected : consumer.connectionId ∈ h'.senders
        · simp only [send, if_pos connected]
          cases h'.sends h'.sent with
          | true =>
            refine ih ?_
            subst middle
            exact (fewer _).trans_le (Nat.le_of_lt_succ enough)
          | false => rfl
        · simp only [send, if_neg connected]
  rw [same]
  exact congrArg some (pumpRounds_enough enough (Nat.lt_succ_self _))

/-- The equation of the loop of `pump_queue`: without a reservation it ends,
after a refused frame it ends, and after an accepted one it starts over. -/
theorem pumpQueue_eq (h : Handler) (queue : String) :
    (∃ e', h.consumers.tryReserve h.queues queue = (none, h.consumers, e') ∧
      Alike h.queues e' ∧ h.pumpQueue queue = h.withQueues e') ∨
    ∃ id consumer m message e' sent, h.consumers.Takes h.queues queue id consumer m message e' ∧
      (h.pumpQueue queue = (h.took queue id consumer message e' sent .pushed).pumpQueue queue ∨
        h.pumpQueue queue = (h.took queue id consumer message e' sent .refused).rejected message.id
          consumer.consumerId) := by
  rcases tryReserve_cases h.consumers h.queues queue with ⟨e', nothing, alike⟩ |
    ⟨id, consumer, m, message, e', takes⟩
  · exact .inl ⟨e', nothing, alike, round_idle nothing⟩
  · obtain ⟨sent, pushed | refused⟩ := round_takes takes
    · refine .inr ⟨id, consumer, m, message, e', sent, takes, .inl ?_⟩
      have fewer : (h.took queue id consumer message e' sent .pushed).readyCount queue <
          h.readyCount queue := took_readyCount takes
      unfold pumpQueue
      rw [pushed]
      apply pumpRounds_enough <;> omega
    · exact .inr ⟨id, consumer, m, message, e', sent, takes, .inr (refused _)⟩

/-- The rule of the loop: a push keeps the invariant `L` of the rounds, and
from it the last round reaches the conclusion `I`. -/
theorem pumpQueue_loop {L I : Handler → Prop}
    (idle : ∀ h e', L h → h.consumers.tryReserve h.queues queue = (none, h.consumers, e') →
      Alike h.queues e' → I (h.withQueues e'))
    (push : ∀ h id consumer m message e' sent, L h →
      h.consumers.Takes h.queues queue id consumer m message e' →
      L (h.took queue id consumer message e' sent .pushed))
    (refuse : ∀ h id consumer m message e' sent, L h →
      h.consumers.Takes h.queues queue id consumer m message e' →
      I ((h.took queue id consumer message e' sent .refused).rejected message.id
        consumer.consumerId))
    (start : L h) : I (h.pumpQueue queue) := by
  -- The ready heap of the queue shrinks from round to round.
  generalize size : h.readyCount queue = n
  induction n using Nat.strongRecOn generalizing h with
  | ind n ih =>
    rcases pumpQueue_eq h queue with ⟨e', nothing, alike, shape⟩ |
      ⟨id, consumer, m, message, e', sent, takes, shape | shape⟩
    · rw [shape]
      exact idle h e' start nothing alike
    · rw [shape]
      have fewer : (h.took queue id consumer message e' sent .pushed).readyCount queue <
          h.readyCount queue := took_readyCount takes
      exact ih _ (by omega) (push h id consumer m message e' sent start takes) rfl
    · rw [shape]
      exact refuse h id consumer m message e' sent start takes

/-- The rule for what turns do not matter to. -/
theorem pumpQueue_rule {L I : Handler → Prop}
    (idle : ∀ h e', L h → Alike h.queues e' → I (h.withQueues e'))
    (push : ∀ h id consumer m message e' sent, L h →
      h.consumers.Takes h.queues queue id consumer m message e' →
      L (h.took queue id consumer message e' sent .pushed))
    (refuse : ∀ h id consumer m message e' sent, L h →
      h.consumers.Takes h.queues queue id consumer m message e' →
      I ((h.took queue id consumer message e' sent .refused).rejected message.id
        consumer.consumerId))
    (start : L h) : I (h.pumpQueue queue) :=
  pumpQueue_loop (fun h e' inv _ alike => idle h e' inv alike) push refuse start

end OneOpenBroker.Broker.Handler

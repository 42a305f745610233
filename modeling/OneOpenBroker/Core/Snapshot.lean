import OneOpenBroker.Core.SweepSteps

/-! `snapshot_state` and `restore_state`. A snapshot keeps each queue's spec,
counters and messages with the state each message is in; a restore makes
every message of it ready or delayed again, and forgets the deliveries. -/
namespace OneOpenBroker.Core
open Collections

/-- The `state` of a snapshotted message. -/
inductive MessageState where
  | ready | inflight | delayed | dead
  deriving DecidableEq

structure SavedMessage where
  message : Message
  state : MessageState

structure SavedQueue where
  spec : QueueSpec
  messages : List SavedMessage
  stats : QueueStats

structure EngineSnapshot where
  queues : List SavedQueue
  seq : Nat

/-- Every message of a snapshot with the name of the queue it is saved in. -/
def EngineSnapshot.contents (saved : EngineSnapshot) : List (String × SavedMessage) :=
  saved.queues.flatMap fun queue => queue.messages.map (queue.spec.name, ·)

namespace QueueEngine

def messageState (queue : DurableQueue) (messageId : String) : MessageState :=
  if messageId ∈ queue.inflight then .inflight
  else if messageId ∈ queue.delayedIds then .delayed
  else if isDlq queue.spec.name then .dead
  else .ready

def saveQueue (queue : DurableQueue) : SavedQueue where
  spec := queue.spec
  messages := queue.messages.values.map fun message => ⟨message, messageState queue message.id⟩
  stats := queue.stats

def snapshotState (e : QueueEngine) : EngineSnapshot where
  queues := e.queues.values.map saveQueue
  seq := e.seq

/-- `message.available_at or self.now()`, where zero counts as absent. -/
def restoredDue (e : QueueEngine) (message : Message) : ℚ × QueueEngine :=
  match message.availableAt with
  | none => e.now
  | some due => if due = 0 then e.now else (due, e)

def restoreMessage (e : QueueEngine) (name : String) (queue : DurableQueue) (saved : SavedMessage) :
    QueueEngine :=
  let message := saved.message
  let queue := { queue with messages := queue.messages.set message.id message }
  let e := { e with byId := e.byId.set message.id message.queue }
  match saved.state with
  | .delayed =>
    let (due, e) := e.restoredDue message
    (e.putQueue name { queue with
      delayedIds := insert message.id queue.delayedIds }).pushDelayed message.queue message.id due
  | .inflight | .ready | .dead => e.pushReady name queue message

def restoreMessages (name : String) : List SavedMessage → QueueEngine → QueueEngine
  | [], e => e
  | saved :: rest, e =>
    match e.queues.get? name with
    | none => e
    | some queue => restoreMessages name rest (e.restoreMessage name queue saved)

def restoreQueue (e : QueueEngine) (saved : SavedQueue) : QueueEngine :=
  restoreMessages saved.spec.name saved.messages
    (e.putQueue saved.spec.name { spec := saved.spec, stats := saved.stats })

def cleared (e : QueueEngine) (seq : Nat) : QueueEngine :=
  { e with queues := ∅, byId := ∅, visibilityHeap := [], delayed := [], seq := seq }

def restoreState (e : QueueEngine) (saved : EngineSnapshot) : QueueEngine :=
  saved.queues.foldl restoreQueue (e.cleared saved.seq)

variable {e : QueueEngine} {name q m : String} {queue : DurableQueue} {saved : SavedMessage}

/-- The queue that a message was restored to. -/
def refit (queue : DurableQueue) (seq : Nat) (saved : SavedMessage) : DurableQueue :=
  let kept := { queue with messages := queue.messages.set saved.message.id saved.message }
  match saved.state with
  | .delayed => { kept with delayedIds := insert saved.message.id queue.delayedIds }
  | .inflight | .ready | .dead => kept.pushReady seq saved.message

@[simp] theorem refit_messages {seq : Nat} :
    (refit queue seq saved).messages = queue.messages.set saved.message.id saved.message := by
  unfold refit; dsimp only; split <;> rfl

@[simp] theorem refit_inflight {seq : Nat} : (refit queue seq saved).inflight = queue.inflight := by
  unfold refit; dsimp only; split <;> rfl

@[simp] theorem refit_spec {seq : Nat} : (refit queue seq saved).spec = queue.spec := by
  unfold refit; dsimp only; split <;> rfl

theorem restoredDue_eq (e : QueueEngine) (message : Message) :
    ∃ reads, (e.restoredDue message).2 = { e with reads } := by
  unfold restoredDue
  split
  · exact ⟨_, rfl⟩
  · split
    · exact ⟨_, rfl⟩
    · exact ⟨e.reads, rfl⟩

theorem restoreMessage_queues : (e.restoreMessage name queue saved).queues =
    e.queues.set name (refit queue (e.seq + 1) saved) := by
  unfold restoreMessage refit
  dsimp only
  split
  · obtain ⟨reads, same⟩ := restoredDue_eq
      { e with byId := e.byId.set saved.message.id saved.message.queue } saved.message
    rw [same]
    rfl
  all_goals rfl

theorem restoreMessage_frame :
    (e.restoreMessage name queue saved).byId = e.byId.set saved.message.id saved.message.queue ∧
    (e.restoreMessage name queue saved).visibilityHeap = e.visibilityHeap ∧
    (e.restoreMessage name queue saved).journal = e.journal ∧
    (e.restoreMessage name queue saved).config = e.config ∧
    (e.restoreMessage name queue saved).recentAcks = e.recentAcks := by
  obtain ⟨reads, same⟩ := restoredDue_eq
    { e with byId := e.byId.set saved.message.id saved.message.queue } saved.message
  unfold restoreMessage
  dsimp only
  split
  · rw [same]
    exact ⟨rfl, rfl, rfl, rfl, rfl⟩
  all_goals exact ⟨rfl, rfl, rfl, rfl, rfl⟩

theorem restoreMessage_message? (found : e.queues.get? name = some queue) :
    (e.restoreMessage name queue saved).message? q m =
      if q = name ∧ m = saved.message.id then some saved.message else e.message? q m := by
  rw [message?_of_set restoreMessage_queues, refit_messages, Dict.get?_set]
  by_cases here : q = name
  · subst here
    simp [message?_of_get found]
  · simp [here]

/-- A message restored as delayed has its entry in the delayed heap. -/
theorem restoreMessage_delayed (e : QueueEngine) (name : String) (queue : DurableQueue)
    (saved : SavedMessage) :
    (∀ entry ∈ e.delayed, entry ∈ (e.restoreMessage name queue saved).delayed) ∧
    (saved.state = .delayed → ∃ entry ∈ (e.restoreMessage name queue saved).delayed,
      entry.queue = saved.message.queue ∧ entry.messageId = saved.message.id) := by
  obtain ⟨reads, same⟩ := restoredDue_eq
    { e with byId := e.byId.set saved.message.id saved.message.queue } saved.message
  unfold restoreMessage
  dsimp only
  split
  · rename_i state
    rw [same]
    exact ⟨fun entry held => mem_heappush.mpr (.inr held),
      fun _ => ⟨_, mem_heappush.mpr (.inl rfl), rfl, rfl⟩⟩
  all_goals
    rename_i state
    exact ⟨fun entry held => held, fun delayed => nomatch state.symm.trans delayed⟩

/-- What the restore of one queue and of one message preserve, the restore of
a whole snapshot preserves. The property may mention the queues and the
messages of the current queue that are still to be restored. -/
theorem restoreState_preserves {saved : EngineSnapshot}
    {I : QueueEngine → List SavedQueue → List (String × SavedMessage) → Prop}
    (declare : ∀ e queues (queue : SavedQueue), queue ∈ saved.queues → I e (queue :: queues) [] →
      I (e.putQueue queue.spec.name { spec := queue.spec, stats := queue.stats }) queues
        (queue.messages.map (queue.spec.name, ·)))
    (restore : ∀ e queues rest name queue message, e.queues.get? name = some queue →
      (name, message) ∈ saved.contents → I e queues ((name, message) :: rest) →
      I (e.restoreMessage name queue message) queues rest)
    (start : I (e.cleared saved.seq) saved.queues []) : I (e.restoreState saved) [] [] := by
  have fill : ∀ name queues messages e, (∀ message ∈ messages, (name, message) ∈ saved.contents) →
      name ∈ e.queues → I e queues (messages.map (name, ·)) →
      I (restoreMessages name messages e) queues [] := by
    intro name queues messages
    induction messages with
    | nil => exact fun e _ _ inv => inv
    | cons message messages ih =>
      intro e listed known inv
      obtain ⟨queue, found⟩ := Dict.mem_iff.mp known
      simp only [restoreMessages, found]
      refine ih _ (fun other member => listed other (List.mem_cons_of_mem _ member)) ?_
        (restore e _ _ name queue message found (listed message List.mem_cons_self) inv)
      rw [restoreMessage_queues]
      exact Dict.mem_set.mpr (.inl rfl)
  have load : ∀ (queues : List SavedQueue) e, (∀ queue ∈ queues, queue ∈ saved.queues) →
      I e queues [] → I (queues.foldl restoreQueue e) [] [] := by
    intro queues
    induction queues with
    | nil => exact fun e _ inv => inv
    | cons queue queues ih =>
      intro e listed inv
      refine ih _ (fun other member => listed other (List.mem_cons_of_mem _ member)) ?_
      refine fill _ _ _ _ (fun message member => ?_) (Dict.mem_set.mpr (.inl rfl))
        (declare e _ queue (listed queue List.mem_cons_self) inv)
      exact List.mem_flatMap.mpr ⟨queue, listed queue List.mem_cons_self,
        List.mem_map.mpr ⟨message, member, rfl⟩⟩
  exact load saved.queues _ (fun _ member => member) start

/-- A snapshot lists the messages that the queues hold, under their queues' names. -/
theorem mem_contents (named : e.Named) :
    (name, saved) ∈ e.snapshotState.contents ↔ ∃ queue, e.queues.get? name = some queue ∧
      queue.messages.get? saved.message.id = some saved.message ∧
      saved.state = messageState queue saved.message.id := by
  simp only [EngineSnapshot.contents, snapshotState, List.mem_flatMap, List.mem_map,
    Prod.mk.injEq]
  constructor
  · rintro ⟨_, ⟨queue, member, rfl⟩, _, listed, same, rfl⟩
    obtain ⟨kept, held, rfl⟩ := List.mem_map.mp listed
    obtain ⟨key, found⟩ := Dict.mem_values.mp member
    obtain ⟨id, there⟩ := Dict.mem_values.mp held
    have filed := named key queue found
    have here : key = name := filed.spec.symm.trans same
    refine ⟨queue, here ▸ found, ?_, rfl⟩
    rw [(filed.messages id kept there).1]
    exact there
  · rintro ⟨queue, found, held, state⟩
    refine ⟨saveQueue queue, ⟨queue, Dict.mem_values.mpr ⟨name, found⟩, rfl⟩, saved, ?_,
      (named name queue found).spec, rfl⟩
    exact List.mem_map.mpr ⟨saved.message, Dict.mem_values.mpr ⟨_, held⟩, by rw [← state]⟩

end QueueEngine
end OneOpenBroker.Core

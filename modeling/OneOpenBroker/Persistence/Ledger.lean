import OneOpenBroker.Core.Placement
import OneOpenBroker.Persistence.Resurrection

/-! What a journal says without replaying it. The ledger of a journal lists
which messages it files in which queue, acknowledged and failed ones included,
and the limit of each queue; a record fits when the queue it files a message
in has room in the ledger. Recovery from a journal whose records all fit never
meets a full queue. -/
namespace OneOpenBroker.Persistence
open Collections Systems OneOpenBroker.Core QueueEngine RoutingEngine

/-! ## The ledger -/

structure Ledger where
  filed : List (String × String) := []
  limit : String → Option Int
  /-- Messages that were acknowledged or failed after they were filed. -/
  troubled : List String := []

namespace Ledger

/-- The ledger of an empty journal. -/
def blank (maxLength : Option Int) : Ledger := { limit := fun _ => maxLength }

def setLimit (ledger : Ledger) (name : String) (limit : Option Int) : Ledger :=
  { ledger with limit := fun q => if q = name then limit else ledger.limit q }

/-- A message moves from the DLQ it is filed in to the origin queue. -/
def move (filed : List (String × String)) (id dest : String) : List (String × String) :=
  if (requeueSource dest, id) ∈ filed then
    (originQueue dest, id) :: filed.filter (· ≠ (requeueSource dest, id))
  else filed

/-- One record is entered, with the default limit of the configuration. -/
def post (maxLength : Option Int) (ledger : Ledger) : JournalOp → Ledger
  | .queueDeclare name _ limit _ _ _ => ledger.setLimit name (limit.orElse fun _ => maxLength)
  | .queueDelete name =>
    { ledger.setLimit name maxLength with filed := ledger.filed.filter (·.1 ≠ name) }
  | .messagePublish message => { ledger with filed := (message.queue, message.id) :: ledger.filed }
  | .messageRequeue id _ dest =>
    { ledger with
      filed := move ledger.filed id dest
      troubled := ledger.troubled.filter (· ≠ id) }
  | .messageAck id _ | .messageNack id _ _ | .messageRetry id _ _ _ | .messageDead id _ _ _ =>
    { ledger with troubled := id :: ledger.troubled }
  | .exchangeDeclare .. | .exchangeDelete .. | .bind .. | .unbind .. => ledger

/-- Fewer messages are filed in the queue than its limit. -/
def Room (ledger : Ledger) (q : String) : Prop :=
  ∀ limit ∈ ledger.limit q, (ledger.filed.countP (·.1 = q) : Int) < limit

instance (ledger : Ledger) (q : String) : Decidable (ledger.Room q) :=
  inferInstanceAs (Decidable (∀ limit ∈ ledger.limit q, _))

/-- The record files its message in a queue with room. A requeue goes to a
queue that is not itself a DLQ. -/
def Fits (ledger : Ledger) : JournalOp → Prop
  | .messagePublish message => ledger.Room message.queue
  | .messageRequeue id _ dest => isDlq dest = false ∧
      ((requeueSource dest, id) ∈ ledger.filed → ledger.Room (originQueue dest))
  | _ => True

instance : DecidableRel Fits := fun ledger op =>
  match op with
  | .messagePublish message => inferInstanceAs (Decidable (ledger.Room message.queue))
  | .messageRequeue id _ dest => inferInstanceAs (Decidable (isDlq dest = false ∧
      ((requeueSource dest, id) ∈ ledger.filed → ledger.Room (originQueue dest))))
  | .queueDeclare .. | .queueDelete .. | .exchangeDeclare .. | .exchangeDelete .. | .bind ..
  | .unbind .. | .messageAck .. | .messageNack .. | .messageRetry .. | .messageDead .. =>
    inferInstanceAs (Decidable True)

end Ledger

/-- The ledger of a journal. -/
def ledgerOf (maxLength : Option Int) (ops : List JournalOp) : Ledger :=
  ops.foldl (Ledger.post maxLength) (.blank maxLength)

/-- Every record fits the ledger of the records before it. -/
def Roomy (maxLength : Option Int) (ops : List JournalOp) : Prop :=
  Allowed (Ledger.post maxLength) Ledger.Fits (.blank maxLength) ops

instance (maxLength : Option Int) (ops : List JournalOp) : Decidable (Roomy maxLength ops) :=
  inferInstanceAs (Decidable (Allowed (Ledger.post maxLength) Ledger.Fits _ ops))

theorem ledgerOf_append {maxLength : Option Int} {first second : List JournalOp} :
    ledgerOf maxLength (first ++ second) =
      second.foldl (Ledger.post maxLength) (ledgerOf maxLength first) :=
  List.foldl_append

theorem Roomy.append {maxLength : Option Int} {first second : List JournalOp} :
    Roomy maxLength (first ++ second) ↔ Roomy maxLength first ∧
      Allowed (Ledger.post maxLength) Ledger.Fits (ledgerOf maxLength first) second :=
  Allowed.append

theorem Roomy.last {maxLength : Option Int} {ops : List JournalOp} {op : JournalOp}
    (roomy : Roomy maxLength (ops ++ [op])) : (ledgerOf maxLength ops).Fits op := by
  obtain ⟨_, fits, _⟩ := Roomy.append.mp roomy
  exact fits

/-! ## A queue engine without deliveries and delays -/

/-- The engine of a recovery from a journal alone: no message is out for
delivery or delayed, or has ever failed. -/
structure Calm (e : QueueEngine) : Prop where
  sound : e.Sound
  idle : Idle e
  awake : Dict.All (fun _ queue => queue.delayedIds = ∅) e.queues
  pristine : ∀ q m message, e.message? q m = some message → Pristine message

variable {e e' : QueueEngine} {name id q m dest : String} {message : Message} {queue : DurableQueue}
  {filed : List (String × String)}

theorem Calm.settled (calm : Calm e) (queueName id : String) : e.Settled queueName id := by
  intro dlq message draws
  refine ⟨calm.idle.not_inflight draws.source, ?_⟩
  rw [calm.awake _ _ draws.source]
  exact Finset.notMem_empty id

theorem Calm.declare (calm : Calm e) (name : String) (args : QueueArgs) :
    Calm (e.declareQueue name args false) where
  sound := step_sound calm.sound (.declareQueue name args) trivial
  idle := calm.idle.of_eq declareQueue_observe.2
  awake := all_declareQueue calm.awake fun _ _ => rfl
  pristine := by
    rw [declareQueue_observe.1]
    exact calm.pristine

theorem Calm.delete (calm : Calm e) (name : String) : Calm (e.deleteQueue name false).2 where
  sound := step_sound calm.sound (.deleteQueue name) trivial
  idle := fun q m => by
    rw [deleteQueue_record?]
    split
    · rfl
    · exact calm.idle q m
  awake := all_deleteQueue calm.awake
  pristine := fun q m message there => by
    rw [deleteQueue_message?] at there
    split at there
    · cases there
    · exact calm.pristine q m message there

theorem accepted_awake {seq : Nat} (awake : queue.delayedIds = ∅) (due : message.availableAt = none) :
    (accepted queue seq message).delayedIds = ∅ := by
  unfold accepted
  rw [due]
  exact awake

theorem Calm.publish (calm : Calm e) (pristine : Pristine message) (new : ¬ e.Held message.id) :
    Calm (e.enqueue message false).2 := by
  rcases enqueue_cases e message false with ⟨queue, accepts⟩ | ⟨_, same⟩
  · have awake : dueMessage message e.now.1 = message := by simp [dueMessage, pristine.2]
    refine ⟨enqueue_sound calm.sound new, calm.idle.of_eq accepts.record?, ?_, fun q m msg there => ?_⟩
    · rw [accepts.queues, awake]
      exact calm.awake.set (accepted_awake (calm.awake _ _ accepts.1) pristine.2)
    · rw [accepts.message?, awake] at there
      split at there
      · cases there
        exact pristine
      · exact calm.pristine q m msg there
  · rw [same]
    exact calm

theorem Calm.requeue (calm : Calm e) : Calm (e.dlqRequeue dest id false).2 := by
  refine ⟨dlqRequeue_sound calm.sound (calm.settled dest id),
    (requeue_rebuilt ⟨calm.sound.named, calm.idle⟩).idle, ?_, ?_⟩
  · rcases dlqRequeue_cases e dest id false with nothing | ⟨dlq, message, draws⟩
    · rw [nothing]
      exact calm.awake
    · have waiting : dlq.delayedIds = ∅ := calm.awake _ _ draws.source
      have drawn : Dict.All (fun _ queue => queue.delayedIds = ∅) (e.withdrawn dest id dlq).queues :=
        calm.awake.set waiting
      rcases draws.result false with ⟨queue, accepts, shape⟩ | ⟨_, shape⟩
      · rw [shape, append_false, accepts.queues]
        exact drawn.set (accepted_awake (drawn _ _ accepts.1) rfl)
      · rw [shape, putBack_queues]
        exact drawn.set waiting
  · have requeue := dlqRequeue_requeue calm.sound.named dest id false
    generalize (e.dlqRequeue dest id false).1 = result at requeue
    generalize (e.dlqRequeue dest id false).2 = e' at requeue ⊢
    intro q m msg there
    cases requeue with
    | missing => exact calm.pristine q m msg there
    | moved message _ held messages =>
      rw [messages] at there
      split at there
      · cases there
        exact ⟨rfl, rfl⟩
      · split at there
        · cases there
        · exact calm.pristine q m msg there
    | refused message _ held messages =>
      rw [messages] at there
      split at there
      · cases there
        exact ⟨rfl, rfl⟩
      · exact calm.pristine q m msg there

/-- A queue of a calm engine holds no more messages than are filed in it. -/
theorem Calm.depth_le (calm : Calm e) (traced : Traced filed e)
    (found : e.queues.get? q = some queue) : queue.depth ≤ filed.countP (·.1 = q) := by
  rw [(calm.sound.balanced q queue found).depth, ← Dict.length_keys, List.countP_eq_length_filter,
    ← List.length_map (f := fun m => (q, m))]
  refine (List.subperm_of_subset ?_ ?_).length_le
  · exact queue.messages.keys_nodup.map fun _ _ same => congrArg Prod.snd same
  · intro pair there
    obtain ⟨m, inside, rfl⟩ := List.mem_map.mp there
    obtain ⟨message, held⟩ := Dict.mem_iff.mp inside
    exact List.mem_filter.mpr ⟨traced q m message ((message?_of_get found).trans held), by simp⟩

/-- With room in the ledger the queue has room. -/
theorem Calm.has_room {ledger : Ledger} (calm : Calm e) (traced : Traced ledger.filed e)
    (found : e.queues.get? q = some queue) (limit : queue.spec.maxLength = ledger.limit q)
    (room : ledger.Room q) : queue.isFull = false := by
  unfold DurableQueue.isFull
  cases known : queue.spec.maxLength with
  | none => rfl
  | some bound =>
    have below := room bound (by rw [← limit, known]; rfl)
    have depth := calm.depth_le traced found
    simp only [decide_eq_false_iff_not, not_le]
    omega

end OneOpenBroker.Persistence

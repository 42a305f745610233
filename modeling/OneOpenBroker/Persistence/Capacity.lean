import OneOpenBroker.Core.Accounting
import OneOpenBroker.Core.DeadLetters
import OneOpenBroker.Persistence.Recovery

/-! The capacity of a queue. The limit is looked at by `enqueue` only, which is
enough: everything else that puts a message in a place of a queue that is no
DLQ takes it out of another place of that queue first. A DLQ has no such
bound, because dead letters are put there without a look at the limit. -/
namespace OneOpenBroker.Persistence
open Collections Systems OneOpenBroker.Core OneOpenBroker.Core.QueueEngine

/-- So many places more fit into the queue. A limit below zero leaves none. -/
def Fits (extra : Nat) (name : String) (queue : DurableQueue) : Prop :=
  isDlq name = false → ∀ limit, queue.spec.maxLength = some limit →
    ((queue.depth + extra : Nat) : Int) ≤ max limit 0

variable {e : QueueEngine} {name q id m : String} {queue queue' : DurableQueue} {message : Message}
  {persist requeue : Bool} {extra extra' seq : Nat}

/-! ## Updates of one queue -/

theorem Fits.change (fits : Fits extra name queue) (spec : queue'.spec = queue.spec)
    (depth : queue'.depth + extra' ≤ queue.depth + extra) : Fits extra' name queue' := by
  intro plain limit bounded
  have before := fits plain limit (spec ▸ bounded)
  omega

theorem Fits.dlq : Fits extra (dlqName name) queue :=
  fun plain => absurd rfl (ne_dlqName plain)

theorem Fits.fresh {spec : QueueSpec} {stats : QueueStats} : Fits 0 name { spec, stats } := by
  intro _ limit _
  exact le_max_right limit 0

theorem depth_eq (queue : DurableQueue) : queue.depth =
    queue.ready.length + queue.inflight.size + queue.delayedIds.card := rfl

theorem depth_pushReady : (queue.pushReady seq message).depth = queue.depth + 1 := by
  have length : (queue.pushReady seq message).ready.length = queue.ready.length + 1 :=
    List.orderedInsert_length _ _ _
  rw [depth_eq, length, depth_eq]
  change queue.ready.length + 1 + queue.inflight.size + queue.delayedIds.card = _
  omega

theorem depth_marked {messages : Dict String Message} {stats : QueueStats} :
    DurableQueue.depth { queue with
      messages, stats, delayedIds := insert id queue.delayedIds } ≤ queue.depth + 1 := by
  have marked := Finset.card_insert_le id queue.delayedIds
  simp only [depth_eq]
  omega

theorem depth_accepted : (accepted queue seq message).depth ≤ queue.depth + 1 := by
  unfold accepted
  split
  · exact depth_marked
  · exact depth_pushReady.le

theorem depth_unmarked (messages : Dict String Message) (marked : id ∈ queue.delayedIds) :
    DurableQueue.depth { queue with
      messages, delayedIds := queue.delayedIds.erase id } + 1 = queue.depth := by
  have erased := Finset.card_erase_add_one marked
  simp only [depth_eq]
  omega

theorem depth_endDelivery (inflight : id ∈ queue.inflight) :
    (queue.endDelivery id).depth + 1 = queue.depth := by
  have erased := Dict.size_erase_of_mem inflight
  simp only [DurableQueue.endDelivery, depth_eq]
  omega

theorem depth_endDelivery_le : (queue.endDelivery id).depth ≤ queue.depth := by
  have fewer : (queue.inflight.erase id).size ≤ queue.inflight.size := Dict.size_erase_le
  simp only [DurableQueue.endDelivery, depth_eq]
  omega

theorem depth_deliver {rest : List ReadyEntry} {record : InflightRecord}
    (popped : popDeliverable queue queue.ready = (some (id, message), rest)) :
    (queue.deliver rest record).depth ≤ queue.depth := by
  obtain ⟨_, _, _, skipped, entry, split, _⟩ := popDeliverable_some popped
  have shorter := congrArg List.length split
  have inflight : (queue.inflight.set record.messageId record).size ≤ queue.inflight.size + 1 := by
    by_cases there : record.messageId ∈ queue.inflight
    · rw [Dict.size_set_of_mem there]
      omega
    · exact (Dict.size_set_of_not_mem there).le
  rw [List.length_append, List.length_cons] at shorter
  simp only [DurableQueue.deliver, depth_eq]
  omega

/-- There is room where `enqueue` finds it. -/
theorem Fits.room (open' : queue.isFull = false) : Fits 1 name queue := by
  intro _ limit bounded
  unfold DurableQueue.isFull at open'
  rw [bounded] at open'
  have below := of_decide_eq_false open'
  have reaches : limit ≤ max limit 0 := le_max_left limit 0
  push_cast
  omega

/-! ## One step -/

/-- A failed message takes the place that its delivery had. -/
theorem conclude_fits (others : Dict.AllBut name (Fits 0) e.queues) (fits : Fits 1 name queue) :
    Dict.All (Fits 0) (e.conclude name queue message requeue persist).queues := by
  rcases conclude_cases e name queue message requeue persist with ⟨_, shape⟩ | ⟨_, _, shape⟩
  · rw [shape]
    refine all_moveToDlq others (fits.change rfl ?_) Fits.dlq fun _ _ _ => Fits.dlq
    change queue.depth + 0 ≤ queue.depth + 1
    omega
  · rw [shape, delayRetry_queues]
    exact others.set (fits.change rfl depth_marked)

theorem failDelivery_fits {record : InflightRecord} (capped : Dict.All (Fits 0) e.queues)
    (flying : e.record? name id = some record) :
    Dict.All (Fits 0) (e.failDelivery name id persist).2.queues := by
  obtain ⟨queue, found, inflight⟩ := record?_some.mp flying
  have ended := depth_endDelivery (Dict.mem_of_get? inflight)
  rcases failDelivery_cases e name id persist with ⟨absent, _⟩ | ⟨queue', found', _, shape⟩ |
    ⟨queue', message, found', _, shape⟩
  · rw [absent] at found
    cases found
  · obtain rfl := Option.some.inj (found.symm.trans found')
    rw [shape]
    exact capped.set ((capped name queue found).change rfl (by omega))
  · obtain rfl := Option.some.inj (found.symm.trans found')
    rw [shape]
    exact conclude_fits capped.but.stored ((capped name queue found).change rfl (by omega))

theorem nack_fits (capped : Dict.All (Fits 0) e.queues) :
    Dict.All (Fits 0) (e.nack id requeue persist).2.queues := by
  rcases nack_cases e id requeue persist with ⟨name, queue, message, nacks⟩ |
    ⟨_, same | ⟨name, queue, _, found, _, shape⟩⟩
  · have ended := depth_endDelivery nacks.inflight
    have others : Dict.AllBut name (Fits 0) (e.nacked id requeue persist name queue).queues := by
      rw [nacked_queues]
      exact capped.but.stored
    rw [nacks.shape]
    refine conclude_fits others ((capped name queue nacks.found).change rfl ?_)
    exact ended.le
  · rw [same]
    exact capped
  · rw [shape]
    exact capped.set ((capped name queue found).change rfl depth_endDelivery_le)

theorem enqueue_fits (capped : Dict.All (Fits 0) e.queues) :
    Dict.All (Fits 0) (e.enqueue message persist).2.queues := by
  rcases enqueue_cases e message persist with ⟨queue, accepts⟩ | ⟨_, same⟩
  · rw [accepts.queues]
    refine capped.set ((Fits.room accepts.2.1).change ?_ depth_accepted)
    unfold accepted
    split <;> rfl
  · rw [same]
    exact capped

theorem reserve_fits {queueName consumerId : String} (capped : Dict.All (Fits 0) e.queues) :
    Dict.All (Fits 0) (e.reserve queueName consumerId).2.queues := by
  rcases reserve_cases e queueName consumerId with ⟨queue, id, message, rest, reserves⟩ |
    ⟨_, ⟨same, _⟩ | ⟨queue, found, _, shape⟩⟩
  · rw [reserves.queues]
    exact capped.set ((capped _ _ reserves.found).change rfl (depth_deliver reserves.popped))
  · rw [same]
    exact capped
  · rw [shape]
    refine capped.set ((capped _ _ found).change rfl ?_)
    simp only [depth_eq, List.length_nil]
    omega

theorem ack_fits (capped : Dict.All (Fits 0) e.queues) :
    Dict.All (Fits 0) (e.ack id persist).2.queues := by
  rcases ack_cases e id persist with ⟨name, queue, settles⟩ | ⟨_, same⟩
  · rw [settles.queues]
    exact capped.set ((capped _ _ settles.found).change rfl
      (show (queue.endDelivery id).depth ≤ _ from depth_endDelivery_le))
  · rw [same]
    exact capped

theorem releaseOne_fits (capped : Dict.All (Fits 0) e.queues) :
    Dict.All (Fits 0) (e.releaseOne name id).2.queues := by
  rcases releaseOne_cases e name id with ⟨_, shape⟩ | ⟨queue, found, marked, _, shape⟩ |
    ⟨queue, message, found, marked, _, _, shape⟩
  · rw [shape]
    exact capped
  · have fewer := depth_unmarked queue.messages marked
    rw [shape]
    exact capped.set ((capped _ _ found).change rfl (by omega))
  · rw [shape]
    refine capped.set ((capped _ _ found).change rfl ?_)
    have fewer := depth_unmarked (queue.messages.set id (strip message)) marked
    rw [depth_pushReady]
    omega

theorem dlqRequeue_fits {queueName : String} (capped : Dict.All (Fits 0) e.queues) :
    Dict.All (Fits 0) (e.dlqRequeue queueName id persist).2.queues := by
  rcases dlqRequeue_cases e queueName id persist with nothing | ⟨dlq, message, draws⟩
  · rw [nothing]
    exact capped
  · have drawn : Dict.All (Fits 0) (e.withdrawn queueName id dlq).queues := capped.set Fits.dlq
    rcases draws.result persist with ⟨_, _, shape⟩ | ⟨_, shape⟩
    · rw [shape, append_queues]
      exact enqueue_fits drawn
    · rw [shape, putBack_queues]
      exact drawn.set Fits.dlq

theorem step_fits (named : e.Named) (capped : Dict.All (Fits 0) e.queues) (op : EngineOp) :
    Dict.All (Fits 0) (e.step persist op).queues := by
  cases op with
  | declareQueue name args => exact all_declareQueue capped fun _ _ => Fits.fresh
  | deleteQueue name => exact all_deleteQueue capped
  | enqueue message => exact enqueue_fits capped
  | reserve queueName consumerId => exact reserve_fits capped
  | ack messageId => exact ack_fits capped
  | nack messageId requeue => exact nack_fits capped
  | recoverConsumer consumerId =>
    exact (recoverConsumer_preserves (I := fun e => e.Named ∧ Dict.All (Fits 0) e.queues)
      (fun _ inv => inv.1)
      (fun _ _ _ _ inv flying _ => ⟨failDelivery_named inv.1, failDelivery_fits inv.2 flying⟩)
      ⟨named, capped⟩).2
  | tick now =>
    exact tick_preserves (I := fun e => Dict.All (Fits 0) e.queues) (fun _ _ _ => releaseOne_fits)
      (fun _ _ _ _ capped flying _ => failDelivery_fits capped flying)
      (fun _ _ _ _ capped => capped) capped
  | dlqRequeue queueName messageId => exact dlqRequeue_fits capped

/-! ## Snapshots and journals -/

/-- The messages of a queue that are still to be restored fit, too. -/
def Loading (rest : List (String × SavedMessage)) (name : String) (queue : DurableQueue) : Prop :=
  Fits (awaited rest name) name queue

theorem depth_refit {saved : SavedMessage} : (refit queue seq saved).depth ≤ queue.depth + 1 := by
  unfold refit
  dsimp only
  split
  · exact depth_marked
  all_goals exact depth_pushReady.le

/-- A queue that is declared anew has room for the messages it was saved with. -/
theorem Loading.declared {saved : QueueEngine} {old : DurableQueue} (kept : saved.Named)
    (live : saved.Live) (capped : Dict.All (Fits 0) saved.queues)
    (member : old ∈ saved.queues.values) (loading : Dict.All (Loading []) e.queues) :
    Dict.All (Loading ((saveQueue old).messages.map ((saveQueue old).spec.name, ·)))
      (e.putQueue old.spec.name { spec := old.spec, stats := old.stats }).queues := by
  intro q queue' there
  obtain ⟨name, found⟩ := Dict.mem_values.mp member
  have same : old.spec.name = name := (kept name old found).spec
  change (e.queues.set old.spec.name _).get? q = some queue' at there
  rw [Dict.get?_set] at there
  unfold Loading
  rw [awaited_saveQueue]
  split at there
  · rename_i here
    obtain rfl := Option.some.inj there
    subst here
    rw [if_pos rfl, same]
    have few := size_le_depth fun m held => Placed.places ((live name old found).placed m) held
    refine (capped name old found).change rfl ?_
    change 0 + old.messages.size ≤ old.depth + 0
    omega
  · rename_i other
    rw [if_neg fun here => other here.symm]
    exact (loading q queue' there).change rfl le_rfl

/-- A message that is restored takes a place that it was awaited in. -/
theorem Loading.restored {rest : List (String × SavedMessage)} {saved : SavedMessage}
    (found : e.queues.get? name = some queue)
    (loading : Dict.All (Loading ((name, saved) :: rest)) e.queues) :
    Dict.All (Loading rest) (e.restoreMessage name queue saved).queues := by
  intro q queue' there
  rw [restoreMessage_queues, Dict.get?_set] at there
  split at there
  · rename_i here
    subst here
    obtain rfl := Option.some.inj there
    have before := loading q queue found
    unfold Loading at before ⊢
    rw [awaited_cons, if_pos rfl] at before
    have filled : (refit queue (e.seq + 1) saved).depth ≤ queue.depth + 1 := depth_refit
    exact before.change refit_spec (by omega)
  · rename_i other
    have before := loading q queue' there
    unfold Loading at before ⊢
    rw [awaited_cons, if_neg fun here => other here.symm, Nat.zero_add] at before
    exact before

theorem restore_fits {saved : QueueEngine} (kept : saved.Named) (live : saved.Live)
    (capped : Dict.All (Fits 0) saved.queues) :
    Dict.All (Fits 0) (e.restoreState saved.snapshotState).queues := by
  have finish : Dict.All (Loading []) (e.restoreState saved.snapshotState).queues := by
    refine restoreState_preserves (I := fun e _ rest => Dict.All (Loading rest) e.queues) ?_ ?_
      Dict.all_empty
    · intro e queues queue listed loading
      obtain ⟨old, member, rfl⟩ := List.mem_map.mp listed
      exact Loading.declared kept live capped member loading
    · exact fun e queues rest name queue message found _ loading => Loading.restored found loading
  exact finish

theorem Reachable.fits (reached : Reachable Anything e) : Dict.All (Fits 0) e.queues := by
  induction reached with
  | start => exact Dict.all_empty
  | step reached persist op _ capped => exact step_fits reached.named capped op
  | restore _ kept _ capped => exact restore_fits kept.named kept.live capped

/-- The retry that a record asks for has a delay. -/
def RecordHasDelays (e : QueueEngine) : JournalOp → Prop
  | .messageNack id _ requeue => HasDelays e (.nack id requeue)
  | _ => True

instance : DecidableRel RecordHasDelays := fun e op =>
  match op with
  | .messageNack id _ requeue => inferInstanceAs (Decidable (HasDelays e (.nack id requeue)))
  | .queueDeclare .. | .queueDelete .. | .exchangeDeclare .. | .exchangeDelete .. | .bind ..
  | .unbind .. | .messagePublish .. | .messageAck .. | .messageRetry .. | .messageRequeue ..
  | .messageDead .. => inferInstanceAs (Decidable True)

/-- `retry_delay` returns a number throughout the replay of a journal. -/
def ReplayHasDelays (e : QueueEngine) (records : List JournalOp) : Prop :=
  Allowed applyToQueues RecordHasDelays e records

instance : DecidableRel ReplayHasDelays := fun e records =>
  inferInstanceAs (Decidable (Allowed applyToQueues RecordHasDelays e records))

/-- A record does what the operation does that it tells of. -/
theorem applyToQueues_numbered (reached : Raising.Reachable (Raising.Numbered Anything) e)
    (op : JournalOp) (delays : RecordHasDelays e op) :
    Raising.Reachable (Raising.Numbered Anything) (applyToQueues e op) := by
  have next (e : QueueEngine) (reached : Raising.Reachable (Raising.Numbered Anything) e)
      (op : EngineOp) (none : ∀ q record, ¬ e.MayFail op q record) :
      Raising.Reachable (Raising.Numbered Anything) (e.step false op) :=
    reached.next false op trivial (.of_none none)
  cases op with
  | queueDeclare name durable maxLength visibilityTimeout maxAttempts deadLetter =>
    exact next e reached (.declareQueue name _) fun _ _ => id
  | queueDelete name => exact next e reached (.deleteQueue name) fun _ _ => id
  | bind exchange queue routingKey => exact next e reached (.declareQueue queue {}) fun _ _ => id
  | messagePublish message =>
    have declared := next e reached (.declareQueue message.queue {}) fun _ _ => id
    unfold applyToQueues
    dsimp only
    split
    · exact declared
    · exact next _ declared (.enqueue message) fun _ _ => id
  | messageAck id queue => exact next e reached (.ack id) fun _ _ => False.elim
  | messageNack id queue requeue => exact reached.next false (.nack id requeue) trivial delays
  | messageRequeue id source dest => exact next e reached (.dlqRequeue dest id) fun _ _ => False.elim
  | exchangeDeclare | exchangeDelete | unbind | messageRetry | messageDead => exact reached

/-- Recovery leads to states that operations lead to. -/
theorem rebuild_numbered (reached : Raising.Reachable (Raising.Numbered Anything) e)
    (records : List JournalOp) (delays : ReplayHasDelays e records) :
    Raising.Reachable (Raising.Numbered Anything) (rebuild e records) :=
  run_preserves (I := Raising.Reachable (Raising.Numbered Anything)) (s := e)
    (fun _ op reached delays => applyToQueues_numbered reached op delays) reached delays

/-- A queue with room for one message, which is published, delivered and given
up while a second one is refused. -/
def narrow : QueueEngine := run (Raising.step true) { config := {}, clock := fun _ => 0 } [
  .declareQueue "orders" { maxLength := some 1 },
  .enqueue { id := "m1", queue := "orders", payload := [1], createdAt := 0 },
  .reserve "orders" "worker",
  .enqueue { id := "m2", queue := "orders", payload := [2], createdAt := 0 },
  .nack "m1" true]

end OneOpenBroker.Persistence

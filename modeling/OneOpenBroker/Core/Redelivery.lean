import OneOpenBroker.Core.Budget

/-! How often a message is handed out. From the moment a queue is given a
message with no attempts, every delivery of it but the last was ended by a
failure that the message counted, and a message that has used up its budget is
not in the queue any more. -/
namespace OneOpenBroker.Core.QueueEngine
open Collections Systems

/-- The operation hands out the message that queue `q` holds under `m`. -/
def Delivers (e : QueueEngine) (q m : String) : EngineOp → Prop
  | .reserve queueName consumerId =>
      queueName = q ∧ (e.reserve queueName consumerId).1.any (·.id = m) = true
  | _ => False

instance (e : QueueEngine) (q m : String) : DecidablePred (Delivers e q m) := fun op =>
  match op with
  | .reserve queueName _ => inferInstanceAs (Decidable (queueName = q ∧ _))
  | .declareQueue .. | .deleteQueue .. | .enqueue .. | .ack .. | .nack .. | .recoverConsumer ..
  | .tick .. | .dlqRequeue .. => inferInstanceAs (Decidable False)

/-- How often a run hands it out. -/
def timesDelivered (persist : Bool) (q m : String) : QueueEngine → List EngineOp → Nat
  | _, [] => 0
  | e, op :: rest => (if Delivers e q m op then 1 else 0) +
      timesDelivered persist q m (e.step persist op) rest

/-- Of the deliveries so far all have failed but the one that is outstanding,
as long as the queue holds the message. -/
structure Handed (e : QueueEngine) (q m : String) (failed delivered : Nat) (budget : Int) : Prop where
  bound : (delivered : Int) ≤ max 1 budget
  ended : (e.message? q m).isSome → delivered ≤ failed + if (e.record? q m).isSome then 1 else 0

variable {e e' : QueueEngine} {q m : String} {message : Message} {persist : Bool}
  {n d : Nat} {budget : Int} {op : EngineOp}

/-! ## One operation -/

/-- A message that is handed out is held, and was not out before. -/
theorem Delivers.starts (persist : Bool) (named : e.Named) (delivers : Delivers e q m op) :
    (e.message? q m).isSome ∧ e.record? q m = none ∧ ¬ Failing op ∧
      ((e.step persist op).record? q m).isSome := by
  cases op with
  | reserve queueName consumerId =>
    obtain ⟨rfl, returned⟩ := delivers
    rcases reserve_cases e queueName consumerId with ⟨queue, id, message, rest, reserves⟩ |
      ⟨nothing, _⟩
    · obtain ⟨held, idle, _⟩ := popDeliverable_some reserves.popped
      have there : e.message? queueName id = some message :=
        (message?_of_get reserves.found).trans held
      rw [reserves.result] at returned
      have same : id = m := (named.filed there).1.symm.trans (by simpa using returned)
      subst same
      refine ⟨by rw [there]; rfl, ?_, fun failing => failing, ?_⟩
      · rw [record?_of_get reserves.found]
        exact Dict.get?_eq_none.mpr idle
      · change ((e.reserve queueName consumerId).2.record? queueName id).isSome
        rw [reserves.record?, if_pos ⟨rfl, rfl⟩]
        rfl
    · rw [nothing] at returned
      cases returned
  | declareQueue | deleteQueue | enqueue | ack | nack | recoverConsumer | tick | dlqRequeue =>
    cases delivers

/-- An operation that fails no delivery ends one only with the message. -/
theorem step_record_kept (named : e.Named) (plain : isDlq q = false) (calm : ¬ Failing op)
    (held : ((e.step persist op).message? q m).isSome) (flying : (e.record? q m).isSome) :
    ((e.step persist op).record? q m).isSome := by
  cases op with
  | declareQueue name args =>
    change ((e.declareQueue name args persist).record? q m).isSome
    rw [declareQueue_observe.2]
    exact flying
  | deleteQueue name =>
    change ((e.deleteQueue name persist).2.message? q m).isSome at held
    change ((e.deleteQueue name persist).2.record? q m).isSome
    rw [deleteQueue_message?] at held
    rw [deleteQueue_record?]
    split at held
    · cases held
    · rename_i stays
      rw [if_neg stays]
      exact flying
  | enqueue message =>
    change ((e.enqueue message persist).2.record? q m).isSome
    rcases enqueue_cases e message persist with ⟨queue, accepts⟩ | ⟨_, same⟩
    · rw [accepts.record?]
      exact flying
    · rw [same]
      exact flying
  | reserve queueName consumerId =>
    change ((e.reserve queueName consumerId).2.record? q m).isSome
    rcases reserve_cases e queueName consumerId with ⟨queue, id, message, rest, reserves⟩ |
      ⟨nothing, _⟩
    · rw [reserves.record?]
      split
      · rfl
      · exact flying
    · rw [reserve_none_record? nothing]
      exact flying
  | ack messageId =>
    change ((e.ack messageId persist).2.message? q m).isSome at held
    change ((e.ack messageId persist).2.record? q m).isSome
    rcases ack_cases e messageId persist with ⟨name, queue, settles⟩ | ⟨_, same⟩
    · rw [settles.message?] at held
      rw [settles.record?]
      split at held
      · cases held
      · rename_i other
        rw [if_neg other]
        exact flying
    · rw [same]
      exact flying
  | nack messageId requeue =>
    cases requeue with
    | true => exact absurd rfl calm
    | false =>
      change ((e.nack messageId false persist).2.message? q m).isSome at held
      change ((e.nack messageId false persist).2.record? q m).isSome
      rcases nack_cases e messageId false persist with ⟨name, queue, message, nacks⟩ |
        ⟨_, same | ⟨name, queue, _, found, gone, shape⟩⟩
      · have exit := nacks.exit named
        rw [nacks.record?]
        by_cases here : q = name ∧ m = messageId
        · obtain ⟨rfl, rfl⟩ := here
          rw [exit.rejected plain] at held
          cases held
        · rw [if_neg here]
          exact flying
      · rw [same]
        exact flying
      · obtain ⟨messages, _, records⟩ := endDelivery_observe messageId found
          (show (e.putQueue name (queue.endDelivery messageId)).queues = _ from rfl)
        rw [shape] at held ⊢
        rw [messages] at held
        rw [records]
        split
        · rename_i here
          obtain ⟨rfl, rfl⟩ := here
          obtain ⟨message, there⟩ := Option.isSome_iff_exists.mp held
          rw [message?_of_get found] at there
          exact absurd (Dict.mem_of_get? there) gone
        · exact flying
  | recoverConsumer | tick => exact absurd trivial calm
  | dlqRequeue queueName messageId =>
    change ((e.dlqRequeue queueName messageId persist).2.record? q m).isSome
    have requeue := dlqRequeue_requeue named queueName messageId persist
    generalize (e.dlqRequeue queueName messageId persist).1 = result at requeue
    generalize (e.dlqRequeue queueName messageId persist).2 = e' at requeue
    cases requeue with
    | missing => exact flying
    | moved _ _ _ _ records | refused _ _ _ _ records =>
      rw [records]
      exact flying

/-- A message that is there was there before, unless the operation put it there. -/
theorem step_held_before (named : e.Named) (plain : isDlq q = false) (unfiled : ¬ Files persist e q m op)
    (held : ((e.step persist op).message? q m).isSome) : (e.message? q m).isSome := by
  by_contra absent
  rw [Option.not_isSome_iff_eq_none] at absent
  by_cases failing : Failing op
  · rw [step_absent named plain absent failing] at held
    cases held
  · rcases step_calm named plain failing unfiled with gone | same
    · rw [gone] at held
      cases held
    · rw [same, absent] at held
      cases held

theorem step_handed (named : e.Named) (plain : isDlq q = false) (worn : e.Worn q m n budget)
    (handed : e.Handed q m n d budget) (unfiled : ¬ Files persist e q m op) :
    (e.step persist op).Handed q m (n + if Fails (step persist) e q m op then 1 else 0)
      (d + if Delivers e q m op then 1 else 0) budget := by
  by_cases delivers : Delivers e q m op
  · obtain ⟨held, idle, calm, flying⟩ := delivers.starts persist named
    have spared : ¬ Fails (step persist) e q m op := fun fails => calm fails.1
    have before := handed.ended held
    obtain ⟨message, there⟩ := Option.isSome_iff_exists.mp held
    have left := (worn message there).2.2
    rw [idle] at before
    rw [if_pos delivers, if_neg spared]
    simp only [Option.isSome_none, Bool.false_eq_true, if_false] at before
    refine ⟨by push_cast; omega, fun _ => ?_⟩
    rw [flying, if_pos rfl]
    omega
  · rw [if_neg delivers]
    refine ⟨handed.bound, fun held => ?_⟩
    have before := handed.ended (step_held_before named plain unfiled held)
    by_cases failing : Failing op
    · obtain ⟨message, there⟩ := Option.isSome_iff_exists.mp (step_held_before named plain unfiled held)
      have swept : Swept e q m message (e.step persist op) := step_swept named plain failing there
      rcases swept.outcome with ⟨same, _⟩ | ⟨ended, flew, _⟩
      · rw [same]
        omega
      · have fails : Fails (step persist) e q m op :=
          ⟨failing, by rw [there]; rfl, flew, Option.isNone_iff_eq_none.mpr ended⟩
        rw [flew, if_pos rfl] at before
        rw [if_pos fails]
        omega
    · by_cases flying : (e.record? q m).isSome
      · rw [if_pos flying] at before
        rw [if_pos (step_record_kept named plain failing held flying)]
        omega
      · rw [if_neg flying] at before
        omega

theorem run_handed {ops : List EngineOp} (named : e.Named) (plain : isDlq q = false)
    (worn : e.Worn q m n budget) (handed : e.Handed q m n d budget)
    (unfiled : Allowed (step persist) (fun e op => ¬ Files persist e q m op) e ops) :
    (run (step persist) e ops).Handed q m (n + failures (step persist) q m e ops)
      (d + timesDelivered persist q m e ops) budget := by
  induction ops generalizing e n d with
  | nil => exact handed
  | cons op rest ih =>
    have next := ih (step_named named op) (step_worn named plain worn unfiled.1)
      (step_handed named plain worn handed unfiled.1) unfiled.2
    rw [failures, timesDelivered, ← Nat.add_assoc, ← Nat.add_assoc]
    exact next

/-! ## From a publish or a requeue on -/

/-- A message that was just filed has no attempts behind it. -/
theorem filed_worn (named : e.Named) (files : Files persist e q m op)
    (fresh : ∀ published, op = .enqueue published → published.attempts = 0)
    (held : (e.step persist op).message? q m = some message) :
    (e.step persist op).Worn q m 0 message.maxAttempts := by
  have start (zero : message.attempts = 0) : (e.step persist op).Worn q m 0 message.maxAttempts := by
    intro other there
    rw [held] at there
    cases there
    exact ⟨zero, rfl, by omega⟩
  cases op with
  | enqueue published =>
    obtain ⟨rfl, rfl, accepted⟩ := files
    have none := fresh published rfl
    rcases enqueue_cases e published persist with ⟨queue, accepts⟩ | ⟨refused, _⟩
    · refine start ?_
      have there := held
      rw [step, accepts.message?, if_pos ⟨rfl, rfl⟩] at there
      obtain ⟨due, shape⟩ := dueMessage_eq published e.now.1
      rw [← Option.some.inj there, shape]
      exact none
    · exact absurd accepted refused
  | dlqRequeue queueName messageId =>
    obtain ⟨rfl, rfl, done⟩ := files
    have requeue := dlqRequeue_requeue named queueName messageId persist
    have there : (e.dlqRequeue queueName messageId persist).2.message? (originQueue queueName)
      messageId = some message := held
    generalize (e.dlqRequeue queueName messageId persist).1 = result at requeue done
    generalize (e.dlqRequeue queueName messageId persist).2 = e' at requeue there
    cases requeue with
    | missing | refused => cases done
    | moved before _ _ messages =>
      refine start ?_
      rw [messages, if_pos ⟨rfl, rfl⟩] at there
      rw [← Option.some.inj there]
      rfl
  | declareQueue | deleteQueue | reserve | ack | nack | recoverConsumer | tick => cases files

/-- **Bounded redelivery.** From the moment a message is in a queue with no
attempts, by a publish or by a requeue out of the DLQ, until it is put there
again, its queue hands it out at most `max(1, max_attempts)` times, whatever
ends the deliveries. -/
theorem bounded_redelivery {ops : List EngineOp} (reached : Reachable Anything e)
    (plain : isDlq q = false) (files : Files persist e q m op)
    (fresh : ∀ published, op = .enqueue published → published.attempts = 0)
    (held : (e.step persist op).message? q m = some message)
    (unfiled : Allowed (step persist) (fun e op => ¬ Files persist e q m op) (e.step persist op) ops) :
    (timesDelivered persist q m (e.step persist op) ops : Int) ≤ max 1 message.maxAttempts := by
  have worn := filed_worn reached.named files fresh held
  have start : (e.step persist op).Handed q m 0 0 message.maxAttempts :=
    ⟨by push_cast; omega, fun _ => Nat.zero_le _⟩
  have handed := run_handed (step_named reached.named op) plain worn start unfiled
  rw [Nat.zero_add, Nat.zero_add] at handed
  exact handed.bound

/-- Three deliveries of a message with three attempts. -/
theorem bounded_redelivery_three : (3 : Int) ≤ max 1 frugalMessage.maxAttempts := by
  have reached : Reachable Anything (run (step true) created thriftyQueue) :=
    reachable_run (.start {} fun _ => 0) ⟨trivial, trivial⟩
  have files : Files true (run (step true) created thriftyQueue) "jobs" "m1"
    (.enqueue frugalMessage) := by decide +kernel
  have held : ((run (step true) created thriftyQueue).step true (.enqueue frugalMessage)).message?
    "jobs" "m1" = some frugalMessage := rfl
  have unfiled : Allowed (step true) (fun e op => ¬ Files true e "jobs" "m1" op)
      ((run (step true) created thriftyQueue).step true (.enqueue frugalMessage)) twoFailures := by
    decide +kernel
  have bounded := bounded_redelivery reached (by decide +kernel) files
    (fun published same => by cases same; rfl) held unfiled
  have three : timesDelivered true "jobs" "m1"
    ((run (step true) created thriftyQueue).step true (.enqueue frugalMessage)) twoFailures = 3 := by
    decide +kernel
  rw [three] at bounded
  exact bounded

end OneOpenBroker.Core.QueueEngine

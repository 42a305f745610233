import OneOpenBroker.Core.Conservation
import OneOpenBroker.Core.Overflow
import OneOpenBroker.Core.Routing

/-! The retry budget of a message. Between the moment a queue is given a
message and the moment it leaves, the message counts the deliveries that
failed, and it is dead-lettered by the failure that uses up the budget it
carries. A publish fills in the budget, from the request or from the engine's
default, and never from the queue. -/
namespace OneOpenBroker.Core.QueueEngine
open Collections Systems

/-- The operations that fail deliveries: a nack that asks for another attempt,
the loss of a consumer, and a tick, which ends what is overdue. -/
def Failing : EngineOp → Prop
  | .nack _ requeue => requeue = true
  | .recoverConsumer _ | .tick _ => True
  | _ => False

instance : DecidablePred Failing := fun op =>
  match op with
  | .nack _ requeue => inferInstanceAs (Decidable (requeue = true))
  | .recoverConsumer _ | .tick _ => inferInstanceAs (Decidable True)
  | .declareQueue .. | .deleteQueue .. | .enqueue .. | .reserve .. | .ack .. | .dlqRequeue .. =>
    inferInstanceAs (Decidable False)

/-- The operation fails the delivery of the message that queue `q` holds under `m`. -/
def Fails (step : QueueEngine → EngineOp → QueueEngine) (e : QueueEngine) (q m : String)
    (op : EngineOp) : Prop :=
  Failing op ∧ (e.message? q m).isSome ∧ (e.record? q m).isSome ∧ ((step e op).record? q m).isNone

instance (step : QueueEngine → EngineOp → QueueEngine) (e : QueueEngine) (q m : String) :
    DecidablePred (Fails step e q m) :=
  fun op => inferInstanceAs (Decidable (Failing op ∧ _))

/-- How often a run fails a delivery of that message. -/
def failures (step : QueueEngine → EngineOp → QueueEngine) (q m : String) :
    QueueEngine → List EngineOp → Nat
  | _, [] => 0
  | e, op :: rest => (if Fails step e q m op then 1 else 0) + failures step q m (step e op) rest

/-- The operation puts a message in queue `q` under `m`. -/
def Files (persist : Bool) (e : QueueEngine) (q m : String) : EngineOp → Prop
  | .enqueue message => message.queue = q ∧ message.id = m ∧ (e.enqueue message persist).1 = .ok
  | .dlqRequeue queueName id =>
      originQueue queueName = q ∧ id = m ∧ (e.dlqRequeue queueName id persist).1 = true
  | _ => False

instance (persist : Bool) (e : QueueEngine) (q m : String) : DecidablePred (Files persist e q m) :=
  fun op =>
    match op with
    | .enqueue message => inferInstanceAs (Decidable (message.queue = q ∧ _ ∧ _))
    | .dlqRequeue queueName _ => inferInstanceAs (Decidable (originQueue queueName = q ∧ _ ∧ _))
    | .declareQueue .. | .deleteQueue .. | .reserve .. | .ack .. | .nack .. | .recoverConsumer ..
    | .tick .. => inferInstanceAs (Decidable False)

/-- The operation takes the message out of the queue and into its DLQ. -/
def MovesToDlq (step : QueueEngine → EngineOp → QueueEngine) (e : QueueEngine) (q m : String)
    (op : EngineOp) : Prop :=
  (e.message? q m).isSome ∧ ((step e op).message? q m).isNone ∧
    ((step e op).message? (dlqName q) m).isSome

instance (step : QueueEngine → EngineOp → QueueEngine) (e : QueueEngine) (q m : String) :
    DecidablePred (MovesToDlq step e q m) :=
  fun _ => inferInstanceAs (Decidable (_ ∧ _ ∧ _))

/-- The operation rejects the message without another attempt. -/
def Rejects (m : String) : EngineOp → Prop
  | .nack id requeue => id = m ∧ requeue = false
  | _ => False

instance (m : String) : DecidablePred (Rejects m) := fun op =>
  match op with
  | .nack id requeue => inferInstanceAs (Decidable (id = m ∧ requeue = false))
  | .declareQueue .. | .deleteQueue .. | .enqueue .. | .reserve .. | .ack .. | .recoverConsumer ..
  | .tick .. | .dlqRequeue .. => inferInstanceAs (Decidable False)

/-- The operation neither puts another message in queue `q` under `m` nor rejects
the one there. -/
def Retains (persist : Bool) (q m : String) (e : QueueEngine) (op : EngineOp) : Prop :=
  ¬ Files persist e q m op ∧ ¬ Rejects m op

instance (persist : Bool) (q m : String) : DecidableRel (Retains persist q m) := fun e op =>
  inferInstanceAs (Decidable (¬ Files persist e q m op ∧ ¬ Rejects m op))

/-- The queue's message has failed `n` times and has a budget it has not used up. -/
def Worn (e : QueueEngine) (q m : String) (n : Nat) (budget : Int) : Prop :=
  ∀ message, e.message? q m = some message →
    message.attempts = n ∧ message.maxAttempts = budget ∧ (n : Int) + 1 ≤ max 1 budget

variable {e e' : QueueEngine} {name q id m : String} {message : Message} {persist requeue : Bool}
  {n : Nat} {budget : Int} {op : EngineOp}

/-! ## One failure -/

theorem Exit.message_other {written : List JournalOp}
    (exit : Exit e name id requeue persist written e') (plain : isDlq q = false)
    (other : ¬ (q = name ∧ m = id)) : e'.message? q m = e.message? q m := by
  cases exit with
  | gone _ messages => rw [messages]
  | retried _ _ _ _ _ messages => rw [messages, if_neg other]
  | moved _ _ _ _ _ _ messages =>
    have apart : q ≠ dlqName name := ne_dlqName plain
    rw [messages, if_neg (fun both => apart both.1), if_neg other]
  | dropped _ _ _ _ _ _ messages => rw [messages, if_neg other]

/-- Where a failure takes the message whose delivery it ends. -/
structure Failed (e e' : QueueEngine) (q m : String) (message : Message) : Prop where
  retried : message.attempts + 1 < message.maxAttempts → ∃ after, e'.message? q m = some after ∧
    after.attempts = message.attempts + 1 ∧ after.maxAttempts = message.maxAttempts
  spent : message.maxAttempts ≤ message.attempts + 1 → e'.message? q m = none
  buried : message.maxAttempts ≤ message.attempts + 1 → (e.spec? q).any (·.deadLetter) = true →
    (e'.message? (dlqName q) m).isSome

theorem Exit.failed {written : List JournalOp} (exit : Exit e q m true persist written e')
    (plain : isDlq q = false) (held : e.message? q m = some message) : Failed e e' q m message := by
  have apart : q ≠ dlqName q := (dlqName_ne plain).symm
  cases exit with
  | gone absent =>
    rw [absent] at held
    cases held
  | retried before due found _ below messages =>
    rw [found] at held
    cases held
    exact ⟨fun _ => ⟨_, (messages q m).trans (if_pos ⟨rfl, rfl⟩), rfl, rfl⟩,
      fun worn => by omega, fun worn => by omega⟩
  | moved before spec found known on worn messages =>
    rw [found] at held
    cases held
    have worn := worn rfl
    refine ⟨fun left => by omega, fun _ => ?_, fun _ _ => ?_⟩
    · rw [messages, if_neg (fun both => apart both.1), if_pos ⟨rfl, rfl⟩]
    · rw [messages, if_pos ⟨rfl, rfl⟩]
      rfl
  | dropped before spec found known off worn messages =>
    rw [found] at held
    cases held
    have worn := worn rfl
    refine ⟨fun left => by omega, fun _ => ?_, fun _ on => ?_⟩
    · rw [messages, if_pos ⟨rfl, rfl⟩]
    · rw [known, Option.any_some, off] at on
      cases on

/-! ## Sweeps -/

/-- A sweep over failed deliveries, seen from one message: its delivery is as
it was and so is the message, or its delivery has failed once. -/
structure Swept (e : QueueEngine) (q m : String) (message : Message) (e' : QueueEngine) : Prop where
  named : e'.Named
  fewer : ∀ q m, e.record? q m = none → e'.record? q m = none
  specs : ∀ q spec, e.spec? q = some spec → e'.spec? q = some spec
  outcome : e'.record? q m = e.record? q m ∧ (∃ after, e'.message? q m = some after ∧
      after.attempts = message.attempts ∧ after.maxAttempts = message.maxAttempts) ∨
    e'.record? q m = none ∧ (e.record? q m).isSome ∧
      (message.attempts + 1 < message.maxAttempts → ∃ after, e'.message? q m = some after ∧
        after.attempts = message.attempts + 1 ∧ after.maxAttempts = message.maxAttempts) ∧
      (message.maxAttempts ≤ message.attempts + 1 → e'.message? q m = none) ∧
      (message.maxAttempts ≤ message.attempts + 1 → (e.spec? q).any (·.deadLetter) = true →
        e.record? (dlqName q) m = none → (e'.message? (dlqName q) m).isSome)

theorem Swept.start (named : e.Named) (held : e.message? q m = some message) :
    Swept e q m message e :=
  ⟨named, fun _ _ absent => absent, fun _ _ known => known, .inl ⟨rfl, message, held, rfl, rfl⟩⟩

/-- Messages that failures elsewhere take into a DLQ do not push out the one
that is there already. -/
theorem Exit.buried_kept {written : List JournalOp}
    (exit : Exit e name id requeue persist written e') (apart : ¬ (q = name ∧ m = id))
    (there : (e.message? q m).isSome) : (e'.message? q m).isSome := by
  cases exit with
  | gone _ messages => rw [messages]; exact there
  | retried _ _ _ _ _ messages => rw [messages, if_neg apart]; exact there
  | moved _ _ _ _ _ _ messages =>
    rw [messages, if_neg apart]
    split
    · rfl
    · exact there
  | dropped _ _ _ _ _ _ messages => rw [messages, if_neg apart]; exact there

theorem Swept.fail {base : QueueEngine} {record : InflightRecord} (plain : isDlq q = false)
    (swept : Swept base q m message e) (flying : e.record? name id = some record) :
    Swept base q m message (e.failDelivery name id persist).2 := by
  have exit : Exit e name id true persist [] (e.failDelivery name id persist).2 :=
    failDelivery_exit swept.named
  have records : ∀ q m, (e.failDelivery name id persist).2.record? q m =
      if q = name ∧ m = id then none else e.record? q m := fun q m => failDelivery_record?
  refine ⟨failDelivery_named swept.named, fun q m absent => ?_,
    fun q spec known => exit.specs_kept (swept.specs q spec known), ?_⟩
  · rw [records]
    split
    · rfl
    · exact swept.fewer q m absent
  · by_cases here : q = name ∧ m = id
    · obtain ⟨rfl, rfl⟩ := here
      rcases swept.outcome with ⟨same, after, held, attempts, budget⟩ | ⟨ended, _⟩
      · have failed : Failed e _ q m after := exit.failed plain held
        refine .inr ⟨by rw [records, if_pos ⟨rfl, rfl⟩], by rw [← same, flying]; rfl, ?_, ?_, ?_⟩
        · intro left
          rw [← attempts, ← budget] at left ⊢
          exact failed.retried left
        · intro worn
          rw [← attempts, ← budget] at worn
          exact failed.spent worn
        · intro worn on _
          rw [← attempts, ← budget] at worn
          obtain ⟨spec, known, marked⟩ := (Option.any_eq_true _ _).mp on
          refine failed.buried worn ?_
          rw [swept.specs q spec known]
          exact marked
      · rw [flying] at ended
        cases ended
    · have message := exit.message_other plain here
      rcases swept.outcome with ⟨same, after, held, kept⟩ | ⟨ended, flew, retried, spent, buried⟩
      · refine .inl ⟨?_, after, message.trans held, kept⟩
        rw [records, if_neg here]
        exact same
      · refine .inr ⟨by rw [records, if_neg here]; exact ended, flew, ?_, ?_, ?_⟩
        · rw [message]
          exact retried
        · rw [message]
          exact spent
        · intro worn on clear
          refine exit.buried_kept ?_ (buried worn on clear)
          rintro ⟨rfl, rfl⟩
          rw [swept.fewer _ _ clear] at flying
          cases flying

theorem Swept.release {base : QueueEngine} (swept : Swept base q m message e) :
    Swept base q m message (e.releaseOne name id).2 := by
  obtain ⟨messages, records, specs, _⟩ := releaseOne_observe e name id
  have kept : ∀ q before, e.message? q m = some before → ∃ after,
      (e.releaseOne name id).2.message? q m = some after ∧ after.attempts = before.attempts ∧
        after.maxAttempts = before.maxAttempts := by
    intro q before held
    have stripped := messages q m
    rw [held] at stripped
    obtain ⟨after, found, image⟩ := Option.map_eq_some_iff.mp stripped
    refine ⟨after, found, ?_, ?_⟩
    · have view := congrArg Message.attempts image
      exact view
    · have view := congrArg Message.maxAttempts image
      exact view
  refine ⟨releaseOne_named swept.named, fun q m absent => ?_, fun q spec known => ?_, ?_⟩
  · rw [records]
    exact swept.fewer q m absent
  · rw [specs]
    exact swept.specs q spec known
  · rw [records]
    rcases swept.outcome with ⟨same, before, held, attempts, budget⟩ |
      ⟨ended, flew, retried, spent, buried⟩
    · obtain ⟨after, found, sameAttempts, sameBudget⟩ := kept q before held
      exact .inl ⟨same, after, found, sameAttempts.trans attempts, sameBudget.trans budget⟩
    · refine .inr ⟨ended, flew, fun left => ?_, fun worn => ?_, fun worn on clear => ?_⟩
      · obtain ⟨before, held, attempts, budget⟩ := retried left
        obtain ⟨after, found, sameAttempts, sameBudget⟩ := kept q before held
        exact ⟨after, found, sameAttempts.trans attempts, sameBudget.trans budget⟩
      · have stripped := messages q m
        rw [spent worn] at stripped
        exact Option.map_eq_none_iff.mp stripped
      · obtain ⟨before, held⟩ := Option.isSome_iff_exists.mp (buried worn on clear)
        obtain ⟨after, found, _⟩ := kept (dlqName q) before held
        rw [found]
        rfl

/-- The operations that fail deliveries, seen from one held message. -/
theorem step_swept (named : e.Named) (plain : isDlq q = false) (failing : Failing op)
    (held : e.message? q m = some message) : Swept e q m message (e.step persist op) := by
  have start : Swept e q m message e := .start named held
  cases op with
  | nack messageId requeue =>
    cases requeue with
    | false => cases failing
    | true =>
      rcases nack_cases e messageId true persist with ⟨name, queue, before, nacks⟩ |
        ⟨_, same | ⟨name, queue, indexed, found, gone, shape⟩⟩
      · have exit := nacks.exit named
        have records : ∀ q m, (e.nack messageId true persist).2.record? q m =
            if q = name ∧ m = messageId then none else e.record? q m := fun q m => nacks.record?
        refine ⟨nack_named named, fun q m absent => ?_, fun q spec known => exit.specs_kept known, ?_⟩
        · change (e.nack messageId true persist).2.record? q m = none
          rw [records]
          split
          · rfl
          · exact absent
        · by_cases here : q = name ∧ m = messageId
          · obtain ⟨rfl, rfl⟩ := here
            have failed : Failed e _ q m message := exit.failed plain held
            obtain ⟨record, flying⟩ := Dict.mem_iff.mp nacks.inflight
            refine .inr ⟨(records q m).trans (if_pos ⟨rfl, rfl⟩), ?_, failed.retried, failed.spent,
              fun worn on _ => failed.buried worn on⟩
            rw [record?_of_get nacks.found, flying]
            rfl
          · exact .inl ⟨(records q m).trans (if_neg here), message,
              (exit.message_other plain here).trans held, rfl, rfl⟩
      · change Swept e q m message (e.nack messageId true persist).2
        rw [same]
        exact start
      · obtain ⟨messages, specs, records⟩ := endDelivery_observe messageId found
          (show (e.putQueue name (queue.endDelivery messageId)).queues = _ from rfl)
        change Swept e q m message (e.nack messageId true persist).2
        rw [shape]
        refine ⟨?_, fun q m absent => ?_, fun q spec known => specs ▸ known, .inl ⟨?_, message, ?_, rfl, rfl⟩⟩
        · rw [← shape]
          exact nack_named named
        · rw [records]
          split
          · rfl
          · exact absent
        · rw [records]
          split
          · rename_i here
            obtain ⟨rfl, rfl⟩ := here
            rw [message?_of_get found] at held
            exact absurd (Dict.mem_of_get? held) gone
          · rfl
        · rw [messages]
          exact held
  | recoverConsumer consumerId =>
    exact recoverConsumer_preserves (fun _ swept => swept.named)
      (fun _ _ _ _ swept flying _ => swept.fail plain flying) start
  | tick now =>
    exact tick_preserves (fun _ _ _ swept => swept.release)
      (fun _ _ _ _ swept flying _ => swept.fail plain flying)
      (fun _ _ _ _ swept => ⟨swept.named, swept.fewer, swept.specs, swept.outcome⟩) start
  | declareQueue | deleteQueue | enqueue | reserve | ack | dlqRequeue => cases failing

/-! ## The count over a run -/

theorem Exit.absent_here {written : List JournalOp} (exit : Exit e q m requeue persist written e')
    (absent : e.message? q m = none) : e'.message? q m = none := by
  cases exit with
  | gone _ messages => rw [messages, absent]
  | retried _ _ held | moved _ _ held | dropped _ _ held =>
    rw [absent] at held
    cases held

/-- A rejection leaves nothing in the queue. -/
theorem Exit.rejected {written : List JournalOp} (exit : Exit e q m false persist written e')
    (plain : isDlq q = false) : e'.message? q m = none := by
  cases exit with
  | gone absent messages => rw [messages, absent]
  | retried _ _ _ again => cases again
  | moved _ _ _ _ _ _ messages =>
    rw [messages, if_neg (fun both => (dlqName_ne plain).symm both.1), if_pos ⟨rfl, rfl⟩]
  | dropped _ _ _ _ _ _ messages => rw [messages, if_pos ⟨rfl, rfl⟩]

/-- The operations that do not fail deliveries keep the message as it is, or take
messages away only, unless they put another one in its place or reject it. -/
theorem step_retains (named : e.Named) (plain : isDlq q = false) (calm : ¬ Failing op)
    (retains : Retains persist q m e op) :
    (e.step persist op).message? q m = e.message? q m ∨
      ∀ q', (e.step persist op).message? q' m = none ∨
        (e.step persist op).message? q' m = e.message? q' m := by
  obtain ⟨unfiled, accepted⟩ := retains
  cases op with
  | declareQueue name args => exact .inl (congrFun (congrFun declareQueue_observe.1 q) m)
  | deleteQueue name =>
    classical
    refine .inr fun q' => ?_
    have messages : (e.step persist (.deleteQueue name)).message? q' m = _ := deleteQueue_message?
    rw [messages]
    split
    · exact .inl rfl
    · exact .inr rfl
  | enqueue message =>
    refine .inl ?_
    rcases enqueue_cases e message persist with ⟨queue, accepts⟩ | ⟨_, same⟩
    · have messages : (e.step persist (.enqueue message)).message? q m = _ := accepts.message?
      rw [messages, if_neg]
      rintro ⟨rfl, rfl⟩
      exact unfiled ⟨rfl, rfl, congrArg Prod.fst accepts.2.2⟩
    · rw [step, same]
  | reserve queueName consumerId => exact .inl (congrFun (congrFun reserve_message? q) m)
  | ack messageId =>
    rcases ack_cases e messageId persist with ⟨name, queue, settles⟩ | ⟨_, same⟩
    · refine .inr fun q' => ?_
      have messages : (e.step persist (.ack messageId)).message? q' m = _ := settles.message?
      rw [messages]
      split
      · exact .inl rfl
      · exact .inr rfl
    · exact .inl (by rw [step, same])
  | nack messageId requeue =>
    have apart : ¬ (m = messageId) := by
      rintro rfl
      exact accepted ⟨rfl, by simpa [Failing] using calm⟩
    refine .inl ?_
    rcases nack_cases e messageId requeue persist with ⟨name, queue, message, nacks⟩ |
      ⟨_, same | ⟨name, queue, _, found, _, shape⟩⟩
    · have exit := nacks.exit named
      exact exit.message_other plain fun both => apart both.2
    · rw [step, same]
    · obtain ⟨messages, _, _⟩ := endDelivery_observe messageId found
        (show (e.putQueue name (queue.endDelivery messageId)).queues = _ from rfl)
      rw [step, shape, messages]
  | recoverConsumer | tick => exact absurd trivial calm
  | dlqRequeue queueName messageId =>
    have apart : q ≠ requeueSource queueName := ne_dlqName plain
    have requeue := dlqRequeue_requeue named queueName messageId persist
    have other : (e.dlqRequeue queueName messageId persist).1 = true →
        ¬ (q = originQueue queueName ∧ m = messageId) :=
      fun ok both => unfiled ⟨both.1.symm, both.2.symm, ok⟩
    refine .inl ?_
    change (e.dlqRequeue queueName messageId persist).2.message? q m = e.message? q m
    generalize (e.dlqRequeue queueName messageId persist).1 = result at requeue other
    generalize (e.dlqRequeue queueName messageId persist).2 = e' at requeue
    cases requeue with
    | missing => rfl
    | moved message _ _ messages =>
      rw [messages, if_neg (other rfl), if_neg (fun both => apart both.1)]
    | refused message _ _ messages => rw [messages, if_neg (fun both => apart both.1)]

/-- A rejection takes the message away or is refused. -/
theorem step_rejects (named : e.Named) (plain : isDlq q = false) :
    (e.step persist (.nack m false)).message? q m = none ∨
      (e.step persist (.nack m false)).message? q m = e.message? q m := by
  rcases nack_cases e m false persist with ⟨name, queue, message, nacks⟩ |
    ⟨_, same | ⟨name, queue, _, found, _, shape⟩⟩
  · have exit := nacks.exit named
    by_cases here : q = name
    · subst here
      exact .inl (exit.rejected plain)
    · exact .inr (exit.message_other plain fun both => here both.1)
  · exact .inr (by rw [step, same])
  · obtain ⟨messages, _, _⟩ := endDelivery_observe m found
      (show (e.putQueue name (queue.endDelivery m)).queues = _ from rfl)
    exact .inr (by rw [step, shape, messages])

/-- The operations that do not fail deliveries keep the message as it is or
take it away, unless they put another one in its place. -/
theorem step_calm (named : e.Named) (plain : isDlq q = false) (calm : ¬ Failing op)
    (unfiled : ¬ Files persist e q m op) :
    (e.step persist op).message? q m = none ∨ (e.step persist op).message? q m = e.message? q m := by
  by_cases rejects : Rejects m op
  · cases op with
    | nack messageId requeue =>
      obtain ⟨rfl, rfl⟩ := rejects
      exact step_rejects named plain
    | declareQueue | deleteQueue | enqueue | reserve | ack | recoverConsumer | tick | dlqRequeue =>
      exact rejects.elim
  · rcases step_retains named plain calm ⟨unfiled, rejects⟩ with same | fewer
    · exact .inr same
    · exact fewer q

/-- A queue that does not hold the message does not hold it after a failure either. -/
theorem step_absent (named : e.Named) (plain : isDlq q = false) (absent : e.message? q m = none)
    (failing : Failing op) : (e.step persist op).message? q m = none := by
  have fail : ∀ (e' : QueueEngine) name id persist, e'.Named ∧ e'.message? q m = none →
      (e'.failDelivery name id persist).2.Named ∧
        (e'.failDelivery name id persist).2.message? q m = none := by
    rintro e' name id persist ⟨named, absent⟩
    have exit : Exit e' name id true persist [] (e'.failDelivery name id persist).2 :=
      failDelivery_exit named
    refine ⟨failDelivery_named named, ?_⟩
    by_cases here : q = name ∧ m = id
    · obtain ⟨rfl, rfl⟩ := here
      exact exit.absent_here absent
    · rw [exit.message_other plain here, absent]
  cases op with
  | nack messageId requeue =>
    change (e.nack messageId requeue persist).2.message? q m = none
    rcases nack_cases e messageId requeue persist with ⟨name, queue, message, nacks⟩ |
      ⟨_, same | ⟨name, queue, _, found, _, shape⟩⟩
    · have exit := nacks.exit named
      by_cases here : q = name ∧ m = messageId
      · obtain ⟨rfl, rfl⟩ := here
        exact exit.absent_here absent
      · rw [exit.message_other plain here, absent]
    · rw [same, absent]
    · obtain ⟨messages, _, _⟩ := endDelivery_observe messageId found
        (show (e.putQueue name (queue.endDelivery messageId)).queues = _ from rfl)
      rw [shape, messages, absent]
  | recoverConsumer consumerId =>
    have both : (e.recoverConsumer consumerId persist).2.Named ∧
        (e.recoverConsumer consumerId persist).2.message? q m = none :=
      recoverConsumer_preserves (I := fun e' => e'.Named ∧ e'.message? q m = none)
        (fun _ both => both.1) (fun e' name id _ both _ _ => fail e' name id persist both)
        ⟨named, absent⟩
    exact both.2
  | tick now =>
    have both : (e.tick now).2.Named ∧ (e.tick now).2.message? q m = none := by
      refine tick_preserves (I := fun e' => e'.Named ∧ e'.message? q m = none) ?_
        (fun e' name id _ both _ _ => fail e' name id true both) (fun _ _ _ _ both => both)
        ⟨named, absent⟩
      rintro e' name id ⟨named, absent⟩
      refine ⟨releaseOne_named named, ?_⟩
      have stripped := (releaseOne_observe e' name id).1 q m
      rw [absent] at stripped
      exact Option.map_eq_none_iff.mp stripped
    exact both.2
  | declareQueue | deleteQueue | enqueue | reserve | ack | dlqRequeue => cases failing

/-- One operation counts the failure it causes, or takes the message away. -/
theorem step_worn (named : e.Named) (plain : isDlq q = false) (worn : e.Worn q m n budget)
    (unfiled : ¬ Files persist e q m op) :
    (e.step persist op).Worn q m (n + if Fails (step persist) e q m op then 1 else 0) budget := by
  by_cases failing : Failing op
  swap
  · have spared : ¬ Fails (step persist) e q m op := fun fails => failing fails.1
    rw [if_neg spared]
    rcases step_calm named plain failing unfiled with gone | same
    · intro message held
      rw [gone] at held
      cases held
    · intro message held
      exact worn message (same ▸ held)
  · cases held : e.message? q m with
    | none =>
      intro message there
      rw [step_absent named plain held failing] at there
      cases there
    | some before =>
      obtain ⟨attempts, carried, left⟩ := worn before held
      have swept : Swept e q m before (e.step persist op) := step_swept named plain failing held
      intro message there
      rcases swept.outcome with ⟨same, after, found, count, kept⟩ | ⟨ended, flew, retried, spent, _⟩
      · have spared : ¬ Fails (step persist) e q m op := by
          rintro ⟨_, _, flying, ended⟩
          rw [same] at ended
          exact Option.not_isSome_iff_eq_none.mpr (Option.isNone_iff_eq_none.mp ended) flying
        rw [found] at there
        cases there
        rw [if_neg spared]
        exact ⟨count.trans attempts, kept.trans carried, left⟩
      · have fails : Fails (step persist) e q m op :=
          ⟨failing, by rw [held]; rfl, flew, Option.isNone_iff_eq_none.mpr ended⟩
        by_cases last : before.maxAttempts ≤ before.attempts + 1
        · rw [spent last] at there
          cases there
        · have below : before.attempts + 1 < before.maxAttempts := not_le.mp last
          obtain ⟨after, found, count, kept⟩ := retried below
          rw [found] at there
          cases there
          rw [if_pos fails]
          clear retried spent
          push_cast
          exact ⟨by omega, kept.trans carried, by omega⟩

/-- An operation that fails no delivery takes no message of a queue into the DLQ. -/
theorem calm_stays (named : e.Named) (plain : isDlq q = false) (calm : ¬ Failing op)
    (retains : Retains persist q m e op) (empty : e.message? (dlqName q) m = none) :
    ¬ MovesToDlq (step persist) e q m op := by
  rintro ⟨held, gone, buried⟩
  rcases step_retains named plain calm retains with same | fewer
  · rw [same, Option.isNone_iff_eq_none] at gone
    rw [gone] at held
    cases held
  · have none : (e.step persist op).message? (dlqName q) m = none := by
      rcases fewer (dlqName q) with none | same
      · exact none
      · exact same.trans empty
    rw [none] at buried
    cases buried

/-- The failure that uses up the budget is what dead-letters, and nothing else is. -/
theorem moves_iff (named : e.Named) (plain : isDlq q = false) (worn : e.Worn q m n budget)
    (on : (e.spec? q).any (·.deadLetter) = true) (clear : e.record? (dlqName q) m = none)
    (empty : e.message? (dlqName q) m = none) (retains : Retains persist q m e op) :
    MovesToDlq (step persist) e q m op ↔
      Fails (step persist) e q m op ∧ (n : Int) + 1 = max 1 budget := by
  by_cases failing : Failing op
  swap
  · exact ⟨fun moves => absurd moves (calm_stays named plain failing retains empty),
      fun both => absurd both.1.1 failing⟩
  cases held : e.message? q m with
  | none =>
    constructor
    · rintro ⟨some, _⟩
      rw [held] at some
      cases some
    · rintro ⟨⟨_, some, _⟩, _⟩
      rw [held] at some
      cases some
  | some message =>
    obtain ⟨attempts, carried, left⟩ := worn message held
    have there : (e.message? q m).isSome := by rw [held]; rfl
    have swept : Swept e q m message (e.step persist op) := step_swept named plain failing held
    rcases swept.outcome with ⟨same, after, found, _⟩ | ⟨ended, flew, retried, spent, buried⟩
    · constructor
      · rintro ⟨_, gone, _⟩
        rw [found] at gone
        cases gone
      · rintro ⟨⟨_, _, flew, ended⟩, _⟩
        rw [same, Option.isNone_iff_eq_none] at ended
        rw [ended] at flew
        cases flew
    · have fails : Fails (step persist) e q m op :=
        ⟨failing, there, flew, Option.isNone_iff_eq_none.mpr ended⟩
      have last : message.maxAttempts ≤ message.attempts + 1 ↔ (n : Int) + 1 = max 1 budget := by
        clear retried spent buried
        omega
      rw [← last]
      constructor
      · rintro ⟨_, gone, _⟩
        refine ⟨fails, ?_⟩
        by_contra more
        obtain ⟨after, found, _⟩ := retried (not_le.mp more)
        rw [found] at gone
        cases gone
      · rintro ⟨_, worn⟩
        exact ⟨there, by rw [spent worn]; rfl, buried worn on clear⟩

/-! ## Where retries may overflow -/

theorem fails_agrees (named : e.Named) (delays : HasDelays e op) :
    Fails (Raising.step persist) e q m op ↔ Fails (step persist) e q m op := by
  unfold Fails
  rw [step_agrees named delays]

theorem moves_agrees (named : e.Named) (delays : HasDelays e op) :
    MovesToDlq (Raising.step persist) e q m op ↔ MovesToDlq (step persist) e q m op := by
  unfold MovesToDlq
  rw [step_agrees named delays]

/-- In a run whose retries have their delays the failures are counted as well. -/
theorem raising_worn {ops : List EngineOp} (named : e.Named) (plain : isDlq q = false)
    (worn : e.Worn q m n budget)
    (ok : Allowed (Raising.step persist) (Raising.Numbered (Retains persist q m)) e ops) :
    (run (Raising.step persist) e ops).Worn q m (n + failures (Raising.step persist) q m e ops)
      budget := by
  induction ops generalizing e n with
  | nil => exact worn
  | cons op rest ih =>
    obtain ⟨⟨retains, delays⟩, later⟩ := ok
    have same : Raising.step persist e op = e.step persist op := step_agrees named delays
    have next := step_worn named plain worn retains.1
    simp only [← fails_agrees named delays, ← same] at next
    rw [failures, ← Nat.add_assoc]
    exact ih (step_raising_named named op) next later

/-! ## Published messages -/

section Published

variable {base : QueueEngine} {args : PublishArgs} {exchange routingKey : String} {alone : Bool}
  {stamp : String → Stamp} {ops : List EngineOp} {spec : QueueSpec} {placed s : QueueEngine}

/-- A publish that names no budget takes the engine's default, whatever the
queue was declared with. -/
theorem published_worn (default : args.maxAttempts = none)
    (created : message = RoutingEngine.messageFor base args exchange routingKey alone stamp q)
    (accepted : e.enqueue message persist = (.ok, placed)) :
    placed.Worn q message.id 0 base.config.maxAttempts := by
  have after : (e.enqueue message persist).2 = placed := by rw [accepted]
  rcases enqueue_cases e message persist with ⟨queue, accepts⟩ | ⟨refused, _⟩
  · have queue : message.queue = q := by rw [created]; rfl
    have attempts : message.attempts = 0 := by rw [created]; rfl
    have budget : message.maxAttempts = base.config.maxAttempts := by
      rw [created, RoutingEngine.messageFor, default]
      rfl
    intro held there
    rw [← after, accepts.message?, if_pos ⟨queue.symm, rfl⟩] at there
    obtain ⟨due, shape⟩ := dueMessage_eq message e.now.1
    rw [shape] at there
    cases there
    exact ⟨attempts, budget, by omega⟩
  · rw [accepted] at refused
    exact absurd rfl refused

/-- A message published without a budget of its own, to a queue whose budget is the
engine's default, moves to the DLQ exactly when its failures complete the queue's
count, as long as retries have their delays and nobody rejects it. -/
theorem retry_budget (reached : Raising.Reachable Anything e) (plain : isDlq q = false)
    (default : args.maxAttempts = none)
    (created : message = RoutingEngine.messageFor base args exchange routingKey alone stamp q)
    (accepted : e.enqueue message persist = (.ok, placed))
    (ok : Allowed (Raising.step persist) (Raising.Numbered (Retains persist q message.id)) placed ops)
    (arrived : run (Raising.step persist) placed ops = s)
    (known : s.spec? q = some spec) (on : spec.deadLetter = true)
    (agrees : spec.maxAttempts = max 1 base.config.maxAttempts)
    (clear : s.record? (dlqName q) message.id = none)
    (empty : s.message? (dlqName q) message.id = none)
    (next : Raising.Numbered (Retains persist q message.id) s op) :
    MovesToDlq (Raising.step persist) s q message.id op ↔
      Fails (Raising.step persist) s q message.id op ∧
        (failures (Raising.step persist) q message.id placed ops : Int) + 1 = spec.maxAttempts := by
  have start : (e.step persist (.enqueue message)).Named := step_named reached.named (.enqueue message)
  rw [step, accepted] at start
  have worn := raising_worn start plain (published_worn default created accepted) ok
  have named : (run (Raising.step persist) placed ops).Named :=
    run_invariant (I := Named) (fun _ op named => step_raising_named named op) start
  rw [arrived, Nat.zero_add] at worn
  rw [arrived] at named
  have marked : (s.spec? q).any (·.deadLetter) = true := by
    rw [known]
    exact on
  rw [moves_agrees named next.2, fails_agrees named next.2,
    moves_iff named plain worn marked clear empty next.1, agrees]

end Published

/-- A queue that allows one delivery, with a message that is out for it. -/
def frugalQueue : List EngineOp := [.declareQueue "jobs" { maxAttempts := some 1 }]

def oneStamp (_ : String) : Stamp := ⟨"m1", 0⟩

def frugalMessage : Message :=
  RoutingEngine.messageFor created { payload := [1] } "" "jobs" true oneStamp "jobs"

/-- The engine's default of three is what counts: the first failure does not
dead-letter, though the queue was declared with a budget of one. -/
theorem queue_budget_ignored :
    ((run (Raising.step true) created (frugalQueue ++ [.enqueue frugalMessage])).spec? "jobs").map
      (·.maxAttempts) = some 1 ∧
    Fails (Raising.step true) (run (Raising.step true) created (frugalQueue ++
      [.enqueue frugalMessage, .reserve "jobs" "worker"])) "jobs" "m1" (.nack "m1" true) ∧
    failures (Raising.step true) "jobs" "m1"
      (run (Raising.step true) created (frugalQueue ++ [.enqueue frugalMessage]))
      [.reserve "jobs" "worker"] = 0 ∧
    ¬ MovesToDlq (Raising.step true) (run (Raising.step true) created (frugalQueue ++
      [.enqueue frugalMessage, .reserve "jobs" "worker"])) "jobs" "m1" (.nack "m1" true) := by
  decide +kernel

/-- With the default of three attempts in the queue as well, the third failure
dead-letters. -/
def thriftyQueue : List EngineOp := [.declareQueue "jobs" { maxAttempts := some 3 }]

def twoFailures : List EngineOp := [.reserve "jobs" "worker", .nack "m1" true, .tick (some 10),
  .reserve "jobs" "worker", .nack "m1" true, .tick (some 20), .reserve "jobs" "worker"]

/-- The engine with the message in its queue. -/
def thrifty : QueueEngine := ((run (Raising.step true) created thriftyQueue).enqueue frugalMessage true).2

theorem retry_budget_three :
    MovesToDlq (Raising.step true) (run (Raising.step true) thrifty twoFailures) "jobs" "m1"
      (.nack "m1" true) ↔
    Fails (Raising.step true) (run (Raising.step true) thrifty twoFailures) "jobs" "m1"
      (.nack "m1" true) ∧
      (failures (Raising.step true) "jobs" "m1" thrifty twoFailures : Int) + 1 = 3 := by
  have declared : ((run (Raising.step true) thrifty twoFailures).spec? "jobs").map
      (fun spec => (spec.deadLetter, spec.maxAttempts)) = some (true, 3) := by
    decide +kernel
  obtain ⟨spec, known, shape⟩ := Option.map_eq_some_iff.mp declared
  obtain ⟨on, three⟩ := Prod.mk.inj shape
  have accepted : (run (Raising.step true) created thriftyQueue).enqueue frugalMessage true =
      (.ok, thrifty) := Prod.ext (by decide +kernel) rfl
  have ok : Allowed (Raising.step true) (Raising.Numbered (Retains true "jobs" frugalMessage.id)) thrifty
      twoFailures := by decide +kernel
  have made : frugalMessage =
      RoutingEngine.messageFor created { payload := [1] } "" "jobs" true oneStamp "jobs" := rfl
  have reached : Raising.Reachable Anything (run (Raising.step true) created thriftyQueue) :=
    Raising.reachable_run (.start {} fun _ => 0) ⟨trivial, trivial⟩
  have next : Raising.Numbered (Retains true "jobs" frugalMessage.id)
      (run (Raising.step true) thrifty twoFailures) (.nack "m1" true) := by decide +kernel
  have budget := retry_budget reached (by decide +kernel) rfl made accepted ok rfl known on
    (three.trans (by decide +kernel)) (by decide +kernel) (by decide +kernel) next
  rw [three] at budget
  exact budget

end OneOpenBroker.Core.QueueEngine

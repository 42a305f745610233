import OneOpenBroker.Core.Index

/-! Where messages end. Deleting a queue and acking a message remove it. Apart
from these a message is lost only where the engine gives up on it: its
delivery failed for the last time in a queue whose dead-lettering is off,
which a DLQ always is. -/
namespace OneOpenBroker.Core.QueueEngine
open Collections Systems

/-- The operations that are there to remove messages: deleting a queue, and
an ack that returns OK. -/
def Removes (e : QueueEngine) (persist : Bool) : EngineOp → Prop
  | .deleteQueue _ => True
  | .ack messageId => (e.ack messageId persist).1 = .ok
  | _ => False

/-- The operation fails a delivery of `record`'s message for the last time. -/
def LastFailure (e : QueueEngine) (record : InflightRecord) (q m : String) (message : Message) :
    EngineOp → Prop
  | .nack messageId requeue => messageId = m ∧ e.byId.get? m = some q ∧
      (requeue = true → message.maxAttempts ≤ message.attempts + 1)
  | .recoverConsumer consumerId =>
      record.consumerId = consumerId ∧ message.maxAttempts ≤ message.attempts + 1
  | .tick now =>
      record.visibilityDeadline ≤ e.tickTime now ∧ message.maxAttempts ≤ message.attempts + 1
  | _ => False

/-- A message that is out for delivery from a queue without dead-lettering, on
its last failure. -/
def GivenUp (e : QueueEngine) (op : EngineOp) (m : String) : Prop :=
  ∃ q record spec name message, e.record? q m = some record ∧ e.spec? q = some spec ∧
    spec.deadLetter = false ∧ e.message? name m = some message ∧ e.LastFailure record q m message op

variable {e e' : QueueEngine} {q id m name : String} {message : Message} {persist requeue : Bool}
  {payload : List UInt8}

theorem HeldWith.of_same (held : e.HeldWith m payload) (same : e'.message? = e.message?) :
    e'.HeldWith m payload := by
  obtain ⟨name, message, there, carried⟩ := held
  exact ⟨name, message, same ▸ there, carried⟩

/-- A failure keeps its message unless dead-lettering is off and no attempt is left. -/
theorem Exit.conserves {written : List JournalOp} (filed : e.Filed)
    (exit : Exit e name id requeue persist written e') (held : e.HeldWith m payload) :
    e'.HeldWith m payload ∨ m = id ∧ ∃ message spec, e.message? name m = some message ∧
      e.spec? name = some spec ∧ spec.deadLetter = false ∧
      (requeue = true → message.maxAttempts ≤ message.attempts + 1) := by
  obtain ⟨q, before, there, carried⟩ := held
  cases exit with
  | gone _ messages => exact .inl ⟨q, before, messages ▸ there, carried⟩
  | retried message due found _ _ messages =>
    by_cases here : q = name ∧ m = id
    · obtain ⟨rfl, rfl⟩ := here
      rw [found] at there
      cases there
      exact .inl ⟨q, _, (messages q m).trans (if_pos ⟨rfl, rfl⟩), carried⟩
    · exact .inl ⟨q, before, by rw [messages, if_neg here]; exact there, carried⟩
  | moved message spec found known on _ messages =>
    by_cases same : m = id
    · subst same
      have here : q = name := by
        by_contra differ
        rw [filed.indexed.lone found differ] at there
        cases there
      subst here
      rw [found] at there
      cases there
      exact .inl ⟨dlqName q, _, (messages _ m).trans (if_pos ⟨rfl, rfl⟩), carried⟩
    · refine .inl ⟨q, before, ?_, carried⟩
      rw [messages, if_neg fun here => same here.2, if_neg fun here => same here.2]
      exact there
  | dropped message spec found known off spent messages =>
    by_cases here : q = name ∧ m = id
    · obtain ⟨rfl, rfl⟩ := here
      exact .inr ⟨rfl, message, spec, found, known, off, spent⟩
    · exact .inl ⟨q, before, by rw [messages, if_neg here]; exact there, carried⟩

/-! ## Sweeps -/

/-- What a sweep that started in `e` keeps of message `m`: it is held, and if
it has been failed once it is out of attempts or no longer out for delivery. -/
structure Tracked (e : QueueEngine) (m : String) (message : Message) (e' : QueueEngine) : Prop where
  filed : e'.Filed
  held : ∃ name msg, e'.message? name m = some msg ∧ msg.payload = message.payload ∧
    msg.maxAttempts = message.maxAttempts ∧ (msg.attempts = message.attempts ∨
      message.maxAttempts ≤ message.attempts + 1 ∨ e'.record? name m = none)
  records : ∀ q record, e'.record? q m = some record → e.record? q m = some record
  specs : ∀ q spec, e.spec? q = some spec → e'.spec? q = some spec

theorem Tracked.start (filed : e.Filed) (held : e.message? name m = some message) :
    Tracked e m message e :=
  ⟨filed, ⟨name, message, held, rfl, rfl, .inl rfl⟩, fun _ _ found => found, fun _ _ known => known⟩

theorem Exit.specs_kept {written : List JournalOp} {spec : QueueSpec}
    (exit : Exit e name id requeue persist written e') (known : e.spec? q = some spec) :
    e'.spec? q = some spec := by
  cases exit with
  | gone _ _ specs => rw [specs, known]
  | retried _ _ _ _ _ _ specs => rw [specs, known]
  | moved _ _ _ _ _ _ _ specs =>
    rw [specs, if_neg fun fresh => by rw [known] at fresh; cases fresh.2]
    exact known
  | dropped _ _ _ _ _ _ _ specs => rw [specs, known]

theorem Tracked.fail {base : QueueEngine} {record : InflightRecord}
    (tracked : Tracked base m message e) (flying : e.record? name id = some record)
    (safe : id = m → ∀ spec, base.spec? name = some spec → spec.deadLetter = false →
      base.record? name m = some record → message.attempts + 1 < message.maxAttempts) :
    Tracked base m message (e.failDelivery name id persist).2 := by
  have exit : Exit e name id true persist [] (e.failDelivery name id persist).2 :=
    failDelivery_exit tracked.filed.named
  have fewer : ∀ q m, e.record? q m = none → (e.failDelivery name id persist).2.record? q m = none := by
    intro q m absent
    rw [failDelivery_record?]
    split
    · rfl
    · exact absent
  obtain ⟨there, msg, held, carried, budget, count⟩ := tracked.held
  have elsewhere (apart : m ≠ id)
      (same : (e.failDelivery name id persist).2.message? there m = e.message? there m) :
      ∃ name' msg, (e.failDelivery name id persist).2.message? name' m = some msg ∧
        msg.payload = message.payload ∧ msg.maxAttempts = message.maxAttempts ∧
        (msg.attempts = message.attempts ∨ message.maxAttempts ≤ message.attempts + 1 ∨
          (e.failDelivery name id persist).2.record? name' m = none) :=
    ⟨there, msg, same.trans held, carried, budget, count.imp_right (.imp_right (fewer there m))⟩
  -- The failed message is the tracked one only in the queue that holds it.
  have here : m = id → e.message? name id ≠ none → there = name := by
    rintro rfl present
    by_contra differ
    obtain ⟨other, found⟩ := Option.ne_none_iff_exists'.mp present
    rw [tracked.filed.indexed.lone found differ] at held
    cases held
  refine ⟨failDelivery_filed tracked.filed, ?_, fun q record found => ?_,
    fun q spec known => exit.specs_kept (tracked.specs q spec known)⟩
  · cases exit with
    | gone absent messages =>
      exact ⟨there, msg, by rw [messages]; exact held, carried, budget,
        count.imp_right (.imp_right (fewer there m))⟩
    | retried message' due found _ _ messages =>
      by_cases same : m = id
      · have place := here same (by rw [found]; exact Option.some_ne_none _)
        subst same place
        rw [found] at held
        cases held
        exact ⟨there, _, (messages there m).trans (if_pos ⟨rfl, rfl⟩), carried, budget,
          .inr (.inr (by rw [failDelivery_record?, if_pos ⟨rfl, rfl⟩]))⟩
      · exact elsewhere same ((messages there m).trans (if_neg fun both => same both.2))
    | moved message' spec found known on spent messages =>
      by_cases same : m = id
      · have place := here same (by rw [found]; exact Option.some_ne_none _)
        subst same place
        rw [found] at held
        cases held
        have worn := spent rfl
        refine ⟨dlqName there, _, (messages _ m).trans (if_pos ⟨rfl, rfl⟩), carried, budget, .inr (.inl ?_)⟩
        rcases count with unchanged | last | ended
        · omega
        · exact last
        · rw [ended] at flying
          cases flying
      · refine elsewhere same ?_
        rw [messages, if_neg fun both => same both.2, if_neg fun both => same both.2]
    | dropped message' spec found known off spent messages =>
      by_cases same : m = id
      · have place := here same (by rw [found]; exact Option.some_ne_none _)
        subst same place
        rw [found] at held
        cases held
        have before := tracked.records there record flying
        obtain ⟨queue, stored, _⟩ := record?_some.mp before
        have kept := tracked.specs there queue.spec (spec?_of_get stored)
        rw [known] at kept
        cases kept
        have left := safe rfl queue.spec (spec?_of_get stored) off before
        have worn := spent rfl
        rcases count with unchanged | last | ended
        · omega
        · omega
        · rw [ended] at flying
          cases flying
      · exact elsewhere same ((messages there m).trans (if_neg fun both => same both.2))
  · rw [failDelivery_record?] at found
    split at found
    · cases found
    · exact tracked.records q record found

theorem Tracked.release {base : QueueEngine} (tracked : Tracked base m message e) :
    Tracked base m message (e.releaseOne name id).2 := by
  obtain ⟨same, records, specs, _⟩ := releaseOne_observe e name id
  obtain ⟨there, msg, held, carried, budget, count⟩ := tracked.held
  refine ⟨releaseOne_filed tracked.filed, ?_, fun q record found => ?_, fun q spec known => ?_⟩
  · have stripped := same there m
    rw [held] at stripped
    obtain ⟨after, found, image⟩ := Option.map_eq_some_iff.mp stripped
    refine ⟨there, after, found, (congrArg Message.payload image).trans carried,
      (congrArg Message.maxAttempts image).trans budget, ?_⟩
    rw [records]
    have attempts : after.attempts = msg.attempts := by
      have view := congrArg Message.attempts image
      exact view
    rw [attempts]
    exact count
  · rw [records] at found
    exact tracked.records q record found
  · rw [specs]
    exact tracked.specs q spec known

/-! ## One step -/

theorem enqueue_conserves (fresh : ¬ e.Held message.id) (held : e.HeldWith m payload) :
    (e.enqueue message persist).2.HeldWith m payload := by
  rcases enqueue_cases e message persist with ⟨queue, accepts⟩ | ⟨_, same⟩
  · obtain ⟨name, msg, there, carried⟩ := held
    have apart : ¬ (name = message.queue ∧ m = message.id) := by
      rintro ⟨_, rfl⟩
      exact fresh ⟨name, msg, there⟩
    exact ⟨name, msg, by rw [accepts.message?, if_neg apart]; exact there, carried⟩
  · exact held.of_same (congrArg message? same)

theorem dlqRequeue_conserves {queueName : String} (filed : e.Filed) (held : e.HeldWith m payload) :
    (e.dlqRequeue queueName id persist).2.HeldWith m payload := by
  have requeue := dlqRequeue_requeue filed.named queueName id persist
  generalize (e.dlqRequeue queueName id persist).1 = result at requeue
  generalize (e.dlqRequeue queueName id persist).2 = e' at requeue
  obtain ⟨name, msg, there, carried⟩ := held
  cases requeue with
  | missing => exact ⟨name, msg, there, carried⟩
  | moved message _ found messages =>
    by_cases same : m = id
    · subst same
      have here : name = requeueSource queueName := by
        by_contra differ
        rw [filed.indexed.lone found differ] at there
        cases there
      rw [here, found] at there
      cases there
      exact ⟨_, _, (messages _ m).trans (if_pos ⟨rfl, rfl⟩), carried⟩
    · refine ⟨name, msg, ?_, carried⟩
      rw [messages, if_neg fun both => same both.2, if_neg fun both => same both.2]
      exact there
  | refused message _ found messages =>
    by_cases both : name = requeueSource queueName ∧ m = id
    · rw [both.1, both.2, found] at there
      cases there
      exact ⟨_, _, (messages _ m).trans (if_pos ⟨rfl, both.2⟩), carried⟩
    · exact ⟨name, msg, by rw [messages, if_neg both]; exact there, carried⟩

/-- With fresh ids, an operation that is not there to remove messages keeps
every message held, those in a DLQ included, but for the one it gives up on. -/
theorem messages_conserved {op : EngineOp} (reached : Reachable FreshIds e) (fresh : FreshIds e op)
    (keeps : ¬ e.Removes persist op) (held : e.HeldWith m payload) (hope : ¬ e.GivenUp op m) :
    (e.step persist op).HeldWith m payload := by
  have filed : e.Filed := reached.filed fun _ _ ok => ok
  obtain ⟨name, message, there, carried⟩ := id held
  have tracked : Tracked e m message e := .start filed there
  have finish {e'} (tracked : Tracked e m message e') : e'.HeldWith m payload := by
    obtain ⟨name, msg, found, same, _⟩ := tracked.held
    exact ⟨name, msg, found, same.trans carried⟩
  cases op with
  | declareQueue name args => exact held.of_same declareQueue_observe.1
  | deleteQueue name => exact absurd trivial keeps
  | enqueue message => exact enqueue_conserves fresh held
  | reserve queueName consumerId => exact held.of_same reserve_message?
  | ack messageId =>
    rcases ack_cases e messageId persist with ⟨_, _, settles⟩ | ⟨_, same⟩
    · exact absurd settles.result keeps
    · exact held.of_same (congrArg message? same)
  | nack messageId requeue =>
    rcases nack_cases e messageId requeue persist with ⟨q, queue, message', nacks⟩ |
      ⟨_, same | ⟨q, queue, indexed, found, gone, _⟩⟩
    · rcases (nacks.exit filed.named).conserves filed held with kept |
        ⟨rfl, message', spec, found, known, off, spent⟩
      · exact kept
      · obtain ⟨record, flying⟩ := Dict.mem_iff.mp nacks.inflight
        exact absurd ⟨q, record, spec, q, message', record?_some.mpr ⟨queue, nacks.found, flying⟩,
          known, off, found, rfl, nacks.indexed, spent⟩ hope
    · exact held.of_same (congrArg message? same)
    · obtain ⟨other, inside⟩ := filed.indexed.held q messageId indexed
      rw [message?_of_get found] at inside
      exact absurd (Dict.mem_of_get? inside) gone
  | recoverConsumer consumerId =>
    refine finish (recoverConsumer_preserves (fun _ tracked => tracked.filed.named)
      (fun e' q id record tracked flying mine => tracked.fail flying ?_) tracked)
    intro same spec known off before
    by_contra worn
    exact hope ⟨q, record, spec, name, message, before, known, off, there, mine, by omega⟩
  | tick now =>
    refine finish (tick_preserves (fun _ _ _ tracked => tracked.release)
      (fun e' q id record tracked flying due => tracked.fail flying ?_)
      (fun _ _ _ _ tracked => ⟨⟨tracked.filed.named, tracked.filed.indexed.filed,
        tracked.filed.indexed.held⟩, tracked.held, tracked.records, tracked.specs⟩) tracked)
    intro same spec known off before
    by_contra worn
    exact hope ⟨q, record, spec, name, message, before, known, off, there, due, by omega⟩
  | dlqRequeue queueName messageId => exact dlqRequeue_conserves filed held

/-- A message is out for delivery. -/
def deliveredRun : List EngineOp := [
  .declareQueue "orders" {},
  .enqueue { id := "m1", queue := "orders", payload := [1], createdAt := 0 },
  .reserve "orders" "worker"]

/-- It is rejected, and delivered again to a consumer of the DLQ. -/
def inspectedRun : List EngineOp :=
  deliveredRun ++ [.nack "m1" false, .reserve "orders.DLQ" "inspector"]

theorem messages_conserved_retried :
    ((run (step true) created deliveredRun).step true (.nack "m1" true)).HeldWith "m1" [1] := by
  have reached : Reachable FreshIds (run (step true) created deliveredRun) :=
    reachable_run (.start {} fun _ => 0) (by decide +kernel)
  refine messages_conserved reached trivial id ⟨"orders", ?_⟩ ?_
  · have held : ((run (step true) created deliveredRun).message? "orders" "m1").any
        (fun message => decide (message.payload = [1])) = true := by
      decide +kernel
    obtain ⟨message, there, carried⟩ := (Option.any_eq_true _ _).mp held
    exact ⟨message, there, of_decide_eq_true carried⟩
  · rintro ⟨q, record, spec, name, message, _, known, off, _, _, indexed, _⟩
    have filed : (run (step true) created deliveredRun).byId.get? "m1" = some "orders" := by
      decide +kernel
    have on : ((run (step true) created deliveredRun).spec? "orders").all (·.deadLetter) = true := by
      decide +kernel
    rw [filed] at indexed
    cases indexed
    rw [known, Option.all_some, off] at on
    cases on

/-- A consumer of a DLQ that rejects a message without requeueing it drops it. -/
theorem dlq_rejection_drops : Reachable FreshIds (run (step true) created inspectedRun) ∧
    (run (step true) created inspectedRun).Held "m1" ∧
    ¬ ((run (step true) created inspectedRun).step true (.nack "m1" false)).Held "m1" :=
  ⟨reachable_run (.start {} fun _ => 0) (by decide +kernel), by decide +kernel, by decide +kernel⟩

end OneOpenBroker.Core.QueueEngine

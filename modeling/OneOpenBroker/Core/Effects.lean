import OneOpenBroker.Core.Index

/-! What a journaling engine does and writes. Every operation is a sequence
of a few effects, each of which changes the messages and specs in one way and
appends the records that go with the change. What the effects preserve one by
one, every operation preserves, the sweeps over several deliveries included. -/
namespace OneOpenBroker.Core.QueueEngine
open Collections

/-! ## The journal only grows -/

section Journal

variable {P : Journal → Prop} {e : QueueEngine} {name id : String} {queue : DurableQueue}
  {message : Message} {persist requeue : Bool} {record : JournalOp}

theorem append_journal (closed : ∀ journal op, P journal → P (journal.append op))
    (inv : P e.journal) : P (e.append persist record).journal := by
  cases persist with
  | false => exact inv
  | true => exact closed _ _ inv

theorem declareLeaf_grows {args : QueueArgs} (closed : ∀ journal op, P journal → P (journal.append op))
    (inv : P e.journal) : P (e.declareLeaf name args persist).journal := by
  unfold declareLeaf
  split
  · exact inv
  · exact append_journal closed inv

theorem declareQueue_grows {args : QueueArgs} (closed : ∀ journal op, P journal → P (journal.append op))
    (inv : P e.journal) : P (e.declareQueue name args persist).journal := by
  rw [declareQueue_eq]
  split
  · exact inv
  · refine append_journal closed ?_
    split
    · exact declareLeaf_grows closed inv
    · exact inv

theorem deleteQueue_grows (closed : ∀ journal op, P journal → P (journal.append op))
    (inv : P e.journal) : P (e.deleteQueue name persist).2.journal := by
  have remove : ∀ (e : QueueEngine) name queue, P e.journal →
      P (e.removeQueue name queue persist).journal := by
    intro e name queue inv
    exact append_journal closed inv
  unfold deleteQueue
  split
  · exact inv
  · dsimp only
    split
    · unfold deleteLeaf
      split
      · exact remove _ _ _ inv
      · exact remove _ _ _ (remove _ _ _ inv)
    · exact remove _ _ _ inv

theorem enqueue_journal (closed : ∀ journal op, P journal → P (journal.append op))
    (inv : P e.journal) : P (e.enqueue message persist).2.journal := by
  rcases enqueue_cases e message persist with ⟨queue, accepts⟩ | ⟨_, same⟩
  · rw [accepts.2.2]
    refine append_journal closed ?_
    rw [accept_frame.2.2.2.1]
    exact inv
  · rw [same]
    exact inv

theorem ack_journal (closed : ∀ journal op, P journal → P (journal.append op))
    (inv : P e.journal) : P (e.ack id persist).2.journal := by
  unfold ack
  split
  · exact inv
  · split
    · exact inv
    · split
      · exact inv
      · split
        · exact append_journal closed inv
        · exact inv

theorem conclude_journal (closed : ∀ journal op, P journal → P (journal.append op))
    (inv : P e.journal) : P (e.conclude name queue message requeue persist).journal := by
  rcases conclude_cases e name queue message requeue persist with ⟨_, shape⟩ | ⟨_, _, shape⟩
  · have discarded : P (e.discarded name queue (failed message requeue) persist).journal :=
      append_journal closed inv
    rw [shape, moveToDlq_eq]
    split
    · obtain ⟨dest, known⟩ := declareLeaf_known
        (e.discarded name queue (failed message requeue) persist) (dlqName name) {} false
      rw [(bury_frame _ known).2.2.2.2.1, declareLeaf_journal]
      exact discarded
    · exact discarded
  · rw [shape]
    exact append_journal closed inv

theorem failDelivery_journal (closed : ∀ journal op, P journal → P (journal.append op))
    (inv : P e.journal) : P (e.failDelivery name id persist).2.journal := by
  rcases failDelivery_cases e name id persist with ⟨_, shape⟩ | ⟨queue, _, _, shape⟩ |
    ⟨queue, message, _, _, shape⟩
  · rw [shape]
    exact inv
  · rw [shape]
    exact inv
  · rw [shape]
    exact conclude_journal closed inv

theorem nack_journal (closed : ∀ journal op, P journal → P (journal.append op))
    (inv : P e.journal) : P (e.nack id requeue persist).2.journal := by
  rcases nack_cases e id requeue persist with ⟨name, queue, message, nacks⟩ |
    ⟨_, same | ⟨name, queue, _, _, _, shape⟩⟩
  · rw [nacks.shape]
    refine conclude_journal closed ?_
    exact append_journal closed inv
  · rw [same]
    exact inv
  · rw [shape]
    exact inv

theorem dlqRequeue_journal {queueName : String}
    (closed : ∀ journal op, P journal → P (journal.append op)) (inv : P e.journal) :
    P (e.dlqRequeue queueName id persist).2.journal := by
  rcases dlqRequeue_cases e queueName id persist with nothing | ⟨dlq, message, draws⟩
  · rw [nothing]
    exact inv
  · rcases draws.result persist with ⟨dest, accepts, shape⟩ | ⟨_, shape⟩
    · rw [shape]
      refine append_journal closed ?_
      have drawn : P (e.withdrawn queueName id dlq).journal := inv
      exact enqueue_journal closed drawn
    · rw [shape]
      exact inv

/-- Every operation of the engine only appends to the journal. -/
theorem step_journal (closed : ∀ journal op, P journal → P (journal.append op)) (named : e.Named)
    (inv : P e.journal) (op : EngineOp) : P (e.step persist op).journal := by
  have fail : ∀ (e : QueueEngine) name id persist, e.Named ∧ P e.journal →
      (e.failDelivery name id persist).2.Named ∧ P (e.failDelivery name id persist).2.journal :=
    fun _ _ _ _ both => ⟨failDelivery_named both.1, failDelivery_journal closed both.2⟩
  cases op with
  | declareQueue name args => exact declareQueue_grows closed inv
  | deleteQueue name => exact deleteQueue_grows closed inv
  | enqueue message => exact enqueue_journal closed inv
  | reserve queueName consumerId =>
    have same : (e.reserve queueName consumerId).2.journal = e.journal := reserve_frame.2.2.2.1
    rw [step, same]
    exact inv
  | ack messageId => exact ack_journal closed inv
  | nack messageId requeue => exact nack_journal closed inv
  | recoverConsumer consumerId =>
    have both : (e.recoverConsumer consumerId persist).2.Named ∧
        P (e.recoverConsumer consumerId persist).2.journal :=
      recoverConsumer_preserves (I := fun e => e.Named ∧ P e.journal) (fun _ both => both.1)
        (fun _ _ _ _ both _ _ => fail _ _ _ _ both) ⟨named, inv⟩
    exact both.2
  | tick now =>
    have both : (e.tick now).2.Named ∧ P (e.tick now).2.journal := by
      refine tick_preserves (I := fun e => e.Named ∧ P e.journal) (fun e name id both => ?_)
        (fun _ _ _ _ both _ _ => fail _ _ _ _ both) (fun _ _ _ _ both => both) ⟨named, inv⟩
      have same : (e.releaseOne name id).2.journal = e.journal :=
        (releaseOne_observe e name id).2.2.2.2.1
      rw [same]
      exact ⟨releaseOne_named both.1, both.2⟩
    exact both.2
  | dlqRequeue queueName messageId => exact dlqRequeue_journal closed inv

end Journal

/-! ## Effects -/

/-- The records that the routing engine adds to the journal of the queues. -/
def RoutingRecord (e : QueueEngine) : JournalOp → Prop
  | .exchangeDeclare .. | .exchangeDelete .. | .unbind .. => True
  | .bind _ queue _ => queue ∈ e.queues
  | _ => False

/-- A message that no delivery of has failed and that is not delayed. -/
def Pristine (message : Message) : Prop := message.attempts = 0 ∧ message.availableAt = none

/-- Messages are published pristine. -/
def Clean : EngineOp → Prop
  | .enqueue message => Pristine message
  | _ => True

/-- The DLQ that a declaration adds. -/
def leafSpec (e : QueueEngine) (spec : QueueSpec) : QueueSpec :=
  e.makeSpec (dlqName spec.name) { leafArgs spec with deadLetter := false }

/-- The record of the DLQ goes before the record of the queue it belongs to. -/
def declareRecords (e : QueueEngine) (spec : QueueSpec) (durable : Bool) : List JournalOp :=
  (if spec.deadLetter = true ∧ e.spec? (dlqName spec.name) = none then
    [declareRecord (e.leafSpec spec) true] else []) ++ [declareRecord spec durable]

def deleteRecords (e : QueueEngine) (spec : QueueSpec) : List JournalOp :=
  .queueDelete spec.name ::
    if spec.deadLetter = true ∧ (e.spec? (dlqName spec.name)).isSome then
      [.queueDelete (dlqName spec.name)] else []

/-- One effect of a journaling engine. -/
inductive Effect (e e' : QueueEngine) : Prop where
  | quiet (messages : ∀ q m, e'.message? q m = e.message? q m ∨
        e'.message? q m = (e.message? q m).map strip)
      (specs : e'.spec? = e.spec?) (journal : e'.journal.ops = e.journal.ops)
  | routed (op : JournalOp) (record : RoutingRecord e op) (messages : e'.message? = e.message?)
      (specs : e'.spec? = e.spec?) (journal : e'.journal.ops = e.journal.ops ++ [op])
  | declared (spec : QueueSpec) (durable : Bool) (unknown : e.spec? spec.name = none)
      (plain : spec.deadLetter = true → isDlq spec.name = false)
      (messages : e'.message? = e.message?)
      (specs : ∀ q, e'.spec? q = if q = spec.name then some spec
        else if spec.deadLetter = true ∧ q = dlqName spec.name ∧ e.spec? q = none then
          some (e.leafSpec spec)
        else e.spec? q)
      (journal : e'.journal.ops = e.journal.ops ++ e.declareRecords spec durable)
  | deleted (spec : QueueSpec) (known : e.spec? spec.name = some spec)
      (messages : ∀ q m, e.Deletes spec.name q ∧ e'.message? q m = none ∨
        ¬ e.Deletes spec.name q ∧ e'.message? q m = e.message? q m)
      (specs : ∀ q, e.Deletes spec.name q ∧ e'.spec? q = none ∨
        ¬ e.Deletes spec.name q ∧ e'.spec? q = e.spec? q)
      (journal : e'.journal.ops = e.journal.ops ++ e.deleteRecords spec)
  | published (message : Message) (pristine : Pristine message)
      (known : (e.spec? message.queue).isSome)
      (messages : ∀ q m, e'.message? q m =
        if q = message.queue ∧ m = message.id then some message else e.message? q m)
      (specs : e'.spec? = e.spec?)
      (journal : e'.journal.ops = e.journal.ops ++ [.messagePublish message])
  | acked (name id : String) (message : Message) (held : e.message? name id = some message)
      (messages : ∀ q m, e'.message? q m = if q = name ∧ m = id then none else e.message? q m)
      (specs : e'.spec? = e.spec?)
      (journal : e'.journal.ops = e.journal.ops ++ [.messageAck id name])
  | failed (name id : String) (requeue : Bool) (written : List JournalOp)
      (record : written = [] ∨ written = [.messageNack id name requeue])
      (exit : Exit e name id requeue true written e')
  | requeued (queueName id : String) (result : Bool)
      (requeue : Requeue e queueName id true result e')

variable {e e' : QueueEngine} {name id queueName consumerId : String} {queue : DurableQueue}
  {message : Message} {requeue : Bool} {args : QueueArgs}

theorem Effect.grows (effect : Effect e e') : ∃ more, e'.journal.ops = e.journal.ops ++ more := by
  cases effect with
  | quiet _ _ journal => exact ⟨[], by rw [journal, List.append_nil]⟩
  | routed _ _ _ _ journal => exact ⟨_, journal⟩
  | declared _ _ _ _ _ _ journal => exact ⟨_, journal⟩
  | deleted _ _ _ _ journal => exact ⟨_, journal⟩
  | published _ _ _ _ _ journal => exact ⟨_, journal⟩
  | acked _ _ _ _ _ _ journal => exact ⟨_, journal⟩
  | failed _ _ _ _ _ exit =>
    cases exit with
    | gone _ _ _ _ journal => exact ⟨[], by rw [journal, List.append_nil]⟩
    | retried _ _ _ _ _ _ _ _ journal => exact ⟨_, journal⟩
    | moved _ _ _ _ _ _ _ _ _ journal => exact ⟨_, journal⟩
    | dropped _ _ _ _ _ _ _ _ _ journal => exact ⟨_, journal⟩
  | requeued _ _ _ requeue =>
    cases requeue with
    | missing => exact ⟨[], (List.append_nil _).symm⟩
    | moved _ _ _ _ _ _ _ journal => exact ⟨_, journal⟩
    | refused _ _ _ _ _ _ _ journal => exact ⟨[], by rw [journal, List.append_nil]⟩

theorem Effect.unchanged (messages : e'.message? = e.message?) (specs : e'.spec? = e.spec?)
    (journal : e'.journal.ops = e.journal.ops) : Effect e e' :=
  .quiet (fun q m => .inl (by rw [messages])) specs journal

/-! ## The effect of each function -/

theorem spec?_none : e.spec? name = none ↔ name ∉ e.queues := by
  rw [spec?, Option.map_eq_none_iff, Dict.get?_eq_none]

theorem declareLeaf_ops (e : QueueEngine) (name : String) (args : QueueArgs) :
    (e.declareLeaf name args true).journal.ops = e.journal.ops ++
      if name ∈ e.queues then []
      else [declareRecord (e.makeSpec name { args with deadLetter := false }) args.durable] := by
  unfold declareLeaf
  split
  · exact (List.append_nil _).symm
  · exact append_ops

/-- A declaration stores its queue and, with dead-lettering, the DLQ that is missing. -/
theorem declareQueue_spec? {persist : Bool} {q : String} (unknown : name ∉ e.queues) :
    (e.declareQueue name args persist).spec? q = if q = name then some (e.makeSpec name args)
      else if (e.makeSpec name args).deadLetter = true ∧ q = dlqName name ∧ e.spec? q = none then
        some (e.leafSpec (e.makeSpec name args))
      else e.spec? q := by
  have plain : (e.makeSpec name args).deadLetter = true → isDlq name = false := by simp [makeSpec]
  have stored : ∀ q, (e.putQueue name { spec := e.makeSpec name args }).spec? q =
      if q = name then some (e.makeSpec name args) else e.spec? q :=
    fun q => spec?_of_set (show (e.putQueue name { spec := e.makeSpec name args }).queues =
      e.queues.set name { spec := e.makeSpec name args } from rfl)
  rw [declareQueue_eq, if_neg unknown]
  dsimp only
  rw [spec?_append]
  by_cases on : (e.makeSpec name args).deadLetter = true
  · have other : dlqName name ≠ name := dlqName_ne (plain on)
    have absent : dlqName name ∉ (e.putQueue name { spec := e.makeSpec name args }).queues ↔
        e.spec? (dlqName name) = none := by
      rw [← spec?_none, stored, if_neg other]
    rw [if_pos on, declareLeaf_spec?, stored]
    simp only [absent]
    by_cases here : q = name
    · subst here
      simp [other.symm]
    · by_cases there : q = dlqName name
      · subst there
        simp only [on, here, true_and, if_false]
        rfl
      · simp [here, there]
  · rw [if_neg on, stored]
    by_cases here : q = name <;> simp [here, on]

/-- The records of a declaration. -/
theorem declareQueue_ops (unknown : name ∉ e.queues) : (e.declareQueue name args true).journal.ops =
    e.journal.ops ++ e.declareRecords (e.makeSpec name args) args.durable := by
  have plain : (e.makeSpec name args).deadLetter = true → isDlq name = false := by simp [makeSpec]
  have label : (e.makeSpec name args).name = name := rfl
  rw [declareQueue_eq, if_neg unknown]
  dsimp only
  rw [append_ops, journaled_true, declareRecords, ← List.append_assoc]
  congr 1
  by_cases on : (e.makeSpec name args).deadLetter = true
  · have absent : dlqName name ∉ (e.putQueue name { spec := e.makeSpec name args }).queues ↔
        e.spec? (dlqName name) = none := by
      rw [← spec?_none, spec?_of_set (e := e) rfl, if_neg (dlqName_ne (plain on))]
    rw [if_pos on, declareLeaf_ops, label]
    by_cases missing : e.spec? (dlqName name) = none
    · rw [if_neg (absent.mpr missing), if_pos ⟨on, missing⟩]
      rfl
    · have there : dlqName name ∈ (e.putQueue name { spec := e.makeSpec name args }).queues := by
        by_contra unknown
        exact missing (absent.mp unknown)
      rw [if_pos there, if_neg (fun both => missing both.2)]
      rfl
  · simp [on, putQueue]

theorem declareQueue_effect (e : QueueEngine) (name : String) (args : QueueArgs) :
    Effect e (e.declareQueue name args true) := by
  by_cases known : name ∈ e.queues
  · rw [declareQueue_eq, if_pos known]
    exact .unchanged rfl rfl rfl
  have plain : (e.makeSpec name args).deadLetter = true → isDlq name = false := by simp [makeSpec]
  exact .declared (e.makeSpec name args) args.durable (spec?_none.mpr known) plain
    declareQueue_observe.1 (fun q => declareQueue_spec? known) (declareQueue_ops known)

theorem deleteLeaf_ops (e : QueueEngine) (name : String) :
    (e.deleteLeaf name true).journal.ops =
      e.journal.ops ++ if name ∈ e.queues then [.queueDelete name] else [] := by
  unfold deleteLeaf
  cases found : e.queues.get? name with
  | none => simp [Dict.get?_eq_none.mp found]
  | some queue => simp [removeQueue, Dict.mem_of_get? found]

/-- The records of a deletion. -/
theorem deleteQueue_ops (named : e.Named) (found : e.queues.get? name = some queue) :
    (e.deleteQueue name true).2.journal.ops = e.journal.ops ++ e.deleteRecords queue.spec := by
  have label : queue.spec.name = name := (named name queue found).spec
  have removed : (e.removeQueue name queue true).journal.ops =
      e.journal.ops ++ [.queueDelete name] := append_ops
  simp only [deleteQueue, found, deleteRecords, label]
  by_cases on : queue.spec.deadLetter = true
  · have other : dlqName name ≠ name := dlqName_ne ((named name queue found).plain on)
    have there : dlqName name ∈ (e.removeQueue name queue true).queues ↔
        (e.spec? (dlqName name)).isSome := by
      rw [removeQueue_queues, Dict.mem_erase, spec?, Option.isSome_map, Dict.isSome_get?]
      simp [other]
    rw [if_pos on, deleteLeaf_ops, removed, List.append_assoc]
    simp only [there, on, true_and]
    rfl
  · rw [if_neg on, if_neg (fun both => on both.1), removed]

theorem deleteQueue_effect (named : e.Named) (name : String) :
    Effect e (e.deleteQueue name true).2 := by
  classical
  cases found : e.queues.get? name with
  | none =>
    have same : (e.deleteQueue name true).2 = e := by simp [deleteQueue, found]
    rw [same]
    exact .unchanged rfl rfl rfl
  | some queue =>
    have label : queue.spec.name = name := (named name queue found).spec
    have known : e.spec? queue.spec.name = some queue.spec := by rw [label]; exact spec?_of_get found
    refine .deleted queue.spec known (fun q m => ?_) (fun q => ?_) (deleteQueue_ops named found)
    · rw [label, deleteQueue_message?]
      by_cases gone : e.Deletes name q <;> simp [gone]
    · rw [label, deleteQueue_spec?]
      by_cases gone : e.Deletes name q <;> simp [gone]

theorem enqueue_effect (pristine : Pristine message) : Effect e (e.enqueue message true).2 := by
  have awake : dueMessage message e.now.1 = message := by simp [dueMessage, pristine.2]
  rcases enqueue_cases e message true with ⟨queue, accepts⟩ | ⟨_, same⟩
  · refine .published message pristine ?_ (fun q m => ?_) accepts.spec? ?_
    · rw [spec?_of_get accepts.1]
      rfl
    · rw [accepts.message?, awake]
    · rw [accepts.ops, awake]
      rfl
  · rw [same]
    exact .unchanged rfl rfl rfl

theorem reserve_effect : Effect e (e.reserve queueName consumerId).2 :=
  .unchanged reserve_message? reserve_spec? (by rw [reserve_frame.2.2.2.1])

theorem ack_effect (filed : e.Filed) : Effect e (e.ack id true).2 := by
  rcases ack_cases e id true with ⟨name, queue, settles⟩ | ⟨_, same⟩
  · obtain ⟨message, held⟩ := filed.indexed.held name id settles.indexed
    exact .acked name id message held (fun q m => settles.message?) settles.spec? settles.ops
  · rw [same]
    exact .unchanged rfl rfl rfl

theorem failDelivery_effect (named : e.Named) : Effect e (e.failDelivery name id true).2 :=
  .failed name id true [] (.inl rfl) (failDelivery_exit named)

theorem nack_effect (filed : e.Filed) : Effect e (e.nack id requeue true).2 := by
  rcases nack_cases e id requeue true with ⟨name, queue, message, nacks⟩ |
    ⟨_, same | ⟨name, queue, indexed, found, gone, _⟩⟩
  · exact .failed name id requeue _ (.inr rfl) (nacks.exit filed.named)
  · rw [same]
    exact .unchanged rfl rfl rfl
  · obtain ⟨message, held⟩ := filed.indexed.held name id indexed
    rw [message?_of_get found] at held
    exact absurd (Dict.mem_of_get? held) gone

theorem releaseOne_effect : Effect e (e.releaseOne name id).2 := by
  have journal : (e.releaseOne name id).2.journal.ops = e.journal.ops := by
    rw [(releaseOne_observe e name id).2.2.2.2.1]
  refine .quiet (fun q m => ?_) (releaseOne_observe e name id).2.2.1 journal
  rcases releaseOne_cases e name id with ⟨_, same⟩ | ⟨queue, found, _, _, shape⟩ |
    ⟨queue, message, found, _, held, _, shape⟩
  · rw [same]
    exact .inl rfl
  · rw [shape, message?_of_set (e := e) rfl]
    refine .inl ?_
    split
    · rename_i here; rw [here, message?_of_get found]
    · rfl
  · rw [shape, message?_of_set (e := e) rfl]
    by_cases here : q = name
    · subst here
      rw [if_pos rfl, message?_of_get found]
      by_cases there : m = id
      · subst there
        exact .inr (by simp [DurableQueue.pushReady, held])
      · exact .inl (by simp [DurableQueue.pushReady, there])
    · exact .inl (if_neg here)

theorem nack_config : (e.nack id requeue true).2.config = e.config := by
  rcases nack_cases e id requeue true with ⟨name, queue, message, nacks⟩ |
    ⟨_, same | ⟨name, queue, _, _, _, shape⟩⟩
  · rw [nacks.shape, conclude_frame.1]
    exact append_config
  · rw [same]
  · rw [shape]
    rfl

theorem dlqRequeue_config {persist : Bool} :
    (e.dlqRequeue queueName id persist).2.config = e.config := by
  rcases dlqRequeue_cases e queueName id persist with nothing | ⟨dlq, message, draws⟩
  · rw [nothing]
  · rcases draws.result persist with ⟨dest, accepts, shape⟩ | ⟨_, shape⟩
    · rw [shape, append_config, accepts.config]
      rfl
    · rw [shape]
      rfl

/-! ## The rule -/

section Rule

variable {C : List JournalOp → Prop} {J : QueueEngine → Prop}

/-- An engine whose journal so far meets a condition is filed and satisfies an
invariant. -/
def While (C : List JournalOp → Prop) (J : QueueEngine → Prop) (e : QueueEngine) : Prop :=
  e.Named ∧ (C e.journal.ops → e.Filed ∧ J e)

/-- Under a condition that a journal passes on to its prefixes, what every
effect preserves every operation preserves. The condition has to rule out
that an id is published while it is held. -/
theorem step_while (cut : ∀ first more, C (first ++ more) → C first)
    (fresh : ∀ e message, J e → C (e.journal.ops ++ [.messagePublish message]) → ¬ e.Held message.id)
    (effect : ∀ e e', e.Filed → e'.Filed → e'.config = e.config → Effect e e' →
      C e'.journal.ops → J e → J e')
    {op : EngineOp} (clean : Clean op) (inv : While C J e) : While C J (e.step true op) := by
  have before : ∀ {e e' : QueueEngine}, Effect e e' → C e'.journal.ops → C e.journal.ops := by
    intro e e' eff after
    obtain ⟨more, grown⟩ := eff.grows
    rw [grown] at after
    exact cut _ _ after
  have fail : ∀ e name id, While C J e → While C J (e.failDelivery name id true).2 := by
    intro e name id inv
    refine ⟨failDelivery_named inv.1, fun after => ?_⟩
    have eff : Effect e (e.failDelivery name id true).2 := failDelivery_effect inv.1
    obtain ⟨filed, holds⟩ := inv.2 (before eff after)
    exact ⟨failDelivery_filed filed, effect _ _ filed (failDelivery_filed filed)
      failDelivery_frame.1 eff after holds⟩
  have release : ∀ e name id, While C J e → While C J (e.releaseOne name id).2 := by
    intro e name id inv
    refine ⟨releaseOne_named inv.1, fun after => ?_⟩
    obtain ⟨filed, holds⟩ := inv.2 (before releaseOne_effect after)
    exact ⟨releaseOne_filed filed, effect _ _ filed (releaseOne_filed filed)
      (releaseOne_observe e name id).2.2.2.2.2 releaseOne_effect after holds⟩
  have one : ∀ op, FreshIds e op → (e.Filed → Effect e (e.step true op)) →
      (e.step true op).config = e.config → While C J (e.step true op) := by
    intro op new eff config
    refine ⟨step_named inv.1 op, fun after => ?_⟩
    obtain ⟨more, grown⟩ : ∃ more, (e.step true op).journal.ops = e.journal.ops ++ more := by
      refine step_journal (P := fun journal => ∃ more, journal.ops = e.journal.ops ++ more) ?_ inv.1
        ⟨[], (List.append_nil _).symm⟩ op
      rintro journal record ⟨more, grown⟩
      exact ⟨more ++ [record], by rw [Journal.ops_append, grown, List.append_assoc]⟩
    obtain ⟨filed, holds⟩ := inv.2 (cut _ more (grown ▸ after))
    have filed' : (e.step true op).Filed := step_filed filed op new
    exact ⟨filed', effect _ _ filed filed' config (eff filed) after holds⟩
  cases op with
  | declareQueue name args =>
    exact one (.declareQueue name args) trivial (fun _ => declareQueue_effect e name args)
      (declareQueue_frame e name args true).2.2.2.1
  | deleteQueue name =>
    exact one (.deleteQueue name) trivial (fun filed => deleteQueue_effect filed.named name)
      (deleteQueue_frame e name true).2.2
  | enqueue message =>
    rcases enqueue_cases e message true with ⟨queue, accepts⟩ | ⟨_, same⟩
    · refine ⟨step_named inv.1 _, fun after => ?_⟩
      have eff : Effect e (e.enqueue message true).2 := enqueue_effect clean
      obtain ⟨filed, holds⟩ := inv.2 (before eff after)
      have awake : dueMessage message e.now.1 = message := by simp [dueMessage, clean.2]
      have new : ¬ e.Held message.id := by
        refine fresh e message holds ?_
        have ops := accepts.ops
        rw [awake] at ops
        exact ops ▸ after
      have filed' : (e.enqueue message true).2.Filed := step_filed filed (.enqueue message) new
      exact ⟨filed', effect _ _ filed filed' accepts.config eff after holds⟩
    · rw [step, same]
      exact inv
  | reserve queueName consumerId =>
    exact one (.reserve queueName consumerId) trivial (fun _ => reserve_effect) reserve_frame.2.2.1
  | ack messageId =>
    exact one (.ack messageId) trivial ack_effect (ack_frame e messageId true).2.2
  | nack messageId requeue =>
    exact one (.nack messageId requeue) trivial nack_effect nack_config
  | recoverConsumer consumerId =>
    exact recoverConsumer_preserves (fun _ inv => inv.1) (fun e name id _ inv _ _ => fail e name id inv)
      inv
  | tick now =>
    refine tick_preserves release (fun e name id _ inv _ _ => fail e name id inv) ?_ inv
    intro e reads delayed heap inv
    refine ⟨inv.1, fun after => ?_⟩
    obtain ⟨filed, holds⟩ := inv.2 after
    have filed' : Filed { e with reads := reads, delayed := delayed, visibilityHeap := heap } :=
      ⟨filed.named, filed.indexed.filed, filed.indexed.held⟩
    exact ⟨filed', effect _ _ filed filed' rfl (.unchanged rfl rfl rfl) after holds⟩
  | dlqRequeue queueName messageId =>
    exact one (.dlqRequeue queueName messageId) trivial
      (fun filed => .requeued queueName messageId _ (dlqRequeue_requeue filed.named queueName _ true))
      dlqRequeue_config

theorem append_while (cut : ∀ first more, C (first ++ more) → C first)
    (effect : ∀ e e', e.Filed → e'.Filed → e'.config = e.config → Effect e e' →
      C e'.journal.ops → J e → J e')
    {op : JournalOp} (record : RoutingRecord e op) (inv : While C J e) :
    While C J (e.append true op) := by
  refine ⟨inv.1, fun after => ?_⟩
  have eff : Effect e (e.append true op) := .routed op record rfl rfl append_ops
  obtain ⟨more, grown⟩ := eff.grows
  obtain ⟨filed, holds⟩ := inv.2 (cut _ more (grown ▸ after))
  have filed' : (e.append true op).Filed := ⟨filed.named, filed.indexed.filed, filed.indexed.held⟩
  exact ⟨filed', effect _ _ filed filed' rfl eff after holds⟩

end Rule

end OneOpenBroker.Core.QueueEngine

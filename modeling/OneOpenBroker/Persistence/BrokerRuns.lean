import OneOpenBroker.Core.Effects
import OneOpenBroker.Persistence.Recovery

/-! Runs of a broker that journals. An operation of the broker is a sequence
of engine operations and routing records, so what these preserve one by one
every run preserves. The journal only grows, its records are numbered in the
order they were appended in, and every held message was published and not yet
acknowledged. -/
namespace OneOpenBroker.Persistence
open Collections Systems OneOpenBroker.Core QueueEngine RoutingEngine

/-! ## Operations -/

/-- The operations of a broker that change its queues, exchanges or bindings.
`register` is the declaration a consumer makes of the queues it reads. -/
inductive BrokerOp where
  | declareQueue (name : String) (args : QueueArgs)
  | deleteQueue (name : String)
  | declareExchange (name : String) (type : ExchangeType) (durable : Bool)
  | deleteExchange (name : String)
  | bind (exchange queue routingKey : String)
  | unbind (exchange queue routingKey : String)
  | register (queue : String)
  | publish (args : PublishArgs) (stamp : String → Stamp)
  | reserve (queueName consumerId : String)
  | ack (messageId : String)
  | nack (messageId : String) (requeue : Bool)
  | recoverConsumer (consumerId : String)
  | tick (now : Option ℚ)
  | dlqRequeue (queueName messageId : String)

/-- One operation, with every record journaled. -/
def step (r : RoutingEngine) : BrokerOp → RoutingEngine
  | .declareQueue name args => onQueueDeclared { r with queues := r.queues.declareQueue name args } name
  | .deleteQueue name => { r with queues := (r.queues.deleteQueue name).2 }
  | .declareExchange name type durable => r.declareExchange name type durable
  | .deleteExchange name => (r.deleteExchange name).2
  | .bind exchange queue routingKey => (r.bind exchange queue routingKey).2
  | .unbind exchange queue routingKey => (r.unbind exchange queue routingKey).2
  | .register queue => { r with queues := r.queues.declareQueue queue {} }
  | .publish args stamp => (r.publish args stamp).2
  | .reserve queueName consumerId => { r with queues := (r.queues.reserve queueName consumerId).2 }
  | .ack messageId => { r with queues := (r.queues.ack messageId).2 }
  | .nack messageId requeue => { r with queues := (r.queues.nack messageId requeue).2 }
  | .recoverConsumer consumerId => { r with queues := (r.queues.recoverConsumer consumerId).2 }
  | .tick now => { r with queues := (r.queues.tick now).2 }
  | .dlqRequeue queueName messageId => { r with queues := (r.queues.dlqRequeue queueName messageId).2 }

/-- The ids whose acknowledgement returned OK in a run. -/
def acked (r : RoutingEngine) : List BrokerOp → List String
  | [] => []
  | .ack id :: rest =>
    if (r.queues.ack id).1 = .ok then id :: acked (step r (.ack id)) rest
    else acked (step r (.ack id)) rest
  | op :: rest => acked (step r op) rest

variable {r : RoutingEngine} {e : QueueEngine} {I : QueueEngine → Prop}

/-- Binding and unbinding, declaring and deleting exchanges append at most one
record to the journal of the queues. -/
theorem routing_preserves (record : ∀ e op, RoutingRecord e op → I e → I (e.append true op))
    (inv : I r.queues) :
    (∀ name type durable, I (r.declareExchange name type durable).queues) ∧
    (∀ name, I (r.deleteExchange name).2.queues) ∧
    (∀ exchange queue routingKey, I (r.bind exchange queue routingKey).2.queues) ∧
    ∀ exchange queue routingKey, I (r.unbind exchange queue routingKey).2.queues := by
  refine ⟨fun name type durable => ?_, fun name => ?_, fun exchange queue routingKey => ?_,
    fun exchange queue routingKey => ?_⟩
  · unfold declareExchange
    split
    · exact inv
    · exact record _ _ trivial inv
  · unfold deleteExchange
    split
    · exact inv
    · split
      · exact record _ _ trivial inv
      · exact inv
  · unfold RoutingEngine.bind
    split
    · rename_i known
      exact record _ (.bind exchange queue routingKey) known.2 inv
    · exact inv
  · unfold unbind
    split
    · exact record _ _ trivial inv
    · exact inv

/-- What clean engine operations and routing records preserve, every operation
of the broker preserves. -/
theorem step_preserves (work : ∀ e op, Clean op → I e → I (e.step true op))
    (record : ∀ e op, RoutingRecord e op → I e → I (e.append true op)) (op : BrokerOp)
    (inv : I r.queues) : I (step r op).queues := by
  have routing : ∀ r : RoutingEngine, I r.queues → _ := fun r => routing_preserves (r := r) record
  have declare : ∀ r : RoutingEngine, ∀ name args, I r.queues →
      I (onQueueDeclared { r with queues := r.queues.declareQueue name args } name).queues :=
    fun r name args inv => (routing { r with queues := r.queues.declareQueue name args }
      (work _ (.declareQueue name args) trivial inv)).2.2.1 _ _ _
  cases op with
  | declareQueue name args => exact declare r name args inv
  | deleteQueue name => exact work _ (.deleteQueue name) trivial inv
  | declareExchange name type durable => exact (routing r inv).1 name type durable
  | deleteExchange name => exact (routing r inv).2.1 name
  | bind exchange queue routingKey => exact (routing r inv).2.2.1 exchange queue routingKey
  | unbind exchange queue routingKey => exact (routing r inv).2.2.2 exchange queue routingKey
  | register queue => exact work _ (.declareQueue queue {}) trivial inv
  | publish args stamp =>
    have ensured : I (r.ensureQueue args true).1.queues := by
      unfold ensureQueue
      split
      · exact inv
      · dsimp only
        split
        · split
          · exact inv
          · exact declare r _ {} inv
        · exact inv
    unfold step publish
    dsimp only
    split
    · split
      · exact ensured
      · exact fanOut_preserves (fun e target inv => work e (.enqueue _) ⟨rfl, rfl⟩ inv) ensured
    · exact ensured
  | reserve queueName consumerId => exact work _ (.reserve queueName consumerId) trivial inv
  | ack messageId => exact work _ (.ack messageId) trivial inv
  | nack messageId requeue => exact work _ (.nack messageId requeue) trivial inv
  | recoverConsumer consumerId => exact work _ (.recoverConsumer consumerId) trivial inv
  | tick now => exact work _ (.tick now) trivial inv
  | dlqRequeue queueName messageId => exact work _ (.dlqRequeue queueName messageId) trivial inv

theorem run_work {ops : List BrokerOp} (work : ∀ e op, Clean op → I e → I (e.step true op))
    (record : ∀ e op, RoutingRecord e op → I e → I (e.append true op)) (start : I r.queues) :
    I (run step r ops).queues :=
  run_invariant (I := fun r : RoutingEngine => I r.queues)
    (fun _ op inv => step_preserves work record op inv) start

/-! ## The numbers of the records -/

/-- Records are numbered from one, up to the counter. -/
def Numbered (journal : Journal) : Prop :=
  ∀ record ∈ journal.records, 0 < record.seq ∧ record.seq ≤ journal.seq

/-- A later state of a journal: what was added has higher numbers. -/
def Extends (base journal : Journal) : Prop :=
  base.seq ≤ journal.seq ∧ ∃ later, journal.records = base.records ++ later ∧
    ∀ record ∈ later, base.seq < record.seq

theorem Numbered.append {journal : Journal} (numbered : Numbered journal) (op : JournalOp) :
    Numbered (journal.append op) := by
  intro record there
  rcases List.mem_append.mp there with early | new
  · exact ⟨(numbered record early).1, Nat.le_succ_of_le (numbered record early).2⟩
  · rw [List.mem_singleton.mp new]
    exact ⟨Nat.succ_pos _, le_refl _⟩

theorem Extends.append {base journal : Journal} (grown : Extends base journal) (op : JournalOp) :
    Extends base (journal.append op) := by
  obtain ⟨counter, later, records, higher⟩ := grown
  refine ⟨Nat.le_succ_of_le counter, later ++ [⟨journal.seq + 1, op⟩], ?_, fun record there => ?_⟩
  · simp [Journal.append, records]
  · rcases List.mem_append.mp there with early | new
    · exact higher record early
    · rw [List.mem_singleton.mp new]
      exact Nat.lt_succ_of_le counter

/-- The records after a snapshot are those that were appended since. -/
theorem Extends.later {base journal : Journal} (numbered : Numbered base)
    (grown : Extends base journal) : journal.ops =
      base.ops ++ (journal.records.filter (base.seq < ·.seq)).map (·.op) := by
  obtain ⟨_, later, records, higher⟩ := grown
  have old : base.records.filter (base.seq < ·.seq) = [] := by
    refine List.filter_eq_nil_iff.mpr fun record there => ?_
    simpa using (numbered record there).2
  have new : later.filter (base.seq < ·.seq) = later :=
    List.filter_eq_self.mpr fun record there => by simpa using higher record there
  simp [Journal.ops, records, old, new]

/-- What appending preserves holds of the journal after a run. -/
theorem run_journal {P : Journal → Prop} {ops : List BrokerOp}
    (closed : ∀ journal op, P journal → P (journal.append op)) (named : r.queues.Named)
    (start : P r.queues.journal) : P (run step r ops).queues.journal := by
  have both : (run step r ops).queues.Named ∧ P (run step r ops).queues.journal := by
    refine run_work (I := fun e => e.Named ∧ P e.journal) ?_ ?_ ⟨named, start⟩
    · intro e op _ inv
      exact ⟨step_named inv.1 op, step_journal closed inv.1 inv.2 op⟩
    · intro e op _ inv
      exact ⟨inv.1, closed _ _ inv.2⟩
  exact both.2

/-! ## Published and acknowledged -/

def publishedIds (ops : List JournalOp) : List String :=
  ops.filterMap fun op => match op with
    | .messagePublish message => some message.id
    | _ => none

def ackedIds (ops : List JournalOp) : List String :=
  ops.filterMap fun op => match op with
    | .messageAck id _ => some id
    | _ => none

/-- No id is journaled as published twice. -/
def Unique (ops : List JournalOp) : Prop := (publishedIds ops).Nodup

instance (ops : List JournalOp) : Decidable (Unique ops) :=
  inferInstanceAs (Decidable (publishedIds ops).Nodup)

/-- Every held message was published, and no acknowledged one is held. -/
structure Accounted (e : QueueEngine) : Prop where
  published : ∀ m, e.Held m → m ∈ publishedIds e.journal.ops
  settled : ∀ m ∈ ackedIds e.journal.ops, m ∈ publishedIds e.journal.ops ∧ ¬ e.Held m

theorem publishedIds_append {first second : List JournalOp} :
    publishedIds (first ++ second) = publishedIds first ++ publishedIds second :=
  List.filterMap_append

theorem ackedIds_append {first second : List JournalOp} :
    ackedIds (first ++ second) = ackedIds first ++ ackedIds second :=
  List.filterMap_append

theorem Unique.cut {first second : List JournalOp} (unique : Unique (first ++ second)) :
    Unique first := by
  unfold Unique at unique
  rw [publishedIds_append] at unique
  exact (List.nodup_append.mp unique).1

theorem publishedIds_declare {e : QueueEngine} {spec : QueueSpec} {durable : Bool} :
    publishedIds (e.declareRecords spec durable) = [] ∧ ackedIds (e.declareRecords spec durable) = [] := by
  unfold declareRecords
  split <;> exact ⟨rfl, rfl⟩

/-- What one effect adds to the account: only a publish makes a message held
that was not, and only a held message is acknowledged or requeued. -/
structure Posts (e e' : QueueEngine) (more : List JournalOp) : Prop where
  grown : e'.journal.ops = e.journal.ops ++ more
  held : ∀ m, e'.Held m → e.Held m ∨ m ∈ publishedIds more
  acked : ∀ m ∈ ackedIds more, e.Held m ∧ ¬ e'.Held m
  requeued : ∀ id source dest, .messageRequeue id source dest ∈ more → e.Held id

variable {e' : QueueEngine}

/-- Most effects publish, acknowledge and requeue nothing. -/
theorem Posts.plain {more : List JournalOp} (grown : e'.journal.ops = e.journal.ops ++ more)
    (held : ∀ q m msg, e'.message? q m = some msg → e.Held m)
    (acks : ackedIds more = []) (requeues : ∀ id source dest, .messageRequeue id source dest ∉ more) :
    Posts e e' more where
  grown := grown
  held := fun m ⟨q, msg, there⟩ => .inl (held q m msg there)
  acked := fun m there => by rw [acks] at there; cases there
  requeued := fun id source dest there => absurd there (requeues id source dest)

theorem exit_posts {name id : String} {requeue : Bool} {written : List JournalOp}
    (record : written = [] ∨ written = [.messageNack id name requeue])
    (exit : Exit e name id requeue true written e') : ∃ more, Posts e e' more := by
  have clean : ∀ op, ackedIds [op] = [] → (∀ id source dest, op ≠ .messageRequeue id source dest) →
      ackedIds (written ++ [op]) = [] ∧
        ∀ id source dest, .messageRequeue id source dest ∉ written ++ [op] := by
    intro op acks other
    rw [ackedIds_append, acks]
    rcases record with rfl | rfl
    · exact ⟨rfl, fun id source dest there =>
        other id source dest (List.mem_singleton.mp there).symm⟩
    · refine ⟨rfl, fun id source dest there => ?_⟩
      simp only [List.singleton_append, List.mem_cons, List.not_mem_nil, or_false, reduceCtorEq,
        false_or] at there
      exact other id source dest there.symm
  cases exit with
  | gone _ messages _ _ journal =>
    exact ⟨[], .plain (by rw [journal, List.append_nil])
      (fun q m msg there => ⟨q, msg, messages ▸ there⟩) rfl (by simp)⟩
  | retried message due held _ _ messages _ _ journal =>
    obtain ⟨acks, requeues⟩ := clean (.messageRetry id name due (message.attempts + 1)) rfl (by simp)
    refine ⟨_, .plain journal (fun q m msg there => ?_) acks requeues⟩
    rw [messages] at there
    split at there
    · rename_i same
      exact ⟨q, message, same.1 ▸ same.2 ▸ held⟩
    · exact ⟨q, msg, there⟩
  | moved message spec held _ _ _ messages _ _ journal =>
    obtain ⟨acks, requeues⟩ := clean
      (.messageDead id name (failed message requeue).attempts message.payload) rfl (by simp)
    refine ⟨_, .plain journal (fun q m msg there => ?_) acks requeues⟩
    rw [messages] at there
    split at there
    · rename_i same
      exact ⟨name, message, same.2 ▸ held⟩
    · split at there
      · cases there
      · exact ⟨q, msg, there⟩
  | dropped message spec held _ _ _ messages _ _ journal =>
    obtain ⟨acks, requeues⟩ := clean
      (.messageDead id name (failed message requeue).attempts message.payload) rfl (by simp)
    refine ⟨_, .plain journal (fun q m msg there => ?_) acks requeues⟩
    rw [messages] at there
    split at there
    · cases there
    · exact ⟨q, msg, there⟩

theorem requeue_posts {queueName id : String} {result : Bool}
    (requeue : Requeue e queueName id true result e') : ∃ more, Posts e e' more := by
  cases requeue with
  | missing =>
    exact ⟨[], .plain (List.append_nil _).symm (fun q m msg there => ⟨q, msg, there⟩) rfl (by simp)⟩
  | moved message _ held messages _ _ _ journal =>
    refine ⟨_, journal, ?_, fun m there => (nomatch there), fun m source dest there => ?_⟩
    · rintro m ⟨q, msg, there⟩
      rw [messages] at there
      split at there
      · rename_i same
        exact .inl ⟨_, message, same.2 ▸ held⟩
      · split at there
        · cases there
        · exact .inl ⟨q, msg, there⟩
    · obtain ⟨rfl, _⟩ : m = id ∧ _ := by simpa using there
      exact ⟨_, message, held⟩
  | refused message _ held messages _ _ _ journal =>
    refine ⟨[], .plain (by rw [journal, List.append_nil]) (fun q m msg there => ?_) rfl (by simp)⟩
    rw [messages] at there
    split at there
    · rename_i same
      exact ⟨_, message, same.2 ▸ held⟩
    · exact ⟨q, msg, there⟩

theorem effect_posts (indexed : e.Indexed) (effect : Effect e e') : ∃ more, Posts e e' more := by
  cases effect with
  | quiet messages _ journal =>
    refine ⟨[], .plain (by rw [journal, List.append_nil]) (fun q m msg there => ?_) rfl (by simp)⟩
    rcases messages q m with same | stripped
    · exact ⟨q, msg, same ▸ there⟩
    · obtain ⟨old, held, _⟩ := Option.map_eq_some_iff.mp (stripped.symm.trans there)
      exact ⟨q, old, held⟩
  | routed op record messages _ journal =>
    refine ⟨[op], .plain journal (fun q m msg there => ⟨q, msg, messages ▸ there⟩) ?_ ?_⟩
    · cases op <;> first | rfl | exact record.elim
    · intro id source dest there
      rw [← List.mem_singleton.mp there] at record
      exact record
  | declared spec durable _ _ messages _ journal =>
    refine ⟨_, .plain journal (fun q m msg there => ⟨q, msg, messages ▸ there⟩)
      publishedIds_declare.2 fun id source dest there => ?_⟩
    unfold declareRecords at there
    split at there <;> simp [declareRecord] at there
  | deleted spec _ messages _ journal =>
    refine ⟨_, .plain journal (fun q m msg there => ?_) ?_ fun id source dest there => ?_⟩
    · rcases messages q m with ⟨_, gone⟩ | ⟨_, same⟩
      · rw [gone] at there
        cases there
      · exact ⟨q, msg, same ▸ there⟩
    · unfold deleteRecords
      split <;> rfl
    · unfold deleteRecords at there
      split at there <;> simp at there
  | published message _ _ messages _ journal =>
    refine ⟨_, journal, ?_, fun m there => (by cases there), by simp⟩
    rintro m ⟨q, msg, there⟩
    rw [messages] at there
    split at there
    · rename_i same
      exact .inr (same.2 ▸ List.mem_singleton.mpr rfl)
    · exact .inl ⟨q, msg, there⟩
  | acked name id message held messages _ journal =>
    refine ⟨_, journal, ?_, ?_, by simp⟩
    · rintro m ⟨q, msg, there⟩
      rw [messages] at there
      split at there
      · cases there
      · exact .inl ⟨q, msg, there⟩
    · intro m there
      obtain rfl : m = id := List.mem_singleton.mp there
      refine ⟨⟨name, message, held⟩, ?_⟩
      rintro ⟨q, msg, there⟩
      rw [messages] at there
      by_cases here : q = name
      · rw [if_pos ⟨here, rfl⟩] at there
        cases there
      · rw [if_neg (fun both => here both.1), indexed.lone held here] at there
        cases there
  | failed name id requeue written record exit => exact exit_posts record exit
  | requeued queueName id result requeue => exact requeue_posts requeue

/-- An effect keeps the account when ids are not reused. -/
theorem Accounted.post (account : Accounted e) {more : List JournalOp} (posts : Posts e e' more)
    (unique : Unique e'.journal.ops) : Accounted e' := by
  obtain ⟨grown, held, acked, _⟩ := posts
  unfold Unique at unique
  rw [grown, publishedIds_append] at unique
  have apart := (List.nodup_append.mp unique).2.2
  constructor
  · intro m there
    rw [grown, publishedIds_append]
    exact List.mem_append.mpr ((held m there).imp (account.published m) id)
  · intro m there
    rw [grown, ackedIds_append] at there
    rw [grown, publishedIds_append]
    rcases List.mem_append.mp there with early | new
    · obtain ⟨published, gone⟩ := account.settled m early
      refine ⟨List.mem_append_left _ published, fun again => ?_⟩
      exact (held m again).elim gone fun new => apart m published m new rfl
    · obtain ⟨before, gone⟩ := acked m new
      exact ⟨List.mem_append_left _ (account.published m before), gone⟩

end OneOpenBroker.Persistence

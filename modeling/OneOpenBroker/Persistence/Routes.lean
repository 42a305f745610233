import OneOpenBroker.Persistence.Resurrection

/-! The exchanges and bindings of a recovery. The live broker binds the queues
that commands name, recovery binds every queue that was declared, and a
snapshot drops the bindings of queues that are gone. The two agree as long as
no queue comes into being without its binding and no queue is deleted that has one. -/
namespace OneOpenBroker.Persistence
open Collections Systems OneOpenBroker.Core QueueEngine RoutingEngine

/-- A recovered broker knows the exchanges and the bindings of the live one. -/
structure SameRouting (live copy : RoutingEngine) : Prop where
  exchanges : copy.exchanges.get? = live.exchanges.get?
  bindings : ∀ binding, binding ∈ copy.bindings ↔ binding ∈ live.bindings

/-- Every binding refers to a queue that exists. -/
def Tied (r : RoutingEngine) : Prop := ∀ binding ∈ r.bindings, binding.queue ∈ r.queues.queues

/-- A declaration of the queue brings no DLQ into being. -/
def Covered (r : RoutingEngine) (name : String) (args : QueueArgs) : Prop :=
  name ∈ r.queues.queues ∨
    (args.deadLetter = true → isDlq name = false → dlqName name ∈ r.queues.queues)

/-- The operation binds every queue that it brings into being under its own name,
and deletes no queue that a binding refers to. -/
def Sheltered (r : RoutingEngine) : BrokerOp → Prop
  | .declareQueue name args => Covered r name args
  | .register queue => queue ∈ r.queues.queues
  | .publish args _ => ∀ queue, args.queue = some queue → queue ≠ "" → orText args.exchange "" = "" →
      Covered r queue {}
  | .deleteQueue name => ∀ spec, r.queues.spec? name = some spec → ∀ binding ∈ r.bindings,
      binding.queue ≠ name ∧ (spec.deadLetter = true → binding.queue ≠ dlqName name)
  | _ => True

/-- Whether a queue dead-letters, for the queues that are no DLQ. -/
def marks (e : QueueEngine) (q : String) : Option Bool :=
  if isDlq q then none else (e.spec? q).map (·.deadLetter)

/-- A recovered broker in step with the live one: its routing is the same, and
so are its queues as far as routing depends on them. -/
structure Mirrors (live copy : RoutingEngine) : Prop where
  same : SameRouting live copy
  marks : marks copy.queues = marks live.queues
  tied : Tied live
  tied' : Tied copy
  single : copy.bindings.Nodup
  rebuilt : Rebuilt copy.queues

/-- What a routing engine always satisfies. -/
structure Routed (r : RoutingEngine) : Prop where
  named : r.queues.Named
  labels : ∀ name exchange, r.exchanges.get? name = some exchange → exchange.name = name
  root : r.exchanges.get? defaultExchange = some { name := defaultExchange }
  single : r.bindings.Nodup
  known : ∀ binding ∈ r.bindings, binding.exchange ∈ r.exchanges

/-- The recovered broker after more records. -/
def replayed (copy : RoutingEngine) (ops : List JournalOp) : RoutingEngine := ops.foldl applyRecord copy

/-- A recovered broker stays in step when the records of a change are applied to it. -/
def Traces (live copy live' : RoutingEngine) : Prop :=
  ∃ more, live'.queues.journal.ops = live.queues.journal.ops ++ more ∧ Mirrors live' (replayed copy more)

variable {r live live' copy : RoutingEngine} {e e' e'' : QueueEngine} {name q id exchange routingKey : String}
  {args : QueueArgs} {binding : Binding} {there : String → Prop} {persist requeue : Bool}

theorem marks_of_spec (specs : e'.spec? = e.spec?) : marks e' = marks e := by
  unfold marks
  rw [specs]

/-! ## Operations on messages -/

/-- A record of an operation on messages. Messages are published to queues of a kind. -/
def Settling (there : String → Prop) : JournalOp → Prop
  | .messagePublish message => there message.queue
  | .messageAck .. | .messageNack .. | .messageRequeue .. | .messageRetry .. | .messageDead .. => True
  | _ => False

/-- Only messages were moved, and DLQs added that are missing. -/
structure Stirs (there : String → Prop) (e e' : QueueEngine) : Prop where
  specs : ∀ q, e'.spec? q = e.spec? q ∨ isDlq q = true ∧ e.spec? q = none
  records : ∃ more, e'.journal.ops = e.journal.ops ++ more ∧ ∀ op ∈ more, Settling there op

theorem Stirs.of_spec {more : List JournalOp} (specs : e'.spec? = e.spec?)
    (journal : e'.journal.ops = e.journal.ops ++ more) (settling : ∀ op ∈ more, Settling there op) :
    Stirs there e e' :=
  ⟨fun q => .inl (by rw [specs]), more, journal, settling⟩

theorem Stirs.still (specs : e'.spec? = e.spec?) (journal : e'.journal.ops = e.journal.ops) :
    Stirs there e e' :=
  .of_spec specs (journal.trans (List.append_nil _).symm) fun _ member => nomatch member

theorem Stirs.refl (there : String → Prop) (e : QueueEngine) : Stirs there e e := .still rfl rfl

theorem Stirs.trans (first : Stirs there e e') (second : Stirs there e' e'') : Stirs there e e'' := by
  obtain ⟨specs, more, journal, settling⟩ := first
  obtain ⟨specs', more', journal', settling'⟩ := second
  refine ⟨fun q => ?_, more ++ more', by rw [journal', journal, List.append_assoc], ?_⟩
  · rcases specs' q with same | ⟨dead, absent⟩
    · rw [same]
      exact specs q
    · rcases specs q with same | fresh
      · exact .inr ⟨dead, by rw [← same, absent]⟩
      · exact .inr fresh
  · exact List.forall_mem_append.mpr ⟨settling, settling'⟩

theorem Stirs.marks (stirs : Stirs there e e') : marks e' = marks e := by
  funext q
  unfold Persistence.marks
  split
  · rfl
  · rename_i plain
    rw [(stirs.specs q).resolve_right fun fresh => plain fresh.1]

theorem Stirs.stays (stirs : Stirs there e e') (known : q ∈ e.queues) : q ∈ e'.queues := by
  have here : e.spec? q ≠ none := fun absent => spec?_none.mp absent known
  rcases stirs.specs q with same | ⟨_, absent⟩
  · by_contra gone
    exact here (by rw [← same, spec?_none.mpr gone])
  · exact absurd absent here

theorem exit_stirs {written : List JournalOp} (record : ∀ op ∈ written, Settling there op)
    (exit : Exit e name id requeue true written e') : Stirs there e e' := by
  have append (op : JournalOp) (settling : Settling there op) :
      ∀ op' ∈ written ++ journaled true op, Settling there op' := by
    rw [journaled_true, List.forall_mem_append]
    exact ⟨record, List.forall_mem_singleton.mpr settling⟩
  cases exit with
  | gone _ _ specs _ journal => exact .still specs journal
  | retried _ _ _ _ _ _ specs _ journal => exact .of_spec specs journal (append _ trivial)
  | moved _ _ _ _ _ _ _ specs _ journal =>
    refine ⟨fun q => ?_, _, journal, append _ trivial⟩
    rw [specs]
    split
    · rename_i fresh
      exact .inr ⟨by rw [fresh.1, isDlq_dlqName], fresh.2⟩
    · exact .inl rfl
  | dropped _ _ _ _ _ _ _ specs _ journal => exact .of_spec specs journal (append _ trivial)

theorem failDelivery_stirs (named : e.Named) : Stirs there e (e.failDelivery name id true).2 :=
  exit_stirs (fun _ member => absurd member List.not_mem_nil) (failDelivery_exit named)

theorem nack_stirs (named : e.Named) : Stirs there e (e.nack id requeue true).2 := by
  rcases nack_cases e id requeue true with ⟨name, queue, message, nacks⟩ |
    ⟨_, same | ⟨name, queue, _, found, _, shape⟩⟩
  · refine exit_stirs (fun op member => ?_) (nacks.exit named)
    rw [List.mem_singleton.mp member]
    trivial
  · rw [same]
    exact .refl there e
  · rw [shape]
    refine .still ?_ rfl
    funext q
    rw [spec?_of_set (e := e) rfl]
    split
    · rename_i here
      rw [here, spec?_of_get found]
      rfl
    · rfl

theorem dlqRequeue_stirs (named : e.Named) : Stirs there e (e.dlqRequeue name id true).2 := by
  have requeue := dlqRequeue_requeue named name id true
  generalize (e.dlqRequeue name id true).1 = result at requeue
  generalize (e.dlqRequeue name id true).2 = e' at requeue
  cases requeue with
  | missing => exact .refl there e
  | moved _ _ _ _ _ specs _ journal =>
    exact .of_spec specs journal (List.forall_mem_singleton.mpr trivial)
  | refused _ _ _ _ _ specs _ journal => exact .still specs journal

theorem enqueue_stirs {message : Message} (fits : there message.queue) :
    Stirs there e (e.enqueue message true).2 := by
  rcases enqueue_cases e message true with ⟨queue, accepts⟩ | ⟨_, same⟩
  · have queue : (dueMessage message e.now.1).queue = message.queue := by
      unfold dueMessage
      split
      · rfl
      · split <;> rfl
    refine .of_spec accepts.spec? accepts.ops (List.forall_mem_singleton.mpr ?_)
    rw [Settling, queue]
    exact fits
  · rw [same]
    exact .refl there e

/-- The engine operations that neither declare nor delete nor publish. -/
def Moving : EngineOp → Prop
  | .declareQueue .. | .deleteQueue .. | .enqueue .. => False
  | _ => True

theorem step_stirs (named : e.Named) (op : EngineOp) (moving : Moving op) :
    Stirs there e (e.step true op) := by
  have fail (e' : QueueEngine) (name id : String) (both : e'.Named ∧ Stirs there e e') :
      (e'.failDelivery name id true).2.Named ∧ Stirs there e (e'.failDelivery name id true).2 :=
    ⟨failDelivery_named both.1, both.2.trans (failDelivery_stirs both.1)⟩
  cases op with
  | declareQueue => exact moving.elim
  | deleteQueue => exact moving.elim
  | enqueue => exact moving.elim
  | reserve queueName consumerId =>
    have same : (e.reserve queueName consumerId).2.journal = e.journal := reserve_frame.2.2.2.1
    exact .still reserve_spec? (congrArg Journal.ops same)
  | ack id =>
    change Stirs there e (e.ack id true).2
    rcases ack_cases e id true with ⟨name, queue, settles⟩ | ⟨_, same⟩
    · exact .of_spec settles.spec? settles.ops (List.forall_mem_singleton.mpr trivial)
    · rw [same]
      exact .refl there e
  | nack id requeue => exact nack_stirs named
  | recoverConsumer consumerId =>
    have both : (e.recoverConsumer consumerId true).2.Named ∧
        Stirs there e (e.recoverConsumer consumerId true).2 :=
      recoverConsumer_preserves (I := fun e' => e'.Named ∧ Stirs there e e') (fun _ both => both.1)
        (fun e' name id _ both _ _ => fail e' name id both) ⟨named, .refl there e⟩
    exact both.2
  | tick now =>
    have both : (e.tick now).2.Named ∧ Stirs there e (e.tick now).2 := by
      refine tick_preserves (I := fun e' => e'.Named ∧ Stirs there e e') (fun e' name id both => ?_)
        (fun e' name id _ both _ _ => fail e' name id both)
        (fun e' _ _ _ both => ⟨both.1, both.2.trans (.still rfl rfl)⟩) ⟨named, .refl there e⟩
      obtain ⟨_, _, specs, _, journal, _⟩ := releaseOne_observe e' name id
      exact ⟨releaseOne_named both.1, both.2.trans (.still specs (by rw [journal]))⟩
    exact both.2
  | dlqRequeue queueName id => exact dlqRequeue_stirs named

/-! ## Records that are applied -/

theorem mem_of_spec (specs : e'.spec? = e.spec?) : q ∈ e'.queues ↔ q ∈ e.queues := by
  rw [← not_iff_not, ← spec?_none, ← spec?_none, specs]

theorem applyRecord_rebuilt (rebuilt : Rebuilt copy.queues) (op : JournalOp) :
    Rebuilt (applyRecord copy op).queues := by
  rw [applyRecord_queues]
  exact applyToQueues_rebuilt rebuilt op

/-- Records of operations on messages leave the routing and the specs as they are. -/
theorem settling_applied {op : JournalOp} (rebuilt : Rebuilt copy.queues)
    (settling : Settling (· ∈ copy.queues.queues) op) :
    (applyRecord copy op).exchanges = copy.exchanges ∧
    (applyRecord copy op).bindings = copy.bindings ∧
    (applyRecord copy op).queues.spec? = copy.queues.spec? := by
  cases op with
  | messagePublish message =>
    have known : declareMissing copy message.queue true = copy := if_pos settling
    simp only [applyRecord, known]
    split
    · exact ⟨rfl, rfl, rfl⟩
    · refine ⟨rfl, rfl, ?_⟩
      rcases enqueue_cases copy.queues message false with ⟨queue, accepts⟩ | ⟨_, same⟩
      · exact accepts.spec?
      · exact congrArg QueueEngine.spec? same
  | messageAck id queue => exact ⟨rfl, rfl, congrArg QueueEngine.spec? rebuilt.idle.ack⟩
  | messageNack id queue requeue => exact ⟨rfl, rfl, congrArg QueueEngine.spec? rebuilt.idle.nack⟩
  | messageRequeue id source dest =>
    refine ⟨rfl, rfl, ?_⟩
    change (copy.queues.dlqRequeue dest id false).2.spec? = copy.queues.spec?
    have requeue := dlqRequeue_requeue rebuilt.named dest id false
    generalize (copy.queues.dlqRequeue dest id false).1 = result at requeue
    generalize (copy.queues.dlqRequeue dest id false).2 = e' at requeue
    cases requeue with
    | missing => rfl
    | moved _ _ _ _ _ specs => exact specs
    | refused _ _ _ _ _ specs => exact specs
  | messageRetry => exact ⟨rfl, rfl, rfl⟩
  | messageDead => exact ⟨rfl, rfl, rfl⟩
  | queueDeclare => exact settling.elim
  | queueDelete => exact settling.elim
  | exchangeDeclare => exact settling.elim
  | exchangeDelete => exact settling.elim
  | bind => exact settling.elim
  | unbind => exact settling.elim

theorem settling_replayed {more : List JournalOp} (rebuilt : Rebuilt copy.queues)
    (settling : ∀ op ∈ more, Settling (· ∈ copy.queues.queues) op) :
    (replayed copy more).exchanges = copy.exchanges ∧ (replayed copy more).bindings = copy.bindings ∧
    (replayed copy more).queues.spec? = copy.queues.spec? ∧ Rebuilt (replayed copy more).queues := by
  induction more generalizing copy with
  | nil => exact ⟨rfl, rfl, rfl, rebuilt⟩
  | cons op rest ih =>
    obtain ⟨here, later⟩ := List.forall_mem_cons.mp settling
    obtain ⟨exchanges, bindings, specs⟩ := settling_applied rebuilt here
    have settling' : ∀ op' ∈ rest, Settling (· ∈ (applyRecord copy op).queues.queues) op' := by
      simpa only [mem_of_spec specs] using later
    obtain ⟨exchanges', bindings', specs', rebuilt'⟩ := ih (applyRecord_rebuilt rebuilt op) settling'
    exact ⟨exchanges'.trans exchanges, bindings'.trans bindings, specs'.trans specs, rebuilt'⟩

/-- Where messages are published to: to queues that are bound. -/
def Bound (r : RoutingEngine) (q : String) : Prop := ∃ binding ∈ r.bindings, binding.queue = q

theorem Mirrors.stir (mirrors : Mirrors live copy) (stirs : Stirs (Bound live) live.queues e') :
    Traces live copy { live with queues := e' } := by
  obtain ⟨more, journal, settling⟩ := stirs.records
  have there : ∀ op ∈ more, Settling (· ∈ copy.queues.queues) op := by
    intro op member
    have settles := settling op member
    cases op with
    | messagePublish message =>
      obtain ⟨binding, bound, same⟩ := settles
      change message.queue ∈ copy.queues.queues
      rw [← same]
      exact mirrors.tied' binding ((mirrors.same.bindings binding).mpr bound)
    | _ => exact settles
  obtain ⟨exchanges, bindings, specs, rebuilt⟩ := settling_replayed mirrors.rebuilt there
  refine ⟨more, journal, ⟨?_, ?_⟩, ?_, ?_, ?_, ?_, rebuilt⟩
  · rw [exchanges]
    exact mirrors.same.exchanges
  · rw [bindings]
    exact mirrors.same.bindings
  · rw [marks_of_spec specs, mirrors.marks]
    exact stirs.marks.symm
  · exact fun binding bound => stirs.stays (mirrors.tied binding bound)
  · intro binding bound
    rw [bindings] at bound
    exact (mem_of_spec specs).mpr (mirrors.tied' binding bound)
  · rw [bindings]
    exact mirrors.single

/-! ## Declarations and deletions -/

theorem declareQueue_mem_iff : q ∈ (e.declareQueue name args persist).queues ↔
    q = name ∨ q ∈ e.queues ∨
      name ∉ e.queues ∧ (e.makeSpec name args).deadLetter = true ∧ q = dlqName name := by
  by_cases known : name ∈ e.queues
  · rw [declareQueue_eq, if_pos known]
    constructor
    · exact fun member => .inr (.inl member)
    · rintro (rfl | member | ⟨unknown, _⟩)
      · exact known
      · exact member
      · exact absurd known unknown
  · rw [← not_iff_not, ← spec?_none, declareQueue_spec? known]
    by_cases here : q = name
    · simp [here]
    · rw [if_neg here]
      by_cases leaf : (e.makeSpec name args).deadLetter = true ∧ q = dlqName name ∧ e.spec? q = none
      · rw [if_pos leaf]
        refine iff_of_false (by simp) (not_not.mpr (.inr (.inr ⟨known, leaf.1, leaf.2.1⟩)))
      · rw [if_neg leaf, spec?_none]
        constructor
        · rintro absent (same | member | ⟨_, on, dead⟩)
          · exact here same
          · exact absent member
          · exact leaf ⟨on, dead, spec?_none.mpr absent⟩
        · exact fun none member => none (.inr (.inl member))

theorem marks_declare : marks (e.declareQueue name args persist) q =
    if name ∉ e.queues ∧ q = name ∧ isDlq name = false then some args.deadLetter else marks e q := by
  by_cases known : name ∈ e.queues
  · rw [declareQueue_eq, if_pos known, if_neg fun all => all.1 known]
  · unfold marks
    rw [declareQueue_spec? known]
    by_cases here : q = name
    · subst here
      cases plain : isDlq q with
      | true => simp
      | false => simp [known, makeSpec, plain]
    · have other : ¬ (name ∉ e.queues ∧ q = name ∧ isDlq name = false) := fun all => here all.2.1
      rw [if_neg here, if_neg other]
      by_cases plain : isDlq q = true
      · rw [if_pos plain, if_pos plain]
      · rw [if_neg plain, if_neg plain, if_neg]
        rintro ⟨_, dead, _⟩
        exact ne_dlqName (Bool.eq_false_of_not_eq_true plain) dead

theorem marks_delete : marks (e.deleteQueue name persist).2 q =
    if q = name then none else marks e q := by
  classical
  unfold marks
  rw [deleteQueue_spec?]
  by_cases here : q = name
  · rw [if_pos (show e.Deletes name q from .inl here), if_pos here]
    split <;> rfl
  · rw [if_neg here]
    split
    · rfl
    · rename_i plain
      rw [if_neg]
      rintro (same | ⟨dead, _⟩)
      · exact here same
      · exact ne_dlqName (Bool.eq_false_of_not_eq_true plain) dead

/-- A queue that is no DLQ is there exactly if it has a mark. -/
theorem marks_none (plain : isDlq q = false) : marks e q = none ↔ q ∉ e.queues := by
  rw [← spec?_none]
  simp [marks, plain]

theorem Mirrors.known (mirrors : Mirrors live copy) (plain : isDlq q = false) :
    q ∈ copy.queues.queues ↔ q ∈ live.queues.queues := by
  rw [← not_iff_not, ← marks_none plain, ← marks_none plain, mirrors.marks]

/-! ## Bindings -/

theorem bind_bindings : binding ∈ (r.bind exchange q routingKey persist).2.bindings ↔
    binding ∈ r.bindings ∨
      (exchange ∈ r.exchanges ∧ q ∈ r.queues.queues) ∧ binding = ⟨exchange, q, routingKey⟩ := by
  unfold RoutingEngine.bind
  split
  · rename_i known
    rw [and_iff_right known, or_comm]
    exact List.mem_insert_iff
  · rename_i unknown
    rw [or_iff_left fun both => unknown both.1]

theorem bind_single (single : r.bindings.Nodup) :
    (r.bind exchange q routingKey persist).2.bindings.Nodup := by
  unfold RoutingEngine.bind
  split
  · exact single.insert
  · exact single

theorem bind_exchanges : (r.bind exchange q routingKey persist).2.exchanges = r.exchanges := by
  unfold RoutingEngine.bind
  split <;> rfl

theorem declareMissing_unbound : (declareMissing r q false).exchanges = r.exchanges ∧
    (declareMissing r q false).bindings = r.bindings := by
  unfold declareMissing
  split <;> exact ⟨rfl, rfl⟩

theorem bind_specs : (r.bind exchange q routingKey persist).2.queues.spec? = r.queues.spec? := by
  unfold RoutingEngine.bind
  split
  · exact spec?_append
  · rfl

theorem SameRouting.mem (same : SameRouting live copy) :
    exchange ∈ copy.exchanges ↔ exchange ∈ live.exchanges := by
  rw [← Dict.isSome_get?, ← Dict.isSome_get?, same.exchanges]

/-- The record of a binding. The queue is there, or it is a DLQ that was not journaled. -/
theorem Mirrors.applyBind (mirrors : Mirrors live copy) (known : exchange ∈ live.exchanges)
    (there : q ∈ live.queues.queues) :
    Mirrors (live.bind exchange q routingKey).2 (applyRecord copy (.bind exchange q routingKey)) := by
  obtain ⟨exchanges, bindings⟩ : (declareMissing copy q false).exchanges = copy.exchanges ∧
    (declareMissing copy q false).bindings = copy.bindings := declareMissing_unbound
  have queues : (declareMissing copy q false).queues = copy.queues.declareQueue q {} false :=
    declareMissing_queues
  have there' : q ∈ (declareMissing copy q false).queues.queues := by
    rw [queues, declareQueue_mem_iff]
    exact .inl rfl
  have stays (q' : String) (member : q' ∈ copy.queues.queues) :
      q' ∈ (applyRecord copy (.bind exchange q routingKey)).queues.queues := by
    rw [applyRecord, mem_of_spec bind_specs, queues, declareQueue_mem_iff]
    exact .inr (.inl member)
  have bound (binding : Binding) :
      binding ∈ (applyRecord copy (.bind exchange q routingKey)).bindings ↔
        binding ∈ live.bindings ∨ binding = ⟨exchange, q, routingKey⟩ := by
    rw [applyRecord, bind_bindings, exchanges, bindings, mirrors.same.bindings, mirrors.same.mem,
      and_iff_right ⟨known, there'⟩]
  have bound' (binding : Binding) : binding ∈ (live.bind exchange q routingKey).2.bindings ↔
      binding ∈ live.bindings ∨ binding = ⟨exchange, q, routingKey⟩ := by
    rw [bind_bindings, and_iff_right ⟨known, there⟩]
  refine ⟨⟨?_, fun binding => by rw [bound, bound']⟩, ?_, ?_, ?_, ?_, applyRecord_rebuilt mirrors.rebuilt _⟩
  · rw [applyRecord, bind_exchanges, bind_exchanges, exchanges]
    exact mirrors.same.exchanges
  · rw [applyRecord, marks_of_spec bind_specs, marks_of_spec bind_specs, queues, ← mirrors.marks]
    funext q'
    rw [marks_declare, if_neg]
    rintro ⟨absent, _, plain⟩
    exact absent ((mirrors.known plain).mpr there)
  · intro binding member
    rw [mem_of_spec bind_specs]
    rcases (bound' binding).mp member with old | rfl
    · exact mirrors.tied binding old
    · exact there
  · intro binding member
    rcases (bound binding).mp member with old | rfl
    · exact stays _ (mirrors.tied' binding ((mirrors.same.bindings binding).mpr old))
    · rw [applyRecord, mem_of_spec bind_specs]
      exact there'
  · refine bind_single ?_
    rw [bindings]
    exact mirrors.single

theorem Traces.refl (mirrors : Mirrors live copy) : Traces live copy live :=
  ⟨[], (List.append_nil _).symm, mirrors⟩

theorem Mirrors.bind (mirrors : Mirrors live copy) (exchange q routingKey : String) :
    Traces live copy (live.bind exchange q routingKey).2 := by
  by_cases known : exchange ∈ live.exchanges ∧ q ∈ live.queues.queues
  · refine ⟨[.bind exchange q routingKey], ?_, mirrors.applyBind known.1 known.2⟩
    rw [RoutingEngine.bind, if_pos known]
    exact append_ops
  · rw [RoutingEngine.bind, if_neg known]
    exact .refl mirrors

theorem Mirrors.unbind (mirrors : Mirrors live copy) (single : live.bindings.Nodup)
    (exchange q routingKey : String) : Traces live copy (live.unbind exchange q routingKey).2 := by
  by_cases known : (⟨exchange, q, routingKey⟩ : Binding) ∈ live.bindings
  · refine ⟨[.unbind exchange q routingKey], ?_, ?_⟩
    · rw [RoutingEngine.unbind, if_pos known]
      exact append_ops
    · have known' := (mirrors.same.bindings _).mpr known
      rw [replayed, List.foldl_cons, List.foldl_nil, applyRecord, RoutingEngine.unbind, if_pos known,
        RoutingEngine.unbind, if_pos known']
      refine ⟨⟨mirrors.same.exchanges, fun binding => ?_⟩, ?_, ?_, ?_, mirrors.single.erase _,
        mirrors.rebuilt⟩
      · change binding ∈ copy.bindings.erase _ ↔ binding ∈ live.bindings.erase _
        rw [mirrors.single.mem_erase_iff, single.mem_erase_iff, mirrors.same.bindings]
      · exact mirrors.marks.trans (marks_of_spec spec?_append).symm
      · exact fun binding member => mirrors.tied binding (List.mem_of_mem_erase member)
      · exact fun binding member => mirrors.tied' binding (List.mem_of_mem_erase member)
  · rw [RoutingEngine.unbind, if_neg known]
    exact .refl mirrors

theorem Mirrors.declareExchange (mirrors : Mirrors live copy) (name : String) (type : ExchangeType)
    (durable : Bool) : Traces live copy (live.declareExchange name type durable) := by
  by_cases known : name ∈ live.exchanges
  · rw [RoutingEngine.declareExchange, if_pos known]
    exact .refl mirrors
  · refine ⟨[.exchangeDeclare name type durable], ?_, ?_⟩
    · rw [RoutingEngine.declareExchange, if_neg known]
      exact append_ops
    · rw [replayed, List.foldl_cons, List.foldl_nil, applyRecord, RoutingEngine.declareExchange,
        if_neg known, RoutingEngine.declareExchange, if_neg (mt mirrors.same.mem.mp known)]
      refine ⟨⟨?_, mirrors.same.bindings⟩, ?_, mirrors.tied, mirrors.tied', mirrors.single, mirrors.rebuilt⟩
      · funext other
        change (copy.exchanges.set name _).get? other = (live.exchanges.set name _).get? other
        rw [Dict.get?_set, Dict.get?_set, mirrors.same.exchanges]
      · exact mirrors.marks.trans (marks_of_spec spec?_append).symm

theorem Mirrors.deleteExchange (mirrors : Mirrors live copy) (name : String) :
    Traces live copy (live.deleteExchange name).2 := by
  by_cases root : name = defaultExchange
  · rw [RoutingEngine.deleteExchange, if_pos root]
    exact .refl mirrors
  by_cases known : name ∈ live.exchanges
  · refine ⟨[.exchangeDelete name], ?_, ?_⟩
    · rw [RoutingEngine.deleteExchange, if_neg root, if_pos known]
      exact append_ops
    · rw [replayed, List.foldl_cons, List.foldl_nil, applyRecord, RoutingEngine.deleteExchange, if_neg root,
        if_pos known, RoutingEngine.deleteExchange, if_neg root, if_pos (mirrors.same.mem.mpr known)]
      refine ⟨⟨?_, fun binding => ?_⟩, ?_, ?_, ?_, mirrors.single.filter _, mirrors.rebuilt⟩
      · funext other
        change (copy.exchanges.erase name).get? other = (live.exchanges.erase name).get? other
        rw [Dict.get?_erase, Dict.get?_erase, mirrors.same.exchanges]
      · change binding ∈ copy.bindings.filter _ ↔ binding ∈ live.bindings.filter _
        rw [List.mem_filter, List.mem_filter, mirrors.same.bindings]
      · exact mirrors.marks.trans (marks_of_spec spec?_append).symm
      · exact fun binding member => mirrors.tied binding (List.mem_of_mem_filter member)
      · exact fun binding member => mirrors.tied' binding (List.mem_of_mem_filter member)
  · rw [RoutingEngine.deleteExchange, if_neg root, if_neg known]
    exact .refl mirrors

/-! ## Declaring and deleting queues -/

/-- A declaration that was journaled binds its queue when it is applied. -/
theorem declared_bindings (root : defaultExchange ∈ copy.exchanges) (spec : QueueSpec) (durable : Bool)
    (binding : Binding) : binding ∈ (applyRecord copy (declareRecord spec durable)).bindings ↔
    binding ∈ copy.bindings ∨ binding = ⟨defaultExchange, spec.name, spec.name⟩ := by
  have there : spec.name ∈ (copy.queues.declareQueue spec.name
      { durable, maxLength := spec.maxLength, visibilityTimeout := some spec.visibilityTimeout
        maxAttempts := some spec.maxAttempts, deadLetter := spec.deadLetter } false).queues :=
    declareQueue_mem_iff.mpr (.inl rfl)
  rw [declareRecord, applyRecord, onQueueDeclared, bind_bindings]
  exact or_congr_right (and_iff_right ⟨root, there⟩)

theorem declared_specs (copy : RoutingEngine) (spec : QueueSpec) (durable : Bool) :
    (applyRecord copy (declareRecord spec durable)).queues.spec? =
      (copy.queues.declareQueue spec.name
        { durable, maxLength := spec.maxLength, visibilityTimeout := some spec.visibilityTimeout
          maxAttempts := some spec.maxAttempts, deadLetter := spec.deadLetter } false).spec? :=
  bind_specs

theorem replayed_append {first second : List JournalOp} :
    replayed copy (first ++ second) = replayed (replayed copy first) second := List.foldl_append

/-- More records after a change that was already applied. -/
theorem Traces.after {first : List JournalOp} (mid : RoutingEngine)
    (journal : mid.queues.journal.ops = live.queues.journal.ops ++ first)
    (traces : Traces mid (replayed copy first) live') : Traces live copy live' := by
  obtain ⟨more, later, mirrors⟩ := traces
  refine ⟨first ++ more, by rw [later, journal, List.append_assoc], ?_⟩
  rw [replayed_append]
  exact mirrors

/-- The live broker after a declaration that it binds. -/
def declared (live : RoutingEngine) (name : String) (args : QueueArgs) : RoutingEngine :=
  onQueueDeclared { live with queues := live.queues.declareQueue name args } name

/-- A queue that brings no DLQ along is declared. -/
theorem Mirrors.declare (mirrors : Mirrors live copy) (root : defaultExchange ∈ live.exchanges)
    (covered : Covered live name args) : Traces live copy (declared live name args) := by
  by_cases known : name ∈ live.queues.queues
  · have same : live.queues.declareQueue name args = live.queues := by rw [declareQueue_eq, if_pos known]
    rw [declared, same]
    exact mirrors.bind defaultExchange name name
  have records : (live.queues.declareQueue name args).journal.ops = live.queues.journal.ops ++
      [declareRecord (live.queues.makeSpec name args) args.durable] := by
    rw [declareQueue_ops known, declareRecords, if_neg, List.nil_append]
    rintro ⟨on, absent⟩
    have both : args.deadLetter = true ∧ isDlq name = false := by simpa [makeSpec] using on
    exact spec?_none.mp absent (covered.resolve_left known both.1 both.2)
  have label : (live.queues.makeSpec name args).name = name := rfl
  have specs := declared_specs copy (live.queues.makeSpec name args) args.durable
  have bound := declared_bindings (mirrors.same.mem.mpr root) (live.queues.makeSpec name args) args.durable
  have rebuilt := applyRecord_rebuilt mirrors.rebuilt
    (declareRecord (live.queues.makeSpec name args) args.durable)
  have exchanges : (applyRecord copy (declareRecord (live.queues.makeSpec name args)
    args.durable)).exchanges = copy.exchanges := bind_exchanges
  have single : (applyRecord copy (declareRecord (live.queues.makeSpec name args)
    args.durable)).bindings.Nodup := bind_single mirrors.single
  generalize applied : applyRecord copy (declareRecord (live.queues.makeSpec name args) args.durable) = copy'
    at specs bound rebuilt exchanges single
  rw [label] at specs bound
  -- The record binds the queue already. The live broker does so with the next record.
  generalize first : (⟨defaultExchange, name, name⟩ : Binding) = own at bound
  have there : name ∈ (live.queues.declareQueue name args).queues := declareQueue_mem_iff.mpr (.inl rfl)
  have mirrors' : Mirrors { live with
      queues := live.queues.declareQueue name args, bindings := live.bindings.insert own } copy' := by
    refine ⟨⟨exchanges ▸ mirrors.same.exchanges, fun binding => ?_⟩, ?_, fun binding member => ?_,
      fun binding member => ?_, single, rebuilt⟩
    · rw [bound, mirrors.same.bindings, or_comm]
      exact List.mem_insert_iff.symm
    · rw [marks_of_spec specs]
      funext q
      rw [marks_declare, marks_declare, mirrors.marks]
      by_cases here : q = name ∧ isDlq name = false
      · rw [if_pos ⟨mt (mirrors.known here.2).mp known, here⟩, if_pos ⟨known, here⟩]
        simp [makeSpec, here.2]
      · rw [if_neg fun all => here all.2, if_neg fun all => here all.2]
    · rcases List.mem_insert_iff.mp member with same | old
      · rw [same, ← first]
        exact there
      · exact declareQueue_mem_iff.mpr (.inr (.inl (mirrors.tied binding old)))
    · rw [mem_of_spec specs, declareQueue_mem_iff]
      rcases (bound binding).mp member with old | same
      · exact .inr (.inl (mirrors.tied' binding old))
      · rw [same, ← first]
        exact .inl rfl
  have bind : declared live name args = (RoutingEngine.bind { live with
      queues := live.queues.declareQueue name args, bindings := live.bindings.insert own }
      defaultExchange name name).2 := by
    rw [declared, onQueueDeclared, RoutingEngine.bind, if_pos ⟨root, there⟩, RoutingEngine.bind,
      if_pos ⟨root, there⟩, first]
    have twice : (live.bindings.insert own).insert own = live.bindings.insert own :=
      List.insert_of_mem (List.mem_insert_self)
    rw [twice]
  refine Traces.after { live with
    queues := live.queues.declareQueue name args, bindings := live.bindings.insert own } records ?_
  rw [replayed, List.foldl_cons, List.foldl_nil, applied, bind]
  exact mirrors'.bind defaultExchange name name

/-- A record that takes no exchange and no binding away. -/
def Adds : JournalOp → Prop
  | .exchangeDelete _ | .unbind .. => False
  | _ => True

theorem applyRecord_adds (copy : RoutingEngine) {op : JournalOp} (adds : Adds op) :
    (∀ name ∈ copy.exchanges, name ∈ (applyRecord copy op).exchanges) ∧
    ∀ binding ∈ copy.bindings, binding ∈ (applyRecord copy op).bindings := by
  have bound (r : RoutingEngine) (exchange q routingKey : String) :
      (∀ name ∈ r.exchanges, name ∈ (r.bind exchange q routingKey false).2.exchanges) ∧
      ∀ binding ∈ r.bindings, binding ∈ (r.bind exchange q routingKey false).2.bindings := by
    rw [bind_exchanges]
    exact ⟨fun _ member => member, fun _ member => bind_bindings.mpr (.inl member)⟩
  cases op with
  | queueDeclare name => exact bound { copy with queues := copy.queues.declareQueue name _ false } _ _ _
  | exchangeDeclare name type durable =>
    rw [applyRecord, RoutingEngine.declareExchange]
    split
    · exact ⟨fun _ member => member, fun _ member => member⟩
    · exact ⟨fun _ member => Dict.mem_set.mpr (.inr member), fun _ member => member⟩
  | bind exchange q routingKey =>
    obtain ⟨exchanges, bindings⟩ : (declareMissing copy q false).exchanges = copy.exchanges ∧
      (declareMissing copy q false).bindings = copy.bindings := declareMissing_unbound
    have kept := bound (declareMissing copy q false) exchange q routingKey
    rwa [exchanges, bindings] at kept
  | messagePublish message =>
    have declared : (∀ name ∈ copy.exchanges, name ∈ (declareMissing copy message.queue true).exchanges) ∧
        ∀ binding ∈ copy.bindings, binding ∈ (declareMissing copy message.queue true).bindings := by
      unfold declareMissing
      split
      · exact ⟨fun _ member => member, fun _ member => member⟩
      · exact bound { copy with queues := copy.queues.declareQueue message.queue {} false } _ _ _
    unfold applyRecord
    dsimp only
    split <;> exact declared
  | exchangeDelete => exact adds.elim
  | unbind => exact adds.elim
  | _ => exact ⟨fun _ member => member, fun _ member => member⟩

theorem replayed_adds (copy : RoutingEngine) {more : List JournalOp} (adds : ∀ op ∈ more, Adds op) :
    (∀ name ∈ copy.exchanges, name ∈ (replayed copy more).exchanges) ∧
    ∀ binding ∈ copy.bindings, binding ∈ (replayed copy more).bindings := by
  induction more generalizing copy with
  | nil => exact ⟨fun _ member => member, fun _ member => member⟩
  | cons op rest ih =>
    obtain ⟨here, later⟩ := List.forall_mem_cons.mp adds
    obtain ⟨exchanges, bindings⟩ := applyRecord_adds copy here
    obtain ⟨exchanges', bindings'⟩ := ih (applyRecord copy op) later
    exact ⟨fun name member => exchanges' name (exchanges name member),
      fun binding member => bindings' binding (bindings binding member)⟩

/-- Where a declaration is among the records, its queue ends up bound. -/
theorem replayed_declared {more : List JournalOp} {spec : QueueSpec} {durable : Bool}
    (root : defaultExchange ∈ copy.exchanges) (adds : ∀ op ∈ more, Adds op)
    (member : declareRecord spec durable ∈ more) :
    ⟨defaultExchange, spec.name, spec.name⟩ ∈ (replayed copy more).bindings := by
  obtain ⟨early, late, rfl⟩ := List.append_of_mem member
  obtain ⟨before, after⟩ := List.forall_mem_append.mp adds
  rw [replayed, List.foldl_append, List.foldl_cons]
  refine (replayed_adds _ (List.forall_mem_cons.mp after).2).2 _ ?_
  exact (declared_bindings ((replayed_adds copy before).1 _ root) spec durable _).mpr (.inr rfl)

/-- The records of a change bind a queue that the live broker has not bound. -/
def Overbinds (live live' : RoutingEngine) : Prop :=
  ∃ more, live'.queues.journal.ops = live.queues.journal.ops ++ more ∧ (∀ op ∈ more, Adds op) ∧
    ∃ spec durable, declareRecord spec durable ∈ more ∧
      (⟨defaultExchange, spec.name, spec.name⟩ : Binding) ∉ live'.bindings

theorem declareRecords_adds {spec : QueueSpec} {durable : Bool} :
    ∀ op ∈ e.declareRecords spec durable, Adds op := by
  intro op member
  unfold declareRecords at member
  rcases List.mem_append.mp member with leaf | own
  · split at leaf
    · rw [List.mem_singleton.mp leaf]
      trivial
    · cases leaf
  · rw [List.mem_singleton.mp own]
    trivial

/-- The DLQ of a queue is declared but not bound. -/
theorem declared_overbinds (root : defaultExchange ∈ live.exchanges) (tied : Tied live)
    (uncovered : ¬ Covered live name args) : Overbinds live (declared live name args) := by
  obtain ⟨unknown, on, plain, absent⟩ : name ∉ live.queues.queues ∧ args.deadLetter = true ∧
      isDlq name = false ∧ dlqName name ∉ live.queues.queues := by
    simpa [Covered] using uncovered
  have there : name ∈ (live.queues.declareQueue name args).queues := declareQueue_mem_iff.mpr (.inl rfl)
  have marked : (live.queues.makeSpec name args).deadLetter = true := by simp [makeSpec, on, plain]
  refine ⟨live.queues.declareRecords (live.queues.makeSpec name args) args.durable ++
    [.bind defaultExchange name name], ?_, ?_, live.queues.leafSpec (live.queues.makeSpec name args),
    true, ?_, ?_⟩
  · rw [declared, onQueueDeclared, RoutingEngine.bind, if_pos ⟨root, there⟩, ← List.append_assoc,
      ← declareQueue_ops unknown]
    exact append_ops
  · exact List.forall_mem_append.mpr ⟨declareRecords_adds, List.forall_mem_singleton.mpr trivial⟩
  · refine List.mem_append_left _ (List.mem_append_left _ ?_)
    rw [if_pos ⟨marked, spec?_none.mpr absent⟩]
    exact List.mem_singleton_self _
  · intro member
    rcases bind_bindings.mp member with old | ⟨_, same⟩
    · exact absent (tied _ old)
    · exact dlqName_ne plain (congrArg Binding.queue same)

/-- A queue that a consumer registers for is declared but not bound. -/
theorem registered_overbinds (tied : Tied live) (unknown : name ∉ live.queues.queues) :
    Overbinds live { live with queues := live.queues.declareQueue name args } := by
  refine ⟨live.queues.declareRecords (live.queues.makeSpec name args) args.durable,
    declareQueue_ops unknown, declareRecords_adds, live.queues.makeSpec name args, args.durable, ?_,
    fun member => unknown (tied _ member)⟩
  exact List.mem_append_right _ (List.mem_singleton_self _)

theorem Overbinds.differs (overbinds : Overbinds live live') (root : defaultExchange ∈ copy.exchanges)
    {more : List JournalOp} (journal : live'.queues.journal.ops = live.queues.journal.ops ++ more) :
    ¬ SameRouting live' (replayed copy more) := by
  obtain ⟨more', journal', adds, spec, durable, member, unbound⟩ := overbinds
  rw [journal', List.append_right_inj] at journal
  intro same
  rw [← journal] at same
  exact unbound ((same.bindings _).mp (replayed_declared root adds member))

theorem applyDelete_mem : q ∈ (applyRecord copy (.queueDelete name)).queues.queues ↔
    q ∈ copy.queues.queues ∧ ¬ copy.queues.Deletes name q := by
  classical
  change q ∈ (copy.queues.deleteQueue name false).2.queues ↔ _
  rw [← not_iff_not, ← spec?_none, deleteQueue_spec?, ← spec?_none.not_left]
  split
  · rename_i gone
    simp [gone]
  · rename_i kept
    simp [kept]

/-- A DLQ without bindings is deleted from the recovered broker. -/
theorem Mirrors.dropLeaf (mirrors : Mirrors live copy) (dead : isDlq name = true)
    (unbound : ∀ binding ∈ live.bindings, binding.queue ≠ name) :
    Mirrors live (applyRecord copy (.queueDelete name)) := by
  refine ⟨⟨mirrors.same.exchanges, mirrors.same.bindings⟩, ?_, mirrors.tied,
    fun binding member => ?_, mirrors.single, applyRecord_rebuilt mirrors.rebuilt _⟩
  · change Persistence.marks (copy.queues.deleteQueue name false).2 = Persistence.marks live.queues
    funext q
    rw [marks_delete, ← mirrors.marks]
    split
    · rename_i here
      simp [Persistence.marks, here, dead]
    · rfl
  · have differ := unbound binding ((mirrors.same.bindings binding).mp member)
    refine applyDelete_mem.mpr ⟨mirrors.tied' binding member, ?_⟩
    rintro (here | ⟨here, _⟩)
    · exact differ here
    · rw [dlqName, if_pos dead] at here
      exact differ here

/-- A queue without bindings is deleted. -/
theorem Mirrors.delete (mirrors : Mirrors live copy) (named : live.queues.Named)
    (sheltered : Sheltered live (.deleteQueue name)) :
    Traces live copy { live with queues := (live.queues.deleteQueue name).2 } := by
  classical
  cases found : live.queues.queues.get? name with
  | none =>
    have same : (live.queues.deleteQueue name).2 = live.queues := by simp [deleteQueue, found]
    rw [same]
    exact .refl mirrors
  | some queue =>
    have label : queue.spec.name = name := (named name queue found).spec
    have known : live.queues.spec? name = some queue.spec := spec?_of_get found
    have unbound := sheltered queue.spec known
    have first : Mirrors { live with queues := (live.queues.deleteQueue name).2 }
        (applyRecord copy (.queueDelete name)) := by
      refine ⟨⟨mirrors.same.exchanges, mirrors.same.bindings⟩, ?_, fun binding member => ?_,
        fun binding member => ?_, mirrors.single, applyRecord_rebuilt mirrors.rebuilt _⟩
      · change Persistence.marks (copy.queues.deleteQueue name false).2 =
          Persistence.marks (live.queues.deleteQueue name).2
        funext q
        rw [marks_delete, marks_delete, mirrors.marks]
      · obtain ⟨differ, leaf⟩ := unbound binding member
        have there := mirrors.tied binding member
        rw [← Dict.isSome_get?, deleteQueue_queues, if_neg, Dict.isSome_get?]
        · exact there
        · rintro (here | ⟨here, spec, found', on⟩)
          · exact differ here
          · rw [known] at found'
            exact leaf (Option.some.inj found' ▸ on) here
      · obtain ⟨differ, leaf⟩ := unbound binding ((mirrors.same.bindings binding).mp member)
        refine applyDelete_mem.mpr ⟨mirrors.tied' binding member, ?_⟩
        rintro (here | ⟨here, spec, found', on⟩)
        · exact differ here
        · -- A queue that dead-letters in the recovered broker does so in the live one.
          have plain : isDlq name = false := mirrors.rebuilt.named.plain found' on
          have marked : Persistence.marks copy.queues name = some true := by
            simp [Persistence.marks, plain, found', on]
          rw [mirrors.marks] at marked
          refine leaf ?_ here
          simpa [Persistence.marks, plain, known] using marked
    refine ⟨live.queues.deleteRecords queue.spec, deleteQueue_ops named found, ?_⟩
    rw [deleteRecords, label]
    split
    · rename_i leaf
      exact first.dropLeaf (isDlq_dlqName name) fun binding member => (unbound binding member).2 leaf.1
    · exact first

/-! ## Publishing -/

theorem routeTargets_bound (target : q ∈ r.routeTargets exchange routingKey) : Bound r q := by
  obtain ⟨_, _, binding, member, _, _, rfl⟩ := mem_routeTargets.mp target
  exact ⟨binding, member, rfl⟩

/-- After the queue it names is declared, a publish only moves messages. -/
theorem publish_stirs (r : RoutingEngine) (args : PublishArgs) (stamp : String → Stamp) : ∃ e',
    (r.publish args stamp).2 = { (r.ensureQueue args true).1 with queues := e' } ∧
      Stirs (Bound (r.ensureQueue args true).1) (r.ensureQueue args true).1.queues e' := by
  unfold RoutingEngine.publish
  rcases r.ensureQueue args true with ⟨ensured, exchange, routingKey⟩
  dsimp only
  split
  · split
    · exact ⟨_, rfl, .refl _ _⟩
    · refine ⟨_, rfl, fanOut_among (I := Stirs (Bound ensured) ensured.queues) ?_ (.refl _ _)⟩
      exact fun e target member stirs => stirs.trans (enqueue_stirs (routeTargets_bound member))
  · exact ⟨_, rfl, .refl _ _⟩

/-- The queue that a publish names is declared, if it is new. -/
theorem ensureQueue_cases (r : RoutingEngine) (args : PublishArgs) :
    (r.ensureQueue args true).1 = r ∧ (∀ queue, args.queue = some queue → queue ≠ "" →
      orText args.exchange "" = "" → queue ∈ r.queues.queues) ∨
    ∃ queue, args.queue = some queue ∧ queue ≠ "" ∧ orText args.exchange "" = "" ∧
      (r.ensureQueue args true).1 = declared r queue {} := by
  unfold ensureQueue
  cases named : args.queue with
  | none => exact .inl ⟨rfl, fun _ impossible => nomatch impossible⟩
  | some queue =>
    dsimp only
    by_cases plain : queue ≠ "" ∧ orText args.exchange "" = ""
    · rw [if_pos plain]
      by_cases known : queue ∈ r.queues.queues
      · rw [if_pos known]
        refine .inl ⟨rfl, fun other same _ _ => ?_⟩
        rw [← Option.some.inj same]
        exact known
      · rw [if_neg known]
        exact .inr ⟨queue, rfl, plain.1, plain.2, rfl⟩
    · rw [if_neg plain]
      refine .inl ⟨rfl, fun other same filled direct => ?_⟩
      rw [← Option.some.inj same] at filled
      exact absurd ⟨filled, direct⟩ plain

theorem settling_adds {op : JournalOp} (settling : Settling there op) : Adds op := by
  cases op with
  | exchangeDelete => exact settling
  | unbind => exact settling
  | _ => trivial

theorem Overbinds.stir (overbinds : Overbinds live live') (stirs : Stirs there live'.queues e') :
    Overbinds live { live' with queues := e' } := by
  obtain ⟨more, journal, adds, spec, durable, member, unbound⟩ := overbinds
  obtain ⟨later, journal', settling⟩ := stirs.records
  refine ⟨more ++ later, ?_, ?_, spec, durable, List.mem_append_left _ member, unbound⟩
  · rw [journal', journal, List.append_assoc]
  · exact List.forall_mem_append.mpr ⟨adds, fun op there => settling_adds (settling op there)⟩

theorem Traces.stir (traces : Traces live copy live') (stirs : Stirs (Bound live') live'.queues e') :
    Traces live copy { live' with queues := e' } := by
  obtain ⟨more, journal, mirrors⟩ := traces
  exact .after live' journal (mirrors.stir stirs)

/-! ## Steps -/

/-- A step that is sheltered keeps the recovered broker in step. -/
theorem Mirrors.step {op : BrokerOp} (mirrors : Mirrors live copy) (routed : Routed live)
    (sheltered : Sheltered live op) : Traces live copy (step live op) := by
  have root : defaultExchange ∈ live.exchanges := Dict.mem_of_get? routed.root
  cases op with
  | declareQueue name args => exact mirrors.declare root sheltered
  | deleteQueue name => exact mirrors.delete routed.named sheltered
  | declareExchange name type durable => exact mirrors.declareExchange name type durable
  | deleteExchange name => exact mirrors.deleteExchange name
  | bind exchange queue routingKey => exact mirrors.bind exchange queue routingKey
  | unbind exchange queue routingKey => exact mirrors.unbind routed.single exchange queue routingKey
  | register queue =>
    have same : live.queues.declareQueue queue {} = live.queues := by
      rw [declareQueue_eq, if_pos (show queue ∈ live.queues.queues from sheltered)]
    change Traces live copy { live with queues := live.queues.declareQueue queue {} }
    rw [same]
    exact .refl mirrors
  | publish args stamp =>
    obtain ⟨e', shape, stirs⟩ := publish_stirs live args stamp
    change Traces live copy (live.publish args stamp).2
    rw [shape]
    refine Traces.stir ?_ stirs
    rcases ensureQueue_cases live args with ⟨same, _⟩ | ⟨queue, named, filled, direct, same⟩
    · rw [same]
      exact .refl mirrors
    · rw [same]
      exact mirrors.declare root (sheltered queue named filled direct)
  | reserve queueName consumerId =>
    exact mirrors.stir (step_stirs routed.named (.reserve queueName consumerId) trivial)
  | ack messageId => exact mirrors.stir (step_stirs routed.named (.ack messageId) trivial)
  | nack messageId requeue =>
    exact mirrors.stir (step_stirs routed.named (.nack messageId requeue) trivial)
  | recoverConsumer consumerId =>
    exact mirrors.stir (step_stirs routed.named (.recoverConsumer consumerId) trivial)
  | tick now => exact mirrors.stir (step_stirs routed.named (.tick now) trivial)
  | dlqRequeue queueName messageId =>
    exact mirrors.stir (step_stirs routed.named (.dlqRequeue queueName messageId) trivial)

/-- A step that is not sheltered binds a queue in the recovered broker only, or
leaves a binding of a queue that is gone. -/
theorem unsheltered {op : BrokerOp} (routed : Routed live) (tied : Tied live)
    (not : ¬ Sheltered live op) : Overbinds live (step live op) ∨ ¬ Tied (step live op) := by
  classical
  have root : defaultExchange ∈ live.exchanges := Dict.mem_of_get? routed.root
  cases op with
  | declareQueue name args => exact .inl (declared_overbinds root tied not)
  | register queue => exact .inl (registered_overbinds tied not)
  | deleteQueue name =>
    refine .inr fun tied' => not fun spec known binding member => ?_
    have there := tied' binding member
    have kept : ¬ live.queues.Deletes name binding.queue := by
      intro gone
      change binding.queue ∈ (live.queues.deleteQueue name).2.queues at there
      rw [← Dict.isSome_get?, deleteQueue_queues, if_pos gone] at there
      cases there
    exact ⟨fun here => kept (.inl here), fun on here => kept (.inr ⟨here, spec, known, on⟩)⟩
  | publish args stamp =>
    left
    obtain ⟨e', shape, stirs⟩ := publish_stirs live args stamp
    change Overbinds live (live.publish args stamp).2
    rw [shape]
    refine Overbinds.stir ?_ stirs
    rcases ensureQueue_cases live args with ⟨_, there⟩ | ⟨queue, named, filled, direct, same⟩
    · exact absurd (fun queue named filled direct => .inl (there queue named filled direct)) not
    · rw [same]
      refine declared_overbinds root tied fun covered => not fun other named' _ _ => ?_
      rw [named] at named'
      rw [← Option.some.inj named']
      exact covered
  | _ => exact absurd trivial not

end OneOpenBroker.Persistence

import OneOpenBroker.Core.Routing

/-! What a publish leaves behind. The loop over the targets enqueues and
journals one target after the other and stops at the first full queue, so a
publish that is refused is undone nowhere: it changed nothing exactly when no
target before the full one had a queue to accept the message. -/
namespace OneOpenBroker.Core.RoutingEngine
open Collections Systems QueueEngine

variable {r : RoutingEngine} {e e' : QueueEngine} {message : String → Message} {msg : Message}
  {persist : Bool} {target : String} {targets routed : List String} {lastId : String}
  {args : PublishArgs} {stamp : String → Stamp} {queue : DurableQueue}

/-! ## The outcomes of an enqueue -/

theorem enqueue_notFound (absent : e.queues.get? msg.queue = none) :
    e.enqueue msg persist = (.notFound, e) := by
  simp [enqueue, absent]

theorem enqueue_queueFull (found : e.queues.get? msg.queue = some queue)
    (full : queue.isFull = true) : e.enqueue msg persist = (.queueFull, e) := by
  simp [enqueue, found, full]

theorem enqueue_ok (found : e.queues.get? msg.queue = some queue) (room : queue.isFull = false) :
    e.Accepts msg persist queue := by
  rcases enqueue_cases e msg persist with ⟨other, accepts⟩ | ⟨refused, _⟩
  · have same := accepts.1
    rw [found] at same
    cases same
    exact accepts
  · simp [enqueue, found, room] at refused

/-! ## What the journal gets -/

/-- Records were only added, and none of them publishes a message. -/
def NoPublish (e e' : QueueEngine) : Prop :=
  ∃ ops, e'.journal.ops = e.journal.ops ++ ops ∧ ∀ msg, .messagePublish msg ∉ ops

/-- No queue holds a message it did not hold before, and no publish was journaled. -/
def Untouched (e e' : QueueEngine) : Prop :=
  (∀ q m msg, e'.message? q m = some msg → e.message? q m = some msg) ∧ NoPublish e e'

theorem NoPublish.refl (e : QueueEngine) : NoPublish e e := ⟨[], by simp, by simp⟩

theorem NoPublish.append {op : JournalOp} (none : NoPublish e e')
    (other : ∀ msg, op ≠ .messagePublish msg) : NoPublish e (e'.append persist op) := by
  obtain ⟨ops, added, clean⟩ := none
  refine ⟨ops ++ journaled persist op, by rw [append_ops, added, List.append_assoc], ?_⟩
  intro msg there
  rcases List.mem_append.mp there with early | late
  · exact clean msg early
  · cases persist with
    | false => cases late
    | true => exact other msg (List.mem_singleton.mp late).symm

theorem declareLeaf_noPublish {name : String} {queueArgs : QueueArgs} (none : NoPublish e e') :
    NoPublish e (e'.declareLeaf name queueArgs persist) := by
  unfold declareLeaf
  split
  · exact none
  · have stored : NoPublish e (e'.putQueue name
        { spec := e'.makeSpec name { queueArgs with deadLetter := false } }) := none
    exact stored.append fun _ => by simp [declareRecord]

theorem declareQueue_noPublish {name : String} {queueArgs : QueueArgs} :
    NoPublish e (e.declareQueue name queueArgs persist) := by
  rw [declareQueue_eq]
  split
  · exact .refl e
  · have stored : NoPublish e (e.putQueue name { spec := e.makeSpec name queueArgs }) := .refl e
    refine NoPublish.append ?_ fun _ => by simp [declareRecord]
    split
    · exact declareLeaf_noPublish stored
    · exact stored

/-- Declaring the queue that a publish names moves no message. -/
theorem ensureQueue_observe (r : RoutingEngine) (args : PublishArgs) (persist : Bool) :
    (r.ensureQueue args persist).1.queues.message? = r.queues.message? ∧
    NoPublish r.queues (r.ensureQueue args persist).1.queues := by
  unfold ensureQueue
  split
  · exact ⟨rfl, .refl _⟩
  · rename_i queue _
    dsimp only
    split
    · split
      · exact ⟨rfl, .refl _⟩
      · have declared : NoPublish r.queues (r.queues.declareQueue queue {} persist) :=
          declareQueue_noPublish
        unfold onQueueDeclared bind
        split
        · refine ⟨?_, declared.append fun _ => by simp⟩
          exact message?_append.trans declareQueue_observe.1
        · exact ⟨declareQueue_observe.1, declared⟩
    · exact ⟨rfl, .refl _⟩

/-! ## The loop -/

/-- The first target whose queue exists is full. -/
def FullFirst (e : QueueEngine) (targets : List String) : Prop :=
  ∃ before target after queue, targets = before ++ target :: after ∧ (∀ t ∈ before, t ∉ e.queues) ∧
    e.queues.get? target = some queue ∧ queue.isFull = true

theorem fanOut_missing (absent : e.queues.get? (message target).queue = none) :
    fanOut message persist (target :: targets) routed lastId e =
      fanOut message persist targets routed lastId e := by
  rw [fanOut, enqueue_notFound absent]

theorem fanOut_full (found : e.queues.get? (message target).queue = some queue)
    (full : queue.isFull = true) : fanOut message persist (target :: targets) routed lastId e =
      (((message target).id, routed, .queueFull), e) := by
  rw [fanOut, enqueue_queueFull found full]

theorem fanOut_accepts (accepts : e.Accepts (message target) persist queue) :
    fanOut message persist (target :: targets) routed lastId e =
      fanOut message persist targets (routed ++ [target]) (message target).id
        (e.enqueue (message target) persist).2 := by
  rw [fanOut, accepts.2.2]

/-- The three things that can happen at one target. -/
theorem target_cases (e : QueueEngine) (msg : Message) (persist : Bool) :
    e.queues.get? msg.queue = none ∨
    (∃ queue, e.queues.get? msg.queue = some queue ∧ queue.isFull = true) ∨
    ∃ queue, e.Accepts msg persist queue := by
  cases found : e.queues.get? msg.queue with
  | none => exact .inl rfl
  | some queue =>
    cases full : queue.isFull with
    | true => exact .inr (.inl ⟨queue, rfl, full⟩)
    | false => exact .inr (.inr ⟨queue, enqueue_ok found full⟩)

/-- What one accepted enqueue to a target preserves, the whole loop preserves. -/
theorem fanOut_among {I : QueueEngine → Prop}
    (accept : ∀ e, ∀ target ∈ targets, I e → I (e.enqueue (message target) persist).2)
    (start : I e) : I (fanOut message persist targets routed lastId e).2 := by
  induction targets generalizing e routed lastId with
  | nil => exact start
  | cons target rest ih =>
    have later : ∀ e, ∀ target ∈ rest, I e → I (e.enqueue (message target) persist).2 :=
      fun e other member => accept e other (List.mem_cons_of_mem _ member)
    rcases target_cases e (message target) persist with absent | ⟨queue, found, full⟩ |
      ⟨queue, accepts⟩
    · rw [fanOut_missing absent]
      exact ih later start
    · rw [fanOut_full found full]
      exact start
    · rw [fanOut_accepts accepts]
      exact ih later (accept e target List.mem_cons_self start)

theorem fanOut_preserves {I : QueueEngine → Prop}
    (accept : ∀ e target, I e → I (e.enqueue (message target) persist).2) (start : I e) :
    I (fanOut message persist targets routed lastId e).2 :=
  fanOut_among (fun e target _ => accept e target) start

theorem enqueue_grows (e : QueueEngine) (msg : Message) :
    ∃ ops, (e.enqueue msg true).2.journal.ops = e.journal.ops ++ ops := by
  rcases enqueue_cases e msg true with ⟨queue, accepts⟩ | ⟨_, same⟩
  · exact ⟨_, accepts.ops⟩
  · exact ⟨[], by rw [same, List.append_nil]⟩

/-- A refused loop that left nothing behind met the full queue first. -/
theorem fanOut_untouched (filed : ∀ target, (message target).queue = target)
    (full : (fanOut message true targets routed lastId e).1.2.2 = .queueFull) :
    Untouched e (fanOut message true targets routed lastId e).2 ↔ FullFirst e targets := by
  induction targets generalizing e routed lastId with
  | nil =>
    rw [fanOut] at full
    split at full <;> cases full
  | cons target rest ih =>
    rcases target_cases e (message target) true with absent | ⟨queue, found, stuffed⟩ |
      ⟨queue, accepts⟩
    · rw [fanOut_missing absent] at full ⊢
      rw [ih full]
      rw [filed] at absent
      constructor
      · rintro ⟨before, first, after, queue, split, missing, found, stuffed⟩
        refine ⟨target :: before, first, after, queue, by rw [split]; rfl, ?_, found, stuffed⟩
        exact List.forall_mem_cons.mpr ⟨Dict.get?_eq_none.mp absent, missing⟩
      · rintro ⟨before, first, after, queue, split, missing, found, stuffed⟩
        cases before with
        | nil =>
          obtain ⟨rfl, rfl⟩ := List.cons.inj split
          rw [absent] at found
          cases found
        | cons head before =>
          obtain ⟨rfl, tail⟩ := List.cons.inj split
          exact ⟨before, first, after, queue, tail,
            fun t there => missing t (List.mem_cons_of_mem _ there), found, stuffed⟩
    · rw [fanOut_full found stuffed]
      rw [filed] at found
      refine ⟨fun _ => ⟨[], target, rest, queue, rfl, by simp, found, stuffed⟩, fun _ => ?_⟩
      exact ⟨fun _ _ _ held => held, .refl e⟩
    · constructor
      · -- The accepted target's record stays in the journal whatever follows.
        rintro ⟨_, ops, added, clean⟩
        have grown : ∃ more, (fanOut message true (target :: rest) routed lastId e).2.journal.ops =
            (e.enqueue (message target) true).2.journal.ops ++ more := by
          rw [fanOut_accepts accepts]
          refine fanOut_preserves (I := fun e' => ∃ more, e'.journal.ops =
            (e.enqueue (message target) true).2.journal.ops ++ more) ?_ ⟨[], by simp⟩
          rintro e' target' ⟨more, grown⟩
          obtain ⟨ops, further⟩ := enqueue_grows e' (message target')
          exact ⟨more ++ ops, by rw [further, grown, List.append_assoc]⟩
        obtain ⟨more, grown⟩ := grown
        rw [added, accepts.ops, List.append_assoc] at grown
        have published : .messagePublish (dueMessage (message target) e.now.1) ∈ ops := by
          rw [List.append_cancel_left grown]
          exact List.mem_cons_self
        exact absurd published (clean _)
      · rintro ⟨before, first, after, queue', split, missing, found, stuffed⟩
        have here := accepts.1
        rw [filed] at here
        cases before with
        | nil =>
          obtain ⟨rfl, rfl⟩ := List.cons.inj split
          rw [here] at found
          cases found
          rw [accepts.2.1] at stuffed
          cases stuffed
        | cons head before =>
          obtain ⟨rfl, _⟩ := List.cons.inj split
          exact absurd (Dict.mem_of_get? here) (missing target List.mem_cons_self)

/-! ## Publishing -/

/-- The broker once the queue named by the caller exists. -/
def ensured (r : RoutingEngine) (args : PublishArgs) : RoutingEngine := (r.ensureQueue args true).1

/-- The queues that a publish is fanned out to, in order. -/
def targetsOf (r : RoutingEngine) (args : PublishArgs) : List String :=
  let (r, exchange, routingKey) := r.ensureQueue args true
  r.routeTargets (exchange.getD defaultExchange) routingKey

/-- Records that publish nothing make no difference to what is left behind. -/
theorem untouched_after {middle : QueueEngine} (same : middle.message? = e.message?)
    (none : NoPublish e middle) (grown : ∃ ops, e'.journal.ops = middle.journal.ops ++ ops) :
    Untouched e e' ↔ Untouched middle e' := by
  obtain ⟨early, added, clean⟩ := none
  obtain ⟨late, grown⟩ := grown
  unfold Untouched
  rw [same]
  refine and_congr_right fun _ => ⟨?_, ?_⟩
  · rintro ⟨ops, whole, absent⟩
    rw [grown, added, List.append_assoc] at whole
    refine ⟨late, grown, fun msg there => absent msg ?_⟩
    rw [← List.append_cancel_left whole]
    exact List.mem_append_right early there
  · rintro ⟨ops, whole, absent⟩
    refine ⟨early ++ ops, by rw [whole, added, List.append_assoc], fun msg there => ?_⟩
    exact (List.mem_append.mp there).elim (clean msg) (absent msg)

/-- A publish that is refused because a queue is full changed nothing exactly
when every target before the full one has no queue. -/
theorem publish_full_untouched (full : (r.publish args stamp).1.2.2 = .queueFull) :
    Untouched r.queues (r.publish args stamp).2.queues ↔
      FullFirst (r.ensured args).queues (r.targetsOf args) := by
  obtain ⟨same, none⟩ := ensureQueue_observe r args true
  unfold ensured targetsOf
  unfold publish at full ⊢
  rcases shape : r.ensureQueue args true with ⟨middle, exchange, routingKey⟩
  rw [shape] at full same none
  dsimp only at full same none ⊢
  split at full
  · rename_i known
    rw [if_pos known]
    split at full
    · cases full
    · rename_i nonempty
      rw [if_neg nonempty]
      dsimp only at full ⊢
      rw [untouched_after same none, fanOut_untouched (fun _ => rfl) full]
      refine fanOut_preserves (I := fun e' => ∃ ops, e'.journal.ops =
        middle.queues.journal.ops ++ ops) ?_ ⟨[], by simp⟩
      rintro e target ⟨ops, grown⟩
      obtain ⟨more, further⟩ := enqueue_grows e (messageFor middle.queues args
        (exchange.getD defaultExchange) routingKey
        ((middle.routeTargets (exchange.getD defaultExchange) routingKey).length = 1) stamp target)
      exact ⟨ops ++ more, by rw [further, grown, List.append_assoc]⟩
  · cases full

/-- A fanout exchange over a queue with room and a queue that is full. -/
def unevenFanout : RoutingEngine :=
  let r := create created
  let r := { r with
    queues := (r.queues.declareQueue "alerts" {}).declareQueue "audit" { maxLength := some 1 } }
  let r := (r.declareExchange "events" .fanout).onQueueDeclared "audit"
  let r := (r.publish { payload := [0], queue := some "audit" } fun _ => ⟨"m0", 0⟩).2
  ((r.bind "events" "alerts").2.bind "events" "audit").2

def toEveryone : PublishArgs := { payload := [1], exchange := some "events" }

def twoStamps (target : String) : Stamp := ⟨target ++ "-1", 1⟩

/-- The queue that sorts first keeps the message that the client is told was
refused. -/
theorem partial_fanout : (unevenFanout.publish toEveryone twoStamps).1.2.2 = .queueFull ∧
    ¬ Untouched unevenFanout.queues (unevenFanout.publish toEveryone twoStamps).2.queues := by
  refine ⟨by decide +kernel, fun untouched => ?_⟩
  have held : ((unevenFanout.publish toEveryone twoStamps).2.queues.message?
      "alerts" "alerts-1").isSome = true := by
    decide +kernel
  have before : (unevenFanout.queues.message? "alerts" "alerts-1").isSome = false := by
    decide +kernel
  obtain ⟨msg, there⟩ := Option.isSome_iff_exists.mp held
  rw [untouched.1 _ _ msg there] at before
  cases before

theorem publish_full_untouched_uneven :
    Untouched unevenFanout.queues (unevenFanout.publish toEveryone twoStamps).2.queues ↔
      FullFirst (unevenFanout.ensured toEveryone).queues (unevenFanout.targetsOf toEveryone) :=
  publish_full_untouched (by decide +kernel)

end OneOpenBroker.Core.RoutingEngine

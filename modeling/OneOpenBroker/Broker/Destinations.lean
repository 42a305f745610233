import OneOpenBroker.Broker.Publishable
import OneOpenBroker.Core.FanOut

/-! Where a publish that names its queue goes. The name is used to declare the
queue and stands in for a routing key that is missing, but the message is routed
by the key alone: a key that names another queue sends the message there. -/
namespace OneOpenBroker.Broker.Handler
open Collections OneOpenBroker.Core QueueEngine ConsumerManager Systems

/-- The messages that a queue was given, by its own count. -/
def publishedTo (e : QueueEngine) (q : String) : Nat :=
  ((e.queues.get? q).map (·.stats.published)).getD 0

/-- The queue was given exactly one message, with that payload, and no other
queue was given any. -/
def Receives (e e' : QueueEngine) (q : String) (payload : List UInt8) : Prop :=
  (∃ message : Message, message.queue = q ∧ message.payload = payload ∧ ∀ q' m,
    e'.message? q' m = if q' = q ∧ m = message.id then some message else e.message? q' m) ∧
  ∀ q', publishedTo e' q' = publishedTo e q' + if q' = q then 1 else 0

/-- The key names another queue, which is bound under that name and has room,
or will have been declared as the DLQ of the named one. -/
def Diverts (r : RoutingEngine) (q routingKey : String) : Prop :=
  routingKey ≠ "" ∧ routingKey ≠ q ∧ ownBinding routingKey ∈ r.bindings ∧
    ((∃ queue, r.queues.queues.get? routingKey = some queue ∧ queue.isFull = false) ∨
      routingKey ∉ r.queues.queues ∧ q ∉ r.queues.queues ∧ routingKey = dlqName q ∧
        ∀ limit ∈ r.queues.config.maxLength, 0 < limit)

variable {h : Handler} {r : RoutingEngine} {e e' e'' : QueueEngine} {q k : String}
  {queue : DurableQueue} {message : Message} {args : PublishArgs} {stamp : String → Stamp}
  {payload : List UInt8}

/-! ## What an enqueue gives -/

theorem publishedTo_of_set (stored : e'.queues = e.queues.set k queue) :
    publishedTo e' q = if q = k then queue.stats.published else publishedTo e q := by
  unfold publishedTo
  rw [stored, Dict.get?_set]
  split <;> rfl

theorem accepted_published {seq : Nat} :
    (accepted queue seq message).stats.published = queue.stats.published + 1 := by
  unfold accepted
  split <;> rfl

theorem receives_accepted (accepts : e.Accepts message true queue) :
    Receives e (e.enqueue message true).2 message.queue message.payload := by
  refine ⟨⟨dueMessage message e.now.1, dueMessage_queue, ?_, fun q' m => ?_⟩, fun q' => ?_⟩
  · rw [dueMessage_payload]
  · rw [accepts.message?, dueMessage_id]
  · rw [publishedTo_of_set accepts.queues, accepted_published]
    by_cases here : q' = message.queue
    · subst here
      simp [publishedTo, accepts.1]
    · simp [here]

/-- Where nothing was given before, it does not matter. -/
theorem Receives.after (received : Receives e' e'' q payload) (messages : e'.message? = e.message?)
    (counts : ∀ q', publishedTo e' q' = publishedTo e q') : Receives e e'' q payload := by
  obtain ⟨⟨message, filed, same, table⟩, counted⟩ := received
  exact ⟨⟨message, filed, same, fun q' m => by rw [table, messages]⟩,
    fun q' => by rw [counted, counts]⟩

/-- The queue that got the message is the only one. -/
theorem Receives.unique (received : Receives e e' q payload) (received' : Receives e e' k payload) :
    q = k := by
  have here := received.2 q
  have there := received'.2 q
  rw [if_pos rfl] at here
  by_contra differ
  rw [if_neg differ] at there
  omega

/-! ## What naming a queue does first -/

theorem declareLeaf_get? {name : String} {queueArgs : QueueArgs} {persist : Bool} :
    (e.declareLeaf name queueArgs persist).queues.get? q =
      if q = name ∧ name ∉ e.queues then
        some { spec := e.makeSpec name { queueArgs with deadLetter := false } }
      else e.queues.get? q := by
  rw [declareLeaf_queues]
  by_cases known : name ∈ e.queues
  · simp [known]
  · rw [if_neg known, Dict.get?_set]
    simp [known]

/-- A queue that is declared stands beside the others, and so may its DLQ. -/
theorem declareQueue_other {queueArgs : QueueArgs} {persist : Bool} (unknown : q ∉ e.queues)
    (other : k ≠ q) : (e.declareQueue q queueArgs persist).queues.get? k =
      if k = dlqName q ∧ k ∉ e.queues ∧ (e.makeSpec q queueArgs).deadLetter = true then
        some { spec := e.makeSpec k { leafArgs (e.makeSpec q queueArgs) with deadLetter := false } }
      else e.queues.get? k := by
  have stored : (e.putQueue q { spec := e.makeSpec q queueArgs }).queues.get? k = e.queues.get? k :=
    Dict.get?_set_ne other
  rw [declareQueue_eq, if_neg unknown, append_queues]
  split
  · rename_i on
    rw [declareLeaf_get?, stored]
    by_cases fresh : k = dlqName q ∧ k ∉ e.queues
    · obtain ⟨rfl, absent⟩ := fresh
      rw [if_pos ⟨rfl, by simp [putQueue, other, absent]⟩, if_pos ⟨rfl, absent, on⟩]
      rfl
    · have known : ¬ (k = dlqName q ∧
          dlqName q ∉ (e.putQueue q { spec := e.makeSpec q queueArgs }).queues) := by
        rintro ⟨rfl, new⟩
        exact fresh ⟨rfl, fun there => new (Dict.mem_set.mpr (.inr there))⟩
      rw [if_neg known, if_neg fun both => fresh ⟨both.1, both.2.1⟩]
  · rename_i off
    rw [stored, if_neg fun both => off both.2.2]

/-- Declaring a queue gives no queue a message. -/
theorem declareQueue_published {queueArgs : QueueArgs} {persist : Bool} (q : String) :
    publishedTo (e.declareQueue k queueArgs persist) q = publishedTo e q := by
  by_cases known : k ∈ e.queues
  · rw [declareQueue_eq, if_pos known]
  · by_cases same : q = k
    · subst same
      have fresh : Dict.All (fun name queue => name ∉ e.queues → queue.stats.published = 0)
          (e.declareQueue q queueArgs persist).queues :=
        all_declareQueue (fun _ _ found absent => absurd (Dict.mem_of_get? found) absent)
          fun _ _ _ => rfl
      unfold publishedTo
      rw [Dict.get?_eq_none.mpr known]
      cases found : (e.declareQueue q queueArgs persist).queues.get? q with
      | none => rfl
      | some queue => exact fresh q queue found known
    · unfold publishedTo
      rw [declareQueue_other known same]
      split
      · rename_i fresh
        simp [Dict.get?_eq_none.mpr fresh.2.1]
      · rfl

/-- The key that a publish with a queue's name is routed by. -/
def keyOf (q routingKey : String) : String := if routingKey = "" then q else routingKey

/-- The broker once the named queue exists. -/
def prepared (r : RoutingEngine) (q : String) : RoutingEngine :=
  if q ∈ r.queues.queues then r
  else RoutingEngine.onQueueDeclared { r with queues := r.queues.declareQueue q {} } q

theorem ensureQueue_byName (named : args.queue = some q) (nonempty : q ≠ "")
    (noExchange : orText args.exchange "" = "") : r.ensureQueue args true =
      (prepared r q, some defaultExchange, keyOf q args.routingKey) := by
  unfold RoutingEngine.ensureQueue prepared
  rw [named]
  dsimp only
  rw [if_pos ⟨nonempty, noExchange⟩]
  split <;> rfl

/-- A queue that takes a message. -/
def TakesOne (e : QueueEngine) (q : String) : Prop :=
  ∃ queue, e.queues.get? q = some queue ∧ queue.isFull = false

theorem fresh_isFull {spec : QueueSpec} :
    ({ spec } : DurableQueue).isFull = false ↔ ∀ limit ∈ spec.maxLength, 0 < limit := by
  have empty : ({ spec } : DurableQueue).depth = 0 := rfl
  unfold DurableQueue.isFull
  rw [empty]
  cases spec.maxLength with
  | none => simp
  | some limit => simp

/-- Another queue that takes a message once the named one is declared does so
before, or is its DLQ. -/
theorem declareQueue_takes (unknown : q ∉ e.queues) (other : k ≠ q) :
    TakesOne (e.declareQueue q {}) k ↔ TakesOne e k ∨
      k ∉ e.queues ∧ k = dlqName q ∧ ∀ limit ∈ e.config.maxLength, 0 < limit := by
  have plain : (e.makeSpec q {}).deadLetter = true ↔ isDlq q = false := by simp [makeSpec]
  unfold TakesOne
  rw [declareQueue_other unknown other]
  by_cases fresh : k = dlqName q ∧ k ∉ e.queues
  · obtain ⟨rfl, absent⟩ := fresh
    have plain' : isDlq q = false := by
      by_contra dlq
      exact other (if_pos (by simpa using dlq))
    rw [if_pos ⟨rfl, absent, plain.mpr plain'⟩]
    simp only [Option.some.injEq, exists_eq_left', fresh_isFull]
    simp [absent, Dict.get?_eq_none.mpr absent, makeSpec, leafArgs]
  · rw [if_neg fun both => fresh ⟨both.1, both.2.1⟩,
      or_iff_left fun both => fresh ⟨both.2.1, both.1⟩]

/-- What a declaration and its binding change for the other queues. -/
theorem onQueueDeclared_binds (known : defaultExchange ∈ r.exchanges)
    (declared : q ∈ r.queues.queues) :
    (ownBinding k ∈ (r.onQueueDeclared q).bindings ↔ k = q ∨ ownBinding k ∈ r.bindings) ∧
    (r.onQueueDeclared q).queues.queues = r.queues.queues := by
  unfold RoutingEngine.onQueueDeclared RoutingEngine.bind
  rw [if_pos ⟨known, declared⟩]
  refine ⟨?_, append_queues⟩
  change ownBinding k ∈ r.bindings.insert (ownBinding q) ↔ _
  rw [List.mem_insert_iff]
  simp [ownBinding]

/-- A preparation gives no queue a message. -/
theorem prepared_quiet (r : RoutingEngine) (q : String) :
    (prepared r q).queues.message? = r.queues.message? ∧
      ∀ k, publishedTo (prepared r q).queues k = publishedTo r.queues k := by
  have declared : (r.queues.declareQueue q {}).message? = r.queues.message? :=
    declareQueue_observe.1
  unfold prepared
  split
  · exact ⟨rfl, fun _ => rfl⟩
  · unfold RoutingEngine.onQueueDeclared RoutingEngine.bind
    split
    · refine ⟨message?_append.trans declared, fun k => ?_⟩
      have same : publishedTo
          ((r.queues.declareQueue q {}).append true (.bind defaultExchange q q)) k =
          publishedTo (r.queues.declareQueue q {}) k := by
        unfold publishedTo
        rw [append_queues]
      exact same.trans (declareQueue_published k)
    · exact ⟨declared, fun k => declareQueue_published k⟩

/-- The key of another queue has taken its message exactly if it diverts. -/
theorem prepared_diverts (known : defaultExchange ∈ r.exchanges) (nonempty : k ≠ "")
    (other : k ≠ q) :
    ownBinding k ∈ (prepared r q).bindings ∧ TakesOne (prepared r q).queues k ↔ Diverts r q k := by
  unfold prepared Diverts
  split
  · rename_i there
    simp [nonempty, other, there, TakesOne]
  · rename_i unknown
    have declared : q ∈ (r.queues.declareQueue q {}).queues := declareQueue_mem
    have binds := onQueueDeclared_binds (k := k)
      (r := { r with queues := r.queues.declareQueue q {} }) known declared
    rw [binds.1, or_iff_right other]
    unfold TakesOne
    rw [binds.2]
    have takes := declareQueue_takes unknown other
    unfold TakesOne at takes
    rw [takes]
    simp [nonempty, other, unknown]

/-! ## The publish -/

/-- A publish by the name of a queue ends in the queue that its key names. -/
theorem publish_routed (direct : Direct h) (named : args.queue = some q) (nonempty : q ≠ "")
    (noExchange : orText args.exchange "" = "") :
    (ownBinding (keyOf q args.routingKey) ∈ (prepared h.routing q).bindings ∧
        TakesOne (prepared h.routing q).queues (keyOf q args.routingKey) ∧
        (h.routing.publish args stamp).1.2.2 = .ok ∧
        Receives h.queues (h.routing.publish args stamp).2.queues (keyOf q args.routingKey)
          args.payload) ∨
    ¬ (ownBinding (keyOf q args.routingKey) ∈ (prepared h.routing q).bindings ∧
        TakesOne (prepared h.routing q).queues (keyOf q args.routingKey)) ∧
      (h.routing.publish args stamp).1.2.2 ≠ .ok := by
  have shape := ensureQueue_byName (r := h.routing) named nonempty noExchange
  obtain ⟨ex, found, _⟩ := direct.exchange
  have rebinds : Rebinds h { h with routing := (h.routing.ensureQueue args true).1 } :=
    ensured_rebinds (Dict.mem_of_get? found)
  have direct' := rebinds.direct direct
  have there := rebinds.default (Dict.mem_of_get? found)
  rw [shape] at direct' there
  dsimp only at direct' there
  obtain ⟨messages, counts⟩ := prepared_quiet h.routing q
  generalize prepared h.routing q = r at shape direct' there messages counts ⊢
  generalize keyOf q args.routingKey = k at shape ⊢
  have targets : r.routeTargets defaultExchange k = if ownBinding k ∈ r.bindings then [k] else [] :=
    direct'.routeTargets_eq
  have default : (some defaultExchange).getD defaultExchange = defaultExchange := rfl
  unfold RoutingEngine.publish
  rw [shape]
  dsimp only
  rw [default, if_pos there]
  by_cases bound : ownBinding k ∈ r.bindings
  · rw [if_pos bound] at targets
    rw [targets, if_neg (List.cons_ne_nil k [])]
    rcases RoutingEngine.target_cases r.queues (RoutingEngine.messageFor r.queues args defaultExchange
      k ([k].length = 1) stamp k) true with absent | ⟨queue, known, full⟩ | ⟨queue, accepts⟩
    · rw [RoutingEngine.fanOut_missing absent]
      refine .inr ⟨fun both => ?_, by simp [RoutingEngine.fanOut]⟩
      obtain ⟨queue, found, _⟩ := both.2
      exact absurd (absent.symm.trans found) (by simp)
    · rw [RoutingEngine.fanOut_full known full]
      refine .inr ⟨fun both => ?_, by simp⟩
      obtain ⟨other, found, room⟩ := both.2
      obtain rfl := Option.some.inj (found.symm.trans known)
      exact Bool.false_ne_true (room.symm.trans full)
    · rw [RoutingEngine.fanOut_accepts accepts]
      refine .inl ⟨bound, ⟨queue, accepts.1, accepts.2.1⟩, rfl, ?_⟩
      exact (receives_accepted accepts).after messages counts
  · rw [if_neg bound] at targets
    rw [targets, if_pos rfl]
    exact .inr ⟨fun both => bound both.1, by simp⟩

/-- A publish that names its queue, and is answered with OK, goes to that queue
only, unless its key diverts it. -/
theorem publish_reaches_named_iff (direct : Direct h) (named : args.queue = some q)
    (nonempty : q ≠ "") (noExchange : orText args.exchange "" = "") (stamp : String → Stamp) :
    ((h.routing.publish args stamp).1.2.2 = .ok →
      Receives h.queues (h.routing.publish args stamp).2.queues q args.payload) ↔
    ¬ Diverts h.routing q args.routingKey := by
  obtain ⟨ex, found, _⟩ := direct.exchange
  have known : defaultExchange ∈ h.routing.exchanges := Dict.mem_of_get? found
  by_cases own : keyOf q args.routingKey = q
  · have stays : ¬ Diverts h.routing q args.routingKey := by
      rintro ⟨given, other, _⟩
      rw [keyOf, if_neg given] at own
      exact other own
    refine iff_of_true (fun ok => ?_) stays
    rcases publish_routed direct named nonempty noExchange with ⟨_, _, _, received⟩ | ⟨_, refused⟩
    · exact own ▸ received
    · exact absurd ok refused
  · have key : keyOf q args.routingKey = args.routingKey := by
      refine if_neg fun missing => own ?_
      rw [keyOf, if_pos missing]
    have given : args.routingKey ≠ "" := fun missing => own (by rw [keyOf, if_pos missing])
    have other : args.routingKey ≠ q := fun same => own (key.trans same)
    rw [← prepared_diverts known given other]
    rcases publish_routed direct named nonempty noExchange with ⟨bound, takes, ok, received⟩ |
      ⟨unmet, refused⟩
    · rw [key] at bound takes received
      refine iff_of_false (fun reaches => other ?_) fun stays => stays ⟨bound, takes⟩
      exact received.unique (reaches ok)
    · rw [key] at unmet
      exact iff_of_true (fun ok => absurd ok refused) unmet

/-! ## Runs -/

/-- Clients that leave the default exchange alone leave it as it is. -/
theorem direct_run (config : EngineConfig) (clock : Nat → ℚ) (sends : Nat → Bool)
    {events : List Event} (leaves : ∀ event ∈ events, LeavesDefault event) :
    Direct (run step (created config clock sends) events) := by
  have kept : ∀ h, Ordered h → Direct h → Direct (run step h events) := by
    induction events with
    | nil => exact fun _ _ direct => direct
    | cons event rest ih =>
      intro h ordered direct
      obtain ⟨first, later⟩ := List.forall_mem_cons.mp leaves
      exact ih later _ (ordered_kept.step ordered (Guards.event_free h event))
        (step_publishable_iff ordered.named direct first).1
  exact kept _ (Reachable.start config clock sends).ordered
    ⟨⟨_, rfl, rfl⟩, fun _ member => nomatch member⟩

/-- A broker with two queues. -/
def twoQueues : Handler := run step (created {} (fun _ => 0) fun _ => true) [
  .command "c1" (.declareQueue "orders" none none none),
  .command "c1" (.declareQueue "audit" none none none)]

theorem twoQueues_direct : Direct twoQueues :=
  direct_run {} (fun _ => 0) (fun _ => true) (by simp [LeavesDefault])

def toOrders (routingKey : String) : PublishArgs :=
  { payload := [1], queue := some "orders", routingKey }

theorem publish_reaches_named_plain : Receives twoQueues.queues
    (twoQueues.routing.publish (toOrders "") fun _ => ⟨"m1", 0⟩).2.queues "orders" [1] :=
  (publish_reaches_named_iff twoQueues_direct rfl (by decide) rfl _).mpr
    (fun diverts => diverts.1 rfl) (by decide +kernel)

/-- A routing key that names the other queue takes the message there. -/
theorem key_overrides_queue : Direct twoQueues ∧
    (twoQueues.routing.publish (toOrders "audit") fun _ => ⟨"m1", 0⟩).1 = ("m1", ["audit"], .ok) ∧
    ¬ Receives twoQueues.queues
      (twoQueues.routing.publish (toOrders "audit") fun _ => ⟨"m1", 0⟩).2.queues "orders" [1] := by
  refine ⟨twoQueues_direct, by decide +kernel, fun received => ?_⟩
  have counted := received.2 "orders"
  have before : publishedTo twoQueues.queues "orders" = 0 := by decide +kernel
  have after : publishedTo (twoQueues.routing.publish (toOrders "audit") fun _ =>
      ⟨"m1", 0⟩).2.queues "orders" = 0 := by
    decide +kernel
  rw [before, after] at counted
  simp at counted

end OneOpenBroker.Broker.Handler

import OneOpenBroker.Broker.Registry

/-! Whether a queue can be published to by its name alone. Such a publish goes
through the default exchange, and finds the queue only if the queue is bound
there under its own name. A declaration binds it, and so does every command
that declares a queue on the way, but for the registration of a GET. -/
namespace OneOpenBroker.Broker.Handler
open Collections OneOpenBroker.Core QueueEngine ConsumerManager Systems

/-- The binding of a queue to the default exchange under its own name. -/
def ownBinding (q : String) : Binding := ⟨defaultExchange, q, q⟩

/-- A publish that names the queue and nothing else routes to the queue only,
and its answer is OK unless the queue is full. -/
def Publishable (h : Handler) (q : String) : Prop :=
  ∀ (args : PublishArgs) (stamp : String → Stamp),
    args.queue = some q → args.exchange = none → args.routingKey = "" →
      h.routing.routeTargets defaultExchange q = [q] ∧
        ((h.queues.queues.get? q).any (·.isFull) = true ∨
          ∃ id, (h.cmdPublish args stamp).1 = .ok (.published id [q]))

def AllPublishable (h : Handler) : Prop :=
  ∀ q ∈ h.queues.queues, isDlq q = false → Publishable h q

/-- Clients bind queues to other exchanges than the default one only. -/
def LeavesDefault : Event → Prop
  | .command _ (.bind exchange _ _) => exchange ≠ defaultExchange
  | .command _ (.unbind exchange _ _) => exchange ≠ defaultExchange
  | _ => True

/-- A GET that registers its consumer reads a queue that exists, or one for
dead letters, or one that is still bound under its own name. -/
def ReadsBound (h : Handler) : Event → Prop
  | .command connectionId (.get queue consumerId prefetch) =>
    h.registration (.command connectionId (.get queue consumerId prefetch)) ≠ none →
      queue ∈ h.queues.queues ∨ isDlq queue = true ∨ ownBinding queue ∈ h.routing.bindings
  | _ => True

variable {h h' h'' : Handler} {r : RoutingEngine} {connectionId queue id name q : String}
  {names : List String}

/-! ## Routing through the default exchange -/

/-- The default exchange is direct, and queues are bound to it under their own
names only. -/
structure Direct (h : Handler) : Prop where
  exchange : ∃ ex, h.routing.exchanges.get? defaultExchange = some ex ∧ ex.type = .direct
  own : ∀ b ∈ h.routing.bindings, b.exchange = defaultExchange → b.queue = b.routingKey

/-- A queue that is bound under its own name is the only target of its name. -/
theorem Direct.routeTargets_eq (direct : Direct h) : h.routing.routeTargets defaultExchange q =
    if ownBinding q ∈ h.routing.bindings then [q] else [] := by
  have target (name : String) : name ∈ h.routing.routeTargets defaultExchange q ↔
      name = q ∧ ownBinding q ∈ h.routing.bindings := by
    obtain ⟨ex, found, kind⟩ := direct.exchange
    simp only [RoutingEngine.mem_routeTargets, found, kind, Option.some.injEq, exists_eq_left', true_imp_iff]
    constructor
    · rintro ⟨⟨exchange, queue, routingKey⟩, member, rfl, rfl, rfl⟩
      obtain rfl : queue = routingKey := direct.own _ member rfl
      exact ⟨rfl, member⟩
    · rintro ⟨rfl, member⟩
      exact ⟨ownBinding name, member, rfl, rfl, rfl⟩
  split
  · rename_i bound
    have short := RoutingEngine.routeTargets_short fun name listed => ((target name).mp listed).1
    obtain ⟨name, single⟩ := List.length_eq_one_iff.mp
      (le_antisymm short (List.length_pos_of_mem ((target q).mpr ⟨rfl, bound⟩)))
    have same := (target name).mp (by simp [single])
    rw [single, same.1]
  · rename_i unbound
    exact List.eq_nil_iff_forall_not_mem.mpr fun name member => unbound ((target name).mp member).2

theorem Direct.routeTargets_iff (direct : Direct h) :
    h.routing.routeTargets defaultExchange q = [q] ↔ ownBinding q ∈ h.routing.bindings := by
  rw [direct.routeTargets_eq]
  split <;> simp [*]

/-- Naming a queue that exists, and nothing else, means its name on the default
exchange. -/
theorem ensureQueue_named {args : PublishArgs} (there : q ∈ r.queues.queues)
    (named : args.queue = some q) (noExchange : args.exchange = none) (noKey : args.routingKey = "") :
    ∃ exchange, r.ensureQueue args true = (r, exchange, q) ∧
      exchange.getD defaultExchange = defaultExchange := by
  unfold RoutingEngine.ensureQueue
  rw [named]
  dsimp only
  by_cases empty : q = ""
  · rw [if_neg fun both => both.1 empty, noExchange, noKey, empty]
    exact ⟨none, rfl, rfl⟩
  · rw [if_pos ⟨empty, by rw [noExchange]; rfl⟩, if_pos there, if_pos noKey]
    exact ⟨some defaultExchange, rfl, rfl⟩

theorem Direct.publishable (direct : Direct h) (there : q ∈ h.queues.queues)
    (bound : ownBinding q ∈ h.routing.bindings) : Publishable h q := by
  intro args stamp named noExchange noKey
  have targets := direct.routeTargets_iff.mpr bound
  refine ⟨targets, ?_⟩
  obtain ⟨exchange, shape, default⟩ := ensureQueue_named (r := h.routing) there named noExchange noKey
  obtain ⟨ex, found, _⟩ := direct.exchange
  obtain ⟨queue, held⟩ := Dict.mem_iff.mp there
  have published : h.queues.queues.get? q = some queue ∧ queue.isFull = true ∨
      ∃ id e, h.routing.publish args stamp = ((id, [q], .ok), { h.routing with queues := e }) := by
    unfold RoutingEngine.publish
    rw [shape]
    dsimp only
    rw [default, if_pos (Dict.mem_of_get? found), targets, if_neg (List.cons_ne_nil q [])]
    rcases RoutingEngine.target_cases h.routing.queues (RoutingEngine.messageFor h.routing.queues args
      defaultExchange q ([q].length = 1) stamp q) true with absent | ⟨queue', known, full⟩ | ⟨queue', accepts⟩
    · exact absurd held (by rw [show h.queues.queues.get? q = none from absent]; simp)
    · exact .inl ⟨held, by rw [show queue = queue' from Option.some.inj (held.symm.trans known)]; exact full⟩
    · rw [RoutingEngine.fanOut_accepts accepts]
      exact .inr ⟨_, _, rfl⟩
  rcases published with ⟨_, full⟩ | ⟨id, e, done⟩
  · left
    rw [held]
    exact full
  · right
    unfold cmdPublish
    rw [done]
    exact ⟨id, rfl⟩

/-- With the default exchange as it is, the queues that can be published to
are the ones that are bound under their own names. -/
theorem Direct.allPublishable_iff (direct : Direct h) : AllPublishable h ↔
    ∀ q ∈ h.queues.queues, isDlq q = false → ownBinding q ∈ h.routing.bindings := by
  constructor
  · intro all q there plain
    have routes := (all q there plain { payload := [], queue := some q } (fun _ => ⟨"", 0⟩) rfl rfl
      rfl).1
    exact direct.routeTargets_iff.mp routes
  · exact fun all q there plain => direct.publishable there (all q there plain)

/-! ## What an event does to the default exchange -/

/-- The default exchange stays, no own binding goes, and a binding or a queue
that is new fits. -/
structure Rebinds (h h' : Handler) : Prop where
  exchange : h'.routing.exchanges.get? defaultExchange = h.routing.exchanges.get? defaultExchange
  own : ∀ b ∈ h'.routing.bindings, b.exchange = defaultExchange →
    b ∈ h.routing.bindings ∨ b.queue = b.routingKey
  kept : ∀ q, ownBinding q ∈ h.routing.bindings → ownBinding q ∈ h'.routing.bindings
  created : ∀ q ∈ h'.queues.queues, q ∈ h.queues.queues ∨ isDlq q = true ∨
    ownBinding q ∈ h'.routing.bindings

theorem Rebinds.refl (h : Handler) : Rebinds h h :=
  ⟨rfl, fun _ member _ => .inl member, fun _ bound => bound, fun _ there => .inl there⟩

theorem Rebinds.trans (first : Rebinds h h') (second : Rebinds h' h'') : Rebinds h h'' := by
  refine ⟨second.exchange.trans first.exchange, fun b member here => ?_,
    fun q bound => second.kept q (first.kept q bound), fun q there => ?_⟩
  · rcases second.own b member here with before | fits
    · exact first.own b before here
    · exact .inr fits
  · rcases second.created q there with before | dlq | bound
    · rcases first.created q before with earlier | dlq | bound
      · exact .inl earlier
      · exact .inr (.inl dlq)
      · exact .inr (.inr (second.kept q bound))
    · exact .inr (.inl dlq)
    · exact .inr (.inr bound)

/-- The tables of the routing engine are the same, and only queues for dead
letters are new. -/
theorem Rebinds.of_seats (exchanges : h'.routing.exchanges = h.routing.exchanges)
    (bindings : h'.routing.bindings = h.routing.bindings)
    (seats : Seats DeadLetters h.queues h'.queues) : Rebinds h h' := by
  refine ⟨by rw [exchanges], fun b member _ => .inl (bindings ▸ member), fun q bound => bindings ▸ bound,
    fun q there => ?_⟩
  by_cases before : q ∈ h.queues.queues
  · exact .inl before
  · exact .inr (.inl (seats.created before there))

theorem Quiet.rebinds (quiet : Quiet h h') : Rebinds h h' :=
  .of_seats quiet.exchanges quiet.bindings quiet.seats

theorem Rebinds.direct (rebinds : Rebinds h h') (direct : Direct h) : Direct h' := by
  refine ⟨by rw [rebinds.exchange]; exact direct.exchange, fun b member here => ?_⟩
  rcases rebinds.own b member here with before | fits
  · exact direct.own b before here
  · exact fits

theorem Rebinds.allPublishable (rebinds : Rebinds h h') (direct : Direct h)
    (all : AllPublishable h) : AllPublishable h' := by
  rw [direct.allPublishable_iff] at all
  rw [(rebinds.direct direct).allPublishable_iff]
  intro q there plain
  rcases rebinds.created q there with before | dlq | bound
  · exact rebinds.kept q (all q before plain)
  · rw [plain] at dlq
    cases dlq
  · exact bound

/-- A queue that is declared is bound under its own name. -/
theorem declared_rebinds {args : QueueArgs} (there : defaultExchange ∈ r.exchanges) :
    Rebinds { h with routing := r } { h with
      routing := { r with queues := r.queues.declareQueue name args }.onQueueDeclared name } := by
  have known : name ∈ (r.queues.declareQueue name args).queues := declareQueue_mem
  have seats : Seats (fun q => q = name ∨ q = dlqName name) r.queues
      (r.queues.declareQueue name args) := declareQueue_seats
  unfold RoutingEngine.onQueueDeclared RoutingEngine.bind
  rw [if_pos ⟨there, known⟩]
  refine ⟨rfl, fun b member _ => ?_, fun q bound => List.mem_insert_of_mem bound, fun q created => ?_⟩
  · rcases List.mem_insert_iff.mp member with rfl | before
    · exact .inr rfl
    · exact .inl before
  · by_cases before : q ∈ r.queues.queues
    · exact .inl before
    · have declared : q ∈ (r.queues.declareQueue name args).queues := by
        simpa [RoutingEngine.append, Handler.queues] using created
      rcases seats.created before declared with rfl | rfl
      · exact .inr (.inr List.mem_insert_self)
      · exact .inr (.inl (isDlq_dlqName name))

/-- The four commands that change exchanges and bindings leave the queues. -/
theorem rerouted_rebinds (exchange : r.exchanges.get? defaultExchange =
      h.routing.exchanges.get? defaultExchange)
    (own : ∀ b, b.exchange = defaultExchange → (b ∈ r.bindings ↔ b ∈ h.routing.bindings))
    (seats : Seats DeadLetters h.queues r.queues) : Rebinds h { h with routing := r } := by
  refine ⟨exchange, fun b member here => .inl ((own b here).mp member),
    fun q bound => (own _ rfl).mpr bound, fun q there => ?_⟩
  by_cases before : q ∈ h.queues.queues
  · exact .inl before
  · exact .inr (.inl (seats.created before there))

theorem declareExchange_rebinds {type : ExchangeType}
    (there : defaultExchange ∈ h.routing.exchanges) :
    Rebinds h { h with routing := h.routing.declareExchange name type } := by
  have seats := (routing_seats h.routing).1 name type true
  refine rerouted_rebinds ?_ ?_ seats
  · unfold RoutingEngine.declareExchange
    split
    · rfl
    · rename_i unknown
      refine Dict.get?_set_ne ?_
      rintro rfl
      exact unknown there
  · unfold RoutingEngine.declareExchange
    split <;> exact fun _ _ => Iff.rfl

theorem deleteExchange_rebinds :
    Rebinds h { h with routing := (h.routing.deleteExchange name).2 } := by
  have seats := (routing_seats h.routing).2.1 name
  refine rerouted_rebinds ?_ ?_ seats
  · unfold RoutingEngine.deleteExchange
    split
    · rfl
    · rename_i other
      split
      · exact Dict.get?_erase_ne (Ne.symm other)
      · rfl
  · intro b here
    unfold RoutingEngine.deleteExchange
    split
    · rfl
    · rename_i other
      split
      · change b ∈ h.routing.bindings.filter (·.exchange ≠ name) ↔ _
        rw [List.mem_filter, and_iff_left]
        simpa [here] using Ne.symm other
      · rfl

theorem bind_rebinds {exchange routingKey : String} (other : exchange ≠ defaultExchange) :
    Rebinds h { h with routing := (h.routing.bind exchange queue routingKey).2 } := by
  have seats := (routing_seats h.routing).2.2.1 exchange queue routingKey
  refine rerouted_rebinds ?_ ?_ seats
  · unfold RoutingEngine.bind
    split <;> rfl
  · intro b here
    unfold RoutingEngine.bind
    split
    · change b ∈ h.routing.bindings.insert _ ↔ _
      rw [List.mem_insert_iff, or_iff_right]
      rintro rfl
      exact other here
    · rfl

theorem unbind_rebinds {exchange routingKey : String} (other : exchange ≠ defaultExchange) :
    Rebinds h { h with routing := (h.routing.unbind exchange queue routingKey).2 } := by
  have seats := (routing_seats h.routing).2.2.2 exchange queue routingKey
  refine rerouted_rebinds ?_ ?_ seats
  · unfold RoutingEngine.unbind
    split <;> rfl
  · intro b here
    unfold RoutingEngine.unbind
    split
    · refine List.mem_erase_of_ne ?_
      rintro rfl
      exact other here
    · rfl

theorem ensureQueue_rebinds (there : defaultExchange ∈ h.routing.exchanges) :
    Rebinds h (h.ensureQueue name) := by
  unfold ensureQueue
  split
  · exact .refl h
  · exact declared_rebinds there

theorem Rebinds.default (rebinds : Rebinds h h') (there : defaultExchange ∈ h.routing.exchanges) :
    defaultExchange ∈ h'.routing.exchanges := by
  rw [← Dict.isSome_get?, rebinds.exchange, Dict.isSome_get?]
  exact there

theorem ensureQueues_rebinds (names : List String) (there : defaultExchange ∈ h.routing.exchanges) :
    Rebinds h (names.foldl ensureQueue h) := by
  induction names generalizing h with
  | nil => exact .refl h
  | cons name rest ih =>
    have first : Rebinds h (h.ensureQueue name) := ensureQueue_rebinds there
    exact first.trans (ih (first.default there))

theorem ensureQueue_known (name : String) (h : Handler) : name ∈ (h.ensureQueue name).queues.queues := by
  unfold ensureQueue
  split
  · assumption
  · have bound := (routing_seats { h.routing with queues := h.queues.declareQueue name {} }).2.2.1
      defaultExchange name name
    exact bound.stays declareQueue_mem

theorem ensureQueues_known (names : List String) (h : Handler) :
    ∀ name ∈ names, name ∈ (names.foldl ensureQueue h).queues.queues := by
  induction names generalizing h with
  | nil => exact fun _ member => nomatch member
  | cons name rest ih =>
    refine List.forall_mem_cons.mpr ⟨?_, ih (h.ensureQueue name)⟩
    exact (ensureQueues_still rest).stays name (ensureQueue_known name h)

theorem ensured_rebinds {args : PublishArgs} (there : defaultExchange ∈ h.routing.exchanges) :
    Rebinds h { h with routing := (h.routing.ensureQueue args true).1 } := by
  unfold RoutingEngine.ensureQueue
  split
  · exact .refl h
  · dsimp only
    split
    · split
      · exact .refl h
      · exact declared_rebinds there
    · exact .refl h

theorem cancelled_tables (id : String) (h : Handler) :
    (h.cancelled id).routing.exchanges = h.routing.exchanges ∧
    (h.cancelled id).routing.bindings = h.routing.bindings := ⟨rfl, rfl⟩

/-- A consumer that leaves takes no queue with it, and the queues that come
with its messages are for dead letters. -/
theorem cancelled_queues (named : h.queues.Named) :
    (∀ q ∈ h.queues.queues, q ∈ (h.cancelled id).queues.queues) ∧
    ∀ q ∈ (h.cancelled id).queues.queues, q ∈ h.queues.queues ∨ DeadLetters q := by
  cases found : h.consumers.consumers.get? id with
  | none =>
    rw [cancelled_unknown found]
    exact ⟨fun _ there => there, fun _ there => .inl there⟩
  | some consumer =>
    have left := leaves_alike id consumer.queues h.queues
    have seats : Seats DeadLetters (consumer.queues.foldl (leave id) h.queues)
        ((consumer.queues.foldl (leave id) h.queues).recoverConsumer id).2 :=
      (recoverConsumer_keeps (left.named named)).seats
    have same : ∀ q, q ∈ (consumer.queues.foldl (leave id) h.queues).queues ↔ q ∈ h.queues.queues := by
      intro q
      rw [← Dict.mem_keys, left.keys, Dict.mem_keys]
    rw [cancelled_eq found]
    refine ⟨fun q there => seats.stays ((same q).mpr there), fun q there => ?_⟩
    by_cases before : q ∈ h.queues.queues
    · exact .inl before
    · exact .inr (seats.created (fun stood => before ((same q).mp stood)) there)

/-- A consumer that leaves its queues may leave its messages to dead letters. -/
theorem cancelled_rebinds (named : h.queues.Named) : Rebinds h (h.cancelled id) := by
  obtain ⟨exchanges, bindings⟩ := cancelled_tables id h
  refine ⟨by rw [exchanges], fun _ member _ => .inl (bindings ▸ member), fun _ bound => bindings ▸ bound,
    fun q there => ?_⟩
  rcases (cancelled_queues named).2 q there with before | dlq
  · exact .inl before
  · exact .inr (.inl dlq)

theorem cancelAll_rebinds (ids : List String) (named : h.queues.Named) :
    Rebinds h (withQueues { h with consumers := (cancelAll ids h.consumers h.queues).2.1 }
      (cancelAll ids h.consumers h.queues).2.2) :=
  (cancelAll_keeps (I := fun h' => Rebinds h h' ∧ h'.queues.Named)
    (fun _ _ ⟨rebinds, named⟩ => ⟨rebinds.trans (cancelled_rebinds named), cancel_named named⟩)
    ids ⟨.refl h, named⟩).1

/-! ## Events -/

theorem cmdConsume_rebinds {consumerId tag : String} {prefetch : Option Int} {uuid : Uuid}
    (there : defaultExchange ∈ h.routing.exchanges) :
    Rebinds h (h.cmdConsume connectionId names queue consumerId prefetch tag uuid).2 := by
  unfold cmdConsume
  dsimp only
  split
  · exact .refl h
  · have issued : Rebinds h { h with
        consumed := (consumeQueues names queue).map (connectionId, ·) ++ h.consumed } := by
      apply Quiet.rebinds
      exact .of_eq rfl rfl
    have ready := issued.trans (ensureQueues_rebinds (consumeQueues names queue) (issued.default there))
    have known := ensureQueues_known (consumeQueues names queue) { h with
      consumed := (consumeQueues names queue).map (connectionId, ·) ++ h.consumed }
    generalize (consumeQueues names queue).foldl ensureQueue _ = h' at ready known ⊢
    have joined : Rebinds h' (h'.register (if consumerId = "" then uuid.text else consumerId) connectionId
        (consumeQueues names queue) (prefetch.getD (orNumber (h'.prefetchOf connectionId) 1)) tag) := by
      refine ⟨rfl, fun _ member _ => .inl member, fun _ bound => bound, fun q created => .inl ?_⟩
      rw [← Dict.mem_keys, ← joins_known known, Dict.mem_keys]
      exact created
    exact (ready.trans joined).trans pumpAll_quiet.rebinds

theorem cmdDeleteQueue_rebinds : Rebinds h (h.cmdDeleteQueue name).2 := by
  have deleted : Rebinds h (h.withQueues (h.queues.deleteQueue name).2) := by
    refine ⟨rfl, fun _ member _ => .inl member, fun _ bound => bound, fun q there => .inl ?_⟩
    by_contra absent
    rcases deleteQueue_rota h.queues name q true with gone | same
    · exact rota?_none.mp gone there
    · rw [rota?_none.mpr absent] at same
      exact rota?_none.mp same there
  unfold cmdDeleteQueue
  split <;> rename_i shape <;> rw [shape] at deleted <;> exact deleted

/-- All events but the registration of a GET. -/
theorem step_rebinds {event : Event} (named : h.queues.Named)
    (there : defaultExchange ∈ h.routing.exchanges) (leaves : LeavesDefault event)
    (idle : ∀ connectionId queue consumerId prefetch,
      event = .command connectionId (.get queue consumerId prefetch) → h.registration event = none) :
    Rebinds h (h.step event) := by
  cases event with
  | command connectionId command =>
    cases command with
    | declareExchange name type =>
      change Rebinds h (h.cmdDeclareExchange name type).2
      unfold cmdDeclareExchange
      dsimp only
      split
      · exact declareExchange_rebinds there
      · split <;> exact .refl h
    | deleteExchange name =>
      have deleted : Rebinds h { h with routing := (h.routing.deleteExchange name).2 } :=
        deleteExchange_rebinds
      change Rebinds h (h.cmdDeleteExchange name).2
      unfold cmdDeleteExchange
      split <;> rename_i shape <;> rw [shape] at deleted <;> exact deleted
    | declareQueue name maxLength visibilityTimeout maxAttempts =>
      change Rebinds h (h.cmdDeclareQueue name maxLength visibilityTimeout maxAttempts).2
      unfold cmdDeclareQueue
      split
      · exact .refl h
      · exact declared_rebinds there
    | deleteQueue name => exact cmdDeleteQueue_rebinds
    | bind exchange queue routingKey =>
      have bound : Rebinds h { h with routing := (h.routing.bind exchange queue routingKey).2 } :=
        bind_rebinds leaves
      change Rebinds h (h.cmdBind exchange queue routingKey).2
      unfold cmdBind
      split <;> rename_i shape <;> rw [shape] at bound <;> exact bound
    | unbind exchange queue routingKey =>
      have unbound : Rebinds h { h with routing := (h.routing.unbind exchange queue routingKey).2 } :=
        unbind_rebinds leaves
      change Rebinds h (h.cmdUnbind exchange queue routingKey).2
      unfold cmdUnbind
      split <;> rename_i shape <;> rw [shape] at unbound <;> exact unbound
    | publish args stamp => exact (ensured_rebinds there).trans cmdPublish_quiet.rebinds
    | get queue consumerId prefetch =>
      have nobody := idle connectionId queue consumerId prefetch rfl
      change Rebinds h (h.cmdGet connectionId queue consumerId prefetch).2
      by_cases unnamed : queue = ""
      · unfold cmdGet
        rw [if_pos unnamed]
        exact .refl h
      · have known : readerOf connectionId queue consumerId ∈ h.consumers.consumers := by
          by_contra unknown
          simp [registration, unnamed, unknown] at nobody
        exact ((getConsumer_known known).trans (cmdGet_quiet unnamed)).rebinds
    | consume queues queue consumerId prefetch tag uuid => exact cmdConsume_rebinds there
    | cancel consumerId =>
      have done : Rebinds h (h.cancelled consumerId) := cancelled_rebinds named
      unfold cancelled at done
      change Rebinds h (h.cmdCancel consumerId).2
      unfold cmdCancel
      split
      · exact .refl h
      · dsimp only
        split <;> exact done
    | ack messageId => exact cmdAck_quiet.rebinds
    | nack messageId requeue => exact cmdNack_quiet.rebinds
    | qos prefetch consumerId => exact cmdQos_quiet.rebinds
    | subscribe channel => exact cmdSubscribe_quiet.rebinds
    | unsubscribe channel => exact Quiet.rebinds (.of_eq rfl rfl)
    | publishChannel channel => exact cmdPublishChannel_quiet.rebinds
    | dlqRequeue queue messageId => exact cmdDlqRequeue_quiet.rebinds
  | ticker => exact ticker_quiet.rebinds
  | connect connectionId => exact Quiet.rebinds (.of_eq rfl rfl)
  | drop connectionId order =>
    refine (cancelAll_rebinds (if order.Perm (h.consumers.listed connectionId) then order
      else h.consumers.listed connectionId) named).trans (Quiet.rebinds ?_)
    exact .of_eq rfl rfl

/-- The registration of a GET declares a queue and binds nothing. -/
theorem reader_declares {consumerId : String} {prefetch : Option Int}
    (registers : h.registration (.command connectionId (.get queue consumerId prefetch)) ≠ none) :
    (h.step (.command connectionId (.get queue consumerId prefetch))).routing.exchanges =
      h.routing.exchanges ∧
    (h.step (.command connectionId (.get queue consumerId prefetch))).routing.bindings =
      h.routing.bindings ∧
    queue ∈ (h.step (.command connectionId (.get queue consumerId prefetch))).queues.queues ∧
    ∀ q ∈ (h.step (.command connectionId (.get queue consumerId prefetch))).queues.queues,
      q ∈ h.queues.queues ∨ q = queue ∨ isDlq q = true := by
  obtain ⟨named, unknown⟩ : queue ≠ "" ∧
      readerOf connectionId queue consumerId ∉ h.consumers.consumers := by
    by_contra known
    apply registers
    simp only [registration]
    rw [if_pos (by tauto)]
  change (h.cmdGet connectionId queue consumerId prefetch).2.routing.exchanges = _ ∧
    (h.cmdGet connectionId queue consumerId prefetch).2.routing.bindings = _ ∧
    queue ∈ (h.cmdGet connectionId queue consumerId prefetch).2.queues.queues ∧
    ∀ q ∈ (h.cmdGet connectionId queue consumerId prefetch).2.queues.queues, _
  have quiet : Quiet (h.getConsumer connectionId queue (readerOf connectionId queue consumerId)
      (prefetch.getD (h.prefetchOf connectionId))) (h.cmdGet connectionId queue consumerId prefetch).2 :=
    cmdGet_quiet named
  unfold getConsumer at quiet
  rw [if_neg unknown] at quiet
  generalize h.cmdGet connectionId queue consumerId prefetch = outcome at quiet ⊢
  have joined (q : String) : q ∈ (h.register (readerOf connectionId queue consumerId) connectionId
      [queue] (prefetch.getD (h.prefetchOf connectionId))).queues.queues ↔
      q ∈ (h.queues.declareQueue queue {}).queues := by
    rw [← Dict.mem_keys, ← Dict.mem_keys]
    exact Iff.of_eq (congrArg (q ∈ ·) join_keys)
  refine ⟨quiet.exchanges, quiet.bindings, quiet.seats.stays ((joined queue).mpr declareQueue_mem),
    fun q there => ?_⟩
  by_cases registered : q ∈ (h.register (readerOf connectionId queue consumerId) connectionId
      [queue] (prefetch.getD (h.prefetchOf connectionId))).queues.queues
  · by_cases before : q ∈ h.queues.queues
    · exact .inl before
    · rcases declareQueue_seats.created before ((joined q).mp registered) with rfl | rfl
      · exact .inr (.inl rfl)
      · exact .inr (.inr (isDlq_dlqName queue))
  · exact .inr (.inr (quiet.seats.created registered there))

/-- A step keeps all queues publishable exactly if no GET registers for a queue
that is new and not bound. -/
theorem step_publishable_iff {event : Event} (named : h.queues.Named) (direct : Direct h)
    (leaves : LeavesDefault event) :
    Direct (h.step event) ∧ (AllPublishable h →
      (AllPublishable (h.step event) ↔ ReadsBound h event)) := by
  obtain ⟨ex, found, _⟩ := direct.exchange
  have there : defaultExchange ∈ h.routing.exchanges := Dict.mem_of_get? found
  by_cases reads : ∃ connectionId queue consumerId prefetch,
      event = .command connectionId (.get queue consumerId prefetch) ∧ h.registration event ≠ none
  · obtain ⟨connectionId, queue, consumerId, prefetch, rfl, registers⟩ := reads
    obtain ⟨exchanges, bindings, known, created⟩ := reader_declares registers
    have direct' : Direct (h.step (.command connectionId (.get queue consumerId prefetch))) :=
      ⟨by rw [exchanges]; exact direct.exchange, by rw [bindings]; exact direct.own⟩
    refine ⟨direct', fun all => ?_⟩
    rw [direct.allPublishable_iff] at all
    rw [direct'.allPublishable_iff, bindings]
    constructor
    · intro all' _
      cases plain : isDlq queue with
      | false => exact .inr (.inr (all' queue known plain))
      | true => exact .inr (.inl rfl)
    · intro fits q there plain
      rcases created q there with before | rfl | dlq
      · exact all q before plain
      · rcases fits registers with before | dlq | bound
        · exact all q before plain
        · rw [plain] at dlq
          cases dlq
        · exact bound
      · rw [plain] at dlq
        cases dlq
  · have idle : ∀ connectionId queue consumerId prefetch,
        event = .command connectionId (.get queue consumerId prefetch) → h.registration event = none := by
      intro connectionId queue consumerId prefetch same
      by_contra registers
      exact reads ⟨connectionId, queue, consumerId, prefetch, same, registers⟩
    have rebinds := step_rebinds named there leaves idle
    refine ⟨rebinds.direct direct, fun all => iff_of_true (rebinds.allPublishable direct all) ?_⟩
    unfold ReadsBound
    split
    · rename_i connectionId queue consumerId prefetch
      exact fun registers => absurd (idle connectionId queue consumerId prefetch rfl) registers
    · trivial

/-- **Every existing queue is publishable.** In a run in which clients leave the
default exchange alone, every queue that exists can be published to by its name
in every state exactly if no GET registers for a queue that is new and not bound. -/
theorem publishable_iff (config : EngineConfig) (clock : Nat → ℚ) (sends : Nat → Bool)
    {events : List Event} (leaves : ∀ event ∈ events, LeavesDefault event) :
    (∀ before, before <+: events → AllPublishable (run step (created config clock sends) before)) ↔
      Allowed step ReadsBound (created config clock sends) events := by
  refine always_iff (J := fun h => Ordered h ∧ Direct h) (I := AllPublishable) (A := LeavesDefault)
    ?_ ?_ ?_ ⟨(Reachable.start config clock sends).ordered, ⟨_, rfl, rfl⟩, ?_⟩ leaves
  · rintro h event leaves ⟨ordered, direct⟩
    exact ⟨ordered_kept.step ordered (Guards.event_free h event),
      (step_publishable_iff ordered.named direct leaves).1⟩
  · rintro h event leaves ⟨ordered, direct⟩ all
    exact (step_publishable_iff ordered.named direct leaves).2 all
  · exact fun _ there => absurd there Dict.not_mem_empty
  · exact fun _ member => nomatch member

/-- A queue is declared before it is read. -/
def declaredFirst : List Event :=
  [.command "c1" (.declareQueue "jobs" none none none), .command "c1" (.get "jobs" "" none)]

theorem publishable_iff_declared :
    AllPublishable (run step (created {} (fun _ => 0) fun _ => true) declaredFirst) := by
  have leaves : ∀ event ∈ declaredFirst, LeavesDefault event := by
    intro event member
    rcases List.mem_pair.mp member with rfl | rfl <;> trivial
  have bound : Allowed step ReadsBound (created {} (fun _ => 0) fun _ => true) declaredFirst :=
    ⟨trivial, fun _ => .inl (by decide +kernel), trivial⟩
  exact (publishable_iff {} (fun _ => 0) (fun _ => true) leaves).mpr bound declaredFirst List.prefix_rfl

/-- A queue that a GET has declared exists and routes nothing. -/
theorem polled_not_bound :
    "jobs" ∈ (run step (created {} (fun _ => 0) fun _ => true)
      [.command "c1" (.get "jobs" "" none)]).queues.queues ∧
    ((run step (created {} (fun _ => 0) fun _ => true)
      [.command "c1" (.get "jobs" "" none)]).routing.publish { payload := [1], queue := some "jobs" }
        fun _ => ⟨"u1", 0⟩).1 = ("", [], .notFound) ∧
    ¬ AllPublishable (run step (created {} (fun _ => 0) fun _ => true)
      [.command "c1" (.get "jobs" "" none)]) := by
  have known : "jobs" ∈ (run step (created {} (fun _ => 0) fun _ => true)
    [.command "c1" (.get "jobs" "" none)]).queues.queues := by decide +kernel
  refine ⟨known, by decide +kernel, fun all => ?_⟩
  have routes := (all "jobs" known (by decide +kernel) { payload := [1], queue := some "jobs" }
    (fun _ => ⟨"u1", 0⟩) rfl rfl rfl).1
  revert routes
  decide +kernel

end OneOpenBroker.Broker.Handler

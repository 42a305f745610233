import OneOpenBroker.Broker.Quiet

/-! Which queues an event brings into being. It declares the queues that it
names, each with a queue for its dead letters. An event that may fail deliveries
brings back, besides, the queues for the dead letters of queues that are there.
Both are read off the event and the state before it. -/
namespace OneOpenBroker.Broker

/-- The command may fail a delivery: it settles or hands over messages, or
recovers what a consumer had out. -/
def Command.fails : Command → Bool
  | .publish .. | .consume .. | .cancel _ | .ack _ | .nack .. | .dlqRequeue .. => true
  | _ => false

def Event.fails : Event → Bool
  | .command _ made => made.fails
  | .ticker | .drop .. => true
  | .connect _ => false

namespace Handler
open Collections OneOpenBroker.Core QueueEngine ConsumerManager

/-- The connection, the id and the queues of the consumer that an event
registers. -/
def registration (h : Handler) : Event → Option (String × String × List String)
  | .command connectionId (.get queue consumerId _) =>
    let id := readerOf connectionId queue consumerId
    if queue = "" ∨ id ∈ h.consumers.consumers then none else some (connectionId, id, [queue])
  | .command connectionId (.consume queues queue consumerId _ _ uuid) =>
    let names := consumeQueues queues queue
    if names = [] then none
    else some (connectionId, if consumerId = "" then uuid.text else consumerId, names)
  | _ => none

/-- The names that an event declares where no queue has them. -/
def declares (h : Handler) : Event → List String
  | .command _ (.declareQueue name _ _ _) => if name = "" then [] else [name]
  | .command _ (.publish args _) =>
    if orText args.exchange "" = "" ∧ args.queue ≠ some "" then args.queue.toList else []
  | event => ((h.registration event).map (·.2.2)).getD []

/-- The event declares the queue, or the one whose dead letters it keeps. -/
def Declares (h : Handler) (event : Event) (q : String) : Prop :=
  ∃ name ∈ h.declares event, name ∉ h.queues.queues ∧ (q = name ∨ q = dlqName name)

/-- The queues that an event may bring into being. -/
def Opens (h : Handler) (event : Event) (q : String) : Prop :=
  h.Declares event q ∨ event.fails = true ∧ h.queues.Buries q

/-- No queue goes, and those that are new are some that may be. -/
structure Grows (may : String → Prop) (e e' : QueueEngine) : Prop where
  spawns : Spawns may e e'
  stays : ∀ q ∈ e.queues, q ∈ e'.queues

variable {h h' : Handler} {event : Event} {connectionId id name q : String} {names : List String}
  {may may' : String → Prop} {e e' e'' : QueueEngine} {args : QueueArgs}

theorem Grows.refl (may : String → Prop) (e : QueueEngine) : Grows may e e :=
  ⟨.refl may e, fun _ there => there⟩

theorem Grows.trans (first : Grows may e e') (second : Grows may e' e'') : Grows may e e'' :=
  ⟨first.spawns.trans second.spawns, fun q there => second.stays q (first.stays q there)⟩

theorem Grows.of_queues (same : e'.queues = e.queues) : Grows may e e' :=
  ⟨.of_queues same, fun _ there => same ▸ there⟩

theorem Grows.of_alike (alike : Alike e e') : Grows may e e' := by
  refine ⟨.of_specs alike.specs, fun q there => ?_⟩
  rwa [← Dict.mem_keys, alike.keys, Dict.mem_keys]

/-- What is quiet after something was declared only brings back queues for the
dead letters of what was there before. -/
theorem Grows.then_quiet (first : Grows may h.queues h'.queues) {h'' : Handler} (quiet : Quiet h' h'') :
    Spawns (fun q => may q ∨ h.queues.Buries q) h.queues h''.queues :=
  (first.spawns.mono fun _ => .inl).trans
    (quiet.unasked.mono fun _ buries => first.spawns.buries buries)

/-! ## Declaring -/

theorem declareQueue_grows (fits : name ∉ e.queues → may name ∧ may (dlqName name)) :
    Grows may e (e.declareQueue name args) :=
  ⟨declareQueue_spawns fits, fun _ there => declareQueue_seats.stays there⟩

theorem routing_grows (may : String → Prop) (r : RoutingEngine) :
    (∀ name type durable, Grows may r.queues (r.declareExchange name type durable).queues) ∧
    (∀ name, Grows may r.queues (r.deleteExchange name).2.queues) ∧
    (∀ exchange queue routingKey, Grows may r.queues (r.bind exchange queue routingKey).2.queues) ∧
    ∀ exchange queue routingKey, Grows may r.queues (r.unbind exchange queue routingKey).2.queues :=
  Persistence.routing_preserves (I := Grows may r.queues)
    (fun _ _ _ grows => grows.trans (.of_queues append_queues)) (.refl may r.queues)

theorem declared_grows {r : RoutingEngine}
    (fits : name ∉ r.queues.queues → may name ∧ may (dlqName name)) : Grows may r.queues
      ({ r with queues := r.queues.declareQueue name args }.onQueueDeclared name).queues :=
  (declareQueue_grows fits).trans
    ((routing_grows may { r with queues := r.queues.declareQueue name args }).2.2.1 _ _ _)

theorem ensureQueue_grows (fits : name ∉ h.queues.queues → may name ∧ may (dlqName name)) :
    Grows may h.queues (h.ensureQueue name).queues := by
  unfold ensureQueue
  split
  · exact .refl may h.queues
  · exact declared_grows fits

theorem ensureQueues_grows
    (fits : ∀ name ∈ names, name ∉ h.queues.queues → may name ∧ may (dlqName name)) :
    Grows may h.queues (names.foldl ensureQueue h).queues := by
  induction names generalizing h with
  | nil => exact .refl may h.queues
  | cons name rest ih =>
    obtain ⟨here, there⟩ := List.forall_mem_cons.mp fits
    have first := ensureQueue_grows here
    refine first.trans (ih fun other member absent => there other member fun known => ?_)
    exact absent (first.stays other known)

theorem joins_grows (fits : ∀ name ∈ names, name ∉ e.queues → may name ∧ may (dlqName name)) :
    Grows may e (names.foldl (join id) e) := by
  induction names generalizing e with
  | nil => exact .refl may e
  | cons name rest ih =>
    obtain ⟨here, there⟩ := List.forall_mem_cons.mp fits
    have first : Grows may e (join id e name) := (declareQueue_grows here).trans (.of_alike join_alike)
    refine first.trans (ih fun other member absent => there other member fun known => ?_)
    exact absent (first.stays other known)

theorem register_grows {prefetch : Int} {tag : String}
    (fits : ∀ name ∈ names, name ∉ h.queues.queues → may name ∧ may (dlqName name)) :
    Grows may h.queues (h.register id connectionId names prefetch tag).queues :=
  joins_grows fits

theorem register_stays {prefetch : Int} {tag : String} (there : q ∈ h.queues.queues) :
    q ∈ (h.register id connectionId names prefetch tag).queues.queues := by
  have grows : Grows (fun _ => True) h.queues (h.register id connectionId names prefetch tag).queues :=
    register_grows fun _ _ _ => ⟨trivial, trivial⟩
  exact grows.stays q there

theorem publishing_grows {args : PublishArgs} {connectionId : String} {stamp : String → Stamp} :
    Grows (h.Declares (.command connectionId (.publish args stamp))) h.queues
      (h.routing.ensureQueue args true).1.queues := by
  unfold RoutingEngine.ensureQueue
  split
  · exact .refl _ h.queues
  · rename_i name named
    dsimp only
    split
    · rename_i byName
      split
      · exact .refl _ h.queues
      · have asked : name ∈ h.declares (.command connectionId (.publish args stamp)) := by
          simp [declares, named, byName.1, byName.2]
        exact declared_grows fun absent => ⟨⟨name, asked, absent, .inl rfl⟩, name, asked, absent, .inr rfl⟩
    · exact .refl _ h.queues

/-! ## Cancelling -/

theorem cancelled_unasked (named : h.queues.Named) :
    Unasked h.queues (h.cancelled id).queues ∧ (h.cancelled id).queues.Named := by
  refine ⟨?_, cancel_named named⟩
  change Unasked h.queues (h.consumers.cancel h.queues id).2.2
  rcases cancel_cases h.consumers h.queues id with ⟨_, shape⟩ | ⟨_, e', _, alike, shape⟩
  · rw [shape]
    exact .refl h.queues
  · rw [shape]
    exact Unasked.trans (.of_specs alike.specs) (recoverConsumer_unasked (alike.named named))

theorem cancelAll_unasked (ids : List String) (named : h.queues.Named) :
    Unasked h.queues (cancelAll ids h.consumers h.queues).2.2 := by
  have kept := cancelAll_keeps (I := fun h' => Unasked h.queues h'.queues ∧ h'.queues.Named)
    (fun h' id inv => ⟨inv.1.trans (cancelled_unasked inv.2).1, (cancelled_unasked inv.2).2⟩)
    ids ⟨.refl h.queues, named⟩
  exact kept.1

/-! ## Events -/

/-- What a command that fails deliveries does once it has declared its queues. -/
theorem opens_of_quiet (fails : event.fails = true)
    (first : Grows (h.Declares event) h.queues h'.queues) {h'' : Handler} (quiet : Quiet h' h'') :
    Spawns (h.Opens event) h.queues h''.queues :=
  (first.then_quiet quiet).mono fun _ => Or.imp_right fun buries => ⟨fails, buries⟩

theorem opens_of_unasked (fails : event.fails = true) (unasked : Unasked h.queues e') :
    Spawns (h.Opens event) h.queues e' :=
  unasked.mono fun _ buries => .inr ⟨fails, buries⟩

/-- A consumer that a GET registers declares its queue. -/
theorem getConsumer_opens {queue consumerId : String} {prefetch : Option Int} (named : queue ≠ "") :
    Grows (h.Declares (.command connectionId (.get queue consumerId prefetch))) h.queues
      (h.getConsumer connectionId queue (readerOf connectionId queue consumerId)
        (prefetch.getD (h.prefetchOf connectionId))).queues := by
  unfold getConsumer
  split
  · split <;> exact .refl _ h.queues
  · rename_i unknown
    apply register_grows
    intro name member absent
    have asked : name ∈ h.declares (.command connectionId (.get queue consumerId prefetch)) := by
      simpa [declares, registration, named, unknown] using member
    exact ⟨⟨name, asked, absent, .inl rfl⟩, name, asked, absent, .inr rfl⟩

theorem cmdGet_opens {queue consumerId : String} {prefetch : Option Int} :
    Spawns (h.Declares (.command connectionId (.get queue consumerId prefetch))) h.queues
      (h.cmdGet connectionId queue consumerId prefetch).2.queues := by
  by_cases named : queue = ""
  · unfold cmdGet
    rw [if_pos named]
    exact .refl _ h.queues
  · have ready : Spawns (h.Declares (.command connectionId (.get queue consumerId prefetch))) h.queues
        (h.getConsumer connectionId queue (readerOf connectionId queue consumerId)
          (prefetch.getD (h.prefetchOf connectionId))).queues := (getConsumer_opens named).spawns
    unfold readerOf at ready
    unfold cmdGet
    rw [if_neg named]
    dsimp only
    generalize h.getConsumer connectionId queue (if consumerId = "" then getConsumerId connectionId queue
      else consumerId) (prefetch.getD (h.prefetchOf connectionId)) = h' at ready ⊢
    rcases tryReserve_cases h'.consumers h'.queues queue with ⟨e', nothing, alike⟩ |
      ⟨id', consumer, m, message, e', takes⟩
    · rw [tryReserve_none nothing]
      exact ready.trans (.of_specs alike.specs)
    · rw [tryReserve_some takes]
      exact ready.trans (.of_specs takes.specs)

theorem handle_opens (named : h.queues.Named) (command : Command) :
    Spawns (h.Opens (.command connectionId command)) h.queues
      (h.handle connectionId command).2.queues := by
  have same {h' : Handler} (same : h'.queues = h.queues) :
      Spawns (h.Opens (.command connectionId command)) h.queues h'.queues := by
    rw [same]
    exact .refl _ h.queues
  obtain ⟨declare, delete, bind, unbind⟩ :=
    routing_grows (h.Opens (.command connectionId command)) h.routing
  cases command with
  | declareExchange name type =>
    change Spawns _ h.queues (h.cmdDeclareExchange name type).2.queues
    unfold cmdDeclareExchange
    dsimp only
    split
    · exact (declare _ _ _).spawns
    · split <;> exact same rfl
  | deleteExchange name =>
    have deleted := (delete name).spawns
    change Spawns _ h.queues (h.cmdDeleteExchange name).2.queues
    unfold cmdDeleteExchange
    split <;> rename_i shape <;> rw [shape] at deleted <;> exact deleted
  | declareQueue name maxLength visibilityTimeout maxAttempts =>
    change Spawns _ h.queues (h.cmdDeclareQueue name maxLength visibilityTimeout maxAttempts).2.queues
    unfold cmdDeclareQueue
    split
    · exact same rfl
    · rename_i unnamed
      have asked : name ∈ h.declares (.command connectionId
          (.declareQueue name maxLength visibilityTimeout maxAttempts)) := by
        simp [declares, unnamed]
      exact (declared_grows (r := h.routing) fun absent =>
        ⟨.inl ⟨name, asked, absent, .inl rfl⟩, .inl ⟨name, asked, absent, .inr rfl⟩⟩).spawns
  | deleteQueue name =>
    have deleted : Spawns (h.Opens (.command connectionId (.deleteQueue name))) h.queues
        (h.queues.deleteQueue name).2 := deleteQueue_spawns
    change Spawns _ h.queues (h.cmdDeleteQueue name).2.queues
    unfold cmdDeleteQueue
    split <;> rename_i shape <;> rw [shape] at deleted <;> exact deleted
  | bind exchange queue routingKey =>
    have bound := (bind exchange queue routingKey).spawns
    change Spawns _ h.queues (h.cmdBind exchange queue routingKey).2.queues
    unfold cmdBind
    split <;> rename_i shape <;> rw [shape] at bound <;> exact bound
  | unbind exchange queue routingKey =>
    have unbound := (unbind exchange queue routingKey).spawns
    change Spawns _ h.queues (h.cmdUnbind exchange queue routingKey).2.queues
    unfold cmdUnbind
    split <;> rename_i shape <;> rw [shape] at unbound <;> exact unbound
  | publish args stamp => exact opens_of_quiet rfl publishing_grows cmdPublish_quiet
  | get queue consumerId prefetch => exact cmdGet_opens.mono fun _ => .inl
  | consume queues queue consumerId prefetch tag uuid =>
    change Spawns _ h.queues (h.cmdConsume connectionId queues queue consumerId prefetch tag uuid).2.queues
    unfold cmdConsume
    dsimp only
    split
    · exact same rfl
    · rename_i some
      have asked : ∀ name ∈ consumeQueues queues queue, name ∉ h.queues.queues →
          h.Declares (.command connectionId (.consume queues queue consumerId prefetch tag uuid)) name ∧
          h.Declares (.command connectionId (.consume queues queue consumerId prefetch tag uuid))
            (dlqName name) := by
        intro name member absent
        have asked : name ∈ h.declares
            (.command connectionId (.consume queues queue consumerId prefetch tag uuid)) := by
          simpa [declares, registration, some] using member
        exact ⟨⟨name, asked, absent, .inl rfl⟩, name, asked, absent, .inr rfl⟩
      have ensured := ensureQueues_grows
        (h := { h with consumed := (consumeQueues queues queue).map (connectionId, ·) ++ h.consumed }) asked
      exact opens_of_quiet rfl (ensured.trans (register_grows fun name member absent =>
        asked name member fun known => absent (ensured.stays name known))) pumpAll_quiet
  | cancel consumerId =>
    have cancelled : Spawns (h.Opens (.command connectionId (.cancel consumerId))) h.queues
        (h.cancelled consumerId).queues := opens_of_unasked rfl (cancelled_unasked named).1
    change Spawns _ h.queues (h.cmdCancel consumerId).2.queues
    unfold cmdCancel
    split
    · exact same rfl
    · dsimp only
      split <;> exact cancelled
  | ack messageId => exact opens_of_unasked rfl cmdAck_quiet.unasked
  | nack messageId requeue => exact opens_of_unasked rfl cmdNack_quiet.unasked
  | qos prefetch consumerId =>
    apply same
    change (h.cmdQos connectionId prefetch consumerId).2.queues = h.queues
    unfold cmdQos
    dsimp only
    split
    · split <;> rfl
    · rfl
  | subscribe channel =>
    apply same
    change (h.cmdSubscribe connectionId channel).2.queues = h.queues
    unfold cmdSubscribe
    split <;> rfl
  | unsubscribe channel => exact same rfl
  | publishChannel channel =>
    apply same
    change (h.cmdPublishChannel channel).2.queues = h.queues
    unfold cmdPublishChannel
    split
    · rfl
    · obtain ⟨sent, shape⟩ := sendAll_frame (h.pubsub.subscribers channel) h
      dsimp only
      rw [shape]
      rfl
  | dlqRequeue queue messageId => exact opens_of_unasked rfl cmdDlqRequeue_quiet.unasked

/-- A queue that an event brings into being is one that it opens. -/
theorem step_opens (named : h.queues.Named) (event : Event) :
    Spawns (h.Opens event) h.queues (h.step event).queues := by
  cases event with
  | command connectionId command => exact handle_opens named command
  | ticker => exact opens_of_unasked rfl ticker_quiet.unasked
  | connect connectionId => exact .refl _ h.queues
  | drop connectionId order => exact opens_of_unasked rfl (cancelAll_unasked _ named)

/-! ## What is declared is there -/

/-- A declaration comes with a queue for dead letters. -/
theorem declareQueue_opens (buries : args.deadLetter = true) (absent : name ∉ e.queues)
    (asked : q = name ∨ q = dlqName name) : q ∈ (e.declareQueue name args).queues := by
  by_contra missing
  rw [← spec?_none, declareQueue_spec? absent] at missing
  rcases asked with rfl | rfl
  · simp at missing
  · by_cases dlq : isDlq name = true
    · simp [dlqName, dlq] at missing
    · have plain : isDlq name = false := Bool.eq_false_iff.mpr dlq
      rw [if_neg (dlqName_ne plain)] at missing
      cases known : e.spec? (dlqName name) <;> simp [makeSpec, buries, plain, known] at missing

theorem declared_opens {r : RoutingEngine} (buries : args.deadLetter = true)
    (absent : name ∉ r.queues.queues) (asked : q = name ∨ q = dlqName name) :
    q ∈ ({ r with queues := r.queues.declareQueue name args }.onQueueDeclared name).queues.queues :=
  ((routing_grows (fun _ => False)
    { r with queues := r.queues.declareQueue name args }).2.2.1 _ _ _).stays q
      (declareQueue_opens buries absent asked)

theorem ensureQueue_opens (absent : name ∉ h.queues.queues) (asked : q = name ∨ q = dlqName name) :
    q ∈ (h.ensureQueue name).queues.queues := by
  unfold ensureQueue
  rw [if_neg absent]
  exact declared_opens (r := h.routing) rfl absent asked

theorem ensureQueues_opens (member : name ∈ names) (absent : name ∉ h.queues.queues)
    (asked : q = name ∨ q = dlqName name) : q ∈ (names.foldl ensureQueue h).queues.queues := by
  induction names generalizing h with
  | nil => simp at member
  | cons first rest ih =>
    have one : Grows (fun q => q = first ∨ q = dlqName first) h.queues (h.ensureQueue first).queues :=
      ensureQueue_grows fun _ => ⟨.inl rfl, .inr rfl⟩
    have others : Grows (fun _ => True) (h.ensureQueue first).queues
        (rest.foldl ensureQueue (h.ensureQueue first)).queues :=
      ensureQueues_grows fun _ _ _ => ⟨trivial, trivial⟩
    by_cases there : name ∈ (h.ensureQueue first).queues.queues
    · -- the name came into being with the first of the list
      apply others.stays
      have fresh : first ∉ h.queues.queues := by
        intro known
        unfold ensureQueue at there
        rw [if_pos known] at there
        exact absent there
      rcases one.spawns.created absent there with rfl | rfl
      · exact ensureQueue_opens absent asked
      · rw [dlqName_dlqName, or_self] at asked
        exact ensureQueue_opens fresh (.inr asked)
    · rcases List.mem_cons.mp member with rfl | later
      · exact absurd (ensureQueue_opens absent (.inl rfl)) there
      · exact ih later there

/-- A queue that an event declares is there after it. -/
theorem step_declares (declares : h.Declares event q) : q ∈ (h.step event).queues.queues := by
  obtain ⟨name, asked, absent, same⟩ := declares
  cases event with
  | command connectionId command =>
    cases command with
    | declareQueue wanted maxLength visibilityTimeout maxAttempts =>
      change q ∈ (h.cmdDeclareQueue wanted maxLength visibilityTimeout maxAttempts).2.queues.queues
      unfold Handler.declares at asked
      unfold cmdDeclareQueue
      dsimp only at asked
      split at asked
      · simp at asked
      · rename_i unnamed
        obtain rfl := List.mem_singleton.mp asked
        rw [if_neg unnamed]
        exact declared_opens (r := h.routing) rfl absent same
    | publish args stamp =>
      unfold Handler.declares at asked
      dsimp only at asked
      split at asked
      · rename_i byName
        obtain ⟨noExchange, unnamed⟩ := byName
        have named : args.queue = some name := by simpa using asked
        have nonempty : name ≠ "" := by
          rintro rfl
          exact unnamed named
        apply cmdPublish_quiet.seats.stays
        change q ∈ (h.routing.ensureQueue args true).1.queues.queues
        unfold RoutingEngine.ensureQueue
        rw [named]
        dsimp only
        rw [if_pos ⟨nonempty, noExchange⟩, if_neg (show name ∉ h.routing.queues.queues from absent)]
        exact declared_opens (r := h.routing) rfl absent same
      · simp at asked
    | get queue consumerId prefetch =>
      unfold Handler.declares registration at asked
      dsimp only at asked
      split at asked
      · simp at asked
      · rename_i some
        obtain ⟨named, unknown⟩ := not_or.mp some
        obtain rfl : name = queue := by simpa using asked
        apply (cmdGet_quiet named).seats.stays
        unfold getConsumer
        rw [if_neg unknown]
        change q ∈ (join _ h.queues name).queues
        rw [← Dict.mem_keys, join_keys, Dict.mem_keys]
        exact declareQueue_opens rfl absent same
    | consume queues queue consumerId prefetch tag uuid =>
      unfold Handler.declares registration at asked
      dsimp only at asked
      split at asked
      · simp at asked
      · rename_i some
        have member : name ∈ consumeQueues queues queue := by simpa using asked
        change q ∈ (h.cmdConsume connectionId queues queue consumerId prefetch tag uuid).2.queues.queues
        unfold cmdConsume
        dsimp only
        rw [if_neg some]
        apply pumpAll_quiet.seats.stays
        apply register_stays
        exact ensureQueues_opens member absent same
    | declareExchange | deleteExchange | deleteQueue | bind | unbind | cancel | ack | nack | qos
    | subscribe | unsubscribe | publishChannel | dlqRequeue => simp [Handler.declares, registration] at asked
  | ticker | connect | drop => simp [Handler.declares, registration] at asked

end Handler
end OneOpenBroker.Broker

import OneOpenBroker.Broker.Openings

/-! The three indexes of the consumers: the registry, the ids that every
connection registered, and the turns on every queue. A registration adds to all
three and a cancellation takes out of all three what the consumer was last
registered with. They come apart where a registration replaces another one, and
where a queue comes into being that a consumer already reads. -/
namespace OneOpenBroker.Broker.Handler
open Collections OneOpenBroker.Core QueueEngine ConsumerManager Systems

/-- The indexes agree: a connection lists exactly its own consumers, and on a
queue exactly those consumers take turns that read it. -/
structure Coherent (h : Handler) : Prop where
  listed : ∀ connectionId id, id ∈ h.consumers.listed connectionId ↔
    ∃ queues, h.roster id = some (connectionId, queues)
  turns : ∀ q queue, h.queues.queues.get? q = some queue → ∀ id, id ∈ queue.consumerIds ↔
    ∃ connectionId queues, h.roster id = some (connectionId, queues) ∧ q ∈ queues

/-- Dropping a connection cancels only consumers of the connection. -/
def DropsOwn (h : Handler) : Prop :=
  ∀ connectionId order id owner queues, h.roster id = some (owner, queues) →
    (h.drop connectionId order).2.roster id = none → owner = connectionId

/-- The consumer that an event cancels before anything else. -/
def cancels (h : Handler) : Event → Option String
  | .command _ (.cancel consumerId) => if consumerId = "" then none else some consumerId
  | .drop connectionId order =>
    let ids := h.consumers.listed connectionId
    (if order.Perm ids then order else ids).head?
  | _ => none

/-- A registration under an id that is taken comes from the same connection
and keeps the queues that exist. A missing queue that is declared is read by
nobody who is registered but the consumer that the event itself registers. -/
structure Uncontested (h : Handler) (event : Event) : Prop where
  again : ∀ connectionId id names owner queues,
    h.registration event = some (connectionId, id, names) → h.roster id = some (owner, queues) →
      owner = connectionId ∧ ∀ q ∈ queues, q ∈ h.queues.queues → q ∈ names
  declared : ∀ q id owner queues, h.Declares event q → q ∉ h.queues.queues →
    h.roster id = some (owner, queues) → q ∈ queues →
      ∃ connectionId names, h.registration event = some (connectionId, id, names)

/-- And where deliveries may fail, nobody who is registered reads the missing
queue for the dead letters of a queue that exists, but a consumer that the event
registers or cancels. -/
structure Orderly (h : Handler) (event : Event) : Prop extends Uncontested h event where
  buried : ∀ q id owner queues, event.fails = true → h.queues.Buries q → q ∉ h.queues.queues →
    h.roster id = some (owner, queues) → q ∈ queues →
      (∃ connectionId names, h.registration event = some (connectionId, id, names)) ∨
        h.cancels event = some id

/-- No queue comes into being that is read by somebody who stays registered but
the consumer that the event registers. -/
structure Seamless (h : Handler) (event : Event) : Prop where
  again : ∀ connectionId id names owner queues,
    h.registration event = some (connectionId, id, names) → h.roster id = some (owner, queues) →
      owner = connectionId ∧ ∀ q ∈ queues, q ∈ h.queues.queues → q ∈ names
  fresh : ∀ q id owner queues, q ∉ h.queues.queues → q ∈ (h.step event).queues.queues →
    h.roster id = some (owner, queues) → q ∈ queues →
      (∃ connectionId names, h.registration event = some (connectionId, id, names)) ∨
        (h.step event).roster id = none

variable {h h' h'' : Handler} {connectionId queue id other q : String} {names : List String}

/-! ## What an event does to the indexes -/

/-- No id is listed or takes turns twice. -/
structure Tidy (h : Handler) : Prop where
  distinct : h.queues.Distinct
  single : ∀ connectionId, (h.consumers.listed connectionId).Nodup

/-- The indexes are the same. -/
structure Still (h h' : Handler) : Prop where
  roster : h'.roster = h.roster
  listed : h'.consumers.listed = h.consumers.listed
  takers : h'.queues.takers = h.queues.takers
  stays : ∀ q ∈ h.queues.queues, q ∈ h'.queues.queues

/-- A consumer that is not registered any more, and how it was registered. -/
def Lost (h h' : Handler) (id : String) (was : String × List String → Prop) : Prop :=
  h'.roster id = none ∧ ∃ entry, h.roster id = some entry ∧ was entry

/-- Some consumers are taken out of all three indexes. -/
structure Sheds (h h' : Handler) : Prop where
  roster : ∀ id, h'.roster id = h.roster id ∨ h'.roster id = none
  listed : ∀ connectionId id, id ∈ h'.consumers.listed connectionId ↔
    id ∈ h.consumers.listed connectionId ∧ ¬ Lost h h' id (·.1 = connectionId)
  takers : ∀ q id, id ∈ h'.queues.takers q ↔
    id ∈ h.queues.takers q ∧ ¬ Lost h h' id (q ∈ ·.2)

/-- One consumer is entered into all three indexes. -/
structure Enters (connectionId id : String) (names : List String) (h h' : Handler) : Prop where
  roster : ∀ other, h'.roster other =
    if other = id then some (connectionId, names) else h.roster other
  listed : ∀ owner other, other ∈ h'.consumers.listed owner ↔
    owner = connectionId ∧ other = id ∨ other ∈ h.consumers.listed owner
  takers : ∀ q other, other ∈ h'.queues.takers q ↔
    other ∈ h.queues.takers q ∨ other = id ∧ q ∈ names
  stays : ∀ q ∈ h.queues.queues, q ∈ h'.queues.queues

/-- Some queues are taken out. -/
structure Removes (h h' : Handler) : Prop where
  roster : h'.roster = h.roster
  listed : h'.consumers.listed = h.consumers.listed
  takers : ∀ q ∈ h'.queues.queues, q ∈ h.queues.queues ∧ h'.queues.takers q = h.queues.takers q

theorem Still.refl (h : Handler) : Still h h := ⟨rfl, rfl, rfl, fun _ there => there⟩

theorem Still.trans (first : Still h h') (second : Still h' h'') : Still h h'' :=
  ⟨second.roster.trans first.roster, second.listed.trans first.listed,
    second.takers.trans first.takers, fun q there => second.stays q (first.stays q there)⟩

theorem Quiet.still (quiet : Quiet h h') : Still h h' := by
  refine ⟨quiet.roster, ?_, quiet.seats.takers, fun q there => quiet.seats.stays there⟩
  funext owner
  unfold ConsumerManager.listed
  rw [quiet.listed]

theorem Still.of_eq (routing : h'.routing = h.routing) (consumers : h'.consumers = h.consumers) :
    Still h h' := (Quiet.of_eq routing consumers).still

theorem Still.tidy (still : Still h h') (tidy : Tidy h) : Tidy h' := by
  constructor
  · intro q
    rw [still.takers]
    exact tidy.distinct q
  · rw [still.listed]
    exact tidy.single

theorem Still.sheds (still : Still h h') : Sheds h h' := by
  have kept (id : String) (was : String × List String → Prop) : ¬ Lost h h' id was := by
    rintro ⟨gone, entry, known, _⟩
    rw [still.roster, known] at gone
    cases gone
  refine ⟨fun id => .inl (by rw [still.roster]), fun owner id => ?_, fun q id => ?_⟩
  · rw [still.listed, and_iff_left (kept id _)]
  · rw [still.takers, and_iff_left (kept id _)]

/-- Who is lost in two steps is lost in one of them. -/
theorem Sheds.lost_iff (first : Sheds h h') (second : Sheds h' h'')
    {was : String × List String → Prop} :
    Lost h h'' id was ↔ Lost h h' id was ∨ Lost h' h'' id was := by
  unfold Lost
  rcases first.roster id with kept | gone
  · rw [kept]
    constructor
    · exact .inr
    · rintro (⟨absent, entry, known, _⟩ | lost)
      · rw [absent] at known
        cases known
      · exact lost
  · have later : h''.roster id = none := by
      rcases second.roster id with kept | gone'
      · rw [kept, gone]
      · exact gone'
    simp [gone, later]

theorem Sheds.trans (first : Sheds h h') (second : Sheds h' h'') : Sheds h h'' := by
  refine ⟨fun id => ?_, fun owner id => ?_, fun q id => ?_⟩
  · rcases second.roster id with kept | gone
    · rw [kept]
      exact first.roster id
    · exact .inr gone
  · rw [second.listed, first.listed, first.lost_iff second, not_or, and_assoc]
  · rw [second.takers, first.takers, first.lost_iff second, not_or, and_assoc]

theorem Enters.still (enters : Enters connectionId id names h h') (still : Still h' h'') :
    Enters connectionId id names h h'' := by
  refine ⟨fun other => ?_, fun owner other => ?_, fun q other => ?_, fun q there => ?_⟩
  · rw [still.roster, enters.roster]
  · rw [still.listed, enters.listed]
  · rw [still.takers, enters.takers]
  · exact still.stays q (enters.stays q there)

theorem Still.enters (still : Still h h') (enters : Enters connectionId id names h' h'') :
    Enters connectionId id names h h'' := by
  refine ⟨fun other => ?_, fun owner other => ?_, fun q other => ?_, fun q there => ?_⟩
  · rw [enters.roster, still.roster]
  · rw [enters.listed, still.listed]
  · rw [enters.takers, still.takers]
  · exact enters.stays q (still.stays q there)

/-! ## Registering and cancelling -/

theorem register_enters {prefetch : Int} {tag : String} :
    Enters connectionId id names h (h.register id connectionId names prefetch tag) := by
  refine ⟨fun other => ?_, fun owner other => ?_, fun q other => ?_, fun q there => ?_⟩
  · change ((h.consumers.register h.queues id connectionId names prefetch tag).1.consumers.get?
      other).map _ = _
    rw [register_get?]
    split <;> rfl
  · exact register_listed (e := h.queues)
  · exact mem_joins
  · exact joins_preserve (I := fun e => q ∈ e.queues)
      (fun e name there => declareQueue_seats.stays there)
      (fun e e' alike there => by rwa [← Dict.mem_keys, alike.keys, Dict.mem_keys]) there

theorem register_tidy {prefetch : Int} {tag : String} (tidy : Tidy h) :
    Tidy (h.register id connectionId names prefetch tag) := by
  refine ⟨joins_distinct tidy.distinct, fun owner => ?_⟩
  change ((h.consumers.byConnection.set connectionId _).get? owner).getD [] |>.Nodup
  rw [Dict.get?_set]
  split
  · exact (tidy.single connectionId).insert
  · exact tidy.single owner

theorem cancelled_eq {consumer : Consumer} (found : h.consumers.consumers.get? id = some consumer) :
    h.cancelled id = withQueues { h with consumers :=
        { consumers := h.consumers.consumers.erase id
          byConnection := strike h.consumers.byConnection consumer.connectionId id } }
      ((consumer.queues.foldl (leave id) h.queues).recoverConsumer id).2 := by
  unfold cancelled cancel
  rw [found]

theorem cancelled_unknown (unknown : h.consumers.consumers.get? id = none) : h.cancelled id = h := by
  unfold cancelled cancel
  rw [unknown]
  rfl

theorem cancelled_roster (other : String) :
    (h.cancelled id).roster other = if other = id then none else h.roster other := by
  cases found : h.consumers.consumers.get? id with
  | none =>
    rw [cancelled_unknown found]
    split
    · rename_i same
      simp [Handler.roster, same, found]
    · rfl
  | some consumer =>
    rw [cancelled_eq found]
    change ((h.consumers.consumers.erase id).get? other).map _ = _
    rw [Dict.get?_erase]
    split <;> rfl

/-- A cancellation sheds the consumer. -/
theorem cancelled_sheds (named : h.queues.Named) (tidy : Tidy h) :
    Sheds h (h.cancelled id) ∧ Tidy (h.cancelled id) ∧ (h.cancelled id).queues.Named := by
  cases found : h.consumers.consumers.get? id with
  | none =>
    rw [cancelled_unknown found]
    exact ⟨(Still.refl h).sheds, tidy, named⟩
  | some consumer =>
    have left : (consumer.queues.foldl (leave id) h.queues).Named :=
      (leaves_alike id consumer.queues h.queues).named named
    have takers : (h.cancelled id).queues.takers = (consumer.queues.foldl (leave id) h.queues).takers := by
      rw [cancelled_eq found]
      exact (recoverConsumer_keeps left).seats.takers
    have listed (owner : String) : (h.cancelled id).consumers.listed owner =
        if owner = consumer.connectionId then (h.consumers.listed owner).erase id
        else h.consumers.listed owner := by
      rw [cancelled_eq found]
      exact strike_listed
    have known : h.roster id = some (consumer.connectionId, consumer.queues) := by
      unfold Handler.roster
      rw [found]
      rfl
    have lost (other : String) (was : String × List String → Prop) : Lost h (h.cancelled id) other was ↔
        other = id ∧ was (consumer.connectionId, consumer.queues) := by
      unfold Lost
      rw [cancelled_roster]
      by_cases same : other = id
      · simp [same, known]
      · rw [if_neg same]
        simp only [same, false_and, iff_false]
        rintro ⟨absent, entry, there, _⟩
        rw [absent] at there
        cases there
    refine ⟨⟨fun other => ?_, fun owner other => ?_, fun q other => ?_⟩, ⟨fun q => ?_, fun owner => ?_⟩, ?_⟩
    · rw [cancelled_roster]
      split
      · exact .inr rfl
      · exact .inl rfl
    · rw [listed, lost]
      by_cases mine : owner = consumer.connectionId
      · rw [if_pos mine, (tidy.single owner).mem_erase_iff]
        simp only [mine, and_true]
        exact and_comm
      · simp [mine, Ne.symm mine]
    · rw [takers, mem_leaves tidy.distinct, lost]
    · rw [takers]
      exact leaves_distinct tidy.distinct q
    · rw [listed]
      split
      · exact (tidy.single owner).erase id
      · exact tidy.single owner
    · exact cancel_named named

theorem cancelAll_sheds (ids : List String) (named : h.queues.Named) (tidy : Tidy h) :
    Sheds h (withQueues { h with consumers := (cancelAll ids h.consumers h.queues).2.1 }
        (cancelAll ids h.consumers h.queues).2.2) ∧
      Tidy (withQueues { h with consumers := (cancelAll ids h.consumers h.queues).2.1 }
        (cancelAll ids h.consumers h.queues).2.2) := by
  have kept := cancelAll_keeps (I := fun h' => Sheds h h' ∧ Tidy h' ∧ h'.queues.Named)
    (fun h' id ⟨sheds, tidy, named⟩ => by
      obtain ⟨sheds', rest⟩ : Sheds h' (h'.cancelled id) ∧ _ := cancelled_sheds named tidy
      exact ⟨sheds.trans sheds', rest⟩)
    ids ⟨(Still.refl h).sheds, tidy, named⟩
  exact ⟨kept.1, kept.2.1⟩

/-! ## Events -/

theorem rerouted_still {r : RoutingEngine} {may : String → Prop} (seats : Seats may h.queues r.queues) :
    Still h { h with routing := r } :=
  ⟨rfl, rfl, seats.takers, fun _ there => seats.stays there⟩

theorem routing_seats (r : RoutingEngine) :
    (∀ name type durable, Seats DeadLetters r.queues (r.declareExchange name type durable).queues) ∧
    (∀ name, Seats DeadLetters r.queues (r.deleteExchange name).2.queues) ∧
    (∀ exchange queue routingKey,
      Seats DeadLetters r.queues (r.bind exchange queue routingKey).2.queues) ∧
    ∀ exchange queue routingKey,
      Seats DeadLetters r.queues (r.unbind exchange queue routingKey).2.queues :=
  Persistence.routing_preserves (I := Seats DeadLetters r.queues)
    (fun _ _ _ seats => seats.trans (Keeps.of_queues append_queues).seats) (.refl _ _)

theorem declared_still {r : RoutingEngine} {name : String} {args : QueueArgs}
    (still : Still h { h with routing := r }) : Still h { h with
      routing := { r with queues := r.queues.declareQueue name args }.onQueueDeclared name } := by
  have declared : Still { h with routing := r }
      { h with routing := { r with queues := r.queues.declareQueue name args } } :=
    rerouted_still declareQueue_seats
  have bound : Still { h with routing := { r with queues := r.queues.declareQueue name args } } _ :=
    rerouted_still ((routing_seats { r with queues := r.queues.declareQueue name args }).2.2.1
      defaultExchange name name)
  exact (still.trans declared).trans bound

theorem ensureQueue_still {name : String} : Still h (h.ensureQueue name) := by
  unfold ensureQueue
  split
  · exact .refl h
  · exact declared_still (.refl h)

theorem ensureQueues_still (names : List String) : Still h (names.foldl ensureQueue h) := by
  induction names generalizing h with
  | nil => exact .refl h
  | cons name rest ih => exact ensureQueue_still.trans ih

theorem ensured_still {args : PublishArgs} :
    Still h { h with routing := (h.routing.ensureQueue args true).1 } := by
  unfold RoutingEngine.ensureQueue
  split
  · exact .refl h
  · dsimp only
    split
    · split
      · exact .refl h
      · exact declared_still (.refl h)
    · exact .refl h

/-- A command that registers nobody and deletes no queue leaves the indexes as
they are, unless it cancels. -/
theorem handle_still {command : Command}
    (idle : h.registration (.command connectionId command) = none)
    (keeps : ∀ name, command ≠ .deleteQueue name) (stays : ∀ consumerId, command ≠ .cancel consumerId) :
    Still h (h.handle connectionId command).2 := by
  obtain ⟨declare, delete, bind, unbind⟩ := routing_seats h.routing
  cases command with
  | declareExchange name type =>
    change Still h (h.cmdDeclareExchange name type).2
    unfold cmdDeclareExchange
    dsimp only
    split
    · exact rerouted_still (declare _ _ _)
    · split <;> exact .refl h
  | deleteExchange name =>
    have deleted := delete name
    change Still h (h.cmdDeleteExchange name).2
    unfold cmdDeleteExchange
    split <;> rename_i shape <;> rw [shape] at deleted <;> exact rerouted_still deleted
  | declareQueue name maxLength visibilityTimeout maxAttempts =>
    change Still h (h.cmdDeclareQueue name maxLength visibilityTimeout maxAttempts).2
    unfold cmdDeclareQueue
    split
    · exact .refl h
    · exact declared_still (.refl h)
  | deleteQueue name => exact absurd rfl (keeps name)
  | bind exchange queue routingKey =>
    have bound := bind exchange queue routingKey
    change Still h (h.cmdBind exchange queue routingKey).2
    unfold cmdBind
    split <;> rename_i shape <;> rw [shape] at bound <;> exact rerouted_still bound
  | unbind exchange queue routingKey =>
    have unbound := unbind exchange queue routingKey
    change Still h (h.cmdUnbind exchange queue routingKey).2
    unfold cmdUnbind
    split <;> rename_i shape <;> rw [shape] at unbound <;> exact rerouted_still unbound
  | publish args stamp => exact ensured_still.trans cmdPublish_quiet.still
  | get queue consumerId prefetch =>
    change Still h (h.cmdGet connectionId queue consumerId prefetch).2
    by_cases unnamed : queue = ""
    · unfold cmdGet
      rw [if_pos unnamed]
      exact .refl h
    · have known : readerOf connectionId queue consumerId ∈ h.consumers.consumers := by
        by_contra unknown
        simp [registration, unnamed, unknown] at idle
      exact (getConsumer_known known).still.trans (cmdGet_quiet unnamed).still
  | consume queues queue consumerId prefetch tag uuid =>
    have nothing : consumeQueues queues queue = [] := by
      by_contra some
      simp [registration, some] at idle
    change Still h (h.cmdConsume connectionId queues queue consumerId prefetch tag uuid).2
    unfold cmdConsume
    dsimp only
    rw [if_pos nothing]
    exact .refl h
  | cancel consumerId => exact absurd rfl (stays consumerId)
  | ack messageId => exact cmdAck_quiet.still
  | nack messageId requeue => exact cmdNack_quiet.still
  | qos prefetch consumerId => exact cmdQos_quiet.still
  | subscribe channel => exact cmdSubscribe_quiet.still
  | unsubscribe channel => exact .of_eq rfl rfl
  | publishChannel channel => exact cmdPublishChannel_quiet.still
  | dlqRequeue queue messageId => exact cmdDlqRequeue_quiet.still

/-- An event that registers a consumer enters it, after queues were declared
and before deliveries are made. -/
theorem step_enters {event : Event} (tidy : Tidy h)
    (registers : h.registration event = some (connectionId, id, names)) :
    Enters connectionId id names h (h.step event) ∧ Tidy (h.step event) := by
  cases event with
  | command owner command =>
    cases command with
    | get queue consumerId prefetch =>
      unfold registration at registers
      dsimp only at registers
      split at registers
      · cases registers
      · rename_i some
        obtain ⟨unnamed, unknown⟩ := not_or.mp some
        obtain ⟨rfl, rfl, rfl⟩ : owner = connectionId ∧ readerOf owner queue consumerId = id ∧
          [queue] = names := by simpa using registers
        have read : Still (h.getConsumer owner queue (readerOf owner queue consumerId)
            (prefetch.getD (h.prefetchOf owner))) (h.cmdGet owner queue consumerId prefetch).2 :=
          (cmdGet_quiet unnamed).still
        unfold getConsumer at read
        rw [if_neg unknown] at read
        exact ⟨register_enters.still read, read.tidy (register_tidy tidy)⟩
    | consume queues queue consumerId prefetch tag uuid =>
      unfold registration at registers
      dsimp only at registers
      split at registers
      · cases registers
      · rename_i some
        obtain ⟨rfl, rfl, rfl⟩ : owner = connectionId ∧
            (if consumerId = "" then uuid.text else consumerId) = id ∧
            consumeQueues queues queue = names := by simpa using registers
        change Enters _ _ _ h (h.cmdConsume owner queues queue consumerId prefetch tag uuid).2 ∧
          Tidy (h.cmdConsume owner queues queue consumerId prefetch tag uuid).2
        unfold cmdConsume
        dsimp only
        rw [if_neg some]
        have issued : Still h
            { h with consumed := (consumeQueues queues queue).map (owner, ·) ++ h.consumed } :=
          .of_eq rfl rfl
        have ready := issued.trans (ensureQueues_still (consumeQueues queues queue))
        exact ⟨ready.enters (register_enters.still pumpAll_quiet.still),
          pumpAll_quiet.still.tidy (register_tidy (ready.tidy tidy))⟩
    | declareExchange | deleteExchange | declareQueue | deleteQueue | bind | unbind | publish
    | cancel | ack | nack | qos | subscribe | unsubscribe | publishChannel | dlqRequeue =>
      cases registers
  | ticker | connect | drop => cases registers

theorem deleteQueue_removes {name : String} (tidy : Tidy h) :
    Removes h (h.withQueues (h.queues.deleteQueue name).2) ∧
      Tidy (h.withQueues (h.queues.deleteQueue name).2) := by
  have takers (q : String) (there : (h.queues.deleteQueue name).2.rota? q = h.queues.rota? q) :
      (h.queues.deleteQueue name).2.takers q = h.queues.takers q := by
    unfold QueueEngine.takers
    rw [there]
  refine ⟨⟨rfl, rfl, fun q known => ?_⟩, fun q => ?_, tidy.single⟩
  · rcases deleteQueue_rota h.queues name q true with gone | same
    · exact absurd known (rota?_none.mp gone)
    · refine ⟨?_, takers q same⟩
      by_contra absent
      rw [rota?_none.mpr absent, rota?_none] at same
      exact same known
  · rcases deleteQueue_rota h.queues name q true with gone | same
    · change ((h.queues.deleteQueue name).2.takers q).Nodup
      rw [takers_missing (rota?_none.mp gone)]
      exact List.nodup_nil
    · change ((h.queues.deleteQueue name).2.takers q).Nodup
      rw [takers q same]
      exact tidy.distinct q

theorem drop_sheds (connectionId : String) (order : List String) (named : h.queues.Named) (tidy : Tidy h) :
    Sheds h (h.drop connectionId order).2 ∧ Tidy (h.drop connectionId order).2 := by
  obtain ⟨sheds, tidy'⟩ := cancelAll_sheds
    (if order.Perm (h.consumers.listed connectionId) then order
      else h.consumers.listed connectionId) named tidy
  refine ⟨sheds.trans (Still.sheds ?_), Still.tidy ?_ tidy'⟩ <;> exact .of_eq rfl rfl

/-- What an event does to the indexes, given the registration it makes. -/
inductive Moves (h h' : Handler) : Option (String × String × List String) → Prop where
  | enters (connectionId id : String) (names : List String)
      (done : Enters connectionId id names h h') : Moves h h' (some (connectionId, id, names))
  | sheds (done : Sheds h h') : Moves h h' none
  | removes (done : Removes h h') : Moves h h' none

theorem step_moves (named : h.queues.Named) (tidy : Tidy h) (event : Event) :
    Moves h (h.step event) (h.registration event) ∧ Tidy (h.step event) := by
  cases registers : h.registration event with
  | some made =>
    obtain ⟨connectionId, id, names⟩ := made
    obtain ⟨enters, tidy'⟩ := step_enters tidy registers
    exact ⟨.enters connectionId id names enters, tidy'⟩
  | none =>
    have settled (still : Still h (h.step event)) : Moves h (h.step event) none ∧ Tidy (h.step event) :=
      ⟨.sheds still.sheds, still.tidy tidy⟩
    cases event with
    | command connectionId command =>
      by_cases deletes : ∃ name, command = .deleteQueue name
      · obtain ⟨name, rfl⟩ := deletes
        obtain ⟨removes, tidy'⟩ : Removes h (h.withQueues (h.queues.deleteQueue name).2) ∧ _ :=
          deleteQueue_removes tidy
        change Moves h (h.cmdDeleteQueue name).2 none ∧ Tidy (h.cmdDeleteQueue name).2
        unfold cmdDeleteQueue
        split <;> rename_i shape <;> rw [shape] at removes tidy' <;> exact ⟨.removes removes, tidy'⟩
      · by_cases cancels : ∃ consumerId, command = .cancel consumerId
        · obtain ⟨consumerId, rfl⟩ := cancels
          obtain ⟨sheds, tidy', _⟩ : Sheds h (h.cancelled consumerId) ∧
            Tidy (h.cancelled consumerId) ∧ _ := cancelled_sheds named tidy
          unfold cancelled at sheds tidy'
          change Moves h (h.cmdCancel consumerId).2 none ∧ Tidy (h.cmdCancel consumerId).2
          unfold cmdCancel
          split
          · exact ⟨.sheds (Still.refl h).sheds, tidy⟩
          · dsimp only
            split <;> exact ⟨.sheds sheds, tidy'⟩
        · exact settled (handle_still registers (fun name same => deletes ⟨name, same⟩)
            fun consumerId same => cancels ⟨consumerId, same⟩)
    | ticker => exact settled ticker_quiet.still
    | connect connectionId => exact settled (.of_eq rfl rfl)
    | drop connectionId order =>
      obtain ⟨sheds, tidy'⟩ := drop_sheds connectionId order named tidy
      exact ⟨.sheds sheds, tidy'⟩

/-! ## Coherence -/

/-- The turns of a coherent handler, for all names of queues at once. -/
theorem coherent_iff : Coherent h ↔
    (∀ connectionId id, id ∈ h.consumers.listed connectionId ↔
      ∃ queues, h.roster id = some (connectionId, queues)) ∧
    ∀ q ∈ h.queues.queues, ∀ id, id ∈ h.queues.takers q ↔
      ∃ connectionId queues, h.roster id = some (connectionId, queues) ∧ q ∈ queues := by
  constructor
  · rintro ⟨listed, turns⟩
    refine ⟨listed, fun q there id => ?_⟩
    obtain ⟨queue, found⟩ := Dict.mem_iff.mp there
    rw [takers_of_get found]
    exact turns q queue found id
  · rintro ⟨listed, turns⟩
    refine ⟨listed, fun q queue found id => ?_⟩
    rw [← takers_of_get found]
    exact turns q (Dict.mem_of_get? found) id

theorem Enters.coherent_iff (enters : Enters connectionId id names h h') (coherent : Coherent h) :
    Coherent h' ↔
      (∀ owner queues, h.roster id = some (owner, queues) →
        owner = connectionId ∧ ∀ q ∈ queues, q ∈ h.queues.queues → q ∈ names) ∧
      ∀ q other owner queues, q ∉ h.queues.queues → q ∈ h'.queues.queues →
        h.roster other = some (owner, queues) → q ∈ queues → other = id := by
  obtain ⟨listed, turns⟩ := Handler.coherent_iff.mp coherent
  have entered : h'.roster id = some (connectionId, names) := by rw [enters.roster, if_pos rfl]
  rw [Handler.coherent_iff]
  constructor
  · rintro ⟨listed', turns'⟩
    refine ⟨fun owner queues known => ⟨?_, fun q reads there => ?_⟩, ?_⟩
    · have before := (listed owner id).mpr ⟨queues, known⟩
      obtain ⟨_, after⟩ := (listed' owner id).mp ((enters.listed owner id).mpr (.inr before))
      rw [entered] at after
      exact (Prod.mk.inj (Option.some.inj after)).1.symm
    · have before := (turns q there id).mpr ⟨owner, queues, known, reads⟩
      obtain ⟨_, _, after, member⟩ := (turns' q (enters.stays q there) id).mp
        ((enters.takers q id).mpr (.inl before))
      rw [entered] at after
      rwa [(Prod.mk.inj (Option.some.inj after)).2]
    · intro q other owner queues absent created known reads
      by_contra differ
      have after := (turns' q created other).mpr
        ⟨owner, queues, by rw [enters.roster, if_neg differ, known], reads⟩
      rw [enters.takers, takers_missing absent] at after
      simp [differ] at after
  · rintro ⟨again, fresh⟩
    refine ⟨fun owner other => ?_, fun q created other => ?_⟩
    · rw [enters.listed, enters.roster, listed]
      by_cases same : other = id
      · subst same
        simp only [and_true, if_true, Option.some.injEq, Prod.mk.injEq, exists_and_left,
          exists_eq', eq_comm (a := connectionId), or_iff_left_iff_imp]
        rintro ⟨queues, known⟩
        exact (again owner queues known).1
      · simp [same]
    · rw [enters.takers, enters.roster]
      by_cases same : other = id
      · subst same
        have kept (member : other ∈ h.queues.takers q) : q ∈ names := by
          by_cases there : q ∈ h.queues.queues
          · obtain ⟨owner, queues, known, reads⟩ := (turns q there other).mp member
            exact (again owner queues known).2 q reads there
          · rw [takers_missing there] at member
            cases member
        rw [if_pos rfl]
        constructor
        · rintro (member | ⟨_, reads⟩)
          · exact ⟨connectionId, names, rfl, kept member⟩
          · exact ⟨connectionId, names, rfl, reads⟩
        · rintro ⟨_, _, same, reads⟩
          rw [← (Prod.mk.inj (Option.some.inj same)).2] at reads
          exact .inr ⟨rfl, reads⟩
      · rw [if_neg same, or_iff_left (fun both => same both.1)]
        by_cases there : q ∈ h.queues.queues
        · exact turns q there other
        · rw [takers_missing there]
          refine iff_of_false List.not_mem_nil ?_
          rintro ⟨owner, queues, known, reads⟩
          exact same (fresh q other owner queues there created known reads)

theorem Sheds.coherent_iff (sheds : Sheds h h') (coherent : Coherent h) : Coherent h' ↔
    ∀ q other owner queues, q ∉ h.queues.queues → q ∈ h'.queues.queues →
      h.roster other = some (owner, queues) → q ∈ queues → h'.roster other = none := by
  obtain ⟨listed, turns⟩ := Handler.coherent_iff.mp coherent
  rw [Handler.coherent_iff]
  constructor
  · rintro ⟨_, turns'⟩ q other owner queues absent created known reads
    refine (sheds.roster other).resolve_left fun kept => ?_
    have after := (turns' q created other).mpr ⟨owner, queues, by rw [kept, known], reads⟩
    rw [sheds.takers, takers_missing absent] at after
    exact absurd after.1 List.not_mem_nil
  · intro fresh
    refine ⟨fun owner other => ?_, fun q created other => ?_⟩
    · rw [sheds.listed, listed]
      rcases sheds.roster other with kept | gone
      · rw [kept, and_iff_left_iff_imp]
        rintro ⟨queues, known⟩ ⟨absent, _⟩
        rw [kept, known] at absent
        cases absent
      · rw [gone]
        refine iff_of_false ?_ (by simp)
        rintro ⟨⟨queues, known⟩, kept⟩
        exact kept ⟨gone, _, known, rfl⟩
    · rw [sheds.takers]
      by_cases there : q ∈ h.queues.queues
      · rw [turns q there]
        rcases sheds.roster other with kept | gone
        · rw [kept, and_iff_left_iff_imp]
          rintro ⟨owner, queues, known, _⟩ ⟨absent, _⟩
          rw [kept, known] at absent
          cases absent
        · rw [gone]
          refine iff_of_false ?_ (by simp)
          rintro ⟨⟨owner, queues, known, reads⟩, kept⟩
          exact kept ⟨gone, _, known, reads⟩
      · rw [takers_missing there]
        refine iff_of_false (fun both => List.not_mem_nil both.1) ?_
        rintro ⟨owner, queues, known, reads⟩
        have before : h.roster other = some (owner, queues) := by
          rcases sheds.roster other with kept | gone
          · rw [← kept, known]
          · rw [gone] at known
            cases known
        rw [fresh q other owner queues there created before reads] at known
        cases known

theorem Removes.coherent (removes : Removes h h') (coherent : Coherent h) : Coherent h' := by
  obtain ⟨listed, turns⟩ := Handler.coherent_iff.mp coherent
  rw [Handler.coherent_iff, removes.roster, removes.listed]
  refine ⟨listed, fun q there other => ?_⟩
  obtain ⟨before, same⟩ := removes.takers q there
  rw [same]
  exact turns q before other

/-- A step from coherent indexes leaves them coherent exactly if it is seamless. -/
theorem step_coherent_iff (named : h.queues.Named) (tidy : Tidy h) (coherent : Coherent h)
    (event : Event) : Coherent (h.step event) ↔ Seamless h event := by
  obtain ⟨moves, _⟩ := step_moves named tidy event
  generalize made : h.registration event = registered at moves
  cases moves with
  | enters connectionId id names done =>
    rw [done.coherent_iff coherent]
    constructor
    · rintro ⟨again, fresh⟩
      refine ⟨fun connectionId' id' names' owner queues made' known => ?_,
        fun q other owner queues absent created known reads => .inl ⟨connectionId, names, ?_⟩⟩
      · rw [made] at made'
        obtain ⟨rfl, rfl, rfl⟩ : connectionId = connectionId' ∧ id = id' ∧ names = names' := by
          simpa using made'
        exact again owner queues known
      · rw [fresh q other owner queues absent created known reads, made]
    · rintro ⟨again, fresh⟩
      refine ⟨fun owner queues known => again connectionId id names owner queues made known, ?_⟩
      intro q other owner queues absent created known reads
      rcases fresh q other owner queues absent created known reads with ⟨_, _, made'⟩ | gone
      · rw [made] at made'
        exact (Prod.mk.inj (Prod.mk.inj (Option.some.inj made')).2).1.symm
      · by_contra differ
        rw [done.roster, if_neg differ, known] at gone
        cases gone
  | sheds done =>
    rw [done.coherent_iff coherent]
    constructor
    · intro fresh
      refine ⟨fun _ _ _ _ _ made' => ?_, fun q other owner queues absent created known reads =>
        .inr (fresh q other owner queues absent created known reads)⟩
      rw [made] at made'
      cases made'
    · rintro ⟨_, fresh⟩ q other owner queues absent created known reads
      rcases fresh q other owner queues absent created known reads with ⟨_, _, made'⟩ | gone
      · rw [made] at made'
        cases made'
      · exact gone
  | removes done =>
    refine iff_of_true (done.coherent coherent) ⟨fun _ _ _ _ _ made' => ?_, ?_⟩
    · rw [made] at made'
      cases made'
    · exact fun q _ _ _ absent created _ _ => absurd (done.takers q created).1 absent

/-- Dropping a connection cancels consumers that the connection lists. -/
theorem Coherent.dropsOwn (coherent : Coherent h) : DropsOwn h := by
  intro connectionId order id owner queues known gone
  by_contra differ
  have foreign : id ∉ h.consumers.listed connectionId := by
    intro member
    obtain ⟨_, known'⟩ := (coherent.listed connectionId id).mp member
    rw [known] at known'
    exact differ (Prod.mk.inj (Option.some.inj known')).1
  have spared : id ∉ if order.Perm (h.consumers.listed connectionId) then order
      else h.consumers.listed connectionId := by
    split
    · rename_i perm
      exact fun member => foreign (perm.mem_iff.mp member)
    · exact foreign
  have kept : (h.drop connectionId order).2.roster id = h.roster id :=
    congrArg
    (Option.map fun consumer : Consumer => (consumer.connectionId, consumer.queues))
    (cancelAll_spares spared)
  rw [kept, known] at gone
  cases gone

theorem created_coherent (config : EngineConfig) (clock : Nat → ℚ) (sends : Nat → Bool) :
    Coherent (created config clock sends) ∧ Tidy (created config clock sends) := by
  refine ⟨⟨fun _ id => ?_, fun _ _ found => ?_⟩, fun _ => List.nodup_nil, fun _ => List.nodup_nil⟩
  · exact iff_of_false List.not_mem_nil (by rintro ⟨_, known⟩; cases known)
  · cases found

/-! ## Orderly steps -/

/-- The consumer that an event cancels first is not registered after it. -/
theorem cancels_gone {event : Event} (cancels : h.cancels event = some id) :
    (h.step event).roster id = none := by
  cases event with
  | command connectionId command =>
    cases command with
    | cancel consumerId =>
      have gone : (h.cancelled id).roster id = none := by rw [cancelled_roster, if_pos rfl]
      unfold Handler.cancels at cancels
      dsimp only at cancels
      split at cancels
      · cases cancels
      · rename_i named
        cases cancels
        change (h.cmdCancel id).2.roster id = none
        unfold cmdCancel
        rw [if_neg named]
        dsimp only
        split <;> exact gone
    | declareExchange | deleteExchange | declareQueue | deleteQueue | bind | unbind | publish | get
    | consume | ack | nack | qos | subscribe | unsubscribe | publishChannel | dlqRequeue =>
      cases cancels
  | drop connectionId order =>
    unfold Handler.cancels at cancels
    dsimp only at cancels
    obtain ⟨rest, shape⟩ := List.head?_eq_some_iff.mp cancels
    have gone : (h.cancelled id).roster id = none := by rw [cancelled_roster, if_pos rfl]
    have later := cancelAll_keeps (I := fun h' => h'.roster id = none)
      (fun h' other gone => by rw [cancelled_roster, gone, ite_self]) rest gone
    change ((cancelAll (if order.Perm (h.consumers.listed connectionId) then order
      else h.consumers.listed connectionId) h.consumers h.queues).2.1.consumers.get? id).map _ = none
    rw [shape]
    rcases cancelAll_cons h.consumers h.queues id rest with ⟨_, _, ended⟩ | ⟨_, _, ended⟩
    · rw [ended]
      exact gone
    · rw [ended]
      exact later
  | ticker | connect => cases cancels

/-- Where queues are declared nobody is cancelled. -/
theorem declares_roster {event : Event} (tidy : Tidy h) (declares : h.Declares event q)
    (gone : (h.step event).roster id = none) : h.roster id = none := by
  cases registers : h.registration event with
  | some made =>
    obtain ⟨connectionId, made, names⟩ := made
    rw [(step_enters tidy registers).1.roster] at gone
    split at gone
    · cases gone
    · exact gone
  | none =>
    obtain ⟨name, asked, _⟩ := declares
    cases event with
    | command connectionId command =>
      have still : Still h (h.handle connectionId command).2 := handle_still registers
        (by rintro _ rfl; simp [Handler.declares, registration] at asked)
        (by rintro _ rfl; simp [Handler.declares, registration] at asked)
      rw [← still.roster]
      exact gone
    | ticker | connect | drop => simp [Handler.declares, registration] at asked

/-- An orderly step is seamless. -/
theorem Orderly.seamless {event : Event} (orderly : Orderly h event) (named : h.queues.Named) :
    Seamless h event := by
  refine ⟨orderly.again, fun q id owner queues absent created known reads => ?_⟩
  rcases (step_opens named event).created absent created with declares | ⟨fails, buries⟩
  · exact .inl (orderly.declared q id owner queues declares absent known reads)
  · exact (orderly.buried q id owner queues fails buries absent known reads).imp_right cancels_gone

/-- In a seamless step nobody contests a registration or a declaration. -/
theorem Seamless.uncontested {event : Event} (seamless : Seamless h event) (tidy : Tidy h) :
    Uncontested h event := by
  refine ⟨seamless.again, fun q id owner queues declares absent known reads => ?_⟩
  have created := step_declares declares
  refine (seamless.fresh q id owner queues absent created known reads).resolve_right fun gone => ?_
  rw [declares_roster tidy declares gone] at known
  cases known

/-- **Consumer registry coherence.** In a run of orderly steps the indexes of the
consumers agree in every state, and dropping a connection there cancels only its
own consumers. A run in which they always agree is one in which nobody contests
a registration or a declaration. -/
theorem registry_coherent (config : EngineConfig) (clock : Nat → ℚ) (sends : Nat → Bool)
    (events : List Event) :
    (Allowed step Orderly (created config clock sends) events →
      ∀ before, before <+: events → Coherent (run step (created config clock sends) before) ∧
        DropsOwn (run step (created config clock sends) before)) ∧
    ((∀ before, before <+: events → Coherent (run step (created config clock sends) before) ∧
        DropsOwn (run step (created config clock sends) before)) →
      Allowed step Uncontested (created config clock sends) events) := by
  obtain ⟨coherent, tidy⟩ := created_coherent config clock sends
  have sound : Ordered (created config clock sends) ∧ Tidy (created config clock sends) :=
    ⟨(Reachable.start config clock sends).ordered, tidy⟩
  have side (h : Handler) (event : Event) (sound : Ordered h ∧ Tidy h) :
      Ordered (h.step event) ∧ Tidy (h.step event) :=
    ⟨ordered_kept.step sound.1 (Guards.event_free h event),
      (step_moves sound.1.named sound.2 event).2⟩
  have exactly : (∀ before, before <+: events →
        Coherent (run step (created config clock sends) before) ∧
          DropsOwn (run step (created config clock sends) before)) ↔
      Allowed step Seamless (created config clock sends) events := by
    apply always_iff (I := fun h => Coherent h ∧ DropsOwn h) (J := fun h => Ordered h ∧ Tidy h)
      (A := fun _ => True) (fun h event _ => side h event)
    · rintro h event _ ⟨ordered, tidy⟩ ⟨coherent, _⟩
      rw [← step_coherent_iff ordered.named tidy coherent event]
      exact and_iff_left_of_imp Coherent.dropsOwn
    · exact ⟨coherent, coherent.dropsOwn⟩
    · exact sound
    · exact fun _ _ => trivial
  constructor
  · intro orderly
    exact exactly.mpr (orderly.within sound (fun h event sound _ => side h event sound)
      fun h event sound orderly => orderly.seamless sound.1.named)
  · intro always
    exact (exactly.mp always).within sound (fun h event sound _ => side h event sound)
      fun h event sound seamless => seamless.uncontested sound.2

/-- The first consumer of a broker meets nobody. -/
theorem first_consumer_coherent : Coherent (run step (created {} (fun _ => 0) fun _ => true)
    [.command "c1" (.consume [] "jobs" "worker" none "" Uuid.u1)]) := by
  have nobody (id : String) : roster (created {} (fun _ => 0) fun _ => true) id = none := rfl
  have orderly : Orderly (created {} (fun _ => 0) fun _ => true)
      (.command "c1" (.consume [] "jobs" "worker" none "" Uuid.u1)) := by
    constructor
    · constructor <;> simp [nobody]
    · simp [nobody]
  exact ((registry_coherent {} (fun _ => 0) (fun _ => true)
    [.command "c1" (.consume [] "jobs" "worker" none "" Uuid.u1)]).1 ⟨orderly, trivial⟩
      _ (List.prefix_refl _)).1

/-- A consumer that is taken over by a second connection. -/
def takenOver : List Event :=
  [.command "c1" (.consume [] "jobs" "worker" none "" Uuid.u1),
    .command "c2" (.consume [] "jobs" "worker" none "" Uuid.u1)]

/-- The first connection still lists the consumer, and takes it along when it
is dropped. -/
theorem taken_over_still_listed :
    ¬ Coherent (run step (created {} (fun _ => 0) fun _ => true) takenOver) ∧
    ¬ DropsOwn (run step (created {} (fun _ => 0) fun _ => true) takenOver) := by
  have known : roster (run step (created {} (fun _ => 0) fun _ => true) takenOver) "worker" =
      some ("c2", ["jobs"]) := by decide +kernel
  constructor
  · intro coherent
    have listed : "worker" ∈ ConsumerManager.listed
        (run step (created {} (fun _ => 0) fun _ => true) takenOver).consumers "c1" := by
      decide +kernel
    obtain ⟨queues, mine⟩ := (coherent.listed "c1" "worker").mp listed
    rw [known] at mine
    simp at mine
  · intro own
    have gone : (drop (run step (created {} (fun _ => 0) fun _ => true) takenOver) "c1"
        ["worker"]).2.roster "worker" = none := by decide +kernel
    have same := own "c1" ["worker"] "worker" "c2" ["jobs"] known gone
    simp at same

end OneOpenBroker.Broker.Handler

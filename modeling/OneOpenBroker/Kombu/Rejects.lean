import OneOpenBroker.Broker.Quiet
import OneOpenBroker.Core.Acks
import OneOpenBroker.Core.FanOut
import OneOpenBroker.Kombu.Channel

/-! How many messages the broker holds of a task that is rejected. A reject that
requeues is a NACK, after which the broker has the message as before, and a
publish of the same message by kombu. Nothing but a publish adds a message, and
nothing but the last failure in a queue without a DLQ takes one. -/
namespace OneOpenBroker.Kombu
open Collections Systems OneOpenBroker.Core OneOpenBroker.Broker QueueEngine ConsumerManager Handler

namespace Channel

variable {t : Transport} {c : Channel} {h : Handler} {S : Set String} {id queue : String}
  {message : VirtualMessage} {tag : Nat}

/-! ## What the broker holds -/

theorem mem_held {e : QueueEngine} : id ∈ held e ↔ e.Held id := by
  simp only [held, List.mem_toFinset, List.mem_flatMap, Dict.mem_keys]
  constructor
  · rintro ⟨stored, listed, member⟩
    obtain ⟨name, found⟩ := Dict.mem_values.mp listed
    obtain ⟨message, there⟩ := Dict.mem_iff.mp member
    exact ⟨name, message, message?_some.mpr ⟨stored, found, there⟩⟩
  · rintro ⟨name, message, there⟩
    obtain ⟨stored, found, there⟩ := message?_some.mp there
    exact ⟨stored, Dict.mem_values.mpr ⟨name, found⟩, Dict.mem_of_get? there⟩

/-- All messages that the broker holds are of a set. -/
structure HeldIn (S : Set String) (h : Handler) : Prop where
  ordered : Ordered h
  among : ∀ id, h.queues.Held id → id ∈ S

/-- Nothing is published. -/
def silent : Guards where
  enqueue := fun _ _ => false

theorem HeldIn.fewer {h' : Handler} (inside : HeldIn S h) (ordered : Ordered h')
    (fewer : ∀ id, h'.queues.Held id → h.queues.Held id) : HeldIn S h' :=
  ⟨ordered, fun id held => inside.among id (fewer id held)⟩

theorem HeldIn.stepped (inside : HeldIn S h) (op : EngineOp) (admits : admits true h.queues op = []) :
    HeldIn S (h.withQueues (h.queues.step true op)) := by
  refine inside.fewer ⟨step_named inside.ordered.named op, inside.ordered.enrolled⟩ fun id held => ?_
  exact (step_held inside.ordered.named op held).resolve_right (by simp [admits])

theorem HeldIn.credit (inside : HeldIn S h) (consumerId : String) : HeldIn S (h.credited consumerId) :=
  ⟨credited_ordered inside.ordered, credited_queues.symm ▸ inside.among⟩

theorem held_kept (S : Set String) : Kept silent (HeldIn S) := by
  have same : HeldIn S = fun h : Handler => Ordered h ∧ ∀ id, h.queues.Held id → id ∈ S :=
    funext fun h => propext ⟨fun inside => ⟨inside.ordered, inside.among⟩, fun both => ⟨both.1, both.2⟩⟩
  rw [same]
  apply engine_kept (P := fun e => ∀ id, e.Held id → id ∈ S)
  · rintro e e' among alike id ⟨name, msg, there⟩
    exact among id ⟨name, msg, alike.messages ▸ there⟩
  · exact fun e op among _ => among
  · rintro _ e _ _ _ _ _ e' among takes id ⟨name, msg, there⟩
    rw [takes.messages] at there
    exact among id ⟨name, msg, there⟩
  · intro e op named among published id held
    refine among id ((step_held named op held).resolve_right ?_)
    cases op with
    | enqueue message => exact absurd rfl (published message)
    | _ => simp [admits]
  · intro _ _ _ _ ok
    cases ok

/-! ## Puts -/

section Puts

variable {made : String → Message} {targets routed : List String} {lastId : String} {e : QueueEngine}
  {args : PublishArgs} {stamp : String → Stamp} {stamps : Nat → String → Stamp} {queues : List String}

/-- The loop over the targets adds some of them to those that it returns. -/
theorem fanOut_routed (made : String → Message) (targets routed : List String) (lastId : String)
    (e : QueueEngine) : ∃ more, more.length ≤ targets.length ∧
      (RoutingEngine.fanOut made true targets routed lastId e).1.2.1 = routed ++ more := by
  induction targets generalizing e routed lastId with
  | nil => exact ⟨[], le_rfl, (List.append_nil _).symm⟩
  | cons target rest ih =>
    rcases RoutingEngine.target_cases e (made target) true with absent | ⟨_, found, full⟩ | ⟨_, accepts⟩
    · rw [RoutingEngine.fanOut_missing absent]
      obtain ⟨more, few, shape⟩ := ih routed lastId e
      exact ⟨more, few.trans (Nat.le_succ _), shape⟩
    · rw [RoutingEngine.fanOut_full found full]
      exact ⟨[], Nat.zero_le _, (List.append_nil _).symm⟩
    · rw [RoutingEngine.fanOut_accepts accepts]
      obtain ⟨more, few, shape⟩ := ih (routed ++ [target]) (made target).id (e.enqueue (made target) true).2
      exact ⟨target :: more, Nat.succ_le_succ few, by rw [shape, List.append_assoc]; rfl⟩

/-- The loop over the targets adds one message for each target that it returns. -/
theorem fanOut_held (held : (RoutingEngine.fanOut made true targets routed lastId e).2.Held id) :
    e.Held id ∨ ∃ target ∈ (RoutingEngine.fanOut made true targets routed lastId e).1.2.1,
      (made target).id = id := by
  induction targets generalizing e routed lastId with
  | nil => exact .inl held
  | cons target rest ih =>
    rcases RoutingEngine.target_cases e (made target) true with absent | ⟨_, found, full⟩ | ⟨_, accepts⟩
    · rw [RoutingEngine.fanOut_missing absent] at held ⊢
      exact ih held
    · rw [RoutingEngine.fanOut_full found full] at held
      exact .inl held
    · rw [RoutingEngine.fanOut_accepts accepts] at held ⊢
      rcases ih held with ⟨name, msg, there⟩ | later
      · rw [accepts.message?] at there
        split at there
        · rename_i here
          obtain ⟨more, _, shape⟩ := fanOut_routed made rest (routed ++ [target]) (made target).id
            (e.enqueue (made target) true).2
          exact .inr ⟨target, by simp [shape], here.2.symm⟩
        · exact .inl ⟨name, msg, there⟩
      · exact .inr later

theorem publish_held {r : RoutingEngine} (unnamed : args.messageId = none)
    (held : (r.publish args stamp).2.queues.Held id) :
    r.queues.Held id ∨ id ∈ (r.publish args stamp).1.2.1.map fun target => (stamp target).uuid := by
  have same := (RoutingEngine.ensureQueue_observe r args true).1
  unfold RoutingEngine.publish at held ⊢
  rcases shape : r.ensureQueue args true with ⟨ensured, exchange, routingKey⟩
  rw [shape] at same held
  dsimp only at same held ⊢
  have before : ensured.queues.Held id → r.queues.Held id := by
    rintro ⟨name, msg, there⟩
    exact ⟨name, msg, same ▸ there⟩
  split at held
  · rename_i known
    split at held
    · exact .inl (before held)
    · rename_i some_target
      rw [if_pos known, if_neg some_target]
      rcases fanOut_held held with earlier | ⟨target, listed, here⟩
      · exact .inl (before earlier)
      · refine .inr (List.mem_map.mpr ⟨target, listed, ?_⟩)
        rw [← here]
        simp [RoutingEngine.messageFor, unnamed, orText]
  · exact .inl (before held)

theorem pumps_silent (queues : List String) (h : Handler) : silent.pumps queues h = true :=
  Guards.pumps_free (fun _ _ => rfl) queues h

theorem put_held (t : Transport) (queue : String) (message : VirtualMessage) (stamp : String → Stamp)
    (inside : HeldIn S h) :
    HeldIn (S ∪ {id | id ∈ (put t h queue message stamp).ids}) (put t h queue message stamp).handler := by
  have published : HeldIn (S ∪ {id | id ∈ (put t h queue message stamp).ids})
      { h with routing := (h.routing.publish (putArgs t queue message) stamp).2 } := by
    refine ⟨ordered_kept.upheld.publish inside.ordered ?_, fun id held => ?_⟩
    · exact Guards.enqueues_free (fun _ _ => rfl) _ _ _
    · rcases publish_held rfl held with before | new
      · exact .inl (inside.among id before)
      · exact .inr new
  have cases : (h.cmdPublish (putArgs t queue message) stamp).2 =
        { h with routing := (h.routing.publish (putArgs t queue message) stamp).2 } ∨
      (h.cmdPublish (putArgs t queue message) stamp).2 =
        Handler.pumpAll { h with routing := (h.routing.publish (putArgs t queue message) stamp).2 }
          (h.routing.publish (putArgs t queue message) stamp).1.2.1 := by
    unfold cmdPublish
    rcases h.routing.publish (putArgs t queue message) stamp with ⟨⟨id, routed, result⟩, routing⟩
    dsimp only
    split
    · exact .inl rfl
    · split
      · exact .inl rfl
      · exact .inr rfl
  change HeldIn _ (h.cmdPublish (putArgs t queue message) stamp).2
  rcases cases with same | pumped
  · rw [same]
    exact published
  · rw [pumped]
    exact (held_kept _).upheld.pumpAll published (pumps_silent _ _)

theorem HeldIn.mono {S' : Set String} (inside : HeldIn S h) (more : S ⊆ S') : HeldIn S' h :=
  ⟨inside.ordered, fun id held => more (inside.among id held)⟩

theorem putAll_held (t : Transport) (message : VirtualMessage) (queues : List String)
    (stamps : Nat → String → Stamp) (inside : HeldIn S h) :
    HeldIn (S ∪ {id | id ∈ (putAll t message queues stamps h).ids})
      (putAll t message queues stamps h).handler := by
  induction queues generalizing h S stamps with
  | nil => exact inside.mono Set.subset_union_left
  | cons queue rest ih =>
    have first := put_held t queue message (stamps 0) inside
    unfold putAll
    dsimp only
    split
    · refine (ih _ first).mono ?_
      rintro id ((before | here) | later)
      · exact .inl before
      · exact .inr (List.mem_append_left _ here)
      · exact .inr (List.mem_append_right _ later)
    · exact first

end Puts

/-! ## The NACK -/

theorem settled_silent (h : Handler) (consumerId : String) : silent.settled h consumerId = true :=
  Guards.settled_free (fun _ _ => rfl) h consumerId

theorem cmdNack_held {requeue : Bool} (inside : HeldIn S h) : HeldIn S (h.cmdNack id requeue).2 := by
  have free : silent.command h "" (.nack id requeue) = true := by
    unfold Guards.command
    simp [settled_silent]
  exact (held_kept S).upheld.nacks inside free

/-- A message on its last attempt, in a queue without a DLQ, is gone. -/
theorem nack_gone {e : QueueEngine} (named : e.Named) (givesUp : givesUp e id = true) :
    (e.nack id true).1 = .ok ∧ ¬ (e.nack id true).2.Held id ∧ e.Held id := by
  unfold Channel.givesUp at givesUp
  split at givesUp
  · cases givesUp
  · rename_i stored found
    split at givesUp
    · cases givesUp
    · rename_i message there
      simp only [Bool.and_eq_true, decide_eq_true_eq, Bool.not_eq_true'] at givesUp
      obtain ⟨⟨⟨flying, spent⟩, off⟩, alone⟩ := givesUp
      obtain ⟨name, indexed, found⟩ := Option.bind_eq_some_iff.mp found
      have holds : e.message? name id = some message := message?_some.mpr ⟨stored, found, there⟩
      have filed := named.filed holds
      have result : (e.nack id true).1 = .ok := by
        have view : (stored.endDelivery id).messages.get? id = some message := there
        simp [nack, indexed, found, flying, view]
      refine ⟨result, ?_, ⟨name, message, holds⟩⟩
      have nacks : e.Nacks id true true name stored message := ⟨indexed, found, flying, there, result⟩
      have known : e.spec? name = some stored.spec := spec?_of_get found
      rintro ⟨q, msg, left⟩
      have only : ∀ q msg, e.message? q id = some msg → q = name := by
        intro q msg held
        exact (filedAlone_iff.mp alone q msg (filed.1.symm ▸ held)).trans filed.2
      cases nacks.exit named with
      | gone absent => rw [holds] at absent; cases absent
      | retried message' due held' again below =>
        rw [holds] at held'
        cases held'
        omega
      | moved message' spec held' known' on =>
        rw [known] at known'
        cases known'
        rw [off] at on
        cases on
      | dropped message' spec held' known' off' spent' messages =>
        rw [messages] at left
        split at left
        · cases left
        · rename_i elsewhere
          exact elsewhere ⟨only q msg left, rfl⟩

/-- What the broker holds after the NACK of a reject. -/
theorem nacked_held (ordered : Ordered c.handler) (found : c.oneopenId tag = some id) :
    HeldIn {other | c.handler.queues.Held other ∧ (c.dropped tag = 1 → other ≠ id)} (c.nacked tag true) ∧
      (c.dropped tag = 0 ∨ c.dropped tag = 1 ∧ c.handler.queues.Held id) := by
  have all : HeldIn {other | c.handler.queues.Held other} c.handler := ⟨ordered, fun _ held => held⟩
  unfold dropped nacked
  rw [found]
  dsimp only
  by_cases goes : id ≠ "" ∧ givesUp c.handler.queues id
  · obtain ⟨result, gone, held⟩ := nack_gone ordered.named goes.2
    rw [if_pos goes, if_neg goes.1]
    refine ⟨?_, .inr ⟨rfl, held⟩⟩
    have nacked : HeldIn {other | c.handler.queues.Held other ∧ ((1 : Nat) = 1 → other ≠ id)}
        ((c.handler.withQueues (c.handler.queues.nack id true).2).credited
          (c.handler.settledFor id)) := by
      have stepped := all.stepped (.nack id true) rfl
      have without : HeldIn {other | c.handler.queues.Held other ∧ ((1 : Nat) = 1 → other ≠ id)}
          (c.handler.withQueues (c.handler.queues.nack id true).2) := by
        refine ⟨stepped.ordered, fun other left => ⟨stepped.among other left, fun _ same => ?_⟩⟩
        exact gone (same ▸ left)
      exact without.credit _
    have settled := (held_kept _).upheld.settled nacked (settled_silent _ _)
    unfold cmdNack
    rw [if_neg goes.1]
    dsimp only
    rw [if_pos result]
    exact settled
  · rw [if_neg goes]
    refine ⟨?_, .inl rfl⟩
    have nacked : HeldIn {other | c.handler.queues.Held other}
        (if id = "" then c.handler else (c.handler.cmdNack id true).2) := by
      split
      · exact all
      · exact cmdNack_held all
    exact nacked.mono fun other held => ⟨held, fun one => nomatch one⟩

/-! ## The puts of a reject -/

section Targets

variable {made : String → Message} {targets routed : List String} {lastId : String} {e : QueueEngine}
  {stamp : String → Stamp} {stamps : Nat → String → Stamp} {r r' : RoutingEngine}

theorem Unshared.congr (unshared : Unshared r queue) (exchanges : r'.exchanges = r.exchanges)
    (bindings : ∀ binding ∈ r'.bindings, binding ∈ r.bindings ∨ binding.queue = queue) :
    Unshared r' queue := by
  intro target listed
  obtain ⟨ex, found, binding, member, rest⟩ := RoutingEngine.mem_routeTargets.mp listed
  rw [exchanges] at found
  rcases bindings binding member with before | new
  · exact unshared target (RoutingEngine.mem_routeTargets.mpr ⟨ex, found, binding, before, rest⟩)
  · exact rest.2.2.symm.trans new

/-- The queue that a put names is bound to the default exchange by its own name. -/
theorem ensureQueue_unshared (unshared : Unshared r queue) :
    ∃ r' exchange, r.ensureQueue (putArgs t queue message) true = (r', exchange, queue) ∧
      exchange.getD defaultExchange = defaultExchange ∧ Unshared r' queue := by
  unfold RoutingEngine.ensureQueue putArgs
  dsimp only
  by_cases empty : queue = ""
  · rw [if_neg fun both => both.1 empty]
    exact ⟨r, none, by rw [empty], rfl, unshared⟩
  · rw [if_pos ⟨empty, rfl⟩, if_pos rfl]
    split
    · exact ⟨r, some defaultExchange, rfl, rfl, unshared⟩
    · refine ⟨_, some defaultExchange, rfl, rfl, unshared.congr ?_ fun binding member => ?_⟩
      · unfold RoutingEngine.onQueueDeclared RoutingEngine.bind
        split <;> rfl
      · unfold RoutingEngine.onQueueDeclared RoutingEngine.bind at member
        split at member
        · rcases List.mem_insert_iff.mp member with rfl | before
          · exact .inr rfl
          · exact .inl before
        · exact .inl member

/-- A put to a queue that shares its name with no other adds one message at most. -/
theorem put_single (unshared : Unshared h.routing queue) :
    (put t h queue message stamp).ids.length ≤ 1 := by
  obtain ⟨r', exchange, shape, default, unshared'⟩ : ∃ r' exchange,
      h.routing.ensureQueue (putArgs t queue message) true = (r', exchange, queue) ∧
        exchange.getD defaultExchange = defaultExchange ∧ Unshared r' queue := ensureQueue_unshared unshared
  have few : (h.routing.publish (putArgs t queue message) stamp).1.2.1.length ≤ 1 := by
    unfold RoutingEngine.publish
    rw [shape]
    dsimp only
    rw [default]
    split
    · split
      · exact Nat.zero_le _
      · obtain ⟨more, few, routed⟩ := fanOut_routed (RoutingEngine.messageFor r'.queues
          (putArgs t queue message) defaultExchange queue
          ((r'.routeTargets defaultExchange queue).length = 1) stamp)
          (r'.routeTargets defaultExchange queue) [] "" r'.queues
        rw [routed, List.nil_append]
        exact few.trans (RoutingEngine.routeTargets_short unshared')
    · exact Nat.zero_le _
  simpa [put] using few

theorem nacked_unshared (unshared : Unshared c.handler.routing queue) :
    Unshared (c.nacked tag true).routing queue := by
  have quiet : Quiet c.handler (c.nacked tag true) := by
    unfold nacked
    split
    · exact .refl _
    · split
      · exact .refl _
      · exact cmdNack_quiet
  exact unshared.congr quiet.exchanges fun binding member => .inl (quiet.bindings ▸ member)

/-- What is put is no more than what the NACK took. -/
theorem restore_few (balanced : t.lookup message.exchange message.routingKey = [] ∨
      ∃ queue, t.lookup message.exchange message.routingKey = [queue] ∧
        Unshared c.handler.routing queue ∧ c.dropped tag = 1) :
    (c.restore t tag message stamps).ids.length ≤ c.dropped tag := by
  unfold restore
  rcases balanced with nowhere | ⟨queue, single, unshared, drops⟩
  · rw [nowhere]
    exact Nat.zero_le _
  · have few : (put t (c.nacked tag true) queue message (stamps 0)).ids.length ≤ 1 :=
      put_single (nacked_unshared unshared)
    rw [single, drops]
    unfold putAll
    dsimp only
    split
    · simpa [putAll] using few
    · exact few

end Targets

/-! ## The reject -/

theorem copied_original {task : String} {ids : List String} :
    (c.copied task ids).original id = if id ∈ ids then task else c.original id := by
  have entries : ∀ copyOf : Dict String String,
      (ids.foldl (fun copyOf id => copyOf.set id task) copyOf).get? id =
        if id ∈ ids then some task else copyOf.get? id := by
    induction ids with
    | nil => simp
    | cons first rest ih =>
      intro copyOf
      rw [List.foldl_cons, ih, Dict.get?_set]
      by_cases later : id ∈ rest
      · simp [later]
      · simp [later]
  unfold original copied
  rw [entries]
  split <;> rfl

/-- The copies of the task are those that the NACK left and those that were put. -/
theorem reject_copies {stamps : Nat → String → Stamp} (ordered : Ordered c.handler)
    (balanced : ∀ message, c.delivered.get? tag = some message →
      (c.restore t tag message stamps).ids.length ≤ c.dropped tag) :
    c.NoMore t (.basicReject tag true stamps) := by
  intro id found
  obtain ⟨message, stored, header⟩ := Option.bind_eq_some_iff.mp found
  have few := balanced message stored
  obtain ⟨nacked, one⟩ := nacked_held ordered found
  have after := putAll_held t message (t.lookup message.exchange message.routingKey) stamps nacked
  change HeldIn (_ ∪ {other | other ∈ (c.restore t tag message stamps).ids})
    (c.restore t tag message stamps).handler at after
  have shape : (c.step t (.basicReject tag true stamps)).copies (c.original id) =
      ((held (c.restore t tag message stamps).handler.queues).filter fun other =>
        (c.copied (c.original id) (c.restore t tag message stamps).ids).original other =
          c.original id).card := by
    simp only [step, basicReject, if_pos, stored, header, Option.getD_some]
    rfl
  rw [shape]
  generalize c.restore t tag message stamps = restored at few after
  let before := (held c.handler.queues).filter (c.original · = c.original id)
  let kept := if c.dropped tag = 1 then before.erase id else before
  have within : ((held restored.handler.queues).filter fun other =>
      (c.copied (c.original id) restored.ids).original other = c.original id) ⊆
        kept ∪ restored.ids.toFinset := by
    intro other member
    obtain ⟨held', same⟩ := Finset.mem_filter.mp member
    rw [copied_original] at same
    by_cases new : other ∈ restored.ids
    · exact Finset.mem_union_right _ (List.mem_toFinset.mpr new)
    · rw [if_neg new] at same
      obtain ⟨there, differ⟩ := (after.among other (mem_held.mp held')).resolve_right new
      have copy : other ∈ before := Finset.mem_filter.mpr ⟨mem_held.mpr there, same⟩
      refine Finset.mem_union_left _ ?_
      unfold kept
      split
      · rename_i drops
        exact Finset.mem_erase.mpr ⟨differ drops, copy⟩
      · exact copy
  have left : kept.card + c.dropped tag = before.card := by
    unfold kept
    rcases one with none | ⟨drops, there⟩
    · simp [none]
    · have copy : id ∈ before := Finset.mem_filter.mpr ⟨mem_held.mpr there, rfl⟩
      rw [if_pos drops, drops]
      exact Finset.card_erase_add_one copy
  calc _ ≤ (kept ∪ restored.ids.toFinset).card := Finset.card_le_card within
    _ ≤ kept.card + restored.ids.toFinset.card := Finset.card_union_le _ _
    _ ≤ kept.card + restored.ids.length := Nat.add_le_add_left (List.toFinset_card_le _) _
    _ ≤ kept.card + c.dropped tag := Nat.add_le_add_left few _
    _ = c.copies (c.original id) := left

/-! ## Runs -/

/-- A channel that was just opened, on a broker in any state that it can get to. -/
def opened (h : Handler) : Channel := { handler := h }

theorem putAll_reachable {stamps : Nat → String → Stamp} {queues : List String}
    (reached : Reachable {} h) : Reachable {} (putAll t message queues stamps h).handler := by
  induction queues generalizing h stamps with
  | nil => exact reached
  | cons queue rest ih =>
    have first : Reachable {} (put t h queue message (stamps 0)).handler :=
      reached.step (.command t.connectionId (.publish (putArgs t queue message) (stamps 0)))
        (Guards.event_free _ _)
    unfold putAll
    dsimp only
    split
    · exact ih first
    · exact first

theorem nacked_reachable {requeue : Bool} (reached : Reachable {} c.handler) :
    Reachable {} (c.nacked tag requeue) := by
  unfold nacked
  split
  · exact reached
  · split
    · exact reached
    · exact reached.step (.command "" (.nack _ requeue)) (Guards.event_free _ _)

/-- Every call of a channel is a sequence of commands to the broker. -/
theorem step_reachable (reached : Reachable {} c.handler) (action : ChannelStep) :
    Reachable {} (c.step t action).handler := by
  cases action with
  | basicPublish message stamps => exact putAll_reachable reached
  | basicGet queue tag =>
    have got : Reachable {} (c.handler.cmdGet t.connectionId queue "" none).2 :=
      reached.step (.command t.connectionId (.get queue "" none)) (Guards.event_free _ _)
    unfold step basicGet
    dsimp only
    split
    · rename_i shape
      rw [shape] at got
      split <;> exact got
    · rename_i shape
      rw [shape] at got
      exact got
  | basicAck tag =>
    unfold step basicAck
    dsimp only
    split
    · exact reached
    · split
      · exact reached
      · exact reached.step (.command t.connectionId (.ack _)) (Guards.event_free _ _)
  | basicReject tag requeue stamps =>
    unfold step basicReject
    dsimp only
    split
    · split
      · exact nacked_reachable reached
      · exact putAll_reachable (nacked_reachable reached)
    · exact nacked_reachable reached
  | broker event => exact reached.step event (Guards.event_free _ _)

theorem Balanced.noMore {action : ChannelStep} (ordered : Ordered c.handler)
    (balanced : c.Balanced t action) : c.NoMore t action := by
  cases action with
  | basicReject tag requeue stamps =>
    cases requeue with
    | true => exact reject_copies ordered fun message stored => restore_few (balanced message stored)
    | false => trivial
  | basicPublish | basicGet | basicAck | broker => trivial

/-- **Rejects of the kombu channel.** In every run of a channel, with anything
that happens at the broker meanwhile, in which each reject that requeues finds no
queue to put its message to, or one after a NACK that drops the message, no such
reject leaves more copies of its task than there were. -/
theorem rejects_keep_copies (t : Transport) (h : Handler) (steps : List ChannelStep)
    (reached : Reachable {} h) (balanced : Allowed (step t) (Balanced t) (opened h) steps) :
    Allowed (step t) (NoMore t) (opened h) steps := by
  have start : Reachable {} (opened h).handler := reached
  generalize opened h = c at start balanced
  induction steps generalizing c with
  | nil => trivial
  | cons action rest ih =>
    exact ⟨balanced.1.noMore start.ordered, ih _ (step_reachable start action) balanced.2⟩

/-- A serializer of messages for one queue, whose name is the routing key. -/
def serving (queue : String) : Transport where
  dumps message := message.content
  loads payload := some { exchange := "tasks", routingKey := queue, content := payload }
  lookup _ routingKey := [routingKey]
  connectionId := "c1"

/-- A task is published, read and rejected. -/
def rejected (queue : String) : List ChannelStep :=
  [.broker (.connect "c1"),
    .basicPublish { exchange := "tasks", routingKey := queue, content := [1] } fun _ _ => ⟨"m1", 0⟩,
    .basicGet queue 1,
    .basicReject 1 true fun _ _ => ⟨"m2", 0⟩]

/-- On its last attempt in a DLQ the task is dropped by the NACK and published again. -/
theorem rejects_keep_copies_dlq : Allowed (step (serving "jobs.DLQ")) (NoMore (serving "jobs.DLQ"))
    (opened (created { maxAttempts := 1 } (fun _ => 0) fun _ => true)) (rejected "jobs.DLQ") := by
  refine rejects_keep_copies _ _ _ (.start _ _ _) ⟨trivial, trivial, trivial, ?_, trivial⟩
  intro message stored
  let got : VirtualMessage :=
    { exchange := "tasks", routingKey := "jobs.DLQ", oneopenId := some "m1", content := [1] }
  have read : some message = some got := stored.symm.trans (by decide +kernel)
  obtain rfl := Option.some.inj read
  refine .inr ⟨"jobs.DLQ", rfl, ?_, by decide +kernel⟩
  unfold Unshared
  decide +kernel

/-- The broker retries the task, and kombu publishes it once more. -/
theorem reject_duplicates : ¬ ∀ steps, Allowed (step (serving "jobs")) (NoMore (serving "jobs"))
    (opened (created {} (fun _ => 0) fun _ => true)) steps := by
  intro always
  have last := (always (rejected "jobs")).2.2.2.1 "m1" (by decide +kernel)
  exact absurd last (by decide +kernel)

end Channel
end OneOpenBroker.Kombu

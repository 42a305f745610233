import OneOpenBroker.Core.Conservation

/-! Acknowledgements. An ack settles a delivery when it reaches it, and it
reaches it through two tables that may be wrong about it: the recent acks,
which remember an id after its message is gone, and the index, which knows
one queue for an id. What an ack removed does not come back. -/
namespace OneOpenBroker.Core.QueueEngine
open Collections Systems

/-- Some queue has a delivery of the id outstanding. -/
def Inflight (e : QueueEngine) (m : String) : Prop := ∃ q record, e.record? q m = some record

/-- What the answer to an ack promises: it settles what is inflight, it
changes nothing else, and it never calls a delivery acked that is not. -/
structure AckExact (e : QueueEngine) (m : String) (persist : Bool) : Prop where
  settles : e.Inflight m → (e.ack m persist).1 = .ok ∧ ¬ (e.ack m persist).2.Held m ∧
    ¬ (e.ack m persist).2.Inflight m ∧ m ∉ (e.ack m persist).2.byId
  refuses : ¬ e.Inflight m → (e.ack m persist).1 ≠ .ok ∧ (e.ack m persist).2 = e
  honest : (e.ack m persist).1 = .alreadyAcked → ¬ e.Inflight m

/-- A delivery of the id can be reached: no ack of the id is remembered, and
it is the queue that holds the message that has the delivery. -/
def Reached (e : QueueEngine) (m : String) : Prop :=
  m ∉ e.recentAcks ∧ ∀ q record, e.record? q m = some record → e.byId.get? m = some q

variable {e : QueueEngine} {m q name : String} {queue : DurableQueue} {message : Message}
  {persist : Bool} {record : InflightRecord}

theorem inflight_of_found (found : e.queues.get? name = some queue) (there : m ∈ queue.inflight) :
    e.Inflight m := by
  obtain ⟨record, held⟩ := Dict.mem_iff.mp there
  exact ⟨name, record, (record?_of_get found).trans held⟩

/-- A delivery in the queue that the index names is settled, unless an ack of
its id is remembered. -/
theorem ack_settles (fresh : m ∉ e.recentAcks) (indexed : e.byId.get? m = some q)
    (flying : e.record? q m = some record) : ∃ queue, e.Settles m persist q queue := by
  obtain ⟨queue, found, inflight⟩ := record?_some.mp flying
  rcases ack_cases e m persist with ⟨name, other, settles⟩ | ⟨refused, _⟩
  · have same : name = q := Option.some.inj (settles.indexed.symm.trans indexed)
    subst same
    exact ⟨other, settles⟩
  · exfalso
    apply refused
    simp [ack, fresh, indexed, found, Dict.mem_of_get? inflight]

/-- An ack that settles leaves nothing of the message behind. -/
theorem Settles.gone (settles : e.Settles m persist name queue) (filed : e.Filed) :
    ¬ (e.ack m persist).2.Held m ∧ m ∉ (e.ack m persist).2.byId := by
  constructor
  · rintro ⟨q, message, held⟩
    rw [settles.message?] at held
    by_cases here : q = name
    · rw [if_pos ⟨here, rfl⟩] at held
      cases held
    · rw [if_neg (fun both => here both.1)] at held
      have indexed := filed.indexed.filed q m message held
      rw [settles.indexed] at indexed
      exact here (Option.some.inj indexed).symm
  · rw [settles.byId]
    simp

/-- An ack is exact exactly when the deliveries of its id can be reached. -/
theorem ack_exact_iff (reached : Reachable FreshIds e) :
    AckExact e m persist ↔ (e.Inflight m → e.Reached m) := by
  have filed : e.Filed := reached.filed fun _ _ ok => ok
  constructor
  · rintro exact' inflight
    obtain ⟨ok, _, ended, _⟩ := exact'.settles inflight
    rcases ack_cases e m persist with ⟨name, queue, settles⟩ | ⟨refused, _⟩
    · refine ⟨settles.fresh, fun q record flying => ?_⟩
      by_contra elsewhere
      have differ : q ≠ name := by
        rintro rfl
        exact elsewhere settles.indexed
      apply ended
      refine ⟨q, record, ?_⟩
      rw [settles.record?, if_neg (fun both => differ both.1)]
      exact flying
    · exact absurd ok refused
  · intro reachable
    refine ⟨fun inflight => ?_, fun idle => ?_, fun already inflight => ?_⟩
    · obtain ⟨fresh, here⟩ := reachable inflight
      obtain ⟨q, record, flying⟩ := inflight
      obtain ⟨queue, settles⟩ : ∃ queue, e.Settles m persist q queue :=
        ack_settles fresh (here q record flying) flying
      obtain ⟨gone, forgotten⟩ := settles.gone filed
      refine ⟨settles.result, gone, ?_, forgotten⟩
      rintro ⟨q', record', left⟩
      rw [settles.record?] at left
      split at left
      · cases left
      · rename_i other
        have same := (here q' record' left).symm.trans settles.indexed
        exact other ⟨Option.some.inj same, rfl⟩
    · rcases ack_cases e m persist with ⟨name, queue, settles⟩ | ⟨refused, same⟩
      · exact absurd (inflight_of_found settles.found settles.inflight) idle
      · exact ⟨refused, same⟩
    · obtain ⟨fresh, here⟩ := reachable inflight
      obtain ⟨q, record, flying⟩ := inflight
      obtain ⟨queue, settles⟩ : ∃ queue, e.Settles m persist q queue :=
        ack_settles fresh (here q record flying) flying
      rw [settles.result] at already
      cases already

/-- An id is published, acked, and published and delivered again. -/
def reusedId : List EngineOp := [
  .declareQueue "jobs" {},
  .enqueue { id := "m1", queue := "jobs", payload := [1], createdAt := 0 },
  .reserve "jobs" "worker", .ack "m1",
  .enqueue { id := "m1", queue := "jobs", payload := [2], createdAt := 1 },
  .reserve "jobs" "worker"]

/-- The ack of the second delivery is taken for a repetition of the first. -/
theorem reused_id_already_acked : Reachable FreshIds (run (step true) created reusedId) ∧
    ((run (step true) created reusedId).record? "jobs" "m1").isSome = true ∧
    ((run (step true) created reusedId).ack "m1" true).1 = .alreadyAcked ∧
    ¬ AckExact (run (step true) created reusedId) "m1" true := by
  have there : ((run (step true) created reusedId).record? "jobs" "m1").isSome = true := by
    decide +kernel
  have already : ((run (step true) created reusedId).ack "m1" true).1 = .alreadyAcked := by
    decide +kernel
  refine ⟨reachable_run (.start {} fun _ => 0) (by decide +kernel), there, already, fun exact' => ?_⟩
  obtain ⟨record, flying⟩ := Option.isSome_iff_exists.mp there
  exact exact'.honest already ⟨"jobs", record, flying⟩

/-- A message that is out for delivery for the first time is acked exactly. -/
theorem ack_exact_delivered : AckExact (run (step true) created deliveredRun) "m1" true ↔
    ((run (step true) created deliveredRun).Inflight "m1" →
      (run (step true) created deliveredRun).Reached "m1") :=
  ack_exact_iff (reachable_run (.start {} fun _ => 0) (by decide +kernel))

/-! ## Gone for the rest of the run -/

/-- The id that an operation publishes, if the queue accepts it. -/
def admits (persist : Bool) (e : QueueEngine) : EngineOp → List String
  | .enqueue message => if (e.enqueue message persist).1 = .ok then [message.id] else []
  | _ => []

/-- The ids whose publish was accepted in a run. -/
def admitted (persist : Bool) (e : QueueEngine) : List EngineOp → List String
  | [] => []
  | op :: rest => admits persist e op ++ admitted persist (e.step persist op) rest

theorem admitted_append {first second : List EngineOp} : admitted persist e (first ++ second) =
    admitted persist e first ++ admitted persist (run (step persist) e first) second := by
  induction first generalizing e with
  | nil => rfl
  | cons op rest ih =>
    rw [List.cons_append, admitted, admitted, ih, List.append_assoc]
    rfl

/-- Nothing is held after a failed delivery that was not held before. -/
theorem Exit.held_before {e' : QueueEngine} {requeue : Bool} {written : List JournalOp} {id : String}
    (exit : Exit e name id requeue persist written e') (held : e'.Held m) : e.Held m := by
  obtain ⟨q, msg, there⟩ := held
  cases exit with
  | gone _ messages => exact ⟨q, msg, messages ▸ there⟩
  | retried message due before _ _ messages =>
    rw [messages] at there
    split at there
    · rename_i same
      exact ⟨name, message, same.2 ▸ before⟩
    · exact ⟨q, msg, there⟩
  | moved message spec before _ _ _ messages =>
    rw [messages] at there
    split at there
    · rename_i same
      exact ⟨name, message, same.2 ▸ before⟩
    · split at there
      · cases there
      · exact ⟨q, msg, there⟩
  | dropped message spec before _ _ _ messages =>
    rw [messages] at there
    split at there
    · cases there
    · exact ⟨q, msg, there⟩

theorem Requeue.held_before {e' : QueueEngine} {queueName id : String} {result : Bool}
    (requeue : Requeue e queueName id persist result e') (held : e'.Held m) : e.Held m := by
  obtain ⟨q, msg, there⟩ := held
  cases requeue with
  | missing => exact ⟨q, msg, there⟩
  | moved message _ before messages =>
    rw [messages] at there
    split at there
    · rename_i same
      exact ⟨_, message, same.2 ▸ before⟩
    · split at there
      · cases there
      · exact ⟨q, msg, there⟩
  | refused message _ before messages =>
    rw [messages] at there
    split at there
    · rename_i same
      exact ⟨_, message, same.2 ▸ before⟩
    · exact ⟨q, msg, there⟩

/-- An operation makes nothing held but the message that it admits. -/
theorem step_held (named : e.Named) (op : EngineOp) (held : (e.step persist op).Held m) :
    e.Held m ∨ m ∈ admits persist e op := by
  have sweep : ∀ e' : QueueEngine, (e'.Named ∧ (e'.Held m → e.Held m)) → ∀ name id persist,
      (e'.failDelivery name id persist).2.Named ∧
        ((e'.failDelivery name id persist).2.Held m → e.Held m) :=
    fun e' both name id persist => ⟨failDelivery_named both.1,
      fun after => both.2 ((failDelivery_exit both.1).held_before after)⟩
  cases op with
  | declareQueue name args =>
    obtain ⟨q, msg, there⟩ := held
    refine .inl ⟨q, msg, ?_⟩
    have same : (e.declareQueue name args persist).message? = e.message? := declareQueue_observe.1
    rw [← same]
    exact there
  | deleteQueue name =>
    classical
    obtain ⟨q, msg, there⟩ := held
    change (e.deleteQueue name persist).2.message? q m = some msg at there
    rw [deleteQueue_message?] at there
    split at there
    · cases there
    · exact .inl ⟨q, msg, there⟩
  | enqueue message =>
    rcases enqueue_cases e message persist with ⟨queue, accepts⟩ | ⟨_, same⟩
    · obtain ⟨q, msg, there⟩ := held
      change (e.enqueue message persist).2.message? q m = some msg at there
      rw [accepts.message?] at there
      split at there
      · rename_i here
        refine .inr ?_
        have ok : (e.enqueue message persist).1 = .ok := congrArg Prod.fst accepts.2.2
        simp [admits, ok, here.2]
      · exact .inl ⟨q, msg, there⟩
    · change (e.enqueue message persist).2.Held m at held
      rw [same] at held
      exact .inl held
  | reserve queueName consumerId =>
    obtain ⟨q, msg, there⟩ := held
    change (e.reserve queueName consumerId).2.message? q m = some msg at there
    rw [reserve_message?] at there
    exact .inl ⟨q, msg, there⟩
  | ack messageId =>
    change (e.ack messageId persist).2.Held m at held
    rcases ack_cases e messageId persist with ⟨name, queue, settles⟩ | ⟨_, same⟩
    · obtain ⟨q, msg, there⟩ := held
      rw [settles.message?] at there
      split at there
      · cases there
      · exact .inl ⟨q, msg, there⟩
    · rw [same] at held
      exact .inl held
  | nack messageId requeue =>
    change (e.nack messageId requeue persist).2.Held m at held
    rcases nack_cases e messageId requeue persist with ⟨name, queue, message, nacks⟩ |
      ⟨_, same | ⟨name, queue, _, found, _, shape⟩⟩
    · exact .inl ((nacks.exit named).held_before held)
    · rw [same] at held
      exact .inl held
    · obtain ⟨messages, _, _⟩ := endDelivery_observe messageId found
        (show (e.putQueue name (queue.endDelivery messageId)).queues = _ from rfl)
      obtain ⟨q, msg, there⟩ := held
      rw [shape, messages] at there
      exact .inl ⟨q, msg, there⟩
  | recoverConsumer consumerId =>
    have both : (e.recoverConsumer consumerId persist).2.Named ∧
        ((e.recoverConsumer consumerId persist).2.Held m → e.Held m) :=
      recoverConsumer_preserves (I := fun e' => e'.Named ∧ (e'.Held m → e.Held m))
        (fun _ both => both.1) (fun e' name id _ both _ _ => sweep e' both name id persist)
        ⟨named, fun before => before⟩
    exact .inl (both.2 held)
  | tick now =>
    have both : (e.tick now).2.Named ∧ ((e.tick now).2.Held m → e.Held m) := by
      refine tick_preserves (I := fun e' => e'.Named ∧ (e'.Held m → e.Held m)) ?_
        (fun e' name id _ both _ _ => sweep e' both name id true) (fun _ _ _ _ both => both)
        ⟨named, fun before => before⟩
      intro e' name id both
      refine ⟨releaseOne_named both.1, fun after => both.2 ?_⟩
      obtain ⟨q, msg, there⟩ := after
      have stripped := (releaseOne_observe e' name id).1 q m
      rw [there] at stripped
      obtain ⟨old, before, _⟩ := Option.map_eq_some_iff.mp stripped.symm
      exact ⟨q, old, before⟩
    exact .inl (both.2 held)
  | dlqRequeue queueName messageId =>
    exact .inl ((dlqRequeue_requeue named queueName messageId persist).held_before held)

/-- A state in which every held message was admitted, in a run that admits no
id twice: the index is right about it, and it stays so. -/
theorem run_admitted {ids : List String} {ops : List EngineOp} (filed : e.Filed)
    (known : ∀ m, e.Held m → m ∈ ids) (unique : (ids ++ admitted persist e ops).Nodup) :
    (run (step persist) e ops).Filed ∧
      ∀ m, (run (step persist) e ops).Held m → m ∈ ids ++ admitted persist e ops := by
  induction ops generalizing e ids with
  | nil => exact ⟨filed, fun m held => List.mem_append_left _ (known m held)⟩
  | cons op rest ih =>
    rw [admitted, ← List.append_assoc] at unique ⊢
    refine ih ?_ (fun m held => ?_) unique
    · have fresh : FreshIds e op ∨ e.step persist op = e := by
        cases op with
        | enqueue message =>
          rcases enqueue_cases e message persist with ⟨queue, accepts⟩ | ⟨_, same⟩
          · refine .inl fun held => ?_
            have ok : (e.enqueue message persist).1 = .ok := congrArg Prod.fst accepts.2.2
            have early := (List.nodup_append.mp unique).1
            refine (List.nodup_append.mp early).2.2 _ (known _ held) message.id ?_ rfl
            simp [admits, ok]
          · exact .inr same
        | _ => exact .inl trivial
      rcases fresh with fresh | same
      · exact step_filed filed op fresh
      · rw [same]
        exact filed
    · rcases step_held filed.named op held with before | new
      · exact List.mem_append_left _ (known m before)
      · exact List.mem_append_right _ new

/-- A message that is not held and is not admitted again is never held again. -/
theorem run_gone {ops : List EngineOp} (named : e.Named) (gone : ¬ e.Held m)
    (never : m ∉ admitted persist e ops) : ¬ (run (step persist) e ops).Held m := by
  induction ops generalizing e with
  | nil => exact gone
  | cons op rest ih =>
    rw [admitted, List.mem_append, not_or] at never
    refine ih (step_named named op) (fun held => ?_) never.2
    exact (step_held named op held).elim gone never.1

theorem reserved_held {queueName consumerId : String} (named : e.Named)
    (returned : (e.reserve queueName consumerId).1 = some message) : e.Held message.id := by
  rcases reserve_cases e queueName consumerId with ⟨queue, id, msg, rest, reserves⟩ | ⟨nothing, _⟩
  · have same : msg = message := Option.some.inj (reserves.result.symm.trans returned)
    obtain ⟨held, _⟩ := popDeliverable_some reserves.popped
    have there : e.message? queueName id = some msg := (message?_of_get reserves.found).trans held
    subst same
    rw [(named.filed there).1]
    exact ⟨queueName, msg, there⟩
  · rw [nothing] at returned
    cases returned

/-- In a run that admits no id twice, no reserve returns a message after its
ack returned OK. -/
theorem acked_never_returned {config : EngineConfig} {clock : Nat → ℚ} {before after : List EngineOp}
    {queueName consumerId : String}
    (unique : (admitted persist { config, clock } (before ++ .ack m :: after)).Nodup)
    (ok : ((run (step persist) { config, clock } before).ack m persist).1 = .ok)
    (returned : ((run (step persist) { config, clock } (before ++ .ack m :: after)).reserve
      queueName consumerId).1 = some message) : message.id ≠ m := by
  rw [run_append] at returned
  rw [admitted_append, admitted] at unique
  have start : Filed { config, clock } := (Reachable.start config clock).filed fun _ _ ok => ok
  have nothing : ∀ m, ¬ Held { config, clock } m := by
    rintro m ⟨q, msg, held⟩
    simp [message?] at held
  have distinct : ([] ++ admitted persist { config, clock } before).Nodup :=
    (List.nodup_append.mp unique).1
  obtain ⟨filed, known⟩ := run_admitted start (fun m held => absurd held (nothing m)) distinct
  generalize run (step persist) { config, clock } before = e at ok returned unique filed known
  rcases ack_cases e m persist with ⟨name, queue, settles⟩ | ⟨refused, _⟩
  · have held : e.Held m := by
      obtain ⟨message, there⟩ := filed.indexed.held name m settles.indexed
      exact ⟨name, message, there⟩
    have never : m ∉ admitted persist (e.step persist (.ack m)) after := by
      intro again
      exact (List.nodup_append.mp unique).2.2 m (known m held) m again rfl
    have named : (e.step persist (.ack m)).Named := step_named filed.named (.ack m)
    have gone : ¬ (run (step persist) (e.step persist (.ack m)) after).Held m :=
      run_gone named (settles.gone filed).1 never
    rintro rfl
    refine gone (reserved_held ?_ returned)
    exact run_invariant (I := Named) (fun _ op named => step_named named op) named
  · exact absurd ok refused

/-- After the ack another message is published and delivered. -/
theorem acked_never_returned_next : ∃ message,
    ((run (step true) created (deliveredRun ++ .ack "m1" :: [
      .enqueue { id := "m2", queue := "orders", payload := [2], createdAt := 1 }])).reserve
        "orders" "worker").1 = some message ∧ message.id ≠ "m1" := by
  have served : ((run (step true) created (deliveredRun ++ .ack "m1" :: [
      .enqueue { id := "m2", queue := "orders", payload := [2], createdAt := 1 }])).reserve
        "orders" "worker").1.isSome = true := by
    decide +kernel
  obtain ⟨message, returned⟩ := Option.isSome_iff_exists.mp served
  exact ⟨message, returned,
    acked_never_returned (m := "m1") (by decide +kernel) (by decide +kernel) returned⟩

end OneOpenBroker.Core.QueueEngine

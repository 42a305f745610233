import OneOpenBroker.Core.ConsumerSteps

/-! Who takes turns on a queue. No operation of the engine changes who takes
turns on a queue that stays, or whose turn it is, and the only queues that it
brings into being unasked are the queues for dead letters. -/
namespace OneOpenBroker.Core
open Collections

namespace QueueEngine

/-- The consumers that take turns on a queue, and the index of the next turn. -/
def rota? (e : QueueEngine) (name : String) : Option (List String × Nat) :=
  (e.queues.get? name).map fun queue => (queue.consumerIds, queue.rrIndex)

/-- The queues keep their rotas. A queue that is new is one of those that may
be, and nobody takes turns on it yet. -/
def Keeps (may : String → Prop) (e e' : QueueEngine) : Prop :=
  ∀ q, e'.rota? q = e.rota? q ∨ may q ∧ e.rota? q = none ∧ e'.rota? q = some ([], 0)

/-- The same, but for whose turn it is. -/
def Seats (may : String → Prop) (e e' : QueueEngine) : Prop :=
  ∀ q, (e'.rota? q).map Prod.fst = (e.rota? q).map Prod.fst ∨
    may q ∧ e.rota? q = none ∧ (e'.rota? q).map Prod.fst = some []

def DeadLetters (q : String) : Prop := isDlq q = true

/-- A queue keeps its dead letters under this name. -/
def Buries (e : QueueEngine) (q : String) : Prop :=
  ∃ name spec, e.spec? name = some spec ∧ spec.deadLetter = true ∧ q = dlqName name

/-- A queue that is new is one of those that may be, and so is the queue for its
own dead letters, if it has any. -/
def Spawns (may : String → Prop) (e e' : QueueEngine) : Prop :=
  ∀ q spec, e'.spec? q = some spec →
    e.spec? q = some spec ∨ may q ∧ (spec.deadLetter = true → may (dlqName q))

/-- Only queues for the dead letters of queues that were there are new. -/
def Unasked (e e' : QueueEngine) : Prop := Spawns e.Buries e e'

variable {e e' e'' : QueueEngine} {name q id m : String} {queue queue' : DurableQueue}
  {message : Message} {persist requeue : Bool} {may may' : String → Prop} {args : QueueArgs}

theorem rota?_of_get (found : e.queues.get? name = some queue) :
    e.rota? name = some (queue.consumerIds, queue.rrIndex) := by
  simp [rota?, found]

theorem rota?_of_set (stored : e'.queues = e.queues.set name queue) :
    e'.rota? q = if q = name then some (queue.consumerIds, queue.rrIndex) else e.rota? q := by
  unfold rota?
  rw [stored, Dict.get?_set]
  split <;> rfl

theorem rota?_none : e.rota? q = none ↔ q ∉ e.queues := by
  rw [rota?, Option.map_eq_none_iff, Dict.get?_eq_none]

/-! ## The relations -/

theorem Keeps.refl (may : String → Prop) (e : QueueEngine) : Keeps may e e := fun _ => .inl rfl

theorem Keeps.of_queues (same : e'.queues = e.queues) : Keeps may e e' := by
  intro q
  left
  unfold rota?
  rw [same]

theorem Keeps.trans (first : Keeps may e e') (second : Keeps may e' e'') : Keeps may e e'' := by
  intro q
  rcases second q with kept | ⟨fits, absent, fresh⟩
  · rw [kept]
    exact first q
  · rcases first q with kept | ⟨_, _, there⟩
    · exact .inr ⟨fits, by rw [← kept, absent], fresh⟩
    · rw [absent] at there
      cases there

/-- A queue with the same rota is stored. -/
theorem Keeps.set (stored : e'.queues = e.queues.set name queue)
    (there : e.rota? name = some (queue.consumerIds, queue.rrIndex)) : Keeps may e e' := by
  intro q
  left
  rw [rota?_of_set stored]
  split
  · rename_i same
    rw [same, there]
  · rfl

theorem Keeps.put (stored : e'.queues = e.queues.set name queue')
    (found : e.queues.get? name = some queue)
    (same : (queue'.consumerIds, queue'.rrIndex) = (queue.consumerIds, queue.rrIndex)) :
    Keeps may e e' :=
  .set stored (by rw [same, rota?_of_get found])

theorem Keeps.fresh {spec : QueueSpec} (stored : e'.queues = e.queues.set name { spec })
    (absent : name ∉ e.queues) (fits : may name) : Keeps may e e' := by
  intro q
  rw [rota?_of_set stored]
  by_cases same : q = name
  · rw [if_pos same, same, rota?_none]
    exact .inr ⟨fits, absent, rfl⟩
  · rw [if_neg same]
    exact .inl rfl

theorem Keeps.seats (keeps : Keeps may e e') : Seats may e e' := by
  intro q
  rcases keeps q with kept | ⟨fits, absent, fresh⟩
  · exact .inl (by rw [kept])
  · exact .inr ⟨fits, absent, by rw [fresh]; rfl⟩

theorem Seats.refl (may : String → Prop) (e : QueueEngine) : Seats may e e := fun _ => .inl rfl

theorem Seats.trans (first : Seats may e e') (second : Seats may e' e'') : Seats may e e'' := by
  intro q
  rcases second q with kept | ⟨fits, absent, fresh⟩
  · rw [kept]
    exact first q
  · rcases first q with kept | ⟨_, _, there⟩
    · refine .inr ⟨fits, ?_, fresh⟩
      rw [absent, Option.map_none, eq_comm, Option.map_eq_none_iff] at kept
      exact kept
    · rw [absent] at there
      cases there

/-! ## Declaring, dead-lettering and retrying -/

theorem declareLeaf_keeps (fits : may name) : Keeps may e (e.declareLeaf name args persist) := by
  by_cases known : name ∈ e.queues
  · exact .of_queues (by rw [declareLeaf_queues, if_pos known])
  · exact .fresh (by rw [declareLeaf_queues, if_neg known]) known fits

theorem declareQueue_keeps (fits : may name) (leaf : may (dlqName name)) :
    Keeps may e (e.declareQueue name args persist) := by
  rw [declareQueue_eq]
  split
  · exact .refl may e
  · rename_i unknown
    have stored : Keeps may e (e.putQueue name { spec := e.makeSpec name args }) :=
      .fresh rfl unknown fits
    refine Keeps.trans ?_ (.of_queues append_queues)
    split
    · exact stored.trans (declareLeaf_keeps leaf)
    · exact stored

theorem declareQueue_seats :
    Seats (fun q => q = name ∨ q = dlqName name) e (e.declareQueue name args persist) :=
  (declareQueue_keeps (.inl rfl) (.inr rfl)).seats

theorem bury_keeps : Keeps may e (e.bury name message) := by
  cases found : e.queues.get? name with
  | none => exact .of_queues (by simp [bury, found])
  | some dest => exact .put (bury_queues found) found rfl

theorem moveToDlq_keeps (there : e.rota? name = some (queue.consumerIds, queue.rrIndex)) :
    Keeps DeadLetters e (e.moveToDlq name queue message persist) := by
  have discarded : Keeps DeadLetters e (e.discarded name queue message persist) :=
    .set discarded_queues there
  rw [moveToDlq_eq]
  split
  · exact (discarded.trans (declareLeaf_keeps (isDlq_dlqName name))).trans bury_keeps
  · exact discarded

theorem conclude_keeps (there : e.rota? name = some (queue.consumerIds, queue.rrIndex)) :
    Keeps DeadLetters e (e.conclude name queue message requeue persist) := by
  rcases conclude_cases e name queue message requeue persist with ⟨_, shape⟩ | ⟨_, _, shape⟩
  · rw [shape]
    exact moveToDlq_keeps there
  · rw [shape]
    exact .set delayRetry_queues there

theorem failDelivery_keeps : Keeps DeadLetters e (e.failDelivery name id persist).2 := by
  rcases failDelivery_cases e name id persist with ⟨_, same⟩ | ⟨queue, found, _, shape⟩ |
    ⟨queue, message, found, _, shape⟩
  · rw [same]
    exact .refl _ e
  · rw [shape]
    exact .put rfl found rfl
  · have ended : Keeps DeadLetters e (e.putQueue name (queue.endDelivery id)) :=
      .put rfl found rfl
    rw [shape]
    exact ended.trans (conclude_keeps (rota?_of_get Dict.get?_set_self))

theorem nack_keeps : Keeps DeadLetters e (e.nack id requeue persist).2 := by
  rcases nack_cases e id requeue persist with ⟨name, queue, message, nacks⟩ |
    ⟨_, same | ⟨name, queue, _, found, _, shape⟩⟩
  · have ended : Keeps DeadLetters e (e.nacked id requeue persist name queue) :=
      .put nacked_queues nacks.found rfl
    rw [nacks.shape]
    refine ended.trans (conclude_keeps ?_)
    rw [rota?_of_set nacked_queues, if_pos rfl]
  · rw [same]
    exact .refl _ e
  · rw [shape]
    exact .put rfl found rfl

/-! ## Publishing, delivery and the timers -/

theorem accepted_rota {seq : Nat} : (accepted queue seq message).consumerIds = queue.consumerIds ∧
    (accepted queue seq message).rrIndex = queue.rrIndex := by
  unfold accepted
  split <;> exact ⟨rfl, rfl⟩

theorem enqueue_keeps : Keeps may e (e.enqueue message persist).2 := by
  rcases enqueue_cases e message persist with ⟨queue, accepts⟩ | ⟨_, same⟩
  · refine .set accepts.queues ?_
    rw [accepted_rota.1, accepted_rota.2]
    exact rota?_of_get accepts.1
  · rw [same]
    exact .refl _ e

theorem ack_keeps : Keeps may e (e.ack id persist).2 := by
  rcases ack_cases e id persist with ⟨name, queue, settles⟩ | ⟨_, same⟩
  · exact .put settles.queues settles.found rfl
  · rw [same]
    exact .refl _ e

theorem reserve_keeps {consumerId : String} : Keeps may e (e.reserve name consumerId).2 := by
  rcases reserve_cases e name consumerId with ⟨queue, id, message, rest, reserves⟩ |
    ⟨_, ⟨same, _⟩ | ⟨queue, found, _, shape⟩⟩
  · exact .put reserves.queues reserves.found rfl
  · rw [same]
    exact .refl _ e
  · rw [shape]
    exact .put rfl found rfl

theorem dlqRequeue_keeps : Keeps may e (e.dlqRequeue name id persist).2 := by
  rcases dlqRequeue_cases e name id persist with nothing | ⟨dlq, message, draws⟩
  · rw [nothing]
    exact .refl _ e
  · have drawn : Keeps may e (e.withdrawn name id dlq) := .put rfl draws.source rfl
    rcases draws.result persist with ⟨_, _, shape⟩ | ⟨_, shape⟩
    · rw [shape]
      exact (drawn.trans enqueue_keeps).trans (.of_queues append_queues)
    · rw [shape]
      exact drawn.trans (.put putBack_queues Dict.get?_set_self rfl)

theorem releaseOne_keeps : Keeps may e (e.releaseOne name id).2 := by
  rcases releaseOne_cases e name id with ⟨_, same⟩ | ⟨queue, found, _, _, shape⟩ |
    ⟨queue, message, found, _, _, _, shape⟩
  · rw [same]
    exact .refl _ e
  · rw [shape]
    exact .put rfl found rfl
  · rw [shape]
    exact .put rfl found rfl

theorem tick_keeps {now : Option ℚ} : Keeps DeadLetters e (e.tick now).2 :=
  tick_preserves (fun _ _ _ kept => kept.trans releaseOne_keeps)
    (fun _ _ _ _ kept _ _ => kept.trans failDelivery_keeps)
    (fun _ _ _ _ kept => kept.trans (.of_queues rfl)) (.refl _ e)

theorem recoverConsumer_keeps (named : e.Named) :
    Keeps DeadLetters e (e.recoverConsumer id persist).2 := by
  have both : (e.recoverConsumer id persist).2.Named ∧
      Keeps DeadLetters e (e.recoverConsumer id persist).2 :=
    recoverConsumer_preserves (I := fun e' => e'.Named ∧ Keeps DeadLetters e e')
      (fun _ inv => inv.1)
      (fun _ _ _ _ inv _ _ => ⟨failDelivery_named inv.1, inv.2.trans failDelivery_keeps⟩)
      ⟨named, .refl _ e⟩
  exact both.2

/-! ## Queues that nobody asked for -/

theorem Spawns.of_specs (specs : e'.spec? = e.spec?) : Spawns may e e' :=
  fun _ _ known => .inl (specs ▸ known)

theorem Spawns.of_queues (same : e'.queues = e.queues) : Spawns may e e' := by
  apply Spawns.of_specs
  funext q
  unfold spec?
  rw [same]

theorem Spawns.refl (may : String → Prop) (e : QueueEngine) : Spawns may e e := .of_specs rfl

theorem Spawns.trans (first : Spawns may e e') (second : Spawns may e' e'') : Spawns may e e'' := by
  intro q spec known
  rcases second q spec known with kept | fits
  · exact first q spec kept
  · exact .inr fits

theorem Spawns.mono (spawns : Spawns may e e') (wider : ∀ q, may q → may' q) : Spawns may' e e' :=
  fun q spec known => (spawns q spec known).imp_right fun fits =>
    ⟨wider q fits.1, fun on => wider _ (fits.2 on)⟩

/-- A queue is stored that keeps its spec. -/
theorem Spawns.put (stored : e'.queues = e.queues.set name queue')
    (found : e.queues.get? name = some queue) (same : queue'.spec = queue.spec) : Spawns may e e' := by
  apply Spawns.of_specs
  funext q
  rw [spec?_of_set stored]
  split
  · rename_i here
    rw [here, same, spec?_of_get found]
  · rfl

/-- A queue that is new is one that may be. -/
theorem Spawns.created (spawns : Spawns may e e') (absent : q ∉ e.queues) (there : q ∈ e'.queues) :
    may q := by
  obtain ⟨queue, found⟩ := Dict.mem_iff.mp there
  rcases spawns q queue.spec (spec?_of_get found) with kept | fits
  · obtain ⟨old, found', _⟩ := spec?_some.mp kept
    exact absurd (Dict.mem_of_get? found') absent
  · exact fits.1

theorem Spawns.buries (spawns : Spawns may e e') (buries : e'.Buries q) : may q ∨ e.Buries q := by
  obtain ⟨name, spec, known, on, same⟩ := buries
  rcases spawns name spec known with kept | fits
  · exact .inr ⟨name, spec, kept, on, same⟩
  · exact .inl (same ▸ fits.2 on)

theorem Unasked.refl (e : QueueEngine) : Unasked e e := Spawns.refl _ e

theorem Unasked.of_specs (specs : e'.spec? = e.spec?) : Unasked e e' := Spawns.of_specs specs

theorem Unasked.trans (first : Unasked e e') (second : Unasked e' e'') : Unasked e e'' :=
  Spawns.trans first (second.mono fun _ buries => (first.buries buries).elim id id)

theorem declareLeaf_spawns (fits : name ∉ e.queues → may name) :
    Spawns may e (e.declareLeaf name args persist) := by
  intro q spec known
  rw [declareLeaf_spec?] at known
  split at known
  · rename_i new
    cases known
    exact .inr ⟨new.1 ▸ fits new.2, by simp [makeSpec]⟩
  · exact .inl known

/-- A declaration makes the queue and the queue for its dead letters. -/
theorem declareQueue_spawns (fits : name ∉ e.queues → may name ∧ may (dlqName name)) :
    Spawns may e (e.declareQueue name args persist) := by
  rw [declareQueue_eq]
  split
  · exact .refl may e
  · rename_i unknown
    obtain ⟨here, leaf⟩ := fits unknown
    have stored : Spawns may e (e.putQueue name { spec := e.makeSpec name args }) := by
      intro q spec known
      rw [spec?_of_set (e := e) rfl] at known
      split at known
      · rename_i same
        exact .inr (same ▸ ⟨here, fun _ => leaf⟩)
      · exact .inl known
    refine Spawns.trans ?_ (.of_queues append_queues)
    split
    · exact stored.trans (declareLeaf_spawns fun _ => leaf)
    · exact stored

/-- A deletion makes none. -/
theorem deleteQueue_spawns : Spawns may e (e.deleteQueue name persist).2 := by
  classical
  intro q spec known
  rw [deleteQueue_spec?] at known
  split at known
  · cases known
  · exact .inl known

theorem moveToDlq_unasked (found : e.queues.get? name = some queue) :
    Unasked e (e.moveToDlq name queue message persist) := by
  intro q spec known
  rw [moveToDlq_spec? found] at known
  split at known
  · rename_i new
    obtain ⟨on, same, _⟩ := new
    cases known
    have buries : e.Buries q := ⟨name, queue.spec, spec?_of_get found, on, same⟩
    exact .inr ⟨buries, by simp [makeSpec]⟩
  · exact .inl known

theorem conclude_unasked (found : e.queues.get? name = some queue) :
    Unasked e (e.conclude name queue message requeue persist) := by
  rcases conclude_cases e name queue message requeue persist with ⟨_, shape⟩ | ⟨_, _, shape⟩
  · rw [shape]
    exact moveToDlq_unasked found
  · rw [shape]
    exact .of_specs (delayRetry_spec? found)

theorem failDelivery_unasked : Unasked e (e.failDelivery name id persist).2 := by
  rcases failDelivery_cases e name id persist with ⟨_, same⟩ | ⟨queue, found, _, shape⟩ |
    ⟨queue, message, found, _, shape⟩
  · rw [same]
    exact .refl e
  · rw [shape]
    exact Spawns.put rfl found rfl
  · have ended : Unasked e (e.putQueue name (queue.endDelivery id)) := Spawns.put rfl found rfl
    rw [shape]
    exact ended.trans (conclude_unasked Dict.get?_set_self)

theorem nack_unasked : Unasked e (e.nack id requeue persist).2 := by
  rcases nack_cases e id requeue persist with ⟨name, queue, message, nacks⟩ |
    ⟨_, same | ⟨name, queue, _, found, _, shape⟩⟩
  · have ended : Unasked e (e.nacked id requeue persist name queue) :=
      Spawns.put nacked_queues nacks.found rfl
    rw [nacks.shape]
    refine ended.trans (conclude_unasked ?_)
    rw [nacked_queues]
    exact Dict.get?_set_self
  · rw [same]
    exact .refl e
  · rw [shape]
    exact Spawns.put rfl found rfl

theorem enqueue_unasked : Unasked e (e.enqueue message persist).2 := by
  rcases enqueue_cases e message persist with ⟨queue, accepts⟩ | ⟨_, same⟩
  · exact .of_specs accepts.spec?
  · rw [same]
    exact .refl e

theorem ack_unasked : Unasked e (e.ack id persist).2 := by
  rcases ack_cases e id persist with ⟨name, queue, settles⟩ | ⟨_, same⟩
  · exact .of_specs settles.spec?
  · rw [same]
    exact .refl e

theorem dlqRequeue_unasked : Unasked e (e.dlqRequeue name id persist).2 := by
  rcases dlqRequeue_cases e name id persist with nothing | ⟨dlq, message, draws⟩
  · rw [nothing]
    exact .refl e
  · have drawn : Unasked e (e.withdrawn name id dlq) := Spawns.put rfl draws.source rfl
    rcases draws.result persist with ⟨_, _, shape⟩ | ⟨_, shape⟩
    · rw [shape]
      exact (drawn.trans enqueue_unasked).trans (Spawns.of_queues append_queues)
    · rw [shape]
      exact drawn.trans (Spawns.put putBack_queues Dict.get?_set_self rfl)

theorem tick_unasked {now : Option ℚ} : Unasked e (e.tick now).2 :=
  tick_preserves
    (fun e' name id kept => kept.trans (.of_specs (releaseOne_observe e' name id).2.2.1))
    (fun _ _ _ _ kept _ _ => kept.trans failDelivery_unasked)
    (fun _ _ _ _ kept => kept.trans (Spawns.of_queues rfl)) (.refl e)

theorem recoverConsumer_unasked (named : e.Named) :
    Unasked e (e.recoverConsumer id persist).2 := by
  have both : (e.recoverConsumer id persist).2.Named ∧
      Unasked e (e.recoverConsumer id persist).2 :=
    recoverConsumer_preserves (I := fun e' => e'.Named ∧ Unasked e e')
      (fun _ inv => inv.1)
      (fun _ _ _ _ inv _ _ => ⟨failDelivery_named inv.1, inv.2.trans failDelivery_unasked⟩)
      ⟨named, .refl e⟩
  exact both.2

/-! ## Deleting -/

theorem deleteQueue_rota (e : QueueEngine) (name q : String) (persist : Bool) :
    (e.deleteQueue name persist).2.rota? q = none ∨
      (e.deleteQueue name persist).2.rota? q = e.rota? q := by
  classical
  unfold rota?
  rw [deleteQueue_queues]
  split
  · exact .inl rfl
  · exact .inr rfl

/-! ## Joining and leaving -/

/-- The consumers that take turns on a queue, nobody on one that is missing. -/
def takers (e : QueueEngine) (q : String) : List String := ((e.rota? q).map Prod.fst).getD []

theorem takers_of_get (found : e.queues.get? q = some queue) : e.takers q = queue.consumerIds := by
  simp [takers, rota?_of_get found]

theorem takers_missing (absent : q ∉ e.queues) : e.takers q = [] := by
  simp [takers, rota?_none.mpr absent]

theorem Seats.takers (seats : Seats may e e') : e'.takers = e.takers := by
  funext q
  unfold QueueEngine.takers
  rcases seats q with kept | ⟨_, absent, fresh⟩
  · rw [kept]
  · rw [fresh, absent]
    rfl

/-- A queue that is new is one that may be. -/
theorem Seats.created (seats : Seats may e e') (absent : q ∉ e.queues) (there : q ∈ e'.queues) :
    may q := by
  rcases seats q with kept | ⟨fits, _⟩
  · rw [rota?_none.mpr absent, Option.map_none, Option.map_eq_none_iff, rota?_none] at kept
    exact absurd there kept
  · exact fits

theorem Seats.stays (seats : Seats may e e') (there : q ∈ e.queues) : q ∈ e'.queues := by
  by_contra absent
  rcases seats q with kept | ⟨_, missing, _⟩
  · rw [rota?_none.mpr absent, Option.map_none, eq_comm, Option.map_eq_none_iff, rota?_none] at kept
    exact kept there
  · exact rota?_none.mp missing there

theorem takers_of_set (stored : e'.queues = e.queues.set name queue) :
    e'.takers q = if q = name then queue.consumerIds else e.takers q := by
  unfold takers
  rw [rota?_of_set stored]
  split <;> rfl

/-- Nobody takes two turns on a queue. -/
def Distinct (e : QueueEngine) : Prop := ∀ q, (e.takers q).Nodup

end QueueEngine

open QueueEngine

namespace ConsumerManager

variable {c : ConsumerManager} {e e' : QueueEngine} {name q id other : String}
  {queue : DurableQueue} {names : List String} {may : String → Prop}

/-- A declaration leaves the queue declared. -/
theorem declareQueue_mem {args : QueueArgs} {persist : Bool} :
    name ∈ (e.declareQueue name args persist).queues := by
  rw [declareQueue_eq]
  split
  · assumption
  · rw [append_queues]
    split
    · rw [declareLeaf_queues]
      split <;> simp [putQueue]
    · simp [putQueue]

theorem join_takers : (join id e name).takers q =
    if q = name ∧ id ∉ e.takers q then e.takers q ++ [id] else e.takers q := by
  have same : (e.declareQueue name {}).takers = e.takers := declareQueue_seats.takers
  have known : name ∈ (e.declareQueue name {}).queues := declareQueue_mem
  obtain ⟨queue, found⟩ := Dict.mem_iff.mp known
  rw [← same]
  unfold join
  simp only [found]
  have here := takers_of_get found
  by_cases there : id ∈ queue.consumerIds
  · rw [if_pos there, if_neg]
    rintro ⟨rfl, missing⟩
    exact missing (here ▸ there)
  · rw [if_neg there, takers_of_set rfl]
    by_cases target : q = name
    · subst target
      rw [if_pos rfl, here, if_pos ⟨rfl, there⟩]
    · rw [if_neg target, if_neg fun both => target both.1]

theorem mem_join : other ∈ (join id e name).takers q ↔
    other ∈ e.takers q ∨ other = id ∧ q = name := by
  rw [join_takers]
  by_cases new : q = name ∧ id ∉ e.takers q
  · rw [if_pos new, List.mem_append, List.mem_singleton, and_iff_left new.1]
  · rw [if_neg new, iff_self_or]
    rintro ⟨rfl, here⟩
    by_contra missing
    exact new ⟨here, missing⟩

theorem join_distinct (distinct : e.Distinct) : (join id e name).Distinct := by
  intro q
  rw [join_takers]
  split
  · rename_i new
    refine List.nodup_append.mpr ⟨distinct q, List.nodup_singleton id, ?_⟩
    rintro taker member _ last rfl
    exact new.2 (List.mem_singleton.mp last ▸ member)
  · exact distinct q

theorem mem_joins : other ∈ (names.foldl (join id) e).takers q ↔
    other ∈ e.takers q ∨ other = id ∧ q ∈ names := by
  induction names generalizing e with
  | nil => simp
  | cons name rest ih =>
    rw [List.foldl_cons, ih, mem_join, List.mem_cons]
    tauto

theorem joins_distinct (distinct : e.Distinct) : (names.foldl (join id) e).Distinct := by
  induction names generalizing e with
  | nil => exact distinct
  | cons name rest ih => exact ih (join_distinct distinct)

/-- Joining a queue creates what declaring it creates. -/
theorem join_keys : (join id e name).queues.keys = (e.declareQueue name {}).queues.keys := by
  have known : name ∈ (e.declareQueue name {}).queues := declareQueue_mem
  obtain ⟨queue, found⟩ := Dict.mem_iff.mp known
  unfold join
  simp only [found]
  split
  · rfl
  · rw [putQueue, Dict.keys_set, if_pos known]

/-- Joining queues that exist creates none. -/
theorem joins_known (known : ∀ name ∈ names, name ∈ e.queues) :
    (names.foldl (join id) e).queues.keys = e.queues.keys := by
  induction names generalizing e with
  | nil => rfl
  | cons name rest ih =>
    obtain ⟨here, there⟩ := List.forall_mem_cons.mp known
    have same : (join id e name).queues.keys = e.queues.keys := by
      rw [join_keys, declareQueue_eq, if_pos here]
    rw [List.foldl_cons, ih, same]
    intro name member
    rw [← Dict.mem_keys, same]
    exact there name member

theorem leave_takers : (leave id e name).takers q =
    if q = name then (e.takers q).erase id else e.takers q := by
  unfold leave
  cases found : e.queues.get? name with
  | none =>
    dsimp only
    split
    · rename_i same
      rw [same, takers_missing (Dict.get?_eq_none.mp found), List.erase_nil]
    · rfl
  | some queue =>
    dsimp only
    rw [takers_of_set rfl]
    split
    · rename_i same
      rw [same, takers_of_get found]
    · rfl

theorem leave_distinct (distinct : e.Distinct) : (leave id e name).Distinct := by
  intro q
  rw [leave_takers]
  split
  · exact (distinct q).erase id
  · exact distinct q

theorem leaves_distinct (distinct : e.Distinct) : (names.foldl (leave id) e).Distinct := by
  induction names generalizing e with
  | nil => exact distinct
  | cons name rest ih => exact ih (leave_distinct distinct)

/-- Who leaves every queue of a list takes no more turns on any of them. -/
theorem mem_leaves (distinct : e.Distinct) : other ∈ (names.foldl (leave id) e).takers q ↔
    other ∈ e.takers q ∧ ¬ (other = id ∧ q ∈ names) := by
  induction names generalizing e with
  | nil => simp
  | cons name rest ih =>
    rw [List.foldl_cons, ih (leave_distinct distinct), leave_takers, List.mem_cons]
    split
    · rw [(distinct q).mem_erase_iff]
      tauto
    · tauto

/-! ## Turns -/

theorem putQueue_seats (found : e.queues.get? name = some queue)
    {queue' : DurableQueue} (same : queue'.consumerIds = queue.consumerIds) :
    Seats may e (e.putQueue name queue') := by
  intro q
  left
  rw [rota?_of_set (e := e) rfl]
  split
  · rename_i here
    rw [here, rota?_of_get found, Option.map_some, Option.map_some, same]
  · rfl

theorem tryReserve_seats : Seats may e (c.tryReserve e name).2.2 := by
  unfold tryReserve
  cases found : e.queues.get? name with
  | none => exact .refl _ e
  | some queue =>
    dsimp only
    rcases c.nextOn queue with ⟨index, turn⟩
    have turned : Seats may e (e.putQueue name { queue with rrIndex := index }) :=
      putQueue_seats found rfl
    cases turn with
    | none => exact turned
    | some pair =>
      obtain ⟨id, consumer⟩ := pair
      have reserved : Seats may _ ((e.putQueue name { queue with rrIndex := index }).reserve
        name id).2 := reserve_keeps.seats
      dsimp only
      split <;> rename_i shape <;> rw [shape] at reserved <;> exact turned.trans reserved

theorem tryReserve_unasked : Unasked e (c.tryReserve e name).2.2 := by
  rcases tryReserve_cases c e name with ⟨e', nothing, alike⟩ | ⟨id, consumer, m, message, e', takes⟩
  · rw [nothing]
    exact .of_specs alike.specs
  · rw [takes.result]
    exact .of_specs takes.specs

end ConsumerManager
end OneOpenBroker.Core

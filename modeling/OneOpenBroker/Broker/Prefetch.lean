import OneOpenBroker.Broker.HandlerRuns
import OneOpenBroker.Core.Disconnects

/-! Prefetch accounting. The registry counts what a consumer has not settled,
and the queues keep one inflight record for each outstanding delivery. The two
are changed together by every call but four: deleting a queue, a visibility
timeout, a registration under an id that is in use, and a refused push of a
message that the index files elsewhere. -/
namespace OneOpenBroker.Core.QueueEngine
open Collections

variable {e e' base : QueueEngine} {name id m consumerId : String} {record : InflightRecord}

/-! ## The deliveries of a consumer -/

/-- The places of the inflight records of a consumer: queue and message id. -/
def deliveries (e : QueueEngine) (consumerId : String) : List (String × String) :=
  e.queues.entries.flatMap fun (name, queue) =>
    (queue.inflight.entries.filter (·.2.consumerId = consumerId)).map fun entry => (name, entry.1)

/-- The record at a place is one of the consumer's. -/
def Owns (e : QueueEngine) (consumerId : String) (place : String × String) : Prop :=
  ∃ record, e.record? place.1 place.2 = some record ∧ record.consumerId = consumerId

theorem mem_deliveries {place : String × String} :
    place ∈ e.deliveries consumerId ↔ e.Owns consumerId place := by
  obtain ⟨name, m⟩ := place
  simp only [deliveries, Owns, List.mem_flatMap, List.mem_map, List.mem_filter, decide_eq_true_eq,
    Prod.mk.injEq]
  constructor
  · rintro ⟨⟨name', queue⟩, listed, ⟨m', record⟩, ⟨inflight, mine⟩, rfl, rfl⟩
    exact ⟨record, record?_some.mpr ⟨queue, Dict.get?_eq_some.mpr listed,
      Dict.get?_eq_some.mpr inflight⟩, mine⟩
  · rintro ⟨record, found, mine⟩
    obtain ⟨queue, there, inflight⟩ := record?_some.mp found
    exact ⟨(name, queue), Dict.get?_eq_some.mp there, (m, record),
      ⟨Dict.get?_eq_some.mp inflight, mine⟩, rfl, rfl⟩

theorem deliveries_nodup (e : QueueEngine) (consumerId : String) : (e.deliveries consumerId).Nodup := by
  unfold deliveries
  rw [List.nodup_flatMap]
  constructor
  · rintro ⟨name, queue⟩ _
    have keys : ((queue.inflight.entries.filter (·.2.consumerId = consumerId)).map Prod.fst).Nodup :=
      queue.inflight.nodup.sublist (List.filter_sublist.map _)
    have paired := keys.map (f := fun m => (name, m)) fun _ _ same => (Prod.mk.inj same).2
    rw [List.map_map] at paired
    exact paired
  · have apart : e.queues.entries.Pairwise fun a b => a.1 ≠ b.1 := List.pairwise_map.mp e.queues.nodup
    apply apart.imp
    rintro ⟨name, queue⟩ ⟨name', queue'⟩ differ place first second
    obtain ⟨_, _, rfl⟩ := List.mem_map.mp first
    obtain ⟨_, _, same⟩ := List.mem_map.mp second
    exact differ (Prod.mk.inj same).1.symm

/-- A consumer with the same deliveries has as many. -/
theorem deliveries_same (same : ∀ place, e'.Owns consumerId place ↔ e.Owns consumerId place) :
    (e'.deliveries consumerId).length = (e.deliveries consumerId).length := by
  apply List.Perm.length_eq
  rw [List.perm_ext_iff_of_nodup (deliveries_nodup _ _) (deliveries_nodup _ _)]
  intro place
  rw [mem_deliveries, mem_deliveries]
  exact same place

theorem deliveries_more {place : String × String} (idle : ¬ e.Owns consumerId place)
    (more : ∀ place', e'.Owns consumerId place' ↔ place' = place ∨ e.Owns consumerId place') :
    (e'.deliveries consumerId).length = (e.deliveries consumerId).length + 1 := by
  have distinct : (place :: e.deliveries consumerId).Nodup :=
    List.nodup_cons.mpr ⟨fun there => idle (mem_deliveries.mp there), deliveries_nodup _ _⟩
  have perm : (e'.deliveries consumerId).Perm (place :: e.deliveries consumerId) := by
    rw [List.perm_ext_iff_of_nodup (deliveries_nodup _ _) distinct]
    intro place'
    rw [mem_deliveries, more, List.mem_cons, mem_deliveries]
  rw [perm.length_eq, List.length_cons]

theorem SameFor.length {kept : String → Prop} (same : SameFor kept e e') (mine : kept consumerId) :
    (e'.deliveries consumerId).length = (e.deliveries consumerId).length := by
  apply deliveries_same
  rintro ⟨q, m⟩
  constructor
  · rintro ⟨record, there, rfl⟩
    exact ⟨record, (same q m record mine).mp there, rfl⟩
  · rintro ⟨record, there, rfl⟩
    exact ⟨record, (same q m record mine).mpr there, rfl⟩

end OneOpenBroker.Core.QueueEngine

namespace OneOpenBroker.Broker
open Collections OneOpenBroker.Core QueueEngine ConsumerManager

/-! ## The conditions -/

/-- The queues that deleting a queue takes out. -/
def takenOut (e : QueueEngine) (name q : String) : Bool :=
  q = name || q = dlqName name && (e.spec? name).any (·.deadLetter)

/-- Every delivery of a registered consumer passes a test. -/
def eachDelivery (h : Handler) (test : String × String → Bool) : Bool :=
  h.consumers.consumers.keys.all fun id => (h.queues.deliveries id).all test

/-- A message is published only where no other queue holds its id; a consumer
is registered under an id without deliveries; no queue is deleted in which a
registered consumer has a delivery; and when the ticker runs, no delivery of a
registered consumer is overdue, and each message that is held may fail once more
without an overflow of its delay. -/
def exactGuards : Guards where
  enqueue := filedAlone
  register := fun h _ id _ => (h.queues.deliveries id).isEmpty
  delete := fun h name => eachDelivery h fun place => !takenOut h.queues name place.1
  tick := fun h => delayGuards.tick h && eachDelivery h fun place =>
    (h.queues.record? place.1 place.2).all (h.queues.now.1 < ·.visibilityDeadline)

variable {e e' : QueueEngine} {c : ConsumerManager} {h : Handler} {id m name q : String}
  {message msg : Message} {record : InflightRecord}

theorem eachDelivery_iff {test : String × String → Bool} : eachDelivery h test = true ↔
    ∀ q m record, h.queues.record? q m = some record →
      record.consumerId ∈ h.consumers.consumers → test (q, m) = true := by
  simp only [eachDelivery, List.all_eq_true]
  constructor
  · intro all q m record found known
    exact all _ known _ (mem_deliveries.mpr ⟨record, found, rfl⟩)
  · rintro all id known ⟨q, m⟩ there
    obtain ⟨record, found, rfl⟩ := mem_deliveries.mp there
    exact all q m record found known

theorem takenOut_iff : takenOut e name q = true ↔ e.Deletes name q := by
  simp [takenOut, Deletes, Option.any_eq_true]

/-! ## The account -/

/-- The windows of the registry agree with the records of the queues. -/
structure Exact (c : ConsumerManager) (e : QueueEngine) : Prop where
  filed : e.Filed
  keyed : ∀ id consumer, c.consumers.get? id = some consumer → consumer.consumerId = id ∧ id ≠ ""
  counts : ∀ id consumer, c.consumers.get? id = some consumer →
    consumer.qos.unackedCount = (e.deliveries id).length

/-- Whatever keeps the records of the registered consumers keeps the account. -/
theorem Exact.same (exact' : Exact c e) (filed : e'.Filed)
    (same : SameFor (· ∈ c.consumers) e e') : Exact c e' := by
  refine ⟨filed, exact'.keyed, fun id consumer found => ?_⟩
  rw [same.length (Dict.mem_of_get? found)]
  exact exact'.counts id consumer found

/-- A delivery adds a record, and its consumer counts one more. -/
theorem Exact.deliver {consumer : Consumer} (exact' : Exact c e) (filed : e'.Filed)
    (registered : c.consumers.get? id = some consumer) (room : consumer.qos.canDeliver = true)
    (idle : e.record? name m = none) (owner : record.consumerId = id)
    (records : ∀ q m', e'.record? q m' = if q = name ∧ m' = m then some record else e.record? q m') :
    Exact (c.updateQos id fun qos => qos.onDeliver.2) e' := by
  have owns : ∀ other place, e'.Owns other place ↔
      place = (name, m) ∧ other = id ∨ place ≠ (name, m) ∧ e.Owns other place := by
    rintro other ⟨q, m'⟩
    unfold Owns
    simp only [records, Prod.mk.injEq]
    by_cases here : q = name ∧ m' = m
    · simp [here, owner, eq_comm]
    · simp [here]
  have unowned : ∀ other, ¬ e.Owns other (name, m) := by
    rintro other ⟨old, there, _⟩
    rw [idle] at there
    cases there
  refine ⟨filed, fun other entry found => ?_, fun other entry found => ?_⟩
  · rw [updateQos_get?] at found
    split at found
    · rename_i same
      subst same
      rw [registered] at found
      obtain rfl := Option.some.inj found
      exact exact'.keyed other consumer registered
    · exact exact'.keyed other entry found
  · rw [updateQos_get?] at found
    split at found
    · rename_i same
      subst same
      rw [registered] at found
      obtain rfl := Option.some.inj found
      rw [deliveries_more (e := e) (unowned other) fun place => ?_]
      · rw [← exact'.counts other consumer registered]
        simp [QoS.onDeliver, room]
      · rw [owns]
        by_cases here : place = (name, m)
        · simp [here]
        · simp [here]
    · rename_i differ
      rw [deliveries_same (e := e) fun place => ?_]
      · exact exact'.counts other entry found
      · rw [owns]
        by_cases here : place = (name, m)
        · subst here
          simp [differ, unowned other]
        · simp [here]

/-- A settled delivery takes its record out, and its consumer counts one less. -/
theorem Exact.settle (exact' : Exact c e) (filed : e'.Filed) (there : e.record? name m = some record)
    (records : ∀ q m', e'.record? q m' = if q = name ∧ m' = m then none else e.record? q m') :
    Exact (c.onAck record.consumerId) e' := by
  have owns : ∀ other place, e.Owns other place ↔
      place = (name, m) ∧ other = record.consumerId ∨ e'.Owns other place := by
    rintro other ⟨q, m'⟩
    unfold Owns
    simp only [records, Prod.mk.injEq]
    by_cases here : q = name ∧ m' = m
    · simp [here, there, eq_comm]
    · simp [here]
  have ended : ∀ other, ¬ e'.Owns other (name, m) := by
    rintro other ⟨old, found, _⟩
    rw [records, if_pos ⟨rfl, rfl⟩] at found
    cases found
  refine ⟨filed, fun other entry found => ?_, fun other entry found => ?_⟩
  · unfold onAck at found
    rw [updateQos_get?] at found
    split at found
    · rename_i same
      subst same
      obtain ⟨consumer, registered, rfl⟩ := Option.map_eq_some_iff.mp found
      exact exact'.keyed _ consumer registered
    · exact exact'.keyed other entry found
  · unfold onAck at found
    rw [updateQos_get?] at found
    split at found
    · rename_i same
      subst same
      obtain ⟨consumer, registered, rfl⟩ := Option.map_eq_some_iff.mp found
      have before := exact'.counts _ consumer registered
      rw [deliveries_more (ended record.consumerId) fun place => by rw [owns]; simp] at before
      simp only [QoS.onAck]
      omega
    · rename_i differ
      have same : (e.deliveries other).length = (e'.deliveries other).length :=
        deliveries_same fun place => by rw [owns]; simp [differ]
      rw [← same]
      exact exact'.counts other entry found

/-! ## The calls -/

theorem inflightConsumer_of (indexed : e.byId.get? m = some name)
    (there : e.record? name m = some record) : e.inflightConsumer m = some record.consumerId := by
  obtain ⟨queue, found, inflight⟩ := record?_some.mp there
  simp [inflightConsumer, indexed, found, inflight]

theorem ack_exact (exact' : Exact c e) (ok : (e.ack m).1 = .ok) :
    ∃ name record, e.byId.get? m = some name ∧ e.record? name m = some record ∧
      Exact (c.onAck record.consumerId) (e.ack m).2 := by
  rcases ack_cases e m true with ⟨name, queue, settles⟩ | ⟨refused, _⟩
  · obtain ⟨record, inflight⟩ := Dict.mem_iff.mp settles.inflight
    have there : e.record? name m = some record := record?_some.mpr ⟨queue, settles.found, inflight⟩
    exact ⟨name, record, settles.indexed, there,
      exact'.settle (step_filed exact'.filed (.ack m) trivial) there fun q m' => settles.record?⟩
  · exact absurd ok refused

/-- The credit goes to the consumer of the record, registered or not. -/
theorem credited_exact (h : Handler) {consumerId : String} (keyed : ∀ id consumer,
      h.consumers.consumers.get? id = some consumer → consumer.consumerId = id ∧ id ≠ "")
    (exact' : Exact (h.consumers.onAck consumerId) h.queues) :
    Exact (h.credited consumerId).consumers (h.credited consumerId).queues := by
  unfold Handler.credited
  split
  · rename_i missing
    subst missing
    have unknown : h.consumers.consumers.get? "" = none := by
      cases found : h.consumers.consumers.get? "" with
      | none => rfl
      | some consumer => exact absurd rfl (keyed "" consumer found).2
    have idle : h.consumers.onAck "" = h.consumers := by
      unfold onAck updateQos
      rw [unknown]
    rw [idle] at exact'
    exact exact'
  · exact exact'

/-- A refused push: the delivery that was just made is given back. -/
theorem rejected_exact (exact' : Exact h.consumers h.queues) (held : h.queues.message? q m = some msg)
    (there : h.queues.record? q m = some record) :
    Exact (h.rejected m record.consumerId).consumers (h.rejected m record.consumerId).queues := by
  have indexed := exact'.filed.indexed.filed q m msg held
  rcases nack_settles exact'.filed m true with
    ⟨name, record', indexed', there', _, records⟩ | ⟨_, _, idle⟩
  · rw [indexed] at indexed'
    obtain rfl := Option.some.inj indexed'
    rw [there] at there'
    obtain rfl := Option.some.inj there'
    exact exact'.settle (step_filed exact'.filed (.nack m true) trivial) there records
  · rw [idle q indexed] at there
    cases there

theorem took_exact {consumer : Consumer} {sent : Nat} {outcome : Outcome}
    (exact' : Exact h.consumers h.queues)
    (takes : h.consumers.Takes h.queues name id consumer m message e') :
    Exact (h.took name id consumer message e' sent outcome).consumers
      (h.took name id consumer message e' sent outcome).queues := by
  obtain ⟨record, owner, _, records⟩ := takes.records
  have filed : e'.Filed := takes.filed exact'.filed
  exact exact'.deliver filed takes.registered takes.room takes.idle owner records

/-- A sweep over deliveries of consumers that do not count. -/
theorem swept_exact (kept : String → Prop) (exact' : Exact c e) (weaker : ∀ id ∈ c.consumers, kept id)
    (sweep : ∀ I : QueueEngine → Prop, (∀ e, I e → e.Filed) → I e →
      (∀ e name id, I e → I (e.releaseOne name id).2) →
      (∀ e reads delayed heap, I e →
        I { e with reads := reads, delayed := delayed, visibilityHeap := heap }) →
      (∀ e' name id record, I e' → e'.record? name id = some record →
        (e.record? name id = some record → ¬ kept record.consumerId) →
        I (e'.failDelivery name id true).2) → I e') : Exact c e' := by
  have both : e'.Filed ∧ SameFor kept e e' := by
    apply sweep fun e' => e'.Filed ∧ SameFor kept e e'
    · exact fun _ inv => inv.1
    · exact ⟨exact'.filed, SameFor.of_eq rfl⟩
    · intro e' name id inv
      refine ⟨releaseOne_filed inv.1, fun q m record mine => ?_⟩
      rw [(releaseOne_observe e' name id).2.1]
      exact inv.2 q m record mine
    · intro e' _ _ _ inv
      exact ⟨⟨inv.1.named, inv.1.indexed.filed, inv.1.indexed.held⟩, inv.2⟩
    · intro e' name id record inv there other
      refine ⟨failDelivery_filed inv.1, inv.2.fail there fun mine => ?_⟩
      exact other ((inv.2 name id record mine).mp there) mine
  exact exact'.same both.1 fun q m record known => both.2 q m record (weaker _ known)

theorem Exact.deleted (inv : Exact h.consumers h.queues)
    (ok : exactGuards.delete h name = true) :
    Exact h.consumers (h.queues.deleteQueue name).2 := by
  classical
  apply inv.same (step_filed inv.filed (.deleteQueue name) trivial)
  intro q m record known
  change (h.queues.deleteQueue name).2.record? q m = some record ↔ _
  rw [deleteQueue_record?]
  split
  · rename_i gone
    constructor
    · intro there
      cases there
    · intro there
      have kept := (eachDelivery_iff.mp ok) q m record there known
      rw [takenOut_iff.mpr gone] at kept
      cases kept
  · rfl

/-- A new consumer has nothing to count. -/
theorem Exact.enrolled {connectionId : String} {queues : List String} {prefetch : Int}
    {tag : String} (inv : Exact h.consumers h.queues) (named : id ≠ "")
    (ok : exactGuards.register h connectionId id queues = true) :
    Exact (h.enrolled id connectionId queues prefetch tag).consumers h.queues := by
  refine ⟨inv.filed, fun other consumer found => ?_, fun other consumer found => ?_⟩
  · rw [Handler.enrolled, register_get?] at found
    split at found
    · rename_i same
      obtain rfl := Option.some.inj found
      exact ⟨same.symm, same ▸ named⟩
    · exact inv.keyed other consumer found
  · rw [Handler.enrolled, register_get?] at found
    split at found
    · rename_i same
      subst same
      obtain rfl := Option.some.inj found
      change 0 = (h.queues.deliveries other).length
      rw [List.isEmpty_iff.mp ok, List.length_nil]
    · exact inv.counts other consumer found

theorem Exact.windowed {count : Int} (inv : Exact h.consumers h.queues) :
    Exact (h.consumers.updateQos id (·.setPrefetch count)) h.queues := by
  refine ⟨inv.filed, fun other consumer found => ?_, fun other consumer found => ?_⟩
  · rw [updateQos_get?] at found
    split at found
    · rename_i same
      subst same
      obtain ⟨before, registered, rfl⟩ := Option.map_eq_some_iff.mp found
      exact inv.keyed other before registered
    · exact inv.keyed other consumer found
  · rw [updateQos_get?] at found
    split at found
    · rename_i same
      subst same
      obtain ⟨before, registered, rfl⟩ := Option.map_eq_some_iff.mp found
      exact inv.counts other before registered
    · exact inv.counts other consumer found

/-- The consumer is struck off, and its deliveries are given back. -/
theorem Exact.cancelled (inv : Exact h.consumers h.queues) :
    Exact (h.cancelled id).consumers (h.cancelled id).queues := by
  unfold Handler.cancelled
  rcases cancel_cases h.consumers h.queues id with ⟨_, shape⟩ | ⟨consumer, e', _, alike, shape⟩
  · rw [shape]
    exact inv
  · rw [shape]
    have struck : Exact { consumers := h.consumers.consumers.erase id
                          byConnection := strike h.consumers.byConnection consumer.connectionId id }
        e' := by
      refine ⟨alike.filed inv.filed, fun other entry found => ?_, fun other entry found => ?_⟩
      · rw [Dict.get?_erase] at found
        split at found
        · cases found
        · exact inv.keyed other entry found
      · rw [Dict.get?_erase] at found
        split at found
        · cases found
        · rw [inv.counts other entry found]
          have same : SameFor (fun _ => True) h.queues e' := SameFor.of_eq alike.records
          exact (same.length trivial).symm
    apply swept_exact (· ≠ id) struck fun other known => (Dict.mem_erase.mp known).1
    intro I filed start _ _ fail
    apply recoverConsumer_preserves (fun e inv => (filed e inv).named) _ start
    intro e name m record inv there mine
    exact fail e name m record inv there fun _ other => other mine

theorem Exact.pumped (inv : Exact h.consumers h.queues) :
    Exact (h.pumpQueue name).consumers (h.pumpQueue name).queues := by
  apply Handler.pumpQueue_rule (L := fun h => Exact h.consumers h.queues)
    (I := fun h => Exact h.consumers h.queues) _ _ _ inv
  · exact fun h e' inv alike => inv.same (alike.filed inv.filed) (SameFor.of_eq alike.records)
  · exact fun h id consumer m message e' sent inv takes => took_exact inv takes
  · intro h id consumer m message e' sent inv takes
    obtain ⟨record, owner, _, records⟩ := takes.records
    have owned : record.consumerId = consumer.consumerId :=
      owner.trans (inv.keyed id consumer takes.registered).1.symm
    have same : message.id = m := (inv.filed.named.filed takes.held).1
    have held : e'.message? name m = some message := by rw [takes.messages]; exact takes.held
    have there : e'.record? name m = some record := by rw [records, if_pos ⟨rfl, rfl⟩]
    rw [← owned, same]
    exact rejected_exact (took_exact inv takes) held there

theorem exact_kept : Handler.Kept exactGuards fun h => Exact h.consumers h.queues where
  frame h h' inv queues consumers _ _ := by rw [queues, consumers]; exact inv
  alike h e' inv alike := inv.same (alike.filed inv.filed) (SameFor.of_eq alike.records)
  record h op inv _ := by
    have filed : (h.queues.append true op).Filed := inv.filed.append
    have same : SameFor (· ∈ h.consumers.consumers) h.queues (h.queues.append true op) :=
      SameFor.of_eq record?_append
    exact inv.same filed same
  declare h name args inv :=
    inv.same (step_filed inv.filed (.declareQueue name args) trivial)
      (SameFor.of_eq declareQueue_observe.2)
  delete h name inv ok := inv.deleted ok
  enqueue h message queue inv _ accepts ok :=
    inv.same (accepts.filed inv.filed (filedAlone_iff.mp ok)) (SameFor.of_eq accepts.record?)
  requeue h queue m inv := by
    apply inv.same (step_filed inv.filed (.dlqRequeue queue m) trivial)
    apply SameFor.of_eq
    have outcome := dlqRequeue_requeue inv.filed.named queue m true
    change (h.queues.dlqRequeue queue m).2.record? = h.queues.record?
    generalize (h.queues.dlqRequeue queue m).1 = result at outcome
    generalize (h.queues.dlqRequeue queue m).2 = e' at outcome ⊢
    cases outcome with
    | missing => rfl
    | moved message _ _ _ records => exact records
    | refused message _ _ _ records => exact records
  tick h inv ok := by
    have settled := ((Bool.and_eq_true _ _).mp ok).2
    apply swept_exact (· ∈ h.consumers.consumers) inv fun _ known => known
    intro I _ start release frame fail
    change I h.queues.tick.2
    apply tick_preserves release (fun e name id record inv there overdue => ?_) frame start
    apply fail e name id record inv there
    intro before known
    have early := (eachDelivery_iff.mp settled) name id record before known
    rw [before] at early
    have later : h.queues.now.1 < record.visibilityDeadline := by simpa using early
    exact absurd overdue (not_le.mpr later)
  ack h m inv ok := by
    obtain ⟨name, record, indexed, there, acked⟩ := ack_exact inv ok
    have owner : h.settledFor m = record.consumerId := by
      rw [Handler.settledFor, inflightConsumer_of indexed there]
      rfl
    rw [owner]
    exact credited_exact (h.withQueues (h.queues.ack m).2) inv.keyed acked
  nack h m requeue inv ok := by
    rcases nack_settles inv.filed m requeue with
      ⟨name, record, indexed, there, _, records⟩ | ⟨refused, _⟩
    · have owner : h.settledFor m = record.consumerId := by
        rw [Handler.settledFor, inflightConsumer_of indexed there]
        rfl
      rw [owner]
      apply credited_exact (h.withQueues (h.queues.nack m requeue).2) inv.keyed
      exact inv.settle (step_filed inv.filed (.nack m requeue) trivial) there records
    · exact absurd ok refused
  refusedNack h m requeue inv refused := by
    rcases nack_settles inv.filed m requeue with
      ⟨_, _, _, _, ok, _⟩ | ⟨_, same, _⟩
    · exact absurd ok refused
    · rw [same]
      exact inv
  register h id connectionId queues prefetch tag inv named ok := inv.enrolled named ok
  window h id count inv := inv.windowed
  cancel h id inv := inv.cancelled
  issue _ _ inv := inv
  pull h queue id consumer m message e' inv takes := took_exact inv takes
  pump h queue inv _ := inv.pumped

/-- Prefetch accounting is exact: in every run that meets the conditions, a
registered consumer counts exactly its inflight records. -/
theorem prefetch_exact {consumer : Consumer} (reached : Handler.Reachable exactGuards h)
    (registered : h.consumers.consumers.get? id = some consumer) :
    consumer.unackedCount = (h.queues.deliveries id).length := by
  have exact' : Exact h.consumers h.queues := by
    apply exact_kept.reachable _ reached
    intro config clock sends
    exact ⟨⟨Dict.all_empty, fun _ _ _ held => (nomatch held), fun _ _ indexed => (nomatch indexed)⟩,
      fun _ _ found => (nomatch found), fun _ _ found => (nomatch found)⟩
  exact exact'.counts id consumer registered

/-- A worker that consumes from `jobs` with every frame accepted. -/
def working (clock : Nat → ℚ) : Handler := Handler.created {} clock fun _ => true

def workEvents : List Event := [
  .connect "c1",
  .command "c1" (.consume ["jobs"] "" "worker" none "" .u1),
  .command "c2" (.publish { payload := [1], queue := some "jobs" } fun _ => ⟨"m1", 0⟩)]

/-- A clock that passes the visibility timeout after two readings. -/
def jumpingClock (reading : Nat) : ℚ := if reading < 2 then 0 else 400

theorem prefetch_exact_working :
    ((Systems.run Handler.step (working fun _ => 0) workEvents).consumers.consumers.get?
      "worker").map (·.unackedCount) =
    some ((Systems.run Handler.step (working fun _ => 0) workEvents).queues.deliveries
      "worker").length := by
  have reached : Handler.Reachable exactGuards
      (Systems.run Handler.step (working fun _ => 0) workEvents) :=
    Handler.Reachable.run (.start _ _ _) (by decide +kernel)
  have known : ((Systems.run Handler.step (working fun _ => 0) workEvents).consumers.consumers.get?
      "worker").isSome = true := by decide +kernel
  obtain ⟨consumer, registered⟩ := Option.isSome_iff_exists.mp known
  rw [registered, Option.map_some, prefetch_exact reached registered]

/-- After a visibility timeout the worker still counts a delivery that is over. -/
theorem timeout_drifts :
    Handler.Reachable {} (Systems.run Handler.step (working jumpingClock) (workEvents ++ [.ticker])) ∧
    ((Systems.run Handler.step (working jumpingClock) (workEvents ++ [.ticker])).consumers.consumers.get?
      "worker").map (·.unackedCount) = some 1 ∧
    (Systems.run Handler.step (working jumpingClock) (workEvents ++ [.ticker])).queues.deliveries
      "worker" = [] :=
  ⟨Handler.Reachable.run (.start _ _ _) (by decide +kernel), by decide +kernel, by decide +kernel⟩

end OneOpenBroker.Broker

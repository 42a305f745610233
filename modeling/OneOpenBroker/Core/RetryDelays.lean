import Mathlib.Data.List.TakeWhile
import Mathlib.Data.Nat.Cast.Order.Basic
import OneOpenBroker.Core.Placement
import OneOpenBroker.Core.Timeouts
import OneOpenBroker.Library.Lists

/-! Retry delays. A message on delay is passed over by `reserve` until a tick
takes an entry for it off the delayed heap. Nothing compares that entry with
the delay the message is on, so an entry that an earlier delay of the same id
in the same queue has left ends the new delay too early; without such an entry
the message waits until its moment, and the first tick from then on wakes it. -/
namespace OneOpenBroker.Core.QueueEngine
open Collections Systems

/-- The id is among the delayed ids of the queue. -/
def Asleep (e : QueueEngine) (q m : String) : Prop :=
  ∃ queue, e.queues.get? q = some queue ∧ m ∈ queue.delayedIds

/-- The queue holds the message on delay until a moment. -/
structure OnDelay (e : QueueEngine) (q m : String) (due : ℚ) : Prop where
  held : ∃ message, e.message? q m = some message ∧ message.availableAt = some due
  asleep : e.Asleep q m
  idle : e.record? q m = none

theorem onDelay_iff {e : QueueEngine} {q m : String} {due : ℚ} : e.OnDelay q m due ↔
    (e.queues.get? q).any (fun queue => decide (m ∈ queue.delayedIds ∧ m ∉ queue.inflight) &&
      (queue.messages.get? m).any fun message => decide (message.availableAt = some due)) = true := by
  simp only [Option.any_eq_true, Bool.and_eq_true, decide_eq_true_eq]
  constructor
  · rintro ⟨⟨message, held, moment⟩, ⟨queue, found, slept⟩, idle⟩
    rw [message?_of_get found] at held
    rw [record?_of_get found] at idle
    exact ⟨queue, found, ⟨slept, Dict.get?_eq_none.mp idle⟩, message, held, moment⟩
  · rintro ⟨queue, found, ⟨slept, idle⟩, message, held, moment⟩
    refine ⟨⟨message, (message?_of_get found).trans held, moment⟩, ⟨queue, found, slept⟩, ?_⟩
    rw [record?_of_get found]
    exact Dict.get?_eq_none.mpr idle

instance (e : QueueEngine) (q m : String) (due : ℚ) : Decidable (e.OnDelay q m due) :=
  decidable_of_iff' _ onDelay_iff

/-- A tick at a given moment comes after all readings of the clock so far and
not after the next one. -/
def InTime (e : QueueEngine) : EngineOp → Prop
  | .tick (some now) => (∀ i < e.reads, e.clock i ≤ now) ∧ now ≤ e.clock e.reads
  | _ => True

/-- No tick before the moment finds an entry for the message due. -/
def Punctual (q m : String) (due : ℚ) (e : QueueEngine) : EngineOp → Prop
  | .tick now => ∀ entry ∈ e.delayed, entry.queue = q → entry.messageId = m →
      entry.due ≤ e.tickTime now → due ≤ e.tickTime now
  | _ => True

/-- A step of a run in which the message stays in its queue: ids are fresh,
the clock does not go back, and no entry of another delay is due. -/
structure Undisturbed (persist : Bool) (q m : String) (due : ℚ) (e : QueueEngine) (op : EngineOp) :
    Prop where
  fresh : FreshIds e op
  inTime : InTime e op
  stays : ((e.step persist op).message? q m).isSome
  punctual : Punctual q m due e op

variable {e e' : QueueEngine} {q m id name : String} {queue queue' : DurableQueue}
  {message : Message} {persist requeue : Bool} {ts due : ℚ}

/-! ## The clock -/

/-- The same clock, read as often or more often. -/
def Passes (e e' : QueueEngine) : Prop := e'.clock = e.clock ∧ e.reads ≤ e'.reads

theorem Passes.refl (e : QueueEngine) : Passes e e := ⟨rfl, le_rfl⟩

theorem Passes.trans {b : QueueEngine} (first : Passes e b) (second : Passes b e') : Passes e e' :=
  ⟨second.1.trans first.1, first.2.trans second.2⟩

theorem append_passes {op : JournalOp} : Passes e (e.append persist op) := by
  cases persist <;> exact ⟨rfl, le_rfl⟩

theorem declareLeaf_passes {args : QueueArgs} : Passes e (e.declareLeaf name args persist) := by
  unfold declareLeaf
  split
  · exact .refl e
  · exact Passes.trans (b := e.putQueue name _) ⟨rfl, le_rfl⟩ append_passes

theorem declareQueue_passes {args : QueueArgs} : Passes e (e.declareQueue name args persist) := by
  rw [declareQueue_eq]
  split
  · exact .refl e
  · refine Passes.trans ?_ append_passes
    have stored : Passes e (e.putQueue name { spec := e.makeSpec name args }) := ⟨rfl, le_rfl⟩
    split
    · exact stored.trans declareLeaf_passes
    · exact stored

theorem removeQueue_passes : Passes e (e.removeQueue name queue persist) :=
  Passes.trans (b := { e with
      queues := e.queues.erase name
      byId := e.byId.eraseAll queue.messages.keys })
    ⟨rfl, le_rfl⟩ append_passes

theorem deleteQueue_passes : Passes e (e.deleteQueue name persist).2 := by
  unfold deleteQueue
  split
  · exact .refl e
  · dsimp only
    split
    · unfold deleteLeaf
      split
      · exact removeQueue_passes
      · exact removeQueue_passes.trans removeQueue_passes
    · exact removeQueue_passes

theorem accept_passes : Passes e (e.accept queue message) := by
  unfold accept
  dsimp only
  split <;> exact ⟨rfl, le_rfl⟩

theorem enqueue_passes : Passes e (e.enqueue message persist).2 := by
  rcases enqueue_cases e message persist with ⟨queue, accepts⟩ | ⟨_, same⟩
  · rw [accepts.2.2]
    have read : Passes e e.now.2 := ⟨rfl, Nat.le_succ _⟩
    exact (read.trans accept_passes).trans append_passes
  · rw [same]
    exact .refl e

theorem reserve_passes {consumerId : String} : Passes e (e.reserve name consumerId).2 := by
  unfold reserve
  split
  · exact .refl e
  · split
    · exact ⟨rfl, le_rfl⟩
    · exact ⟨rfl, Nat.le_succ _⟩

theorem ack_passes : Passes e (e.ack id persist).2 := by
  unfold ack
  split
  · exact .refl e
  · split
    · exact .refl e
    · split
      · exact .refl e
      · split
        · refine Passes.trans ?_ append_passes
          exact ⟨rfl, le_rfl⟩
        · exact .refl e

theorem bury_passes : Passes e (e.bury name message) := by
  unfold bury
  split
  · exact .refl e
  · exact ⟨rfl, le_rfl⟩

theorem moveToDlq_passes : Passes e (e.moveToDlq name queue message persist) := by
  have gone : Passes e (e.discarded name queue message persist) :=
    Passes.trans (b := { e.putQueue name (queue.discard message.id) with
      byId := e.byId.erase message.id }) ⟨rfl, le_rfl⟩ append_passes
  rw [moveToDlq_eq]
  split
  · exact (gone.trans declareLeaf_passes).trans bury_passes
  · exact gone

theorem conclude_passes : Passes e (e.conclude name queue message requeue persist) := by
  rcases conclude_cases e name queue message requeue persist with ⟨_, shape⟩ | ⟨_, _, shape⟩
  · rw [shape]
    exact moveToDlq_passes
  · rw [shape]
    exact Passes.trans (b := pushDelayed (putQueue e.now.2 name _) name _ _)
      ⟨rfl, Nat.le_succ _⟩ append_passes

theorem failDelivery_passes : Passes e (e.failDelivery name id persist).2 := by
  rcases failDelivery_cases e name id persist with ⟨_, shape⟩ | ⟨queue, _, _, shape⟩ |
    ⟨queue, message, _, _, shape⟩
  · rw [shape]
    exact .refl e
  · rw [shape]
    exact ⟨rfl, le_rfl⟩
  · rw [shape]
    exact Passes.trans (b := e.putQueue name (queue.endDelivery id)) ⟨rfl, le_rfl⟩ conclude_passes

theorem nack_passes : Passes e (e.nack id requeue persist).2 := by
  rcases nack_cases e id requeue persist with ⟨name, queue, message, nacks⟩ |
    ⟨_, same | ⟨name, queue, _, _, _, shape⟩⟩
  · rw [nacks.shape]
    have counted : Passes e (e.nacked id requeue persist name queue) :=
      Passes.trans (b := e.putQueue name (queue.endDelivery id).countNack) ⟨rfl, le_rfl⟩
        append_passes
    exact counted.trans conclude_passes
  · rw [same]
    exact .refl e
  · rw [shape]
    exact ⟨rfl, le_rfl⟩

theorem releaseOne_passes : Passes e (e.releaseOne name id).2 := by
  rcases releaseOne_cases e name id with ⟨_, same⟩ | ⟨queue, _, _, _, shape⟩ |
    ⟨queue, message, _, _, _, _, shape⟩
  · rw [same]
    exact .refl e
  · rw [shape]
    exact ⟨rfl, le_rfl⟩
  · rw [shape]
    exact ⟨rfl, le_rfl⟩

theorem tick_passes {now : Option ℚ} : Passes e (e.tick now).2 := by
  have sweep : ∀ (base : QueueEngine) ts,
      Passes base ((base.releaseDelayed ts).2.timeoutInflight ts).2 := by
    intro base ts
    have released : Passes base (base.releaseDelayed ts).2 :=
      releaseAll_preserves (I := Passes base) (fun _ _ _ passes => passes.trans releaseOne_passes)
        ⟨rfl, le_rfl⟩
    exact timeoutEntries_preserves (I := Passes base)
      (fun _ _ _ _ passes _ _ => passes.trans failDelivery_passes)
      (fun _ _ passes => passes) released
  cases now with
  | none => exact Passes.trans (b := e.now.2) ⟨rfl, Nat.le_succ _⟩ (sweep e.now.2 e.now.1)
  | some ts => exact sweep e ts

theorem dlqRequeue_passes {queueName : String} : Passes e (e.dlqRequeue queueName id persist).2 := by
  rcases dlqRequeue_cases e queueName id persist with nothing | ⟨dlq, message, draws⟩
  · rw [nothing]
    exact .refl e
  · have taken : Passes e (e.withdrawn queueName id dlq) := ⟨rfl, le_rfl⟩
    rcases draws.result persist with ⟨_, _, shape⟩ | ⟨_, shape⟩
    · rw [shape]
      exact (taken.trans enqueue_passes).trans append_passes
    · rw [shape]
      exact ⟨rfl, le_rfl⟩

/-- No operation changes the clock or takes back a reading. -/
theorem step_passes (persist : Bool) (named : e.Named) (op : EngineOp) :
    Passes e (e.step persist op) := by
  cases op with
  | declareQueue name args => exact declareQueue_passes
  | deleteQueue name => exact deleteQueue_passes
  | enqueue message => exact enqueue_passes
  | reserve queueName consumerId => exact reserve_passes
  | ack messageId => exact ack_passes
  | nack messageId requeue => exact nack_passes
  | recoverConsumer consumerId =>
    have both : (e.recoverConsumer consumerId persist).2.Named ∧
        Passes e (e.recoverConsumer consumerId persist).2 :=
      recoverConsumer_preserves (I := fun e' => e'.Named ∧ Passes e e') (fun _ inv => inv.1)
        (fun _ _ _ _ inv _ _ => ⟨failDelivery_named inv.1, inv.2.trans failDelivery_passes⟩)
        ⟨named, .refl e⟩
    exact both.2
  | tick now => exact tick_passes
  | dlqRequeue queueName messageId => exact dlqRequeue_passes

theorem run_passes (persist : Bool) (ops : List EngineOp) (named : e.Named) :
    Passes e (run (step persist) e ops) := by
  have whole : (run (step persist) e ops).Named ∧ Passes e (run (step persist) e ops) := by
    refine run_invariant (I := fun e' => e'.Named ∧ Passes e e') (fun e' op inv => ?_)
      ⟨named, .refl e⟩
    exact ⟨step_named inv.1 op, inv.2.trans (step_passes persist inv.1 op)⟩
  exact whole.2

/-! ## A message that stays asleep -/

/-- If the queue holds the message, it has it among its delayed ids and has no
delivery of it. -/
def Sleeps (q m name : String) (queue : DurableQueue) : Prop :=
  name = q → m ∈ queue.messages → m ∈ queue.delayedIds ∧ m ∉ queue.inflight

theorem Sleeps.change (sleeps : Sleeps q m name queue)
    (messages : name = q → m ∈ queue'.messages → m ∈ queue.messages)
    (delayed : name = q → m ∈ queue.delayedIds → m ∈ queue'.delayedIds)
    (inflight : name = q → m ∈ queue'.inflight → m ∈ queue.inflight) : Sleeps q m name queue' := by
  intro here held
  obtain ⟨asleep, idle⟩ := sleeps here (messages here held)
  exact ⟨delayed here asleep, fun flying => idle (inflight here flying)⟩

/-- The message is held by the queue and asleep there. -/
structure Kept (e : QueueEngine) (q m : String) : Prop where
  filed : e.Filed
  held : (e.message? q m).isSome
  sleeps : Dict.All (Sleeps q m) e.queues

theorem Kept.inside (kept : e.Kept q m) (found : e.queues.get? q = some queue) :
    m ∈ queue.messages := by
  obtain ⟨message, there⟩ := Option.isSome_iff_exists.mp kept.held
  rw [message?_of_get found] at there
  exact Dict.mem_of_get? there

theorem Kept.asleep (kept : e.Kept q m) (found : e.queues.get? q = some queue) :
    m ∈ queue.delayedIds ∧ m ∉ queue.inflight :=
  kept.sleeps q queue found rfl (kept.inside found)

/-- Another queue that holds the id is this queue. -/
theorem Kept.lone (kept : e.Kept q m) (held : e.message? name m = some message) : name = q := by
  by_contra differ
  have nothing := kept.filed.indexed.lone held (q := q) fun same => differ same.symm
  have there := kept.held
  rw [nothing] at there
  cases there

theorem OnDelay.kept (delay : e.OnDelay q m due) (filed : e.Filed) : e.Kept q m := by
  obtain ⟨message, held, _⟩ := delay.held
  refine ⟨filed, by rw [held]; rfl, ?_⟩
  rintro name queue found rfl _
  obtain ⟨same, there, asleep⟩ := delay.asleep
  obtain rfl := Option.some.inj (found.symm.trans there)
  have idle := delay.idle
  rw [record?_of_get found] at idle
  exact ⟨asleep, Dict.get?_eq_none.mp idle⟩

theorem accepted_asleep {seq : Nat} (asleep : m ∈ queue.delayedIds) :
    m ∈ (accepted queue seq message).delayedIds := by
  unfold accepted
  split
  · exact Finset.mem_insert_of_mem asleep
  · exact asleep

/-- A failure of another message wakes this one in neither of its queues. -/
theorem conclude_sleeps (others : Dict.AllBut name (Sleeps q m) e.queues)
    (left : Sleeps q m name queue) (same : message.id = id) (apart : name = q → m ≠ id)
    (below : dlqName name = q → m ≠ id) :
    Dict.All (Sleeps q m) (e.conclude name queue message requeue persist).queues := by
  have filed : (failed message requeue).id = id := same
  rcases conclude_cases e name queue message requeue persist with ⟨_, shape⟩ | ⟨_, _, shape⟩
  · rw [shape]
    refine all_moveToDlq others ?_ (fun _ held => by simp at held) fun dest sleeps _ => ?_
    · refine left.change (fun _ held => ?_) (fun _ asleep => asleep) fun _ flying => flying
      exact (Dict.mem_erase.mp held).2
    · refine sleeps.change (fun here held => ?_) (fun _ asleep => asleep) fun _ flying => flying
      have differ : m ≠ (buried name (failed message requeue)).id := filed ▸ below here
      exact (Dict.mem_set.mp held).resolve_left differ
  · rw [shape, delayRetry_queues]
    refine others.set (left.change (fun here held => ?_) (fun _ asleep => ?_) fun _ flying => flying)
    · exact (Dict.mem_set.mp held).resolve_left (filed ▸ apart here)
    · exact Finset.mem_insert_of_mem asleep

/-- The end of another delivery. -/
theorem Sleeps.endDelivery (id : String) (sleeps : Sleeps q m name queue) :
    Sleeps q m name (queue.endDelivery id) :=
  sleeps.change (fun _ held => held) (fun _ asleep => asleep) fun _ flying =>
    (Dict.mem_erase.mp flying).2

theorem Kept.apart (kept : e.Kept q m) (found : e.queues.get? name = some queue)
    (flying : id ∈ queue.inflight) : name = q → m ≠ id := by
  rintro rfl rfl
  exact (kept.asleep found).2 flying

theorem Kept.below (kept : e.Kept q m) (found : e.queues.get? name = some queue)
    (held : queue.messages.get? id = some message) (apart : name = q → m ≠ id) :
    dlqName name = q → m ≠ id := by
  rintro _ rfl
  exact apart (kept.lone ((message?_of_get found).trans held)) rfl

/-- The delivery that fails is of another message, which stays away from this one. -/
theorem Kept.fail {record : InflightRecord} (kept : e.Kept q m)
    (flying : e.record? name id = some record) : (e.failDelivery name id persist).2.Kept q m := by
  obtain ⟨queue, found, inflight⟩ := record?_some.mp flying
  have apart := kept.apart found (Dict.mem_of_get? inflight)
  have other : ¬ (q = name ∧ m = id) := fun same => apart same.1.symm same.2
  refine ⟨failDelivery_filed kept.filed, ?_, ?_⟩
  · have exit : Exit e name id true persist [] (e.failDelivery name id persist).2 :=
      failDelivery_exit kept.filed.named
    generalize (e.failDelivery name id persist).2 = e' at exit
    cases exit with
    | gone _ messages =>
      rw [messages]
      exact kept.held
    | retried message due held _ _ messages =>
      rw [messages, if_neg other]
      exact kept.held
    | moved message spec held known on _ messages =>
      rw [messages, if_neg other]
      split
      · rfl
      · exact kept.held
    | dropped message spec held known off _ messages =>
      rw [messages, if_neg other]
      exact kept.held
  · have ended := (kept.sleeps name queue found).endDelivery id
    rcases failDelivery_cases e name id persist with ⟨absent, _⟩ | ⟨queue', found', _, shape⟩ |
      ⟨queue', message, found', held, shape⟩
    · rw [absent] at found
      cases found
    · obtain rfl := Option.some.inj (found.symm.trans found')
      rw [shape]
      exact kept.sleeps.set ended
    · obtain rfl := Option.some.inj (found.symm.trans found')
      rw [shape]
      exact conclude_sleeps kept.sleeps.but.stored ended
        ((kept.filed.named name queue found).messages id message held).1 apart
        (kept.below found held apart)

theorem Kept.release (kept : e.Kept q m) (other : name = q → m ≠ id) :
    (e.releaseOne name id).2.Kept q m := by
  refine ⟨releaseOne_filed kept.filed, ?_, ?_⟩
  · obtain ⟨message, held⟩ := Option.isSome_iff_exists.mp kept.held
    have same := (releaseOne_observe e name id).1 q m
    rw [held, Option.map_some] at same
    obtain ⟨message', there, _⟩ := Option.map_eq_some_iff.mp same
    rw [there]
    rfl
  · rcases releaseOne_cases e name id with ⟨_, same⟩ | ⟨queue, found, _, _, shape⟩ |
      ⟨queue, message, found, _, _, _, shape⟩
    · rw [same]
      exact kept.sleeps
    · rw [shape]
      refine kept.sleeps.set ((kept.sleeps name queue found).change (fun _ held => held)
        (fun here asleep => ?_) fun _ flying => flying)
      exact Finset.mem_erase.mpr ⟨other here, asleep⟩
    · rw [shape]
      refine kept.sleeps.set ((kept.sleeps name queue found).change (fun here held => ?_)
        (fun here asleep => ?_) fun _ flying => flying)
      · exact (Dict.mem_set.mp held).resolve_left (other here)
      · exact Finset.mem_erase.mpr ⟨other here, asleep⟩

/-- Due entries for other messages do not wake this one. -/
theorem Kept.releaseAll {entries : List TimedEntry} (kept : e.Kept q m)
    (others : ∀ entry ∈ entries, entry.queue = q → m ≠ entry.messageId) :
    (releaseAll entries e).2.Kept q m := by
  induction entries generalizing e with
  | nil => exact kept
  | cons entry rest ih =>
    obtain ⟨here, later⟩ := List.forall_mem_cons.mp others
    exact ih (kept.release here) later

theorem Kept.frame (kept : e.Kept q m) (reads : Nat) (delayed heap : List TimedEntry) :
    Kept { e with reads, delayed, visibilityHeap := heap } q m :=
  ⟨⟨kept.filed.named, kept.filed.indexed.filed, kept.filed.indexed.held⟩, kept.held, kept.sleeps⟩

/-- A tick before the message's moment, at which none of its entries is due. -/
theorem Kept.tick {now : Option ℚ} (kept : e.Kept q m) (punctual : Punctual q m due e (.tick now))
    (early : e.tickTime now < due) : (e.tick now).2.Kept q m := by
  obtain ⟨reads, shape⟩ := tick_sweeps e now
  rw [shape]
  refine timeoutEntries_preserves (I := fun e => e.Kept q m)
    (fun _ _ _ _ kept flying _ => kept.fail flying)
    (fun e entries kept => kept.frame e.reads e.delayed entries) ?_
  refine Kept.releaseAll (kept.frame reads _ e.visibilityHeap) fun entry listed here same => ?_
  have due' : entry.due ≤ e.tickTime now := by simpa using List.mem_takeWhile_imp listed
  have inside : entry ∈ e.delayed := (List.takeWhile_prefix _).sublist.mem listed
  exact absurd (punctual entry inside here same.symm due') (not_le.mpr early)

theorem enqueue_sleeps (kept : e.Kept q m) (fresh : message.id ≠ m) :
    Dict.All (Sleeps q m) (e.enqueue message persist).2.queues := by
  rcases enqueue_cases e message persist with ⟨queue, accepts⟩ | ⟨_, same⟩
  · rw [accepts.queues]
    refine kept.sleeps.set ((kept.sleeps _ queue accepts.1).change (fun _ held => ?_)
      (fun _ asleep => ?_) fun _ flying => ?_)
    · rw [accepted_messages, dueMessage_id] at held
      exact (Dict.mem_set.mp held).resolve_left fresh.symm
    · exact accepted_asleep asleep
    · rwa [accepted_inflight] at flying
  · rw [same]
    exact kept.sleeps

theorem reserve_sleeps {consumerId : String} (kept : e.Kept q m) :
    Dict.All (Sleeps q m) (e.reserve name consumerId).2.queues := by
  rcases reserve_cases e name consumerId with ⟨queue, id, message, rest, reserves⟩ |
    ⟨_, ⟨same, _⟩ | ⟨queue, found, _, shape⟩⟩
  · obtain ⟨held, _, awake, _⟩ := popDeliverable_some reserves.popped
    rw [reserves.queues]
    refine kept.sleeps.set ?_
    rintro rfl there
    obtain ⟨asleep, idle⟩ := kept.asleep reserves.found
    refine ⟨asleep, fun flying => ?_⟩
    rcases Dict.mem_set.mp flying with same | before
    · have here : m = id := same
      exact awake (here ▸ asleep)
    · exact idle before
  · rw [same]
    exact kept.sleeps
  · rw [shape]
    exact kept.sleeps.set (kept.sleeps name queue found)

theorem ack_sleeps (kept : e.Kept q m) : Dict.All (Sleeps q m) (e.ack id persist).2.queues := by
  rcases ack_cases e id persist with ⟨name, queue, settles⟩ | ⟨_, same⟩
  · rw [settles.queues]
    exact kept.sleeps.set ((kept.sleeps name queue settles.found).change
      (fun _ held => (Dict.mem_erase.mp held).2) (fun _ asleep => asleep)
      fun _ flying => (Dict.mem_erase.mp flying).2)
  · rw [same]
    exact kept.sleeps

theorem nack_sleeps (kept : e.Kept q m) :
    Dict.All (Sleeps q m) (e.nack id requeue persist).2.queues := by
  rcases nack_cases e id requeue persist with ⟨name, queue, message, nacks⟩ |
    ⟨_, same | ⟨name, queue, _, found, _, shape⟩⟩
  · have apart := kept.apart nacks.found nacks.inflight
    have ended : Sleeps q m name (queue.endDelivery id).countNack :=
      (kept.sleeps name queue nacks.found).endDelivery id
    rw [nacks.shape]
    refine conclude_sleeps ?_ ended ((kept.filed.named name queue nacks.found).messages id message
      nacks.held).1 apart (kept.below nacks.found nacks.held apart)
    rw [nacked_queues]
    exact kept.sleeps.but.stored
  · rw [same]
    exact kept.sleeps
  · rw [shape]
    exact kept.sleeps.set ((kept.sleeps name queue found).endDelivery id)

/-- Taken out of its queue or put back there, the message keeps its place
among the delayed ids. -/
theorem dlqRequeue_sleeps {queueName : String} (kept : e.Kept q m) :
    Dict.All (Sleeps q m) (e.dlqRequeue queueName id persist).2.queues := by
  rcases dlqRequeue_cases e queueName id persist with nothing | ⟨dlq, message, draws⟩
  · rw [nothing]
    exact kept.sleeps
  have drawn : Sleeps q m (requeueSource queueName) (dlq.withdraw id) :=
    (kept.sleeps _ dlq draws.source).change (fun _ held => (Dict.mem_erase.mp held).2)
      (fun _ asleep => asleep) fun _ flying => flying
  have taken : Dict.All (Sleeps q m) (e.withdrawn queueName id dlq).queues := kept.sleeps.set drawn
  have ids : message.id = id := (kept.filed.named.filed draws.heldThere).1
  rcases draws.result persist with ⟨dest, accepts, shape⟩ | ⟨_, shape⟩
  · rw [shape, append_queues, accepts.queues]
    refine taken.set ?_
    by_cases mine : m = id
    · -- The id is in no other queue than the one it was taken from.
      rintro rfl _
      have source : requeueSource queueName = originQueue queueName :=
        kept.lone (mine ▸ draws.heldThere)
      have known : (e.withdrawn queueName id dlq).queues.get? (originQueue queueName) =
          some (dlq.withdraw id) := by
        rw [← source]
        exact Dict.get?_set_self
      obtain rfl := Option.some.inj (known.symm.trans accepts.1)
      have found := draws.source
      rw [source] at found
      obtain ⟨asleep, idle⟩ := kept.asleep found
      exact ⟨accepted_asleep asleep, by rw [accepted_inflight]; exact idle⟩
    · refine (taken _ dest accepts.1).change (fun _ held => ?_) (fun _ asleep => accepted_asleep asleep)
        fun _ flying => by rwa [accepted_inflight] at flying
      rw [accepted_messages, dueMessage_id] at held
      exact (Dict.mem_set.mp held).resolve_left fun same => mine (same.trans ids)
  · rw [shape, putBack_queues]
    refine taken.set ((kept.sleeps _ dlq draws.source).change (fun _ held => ?_)
      (fun _ asleep => asleep) fun _ flying => flying)
    rcases Dict.mem_set.mp held with same | before
    · exact same ▸ Dict.mem_of_get? draws.held
    · exact (Dict.mem_erase.mp before).2

/-- No step of the run wakes the message while the clock is before its moment. -/
theorem Kept.next {op : EngineOp} (kept : e.Kept q m) (ok : Undisturbed persist q m due e op)
    (early : e.clock e.reads < due) : (e.step persist op).Kept q m := by
  have sleeps : Dict.All (Sleeps q m) (e.step persist op).queues := by
    cases op with
    | declareQueue name args =>
      exact all_declareQueue kept.sleeps fun _ _ _ held => by simp at held
    | deleteQueue name => exact all_deleteQueue kept.sleeps
    | enqueue message =>
      obtain ⟨old, held⟩ := Option.isSome_iff_exists.mp kept.held
      exact enqueue_sleeps kept fun same => ok.fresh (same ▸ ⟨q, old, held⟩)
    | reserve queueName consumerId => exact reserve_sleeps kept
    | ack messageId => exact ack_sleeps kept
    | nack messageId requeue => exact nack_sleeps kept
    | recoverConsumer consumerId =>
      have after : (e.recoverConsumer consumerId persist).2.Kept q m :=
        recoverConsumer_preserves (I := fun e => e.Kept q m) (fun _ kept => kept.filed.named)
          (fun _ _ _ _ kept flying _ => kept.fail flying) kept
      exact after.sleeps
    | tick now =>
      have before : e.tickTime now < due := by
        cases now with
        | none => exact early
        | some ts => exact ok.inTime.2.trans_lt early
      exact (kept.tick ok.punctual before).sleeps
    | dlqRequeue queueName messageId => exact dlqRequeue_sleeps kept
  exact ⟨step_filed kept.filed op ok.fresh, ok.stays, sleeps⟩

/-- As long as the clock has not reached its moment, the message is asleep. -/
theorem Kept.throughout {ops : List EngineOp} (kept : e.Kept q m) (forward : Monotone e.clock)
    (ok : Allowed (step persist) (Undisturbed persist q m due) e ops)
    (early : (run (step persist) e ops).clock (run (step persist) e ops).reads < due) :
    (run (step persist) e ops).Kept q m := by
  have whole : (run (step persist) e ops).clock = e.clock ∧
      (run (step persist) e ops).Named ∧
      (due ≤ e.clock (run (step persist) e ops).reads ∨
        (run (step persist) e ops).Kept q m) := by
    refine run_preserves (I := fun e' => e'.clock = e.clock ∧ e'.Named ∧
      (due ≤ e.clock e'.reads ∨ e'.Kept q m)) ?_ ⟨rfl, kept.filed.named, .inr kept⟩ ok
    rintro e' op ⟨clock, named, reached⟩ ok
    obtain ⟨same, later⟩ := step_passes persist named op
    refine ⟨same.trans clock, step_named named op, ?_⟩
    by_cases late : due ≤ e.clock e'.reads
    · exact .inl (late.trans (forward later))
    · exact .inr ((reached.resolve_left late).next ok (by rw [clock]; exact not_le.mp late))
  obtain ⟨clock, _, late | kept⟩ := whole
  · rw [clock] at early
    exact absurd late (not_le.mpr early)
  · exact kept

/-! ## The entry of a delay -/

/-- A moment at which the clock was read. -/
def Past (e : QueueEngine) (ts : ℚ) : Prop := ∃ i < e.reads, e.clock i = ts

/-- A message on delay has an entry that is due at its moment or at a past one. -/
def Rings (delayed : List TimedEntry) (past : ℚ → Prop) (q : String) (queue : DurableQueue) : Prop :=
  ∀ m message due, queue.messages.get? m = some message → message.availableAt = some due →
    m ∈ queue.delayedIds → ∃ entry ∈ delayed, entry.queue = q ∧ entry.messageId = m ∧
      (entry.due = due ∨ past entry.due)

/-- The delayed heap is in order and has an entry for every delay. -/
structure Rung (past : ℚ → Prop) (e : QueueEngine) : Prop where
  ordered : e.delayed.Pairwise TimedEntry.le
  rings : Dict.All (Rings e.delayed past) e.queues

variable {past past' : ℚ → Prop} {delayed delayed' : List TimedEntry}

theorem Rings.grow (rings : Rings delayed past q queue) (more : ∀ entry ∈ delayed, entry ∈ delayed')
    (more' : ∀ ts, past ts → past' ts) : Rings delayed' past' q queue := by
  intro m message due held moment asleep
  obtain ⟨entry, there, here, same, rings⟩ := rings m message due held moment asleep
  exact ⟨entry, more entry there, here, same, rings.imp_right (more' _)⟩

/-- A delay is an old one, or it has its entry. -/
theorem Rings.change (rings : Rings delayed past q queue)
    (delays : ∀ m message due, queue'.messages.get? m = some message →
      message.availableAt = some due → m ∈ queue'.delayedIds →
        (queue.messages.get? m = some message ∧ m ∈ queue.delayedIds) ∨
        ∃ entry ∈ delayed, entry.queue = q ∧ entry.messageId = m ∧
          (entry.due = due ∨ past entry.due)) : Rings delayed past q queue' := by
  intro m message due held moment asleep
  rcases delays m message due held moment asleep with ⟨before, slept⟩ | rung
  · exact rings m message due before moment slept
  · exact rung

theorem Rings.fewer (rings : Rings delayed past q queue)
    (messages : ∀ m message, queue'.messages.get? m = some message →
      queue.messages.get? m = some message)
    (asleep : ∀ m ∈ queue'.delayedIds, m ∈ queue.delayedIds) : Rings delayed past q queue' :=
  rings.change fun m message _ held _ slept => .inl ⟨messages m message held, asleep m slept⟩

theorem Rings.fresh {spec : QueueSpec} {stats : QueueStats} :
    Rings delayed past q { spec, stats } := fun _ _ _ held => by simp at held

/-- A message without a moment that is stored is on no delay. -/
theorem Rings.store (id : String) (message : Message) (rings : Rings delayed past q queue)
    (none : message.availableAt = none)
    (messages : ∀ m, queue'.messages.get? m =
      if m = id then some message else queue.messages.get? m)
    (asleep : queue'.delayedIds = queue.delayedIds) : Rings delayed past q queue' := by
  refine rings.change fun m message' due held moment slept => .inl ?_
  rw [messages] at held
  split at held
  · rw [← Option.some.inj held, none] at moment
    cases moment
  · exact ⟨held, asleep ▸ slept⟩

theorem Rings.erase (rings : Rings delayed past q queue)
    (messages : queue'.messages = queue.messages.erase id)
    (asleep : queue'.delayedIds = queue.delayedIds) : Rings delayed past q queue' := by
  refine rings.fewer (fun m message held => ?_) fun m slept => asleep ▸ slept
  rw [messages, Dict.get?_erase] at held
  split at held
  · cases held
  · exact held

/-- A message is stored on a delay whose entry was just pushed. -/
theorem Rings.sleep (message : Message) (rings : Rings delayed past q queue)
    (pushed : ∀ due, message.availableAt = some due → ∃ entry ∈ delayed, entry.queue = q ∧
      entry.messageId = message.id ∧ (entry.due = due ∨ past entry.due))
    (messages : queue'.messages = queue.messages.set message.id message)
    (asleep : ∀ m ∈ queue'.delayedIds, m = message.id ∨ m ∈ queue.delayedIds) :
    Rings delayed past q queue' := by
  refine rings.change fun m message' due held moment slept => ?_
  rw [messages, Dict.get?_set] at held
  split at held
  · rename_i same
    obtain rfl := Option.some.inj held
    exact .inr (same ▸ pushed due moment)
  · rename_i differ
    exact .inl ⟨held, (asleep m slept).resolve_left differ⟩

theorem heappush_more {entry : TimedEntry} :
    ∀ old ∈ delayed, old ∈ heappush TimedEntry.le entry delayed :=
  fun _ there => mem_heappush.mpr (.inr there)

/-- A failure keeps the entries of all delays and adds that of its own. -/
theorem conclude_rung (ordered : e.delayed.Pairwise TimedEntry.le)
    (others : Dict.AllBut name (Rings e.delayed past) e.queues)
    (left : Rings e.delayed past name queue) :
    Rung past (e.conclude name queue message requeue persist) := by
  rcases conclude_cases e name queue message requeue persist with ⟨_, shape⟩ | ⟨_, _, shape⟩
  · rw [shape]
    refine ⟨by rw [moveToDlq_frame.2.1]; exact ordered, ?_⟩
    rw [moveToDlq_frame.2.1]
    exact all_moveToDlq others (left.erase rfl rfl) .fresh fun dest rings _ =>
      rings.store _ _ rfl (fun _ => Dict.get?_set) rfl
  · let entry : TimedEntry := ⟨e.retryDue (failed message requeue), e.seq + 1, name, message.id⟩
    have heap : (e.delayRetry name queue (failed message requeue) persist).delayed =
        heappush TimedEntry.le entry e.delayed := delayRetry_frame.2.2.1
    have wider : ∀ q queue, Rings e.delayed past q queue →
        Rings (heappush TimedEntry.le entry e.delayed) past q queue :=
      fun _ _ rings => rings.grow heappush_more fun _ => id
    rw [shape]
    refine ⟨by rw [heap]; exact Ordered.heappush ordered entry, ?_⟩
    rw [delayRetry_queues, heap]
    have others' : Dict.AllBut name (Rings (heappush TimedEntry.le entry e.delayed) past) e.queues :=
      fun q queue differ found => wider q queue (others q queue differ found)
    refine others'.set ((wider name queue left).sleep
      { failed message requeue with availableAt := some entry.due } ?_ rfl ?_)
    · intro due moment
      exact ⟨entry, mem_heappush.mpr (.inl rfl), rfl, rfl, .inl (Option.some.inj moment)⟩
    · exact fun m slept => Finset.mem_insert.mp slept

theorem failDelivery_rung (rung : Rung past e) : Rung past (e.failDelivery name id persist).2 := by
  have ended : ∀ queue, e.queues.get? name = some queue →
      Rings e.delayed past name (queue.endDelivery id) := fun queue found =>
    (rung.rings name queue found).fewer (fun _ _ held => held) fun _ slept => slept
  rcases failDelivery_cases e name id persist with ⟨_, shape⟩ | ⟨queue, found, _, shape⟩ |
    ⟨queue, message, found, _, shape⟩
  · rw [shape]
    exact rung
  · rw [shape]
    exact ⟨rung.ordered, rung.rings.set (ended queue found)⟩
  · rw [shape]
    exact conclude_rung (e := e.putQueue name (queue.endDelivery id)) rung.ordered
      rung.rings.but.stored (ended queue found)

theorem nack_rung (rung : Rung past e) : Rung past (e.nack id requeue persist).2 := by
  rcases nack_cases e id requeue persist with ⟨name, queue, message, nacks⟩ |
    ⟨_, same | ⟨name, queue, _, found, _, shape⟩⟩
  · have heap : (e.nacked id requeue persist name queue).delayed = e.delayed := by
      simp [nacked, putQueue]
    have ended : Rings e.delayed past name (queue.endDelivery id).countNack :=
      (rung.rings name queue nacks.found).fewer (fun _ _ held => held) fun _ slept => slept
    rw [nacks.shape]
    refine conclude_rung (heap ▸ rung.ordered) ?_ (heap ▸ ended)
    rw [nacked_queues, heap]
    exact rung.rings.but.stored
  · rw [same]
    exact rung
  · rw [shape]
    exact ⟨rung.ordered, rung.rings.set
      ((rung.rings name queue found).fewer (fun _ _ held => held) fun _ slept => slept)⟩

/-- An accepted message is ready, or on a delay whose entry is pushed. -/
theorem accept_heap (e : QueueEngine) (queue : DurableQueue) (message : Message) :
    message.availableAt = none ∧ (e.accept queue message).delayed = e.delayed ∨
    ∃ due, message.availableAt = some due ∧ (e.accept queue message).delayed =
      heappush TimedEntry.le ⟨due, e.seq + 1, message.queue, message.id⟩ e.delayed := by
  unfold accept
  cases moment : message.availableAt with
  | none => exact .inl ⟨rfl, rfl⟩
  | some due => exact .inr ⟨due, rfl, rfl⟩

theorem accepted_delays {seq : Nat} :
    ∀ m ∈ (accepted queue seq message).delayedIds, m = message.id ∨ m ∈ queue.delayedIds := by
  intro m slept
  unfold accepted at slept
  split at slept
  · exact Finset.mem_insert.mp slept
  · exact .inr slept

theorem enqueue_rung (message : Message) (persist : Bool) (rung : Rung past e) :
    Rung past (e.enqueue message persist).2 := by
  rcases enqueue_cases e message persist with ⟨queue, accepts⟩ | ⟨_, same⟩
  · have heap : (e.enqueue message persist).2.delayed =
        (e.now.2.accept queue (dueMessage message e.now.1)).delayed := by
      rw [accepts.2.2, append_delayed]
    have rings := rung.rings message.queue queue accepts.1
    generalize moved : dueMessage message e.now.1 = message' at heap
    have here : message'.queue = message.queue := by rw [← moved, dueMessage_queue]
    rcases accept_heap e.now.2 queue message' with ⟨ready, same⟩ | ⟨due, moment, pushed⟩
    · have delayed : (e.enqueue message persist).2.delayed = e.delayed := heap.trans same
      refine ⟨delayed ▸ rung.ordered, ?_⟩
      rw [accepts.queues, moved, delayed]
      refine rung.rings.set (rings.sleep message' (fun due moment => ?_)
        accepted_messages accepted_delays)
      rw [ready] at moment
      cases moment
    · have delayed := heap.trans pushed
      refine ⟨by rw [delayed]; exact Ordered.heappush rung.ordered _, ?_⟩
      rw [accepts.queues, moved, delayed]
      have wider : ∀ q queue, Rings e.delayed past q queue → Rings (heappush TimedEntry.le
          ⟨due, e.now.2.seq + 1, message'.queue, message'.id⟩ e.delayed) past q queue :=
        fun _ _ rings => rings.grow heappush_more fun _ => id
      refine Dict.All.set (rung.rings.imp wider) ((wider _ queue rings).sleep message' ?_
        accepted_messages accepted_delays)
      intro due' moment'
      rw [moment] at moment'
      exact ⟨_, mem_heappush.mpr (.inl rfl), here, rfl, .inl (Option.some.inj moment')⟩
  · rw [same]
    exact rung

theorem reserve_rung {consumerId : String} (rung : Rung past e) :
    Rung past (e.reserve name consumerId).2 := by
  have heap : (e.reserve name consumerId).2.delayed = e.delayed := reserve_frame.2.1
  refine ⟨heap ▸ rung.ordered, ?_⟩
  rw [heap]
  rcases reserve_cases e name consumerId with ⟨queue, id, message, rest, reserves⟩ |
    ⟨_, ⟨same, _⟩ | ⟨queue, found, _, shape⟩⟩
  · rw [reserves.queues]
    exact rung.rings.set ((rung.rings name queue reserves.found).fewer (fun _ _ held => held)
      fun _ slept => slept)
  · rw [same]
    exact rung.rings
  · rw [shape]
    exact rung.rings.set ((rung.rings name queue found).fewer (fun _ _ held => held)
      fun _ slept => slept)

theorem ack_rung (rung : Rung past e) : Rung past (e.ack id persist).2 := by
  have heap := (ack_frame e id persist).2.1
  refine ⟨heap ▸ rung.ordered, ?_⟩
  rw [heap]
  rcases ack_cases e id persist with ⟨name, queue, settles⟩ | ⟨_, same⟩
  · rw [settles.queues]
    exact rung.rings.set ((rung.rings name queue settles.found).erase rfl rfl)
  · rw [same]
    exact rung.rings

theorem dlqRequeue_rung {queueName : String} (rung : Rung past e) :
    Rung past (e.dlqRequeue queueName id persist).2 := by
  rcases dlqRequeue_cases e queueName id persist with nothing | ⟨dlq, message, draws⟩
  · rw [nothing]
    exact rung
  have rings := rung.rings _ dlq draws.source
  have taken : Rung past (e.withdrawn queueName id dlq) :=
    ⟨rung.ordered, rung.rings.set (rings.erase rfl rfl)⟩
  rcases draws.result persist with ⟨dest, _, shape⟩ | ⟨_, shape⟩
  · have accepted := enqueue_rung (requeued queueName message) false taken
    rw [shape]
    exact ⟨by rw [append_delayed]; exact accepted.ordered,
      by rw [append_delayed, append_queues]; exact accepted.rings⟩
  · rw [shape]
    refine ⟨rung.ordered, ?_⟩
    rw [putBack_queues]
    have back : Rings e.delayed past (requeueSource queueName) (refilled queueName id dlq message) := by
      refine rings.store id (returned queueName message) rfl (fun m => ?_) rfl
      simp only [refilled, Dict.get?_set, Dict.get?_erase]
      split <;> rfl
    exact taken.rings.set (back.fewer (fun _ _ held => held) fun _ slept => slept)

/-! ## Waking -/

/-- If the queue is there, the message is not on delay in it. -/
def Wakeful (q m name : String) (queue : DurableQueue) : Prop := name = q → m ∉ queue.delayedIds

theorem Wakeful.not_asleep (wakeful : Dict.All (Wakeful q m) e.queues) : ¬ e.Asleep q m := by
  rintro ⟨queue, found, slept⟩
  exact wakeful q queue found rfl slept

theorem releaseOne_wakes : Dict.All (Wakeful name id) (e.releaseOne name id).2.queues := by
  intro q queue found here
  rw [here] at found
  rcases releaseOne_cases e name id with ⟨awake, same⟩ | ⟨old, _, _, _, shape⟩ |
    ⟨old, message, _, _, _, _, shape⟩
  · rw [same] at found
    exact awake queue found
  · rw [shape] at found
    obtain rfl := Option.some.inj (Dict.get?_set_self.symm.trans found)
    exact Finset.notMem_erase _ _
  · rw [shape] at found
    obtain rfl := Option.some.inj (Dict.get?_set_self.symm.trans found)
    exact Finset.notMem_erase _ _

theorem releaseOne_wakeful (wakeful : Dict.All (Wakeful q m) e.queues) :
    Dict.All (Wakeful q m) (e.releaseOne name id).2.queues := by
  rcases releaseOne_cases e name id with ⟨_, same⟩ | ⟨queue, found, _, _, shape⟩ |
    ⟨queue, message, found, _, _, _, shape⟩
  · rw [same]
    exact wakeful
  · rw [shape]
    exact wakeful.set fun here slept => wakeful name queue found here (Finset.mem_of_mem_erase slept)
  · rw [shape]
    exact wakeful.set fun here slept => wakeful name queue found here (Finset.mem_of_mem_erase slept)

/-- Every message that has a due entry is awake after the release. -/
theorem releaseAll_wakes {entries : List TimedEntry} {entry : TimedEntry} (listed : entry ∈ entries) :
    Dict.All (Wakeful entry.queue entry.messageId) (releaseAll entries e).2.queues := by
  induction entries generalizing e with
  | nil => cases listed
  | cons first rest ih =>
    rcases List.mem_cons.mp listed with rfl | later
    · exact releaseAll_preserves (e := (e.releaseOne entry.queue entry.messageId).2)
        (I := fun e => Dict.All (Wakeful entry.queue entry.messageId) e.queues)
        (fun _ _ _ wakeful => releaseOne_wakeful wakeful) releaseOne_wakes
    · exact ih later

/-- Its message woken, an entry is not needed any more. -/
theorem releaseOne_rings {entry : TimedEntry} {rest : List TimedEntry}
    (rings : Dict.All (Rings (entry :: rest) past) e.queues) :
    Dict.All (Rings rest past) (e.releaseOne entry.queue entry.messageId).2.queues := by
  have kept : Dict.All (Rings (entry :: rest) past)
      (e.releaseOne entry.queue entry.messageId).2.queues := by
    rcases releaseOne_cases e entry.queue entry.messageId with ⟨_, same⟩ |
      ⟨queue, found, _, _, shape⟩ | ⟨queue, message, found, _, _, _, shape⟩
    · rw [same]
      exact rings
    · rw [shape]
      exact rings.set ((rings _ queue found).fewer (fun _ _ held => held)
        fun _ slept => Finset.mem_of_mem_erase slept)
    · rw [shape]
      have woken : Rings (entry :: rest) past entry.queue
          { queue with messages := queue.messages.set entry.messageId (strip message) } :=
        (rings _ queue found).store entry.messageId (strip message) rfl (fun _ => Dict.get?_set) rfl
      exact rings.set (woken.fewer (fun _ _ held => held) fun _ slept => Finset.mem_of_mem_erase slept)
  intro q queue found m message due held moment slept
  obtain ⟨other, listed, here, same, rung⟩ := kept q queue found m message due held moment slept
  rcases List.mem_cons.mp listed with rfl | later
  · exact absurd (same ▸ slept) (releaseOne_wakes q queue found here.symm)
  · exact ⟨other, later, here, same, rung⟩

theorem releaseAll_rings {entries : List TimedEntry}
    (rings : Dict.All (Rings (entries ++ e.delayed) past) e.queues) :
    Dict.All (Rings e.delayed past) (releaseAll entries e).2.queues ∧
      (releaseAll entries e).2.delayed = e.delayed := by
  induction entries generalizing e with
  | nil => exact ⟨rings, rfl⟩
  | cons entry rest ih =>
    have heap := (releaseOne_heaps e entry.queue entry.messageId).2
    have later := ih (e := (e.releaseOne entry.queue entry.messageId).2)
    rw [heap] at later
    exact later (releaseOne_rings rings)

theorem releaseDelayed_rung (rung : Rung past e) : Rung past (e.releaseDelayed ts).2 := by
  have whole : Dict.All (Rings ((e.delayed.takeWhile (·.due ≤ ts)) ++
      (e.delayed.dropWhile (·.due ≤ ts))) past) e.queues := by
    rw [List.takeWhile_append_dropWhile]
    exact rung.rings
  obtain ⟨rings, heap⟩ := releaseAll_rings
    (e := { e with delayed := e.delayed.dropWhile (·.due ≤ ts) }) whole
  refine ⟨?_, ?_⟩
  · change ((releaseAll _ _).2.delayed).Pairwise TimedEntry.le
    rw [heap]
    exact rung.ordered.sublist (List.dropWhile_suffix _).sublist
  · change Dict.All (Rings (releaseAll _ _).2.delayed past) _
    rw [heap]
    exact rings

theorem tick_rung {now : Option ℚ} (rung : Rung past e) : Rung past (e.tick now).2 := by
  obtain ⟨reads, shape⟩ := tick_sweeps e now
  have released : Rung past ({ e with reads }.releaseDelayed (e.tickTime now)).2 :=
    releaseDelayed_rung ⟨rung.ordered, rung.rings⟩
  rw [shape]
  exact timeoutEntries_preserves (I := Rung past) (fun _ _ _ _ rung _ _ => failDelivery_rung rung)
    (fun _ _ rung => ⟨rung.ordered, rung.rings⟩) released

/-- Every operation leaves an entry for every delay. -/
theorem step_rung (persist : Bool) (named : e.Named) (rung : Rung past e) (op : EngineOp) :
    Rung past (e.step persist op) := by
  cases op with
  | declareQueue name args =>
    have heap := (declareQueue_frame e name args persist).2.2.1
    refine ⟨?_, ?_⟩
    · change (e.declareQueue name args persist).delayed.Pairwise TimedEntry.le
      exact heap ▸ rung.ordered
    · change Dict.All (Rings (e.declareQueue name args persist).delayed past) _
      rw [heap]
      exact all_declareQueue rung.rings fun _ _ => .fresh
  | deleteQueue name =>
    have heap := (deleteQueue_frame e name persist).2.1
    refine ⟨?_, ?_⟩
    · change (e.deleteQueue name persist).2.delayed.Pairwise TimedEntry.le
      exact heap ▸ rung.ordered
    · change Dict.All (Rings (e.deleteQueue name persist).2.delayed past) _
      rw [heap]
      exact all_deleteQueue rung.rings
  | enqueue message => exact enqueue_rung message persist rung
  | reserve queueName consumerId => exact reserve_rung rung
  | ack messageId => exact ack_rung rung
  | nack messageId requeue => exact nack_rung rung
  | recoverConsumer consumerId =>
    have both : (e.recoverConsumer consumerId persist).2.Named ∧
        Rung past (e.recoverConsumer consumerId persist).2 :=
      recoverConsumer_preserves (I := fun e => e.Named ∧ Rung past e) (fun _ inv => inv.1)
        (fun _ _ _ _ inv _ _ => ⟨failDelivery_named inv.1, failDelivery_rung inv.2⟩) ⟨named, rung⟩
    exact both.2
  | tick now => exact tick_rung rung
  | dlqRequeue queueName messageId => exact dlqRequeue_rung rung

/-- A failure puts only its own message on delay. -/
theorem failDelivery_wakeful {record : InflightRecord} (wakeful : Dict.All (Wakeful q m) e.queues)
    (named : e.Named) (flying : e.record? name id = some record) (idle : e.record? q m = none) :
    Dict.All (Wakeful q m) (e.failDelivery name id persist).2.queues := by
  have apart : name = q → m ≠ id := by
    rintro rfl rfl
    rw [idle] at flying
    cases flying
  rcases failDelivery_cases e name id persist with ⟨_, shape⟩ | ⟨queue, found, _, shape⟩ |
    ⟨queue, message, found, held, shape⟩
  · rw [shape]
    exact wakeful
  · rw [shape]
    exact wakeful.set (wakeful name queue found)
  · have same : message.id = id := ((named name queue found).messages id message held).1
    have left : Wakeful q m name (queue.endDelivery id) := wakeful name queue found
    have others : Dict.AllBut name (Wakeful q m)
        (e.putQueue name (queue.endDelivery id)).queues := wakeful.but.stored
    rw [shape]
    rcases conclude_cases (e.putQueue name (queue.endDelivery id)) name (queue.endDelivery id) message
      true persist with ⟨_, shape⟩ | ⟨_, _, shape⟩
    · rw [shape]
      exact all_moveToDlq others left (fun _ => Finset.notMem_empty _) fun dest awake _ => awake
    · rw [shape, delayRetry_queues]
      refine others.set fun here slept => ?_
      rcases Finset.mem_insert.mp slept with mine | before
      · exact apart here (mine.trans same)
      · exact left here before

/-! ## Restored delays -/

theorem Past.later (before : e.Past ts) (passes : Passes e e') : e'.Past ts := by
  obtain ⟨i, early, read⟩ := before
  exact ⟨i, early.trans_le passes.2, by rw [passes.1]; exact read⟩

/-- A message is restored with its own moment, or with the time at which it is restored. -/
theorem restoredDue_past (e : QueueEngine) (message : Message) :
    Passes e (e.restoredDue message).2 ∧ (message.availableAt = some (e.restoredDue message).1 ∨
      (e.restoredDue message).2.Past (e.restoredDue message).1) := by
  have read : Passes e e.now.2 ∧ e.now.2.Past e.now.1 :=
    ⟨⟨rfl, Nat.le_succ _⟩, e.reads, Nat.lt_succ_self _, rfl⟩
  unfold restoredDue
  cases moment : message.availableAt with
  | none => exact ⟨read.1, .inr read.2⟩
  | some due =>
    by_cases zero : due = 0
    · simp only [if_pos zero]
      exact ⟨read.1, .inr read.2⟩
    · simp only [if_neg zero]
      exact ⟨.refl e, .inl trivial⟩

theorem restoreMessage_heap (e : QueueEngine) (name : String) (queue : DurableQueue)
    (saved : SavedMessage) : Passes e (e.restoreMessage name queue saved) ∧
    (saved.state ≠ .delayed ∧ (e.restoreMessage name queue saved).delayed = e.delayed ∨
    ∃ due, (e.restoreMessage name queue saved).delayed =
        heappush TimedEntry.le ⟨due, e.seq + 1, saved.message.queue, saved.message.id⟩ e.delayed ∧
      (saved.message.availableAt = some due ∨ (e.restoreMessage name queue saved).Past due)) := by
  let filed : QueueEngine := { e with byId := e.byId.set saved.message.id saved.message.queue }
  have read : Passes filed (filed.restoredDue saved.message).2 ∧
      (saved.message.availableAt = some (filed.restoredDue saved.message).1 ∨
        (filed.restoredDue saved.message).2.Past (filed.restoredDue saved.message).1) :=
    restoredDue_past filed saved.message
  obtain ⟨reads, same⟩ := restoredDue_eq filed saved.message
  unfold restoreMessage
  dsimp only
  split
  · refine ⟨read.1, .inr ⟨(filed.restoredDue saved.message).1, ?_, read.2⟩⟩
    change heappush TimedEntry.le ⟨_, (filed.restoredDue saved.message).2.seq + 1, _, _⟩
      (filed.restoredDue saved.message).2.delayed = _
    rw [same]
  all_goals
    rename_i state
    exact ⟨⟨rfl, le_rfl⟩, .inl ⟨by rw [state]; simp, rfl⟩⟩

theorem refit_delays {saved : SavedMessage} {seq : Nat} :
    ∀ m ∈ (refit queue seq saved).delayedIds,
      m = saved.message.id ∧ saved.state = .delayed ∨ m ∈ queue.delayedIds := by
  intro m slept
  unfold refit at slept
  dsimp only at slept
  split at slept
  · rename_i state
    exact (Finset.mem_insert.mp slept).imp_left fun same => ⟨same, state⟩
  all_goals exact .inr slept

/-- The queue holds all messages that it has on delay. -/
def Within (_ : String) (queue : DurableQueue) : Prop := ∀ m ∈ queue.delayedIds, m ∈ queue.messages

/-- A restored message that is on delay has the entry that was pushed for it. -/
theorem refit_rings {saved : SavedMessage} {seq : Nat} (rings : Rings delayed past name queue)
    (absent : saved.message.id ∉ queue.delayedIds)
    (pushed : saved.state = .delayed → ∀ due, saved.message.availableAt = some due →
      ∃ entry ∈ delayed, entry.queue = name ∧ entry.messageId = saved.message.id ∧
        (entry.due = due ∨ past entry.due)) : Rings delayed past name (refit queue seq saved) := by
  refine rings.change fun m message due held moment slept => ?_
  rw [refit_messages, Dict.get?_set] at held
  rcases refit_delays m slept with ⟨rfl, state⟩ | before
  · rw [if_pos rfl] at held
    obtain rfl := Option.some.inj held
    exact .inr (pushed state due moment)
  · rw [if_neg fun same : m = saved.message.id => absent (same ▸ before)] at held
    exact .inl ⟨held, before⟩

/-- A restored engine has an entry for every delay. -/
theorem restore_rung {saved : QueueEngine} (filed : saved.Filed) :
    Rung (e.restoreState saved.snapshotState).Past (e.restoreState saved.snapshotState) := by
  have both := restore_preserves (e := e) filed
    (I := fun e => Rung e.Past e ∧ Dict.All Within e.queues)
    ⟨⟨List.Pairwise.nil, Dict.all_empty⟩, Dict.all_empty⟩
    (fun e spec stats inv _ => ⟨⟨inv.1.ordered, inv.1.rings.set .fresh⟩,
      inv.2.set fun _ slept => by simp at slept⟩) ?_
  · exact both.2.1
  rintro e name queue message ⟨rung, inside⟩ found fresh listed
  obtain ⟨passes, outcome⟩ := restoreMessage_heap e name queue message
  have absent : message.message.id ∉ queue.delayedIds := by
    intro slept
    obtain ⟨old, held⟩ := Dict.mem_iff.mp (inside name queue found _ slept)
    exact fresh ⟨name, old, (message?_of_get found).trans held⟩
  have here : message.message.queue = name := by
    obtain ⟨old, there, held, _⟩ := (mem_contents filed.named).mp listed
    exact ((filed.named name old there).messages _ _ held).2
  have within : Within name (refit queue (e.seq + 1) message) := by
    intro m slept
    rw [refit_messages, Dict.mem_set]
    exact (refit_delays m slept).imp (fun same => same.1) (inside name queue found m)
  refine ⟨?_, by rw [restoreMessage_queues]; exact inside.set within⟩
  have later : ∀ ts, e.Past ts → (e.restoreMessage name queue message).Past ts :=
    fun _ read => read.later passes
  rcases outcome with ⟨awake, same⟩ | ⟨due, pushed, moment⟩
  · refine ⟨same ▸ rung.ordered, ?_⟩
    rw [restoreMessage_queues, same]
    have grown := rung.rings.imp fun _ _ rings => rings.grow (fun _ => id) later
    exact grown.set (refit_rings (grown name queue found) absent fun state => absurd state awake)
  · refine ⟨by rw [pushed]; exact Ordered.heappush rung.ordered _, ?_⟩
    let entry : TimedEntry := ⟨due, e.seq + 1, message.message.queue, message.message.id⟩
    have grown : Dict.All (Rings (heappush TimedEntry.le entry e.delayed)
        (e.restoreMessage name queue message).Past) e.queues :=
      rung.rings.imp fun _ _ rings => rings.grow heappush_more later
    rw [restoreMessage_queues, pushed]
    refine grown.set (refit_rings (grown name queue found) absent fun _ due' moment' => ?_)
    refine ⟨entry, mem_heappush.mpr (.inl rfl), here, rfl, moment.imp_left fun known => ?_⟩
    exact Option.some.inj (known.symm.trans moment')

theorem Reachable.rung (reached : Reachable FreshIds e) : Rung e.Past e := by
  induction reached with
  | start => exact ⟨List.Pairwise.nil, Dict.all_empty⟩
  | step reached persist op _ rung =>
    have after := step_rung persist reached.named rung op
    have passes := step_passes persist reached.named op
    exact ⟨after.ordered, after.rings.imp fun _ _ rings => rings.grow (fun _ => id)
      fun _ read => read.later passes⟩
  | restore _ kept _ _ => exact restore_rung (kept.filed fun _ _ fresh => fresh)

/-! ## The guarantee -/

/-- The first tick from its moment on wakes the message. -/
theorem OnDelay.wakes {now : Option ℚ} (delay : e.OnDelay q m due) (rung : Rung e.Past e)
    (named : e.Named) (forward : Monotone e.clock) (inTime : InTime e (.tick now))
    (late : due ≤ e.tickTime now) : ¬ (e.tick now).2.Asleep q m := by
  have past : ∀ ts, e.Past ts → ts ≤ e.tickTime now := by
    rintro ts ⟨i, early, rfl⟩
    cases now with
    | none => exact forward early.le
    | some now => exact inTime.1 i early
  obtain ⟨message, held, moment⟩ := delay.held
  obtain ⟨queue, found, slept⟩ := delay.asleep
  rw [message?_of_get found] at held
  obtain ⟨entry, listed, here, same, rings⟩ := rung.rings q queue found m message due held moment slept
  have due' : entry.due ≤ e.tickTime now := by
    rcases rings with exact | before
    · exact exact.trans_le late
    · exact past _ before
  have popped : entry ∈ e.delayed.takeWhile (·.due ≤ e.tickTime now) :=
    Lists.mem_takeWhile_of_ordered rung.ordered (fun first second before soon =>
      decide_eq_true ((TimedEntry.le_due before).trans (of_decide_eq_true soon))) listed
      (decide_eq_true due')
  obtain ⟨reads, shape⟩ := tick_sweeps e now
  have awake : Dict.All (Wakeful q m) ({ e with reads }.releaseDelayed (e.tickTime now)).2.queues := by
    rw [← here, ← same]
    exact releaseAll_wakes popped
  have idle : ({ e with reads }.releaseDelayed (e.tickTime now)).2.record? q m = none := by
    rw [releaseDelayed_record?]
    exact delay.idle
  rw [shape]
  -- No delivery of the message is out that the timeouts could end.
  have named : ({ e with reads }.releaseDelayed (e.tickTime now)).2.Named :=
    releaseAll_preserves (fun _ _ _ named => releaseOne_named named) named
  refine Wakeful.not_asleep (timeoutEntries_preserves
    (I := fun e => e.Named ∧ e.record? q m = none ∧ Dict.All (Wakeful q m) e.queues)
    (fun e name id record inv flying _ => ⟨failDelivery_named inv.1, ?_,
      failDelivery_wakeful inv.2.2 inv.1 flying inv.2.1⟩)
    (fun e entries inv => inv) ⟨named, idle, awake⟩).2.2
  rw [failDelivery_record?, inv.2.1]
  split <;> rfl

/-- A failure below the last attempt puts the message on delay until its retry is due. -/
theorem conclude_onDelay (found : e.queues.get? name = some queue) (idle : e.record? name id = none)
    (same : message.id = id) (below : message.attempts + 1 < message.maxAttempts) :
    (e.conclude name queue message true persist).OnDelay name id (e.retryDue (failed message true)) := by
  rcases conclude_cases e name queue message true persist with ⟨spent, _⟩ | ⟨_, _, shape⟩
  · exact absurd (spent rfl) (not_le.mpr below)
  · refine ⟨⟨{ failed message true with availableAt := some (e.retryDue (failed message true)) }, ?_,
      rfl⟩, ?_, ?_⟩
    · rw [shape, delayRetry_message? found, if_pos ⟨rfl, same.symm⟩]
    · refine ⟨_, by rw [shape, delayRetry_queues]; exact Dict.get?_set_self, ?_⟩
      exact same ▸ Finset.mem_insert_self _ _
    · rw [conclude_record? found]
      exact idle

theorem failDelivery_onDelay (named : e.Named) (found : e.queues.get? name = some queue)
    (held : queue.messages.get? id = some message)
    (below : message.attempts + 1 < message.maxAttempts) : (e.failDelivery name id persist).2.OnDelay
      name id ((e.putQueue name (queue.endDelivery id)).retryDue (failed message true)) := by
  rcases failDelivery_cases e name id persist with ⟨absent, _⟩ | ⟨queue', found', gone, _⟩ |
    ⟨queue', message', found', held', shape⟩
  · rw [absent] at found
    cases found
  · obtain rfl := Option.some.inj (found.symm.trans found')
    exact absurd (Dict.mem_of_get? held) gone
  · obtain rfl := Option.some.inj (found.symm.trans found')
    obtain rfl := Option.some.inj (held.symm.trans held')
    have records := (endDelivery_observe id found
      (show (e.putQueue name (queue.endDelivery id)).queues = _ from rfl)).2.2
    rw [shape]
    refine conclude_onDelay Dict.get?_set_self ?_ ((named name queue found).messages id message held).1
      below
    rw [records, if_pos ⟨rfl, rfl⟩]

/-- In a run in which no tick before its moment finds an entry for the message
due, a message on delay is not delivered before its moment; and in every run
the first tick from its moment on makes it ready, unless it has left. -/
theorem retry_delay_respected (reached : Reachable FreshIds e) (forward : Monotone e.clock)
    (delay : e.OnDelay q m due) :
    (∀ persist ops, Allowed (step persist) (Undisturbed persist q m due) e ops →
      (run (step persist) e ops).clock (run (step persist) e ops).reads < due →
      ∀ consumerId message, ((run (step persist) e ops).reserve q consumerId).1 = some message →
        message.id ≠ m) ∧
    ∀ now, InTime e (.tick now) → due ≤ e.tickTime now →
      ∀ queue, (e.tick now).2.queues.get? q = some queue → m ∈ queue.messages →
        m ∉ queue.delayedIds ∧ (m ∈ readyIds queue ∨ m ∈ queue.inflight) := by
  have filed : e.Filed := reached.filed fun _ _ fresh => fresh
  constructor
  · intro persist ops ok early consumerId message delivered same
    have kept := (delay.kept filed).throughout forward ok early
    rcases reserve_cases (run (step persist) e ops) q consumerId with
      ⟨queue, id, message', rest, reserves⟩ | ⟨nothing, _⟩
    · obtain ⟨held, _, awake, _⟩ := popDeliverable_some reserves.popped
      rw [reserves.result] at delivered
      obtain rfl := Option.some.inj delivered
      have named := ((kept.filed.named q queue reserves.found).messages id message' held).1
      exact awake (named.symm.trans same ▸ (kept.asleep reserves.found).1)
    · rw [nothing] at delivered
      cases delivered
  · intro now inTime late queue found held
    have awake : m ∉ queue.delayedIds := fun slept =>
      delay.wakes reached.rung reached.named forward inTime late ⟨queue, found, slept⟩
    have live : (e.tick now).2.Live := tick_live reached.named reached.live
    rcases (live q queue found).placed m held with ready | flying | waiting
    · exact ⟨awake, .inl (mem_readyIds.mpr ready)⟩
    · exact ⟨awake, .inr flying⟩
    · exact absurd waiting awake

/-- An engine that retries four seconds later, on a clock that ticks at every reading. -/
def patient : QueueEngine where
  config := { retryBackoff := .fixed, retryBaseDelay := 4 }
  clock := fun reads => reads

/-- A message is published, delivered and given up. -/
def givenUp : List EngineOp := [
  .declareQueue "orders" {},
  .enqueue { id := "m1", queue := "orders", payload := [1], createdAt := 0 },
  .reserve "orders" "worker",
  .nack "m1" true]

/-- The message waits for its retry, which is due at 6: at 4 it is not
delivered, and after two more sweeps the tick at 6 makes it ready. -/
theorem retry_delay_respected_waiting :
    (∀ message, (((run (step true) patient givenUp).tick none).2.reserve "orders" "worker").1 =
      some message → message.id ≠ "m1") ∧
    ∀ queue, ((run (step true) patient (givenUp ++ [.tick none, .tick none, .tick none])).tick
        (some 6)).2.queues.get? "orders" = some queue →
      "m1" ∈ queue.messages → "m1" ∉ queue.delayedIds ∧
        ("m1" ∈ readyIds queue ∨ "m1" ∈ queue.inflight) := by
  have reached : ∀ ops, Allowed (step true) FreshIds patient ops →
      Reachable FreshIds (run (step true) patient ops) := fun _ =>
    reachable_run (.start { retryBackoff := .fixed, retryBaseDelay := 4 } fun reads => reads)
  constructor
  · have respected := retry_delay_respected (reached givenUp (by decide +kernel)) Nat.mono_cast
      (show OnDelay _ "orders" "m1" 6 by decide +kernel)
    refine respected.1 true [.tick none] ⟨⟨trivial, trivial, by decide +kernel, ?_⟩, trivial⟩
      (by decide +kernel) "worker"
    have late : ∀ entry ∈ (run (step true) patient givenUp).delayed,
        ¬ entry.due ≤ (run (step true) patient givenUp).tickTime none := by
      decide +kernel
    exact fun entry listed _ _ soon => absurd soon (late entry listed)
  · have clock := (run_passes true (givenUp ++ [.tick none, .tick none, .tick none])
      (reached [] trivial).named).1
    have respected := retry_delay_respected
      (reached (givenUp ++ [.tick none, .tick none, .tick none]) (by decide +kernel))
      (clock ▸ Nat.mono_cast) (show OnDelay _ "orders" "m1" 6 by decide +kernel)
    exact respected.2 (some 6) ⟨by decide +kernel, by decide +kernel⟩ (by decide +kernel)

/-- The queue is deleted while the message waits, and declared and used again. -/
def leftoverRun : List EngineOp := givenUp ++ .deleteQueue "orders" :: givenUp

/-- The entry of the first delay is due at 6 and ends the second one, which is
due at 9: the message is delivered at 7. -/
theorem leftover_cuts_delay :
    Reachable FreshIds (run (step true) patient leftoverRun) ∧
    Monotone (run (step true) patient leftoverRun).clock ∧
    (run (step true) patient leftoverRun).OnDelay "orders" "m1" 9 ∧
    ((run (step true) patient leftoverRun).tick none).2.clock
      ((run (step true) patient leftoverRun).tick none).2.reads = 7 ∧
    (((run (step true) patient leftoverRun).tick none).2.reserve "orders" "worker").1.any
      (·.id = "m1") = true :=
  ⟨reachable_run (.start { retryBackoff := .fixed, retryBaseDelay := 4 } fun reads => reads)
    (by decide +kernel), Nat.mono_cast, by decide +kernel, by decide +kernel,
    by decide +kernel⟩

end OneOpenBroker.Core.QueueEngine

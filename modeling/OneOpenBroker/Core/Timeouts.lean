import OneOpenBroker.Core.Liveness

/-! Visibility timeouts are exact. The heap of deadlines is in order, so the
loop of a tick stops at the first entry that is not due; every record has the
entry of its own deadline, so no record is missed; and an entry whose deadline
is not the record's is passed over, so none is failed early. The loop itself
ends because it pops an entry in every round and pushes none. -/
namespace OneOpenBroker.Core.QueueEngine
open Collections Systems

variable {e : QueueEngine} {entries : List TimedEntry} {name q id m : String}
  {record : InflightRecord} {message : Message} {persist requeue : Bool} {ts : ℚ}

/-! ## The order of the heap -/

instance : Std.Total TimedEntry.le where
  total a b := by
    rcases lt_trichotomy a.due b.due with early | same | late
    · exact .inl (.inl early)
    · rcases Nat.le_total a.seq b.seq with before | after
      · exact .inl (.inr ⟨same, before⟩)
      · exact .inr (.inr ⟨same.symm, after⟩)
    · exact .inr (.inl late)

theorem TimedEntry.le_due {a b : TimedEntry} (before : TimedEntry.le a b) : a.due ≤ b.due := by
  rcases before with early | ⟨same, _⟩
  · exact early.le
  · exact same.le

instance : IsTrans TimedEntry TimedEntry.le where
  trans a b c first second := by
    rcases first with early | ⟨same, before⟩
    · exact .inl (early.trans_le (TimedEntry.le_due second))
    · rcases second with early | ⟨same', before'⟩
      · exact .inl (same ▸ early)
      · exact .inr ⟨same.trans same', before.trans before'⟩

/-- The entries of the visibility heap come in the order of their deadlines. -/
def Ordered (e : QueueEngine) : Prop := e.visibilityHeap.Pairwise TimedEntry.le

theorem Ordered.heappush (ordered : entries.Pairwise TimedEntry.le) (entry : TimedEntry) :
    (heappush TimedEntry.le entry entries).Pairwise TimedEntry.le :=
  List.Pairwise.orderedInsert entry entries ordered

theorem enqueue_heap : (e.enqueue message persist).2.visibilityHeap = e.visibilityHeap := by
  rcases enqueue_cases e message persist with ⟨queue, accepts⟩ | ⟨_, same⟩
  · rw [accepts.2.2, append_visibilityHeap, accept_frame.2.1]
    rfl
  · rw [same]

theorem nack_heap : (e.nack id requeue persist).2.visibilityHeap = e.visibilityHeap := by
  rcases nack_cases e id requeue persist with ⟨name, queue, message, nacks⟩ |
    ⟨_, same | ⟨name, queue, _, _, _, shape⟩⟩
  · rw [nacks.shape, conclude_frame.2.1]
    simp [nacked, putQueue]
  · rw [same]
  · rw [shape]
    rfl

theorem dlqRequeue_heap {queueName : String} :
    (e.dlqRequeue queueName id persist).2.visibilityHeap = e.visibilityHeap := by
  rcases dlqRequeue_cases e queueName id persist with nothing | ⟨dlq, message, draws⟩
  · rw [nothing]
  · rcases draws.result persist with ⟨_, _, shape⟩ | ⟨_, shape⟩
    · rw [shape, append_visibilityHeap, enqueue_heap]
      rfl
    · rw [shape]
      rfl

/-- The loop drops entries off the front of the heap. -/
theorem timeoutEntries_heap (ts : ℚ) (entries : List TimedEntry) (e : QueueEngine) :
    (timeoutEntries ts entries e).2.visibilityHeap <:+ entries := by
  induction entries generalizing e with
  | nil => exact List.suffix_rfl
  | cons entry rest ih =>
    unfold timeoutEntries
    split
    · split
      · exact (ih e).trans (List.suffix_cons entry rest)
      · split
        · exact (ih _).trans (List.suffix_cons entry rest)
        · exact (ih e).trans (List.suffix_cons entry rest)
    · exact List.suffix_rfl

theorem releaseDelayed_heap : (e.releaseDelayed ts).2.visibilityHeap = e.visibilityHeap :=
  releaseAll_preserves (I := fun released => released.visibilityHeap = e.visibilityHeap)
    (fun released name id same => (releaseOne_heaps released name id).1.trans same) rfl

/-- A tick is a release and a round of timeouts, both at its own moment. -/
theorem tick_sweeps (e : QueueEngine) (now : Option ℚ) : ∃ reads,
    (e.tick now).2 = (({ e with reads }.releaseDelayed (e.tickTime now)).2.timeoutInflight
      (e.tickTime now)).2 := by
  cases now with
  | none => exact ⟨e.reads + 1, rfl⟩
  | some ts => exact ⟨e.reads, rfl⟩

theorem tick_heap (e : QueueEngine) (now : Option ℚ) :
    (e.tick now).2.visibilityHeap <:+ e.visibilityHeap := by
  obtain ⟨reads, shape⟩ := tick_sweeps e now
  have released : ({ e with reads }.releaseDelayed (e.tickTime now)).2.visibilityHeap =
      e.visibilityHeap := releaseDelayed_heap
  rw [shape, timeoutInflight, released]
  exact timeoutEntries_heap _ _ _

/-- Every operation leaves the heap in order. -/
theorem step_ordered (named : e.Named) (ordered : e.Ordered) (op : EngineOp) :
    (e.step persist op).Ordered := by
  cases op with
  | declareQueue name args =>
    have same := (declareQueue_frame e name args persist).2.1
    exact (congrArg (List.Pairwise TimedEntry.le) same).mpr ordered
  | deleteQueue name =>
    have same := (deleteQueue_frame e name persist).1
    exact (congrArg (List.Pairwise TimedEntry.le) same).mpr ordered
  | enqueue message => exact (congrArg (List.Pairwise TimedEntry.le) enqueue_heap).mpr ordered
  | reserve queueName consumerId =>
    rcases reserve_cases e queueName consumerId with ⟨queue, id, message, rest, reserves⟩ |
      ⟨_, ⟨same, _⟩ | ⟨queue, _, _, shape⟩⟩
    · exact (congrArg (List.Pairwise TimedEntry.le) reserves.heap).mpr (Ordered.heappush ordered _)
    · exact (congrArg Ordered same).mpr ordered
    · exact (congrArg Ordered shape).mpr ordered
  | ack messageId =>
    have same := (ack_frame e messageId persist).1
    exact (congrArg (List.Pairwise TimedEntry.le) same).mpr ordered
  | nack messageId requeue => exact (congrArg (List.Pairwise TimedEntry.le) nack_heap).mpr ordered
  | recoverConsumer consumerId =>
    have both : (e.recoverConsumer consumerId persist).2.Named ∧
        (e.recoverConsumer consumerId persist).2.Ordered :=
      recoverConsumer_preserves (I := fun e => e.Named ∧ e.Ordered) (fun _ inv => inv.1)
        (fun _ _ _ _ inv _ _ => ⟨failDelivery_named inv.1,
          (congrArg (List.Pairwise TimedEntry.le) failDelivery_frame.2.1).mpr inv.2⟩)
        ⟨named, ordered⟩
    exact both.2
  | tick now => exact ordered.sublist (tick_heap e now).sublist
  | dlqRequeue queueName messageId =>
    exact (congrArg (List.Pairwise TimedEntry.le) dlqRequeue_heap).mpr ordered

theorem restore_heap {saved : EngineSnapshot} : (e.restoreState saved).visibilityHeap = [] :=
  restoreState_preserves (I := fun e _ _ => e.visibilityHeap = []) (fun _ _ _ _ empty => empty)
    (fun _ _ _ _ _ _ _ _ empty => restoreMessage_frame.2.1.trans empty) rfl

theorem Reachable.ordered {allowed : QueueEngine → EngineOp → Prop} (reached : Reachable allowed e) :
    e.Ordered := by
  induction reached with
  | start => exact List.Pairwise.nil
  | step reached persist op _ ordered => exact step_ordered reached.named ordered op
  | restore _ _ _ _ =>
    exact (congrArg (List.Pairwise TimedEntry.le) restore_heap).mpr List.Pairwise.nil

/-! ## One round of timeouts -/

/-- Every delivery has the entry of its deadline among the entries. -/
def Timed (entries : List TimedEntry) (e : QueueEngine) : Prop :=
  ∀ q m record, e.record? q m = some record → ∃ entry ∈ entries,
    entry.due = record.visibilityDeadline ∧ entry.queue = q ∧ entry.messageId = m

theorem Live.timed (live : e.Live) : Timed e.visibilityHeap e := by
  intro q m record there
  obtain ⟨queue, found, held⟩ := record?_some.mp there
  exact (live q queue found).timed m record held

/-- An entry whose own delivery is over, or has another deadline, is not needed. -/
theorem Timed.pass {entry : TimedEntry} (timed : Timed (entry :: entries) e)
    (stale : ∀ record, e.record? entry.queue entry.messageId = some record →
      record.visibilityDeadline ≠ entry.due) : Timed entries e := by
  intro q m record there
  obtain ⟨other, member, due, rfl, rfl⟩ := timed q m record there
  rcases List.mem_cons.mp member with rfl | kept
  · exact absurd due.symm (stale record there)
  · exact ⟨other, kept, due, rfl, rfl⟩

/-- Exactly the deliveries whose deadline has passed are over after the loop. -/
theorem timeoutEntries_record? (ordered : entries.Pairwise TimedEntry.le) (timed : Timed entries e) :
    (timeoutEntries ts entries e).2.record? q m =
      (e.record? q m).filter fun record => ts < record.visibilityDeadline := by
  induction entries generalizing e with
  | nil =>
    have none : e.record? q m = none := by
      by_contra some
      obtain ⟨record, there⟩ := Option.ne_none_iff_exists'.mp some
      obtain ⟨entry, member, _⟩ := timed q m record there
      cases member
    change e.record? q m = _
    rw [none]
    rfl
  | cons entry rest ih =>
    obtain ⟨first, tail⟩ := List.pairwise_cons.mp ordered
    unfold timeoutEntries
    split
    · rename_i due
      split
      · rename_i nothing
        exact ih tail (timed.pass fun record there => nomatch nothing.symm.trans there)
      · rename_i record there
        have known : e.record? entry.queue entry.messageId = some record := there
        split
        · rename_i current
          have ended : Timed rest (e.failDelivery entry.queue entry.messageId true).2 := by
            have before : Timed (entry :: rest) (e.failDelivery entry.queue entry.messageId true).2 := by
              intro q m record left
              rw [failDelivery_record?] at left
              split at left
              · cases left
              · exact timed q m record left
            refine before.pass fun record left => ?_
            rw [failDelivery_record?, if_pos ⟨rfl, rfl⟩] at left
            cases left
          change (timeoutEntries ts rest (e.failDelivery entry.queue entry.messageId true).2).2.record?
            q m = _
          rw [ih tail ended, failDelivery_record?]
          split
          · rename_i here
            obtain ⟨rfl, rfl⟩ := here
            have late : ¬ ts < record.visibilityDeadline := not_lt.mpr (current ▸ due)
            rw [known, Option.filter_some_neg (by simpa using late)]
            rfl
          · rfl
        · rename_i stale
          refine ih tail (timed.pass fun other here => ?_)
          rw [known] at here
          exact Option.some.inj here ▸ stale
    · rename_i early
      -- No entry behind this one is due either, so no deadline has passed.
      change e.record? q m = _
      cases there : e.record? q m with
      | none => rfl
      | some record =>
        obtain ⟨other, member, due, _⟩ := timed q m record there
        have later : entry.due ≤ other.due := by
          rcases List.mem_cons.mp member with rfl | kept
          · exact le_rfl
          · exact TimedEntry.le_due (first other kept)
        have ahead : ts < record.visibilityDeadline := due ▸ (not_le.mp early).trans_le later
        rw [Option.filter_some_pos (by simpa using ahead)]

theorem releaseDelayed_record? : (e.releaseDelayed ts).2.record? = e.record? :=
  releaseAll_preserves (I := fun released => released.record? = e.record?)
    (fun released name id same => (releaseOne_observe released name id).2.1.trans same) rfl

theorem tick_record? (now : Option ℚ) (ordered : e.Ordered) (live : e.Live) :
    (e.tick now).2.record? q m =
      (e.record? q m).filter fun record => e.tickTime now < record.visibilityDeadline := by
  obtain ⟨reads, shape⟩ := tick_sweeps e now
  have records : ({ e with reads }.releaseDelayed (e.tickTime now)).2.record? = e.record? :=
    releaseDelayed_record?
  have heap : ({ e with reads }.releaseDelayed (e.tickTime now)).2.visibilityHeap = e.visibilityHeap :=
    releaseDelayed_heap
  rw [shape, timeoutInflight, heap, timeoutEntries_record? ordered, records]
  intro q m record there
  rw [records] at there
  exact live.timed q m record there

/-! ## The loop ends -/

/-- The loop as it is written, which looks at the heap anew in every round. -/
def timeoutLoop (now : ℚ) : Nat → QueueEngine → Option (Nat × QueueEngine)
  | 0, _ => none
  | fuel + 1, e =>
    match e.visibilityHeap with
    | [] => some (0, e)
    | entry :: rest =>
      if entry.due ≤ now then
        let e := { e with visibilityHeap := rest }
        match (e.queues.get? entry.queue).bind (·.inflight.get? entry.messageId) with
        | none => timeoutLoop now fuel e
        | some record =>
          if record.visibilityDeadline = entry.due then
            let (failed, e) := e.failDelivery entry.queue entry.messageId true
            (timeoutLoop now fuel e).map fun (n, e) => (n + failed.toNat, e)
          else timeoutLoop now fuel e
      else some (0, e)

def withHeap (e : QueueEngine) (heap : List TimedEntry) : QueueEngine :=
  { e with visibilityHeap := heap }

variable {heap : List TimedEntry} {queue : DurableQueue}

theorem append_withHeap {op : JournalOp} :
    (e.withHeap heap).append persist op = (e.append persist op).withHeap heap := by
  unfold append
  split <;> rfl

theorem declareLeaf_withHeap {args : QueueArgs} :
    (e.withHeap heap).declareLeaf name args persist = (e.declareLeaf name args persist).withHeap heap := by
  by_cases known : name ∈ e.queues
  · have same : name ∈ (e.withHeap heap).queues := known
    rw [declareLeaf, declareLeaf, if_pos known, if_pos same]
  · have same : name ∉ (e.withHeap heap).queues := known
    let spec := e.makeSpec name { args with deadLetter := false }
    rw [declareLeaf, declareLeaf, if_neg known, if_neg same]
    exact append_withHeap (e := e.putQueue name { spec })

theorem bury_withHeap : (e.withHeap heap).bury name message = (e.bury name message).withHeap heap := by
  have same : (e.withHeap heap).queues.get? name = e.queues.get? name := rfl
  unfold bury
  rw [same]
  split <;> rfl

theorem moveToDlq_withHeap : (e.withHeap heap).moveToDlq name queue message persist =
    (e.moveToDlq name queue message persist).withHeap heap := by
  let taken : QueueEngine :=
    { e.putQueue name (queue.discard message.id) with byId := e.byId.erase message.id }
  let dead : JournalOp := .messageDead message.id name message.attempts message.payload
  have stored : (taken.withHeap heap).append persist dead =
      (taken.append persist dead).withHeap heap := append_withHeap
  unfold moveToDlq
  dsimp only
  split
  · exact (congrArg (fun e => bury (e.declareLeaf (dlqName name) {} false) _ _) stored).trans
      ((congrArg (bury · _ _) declareLeaf_withHeap).trans bury_withHeap)
  · exact stored

theorem delayRetry_withHeap : (e.withHeap heap).delayRetry name queue message persist =
    (e.delayRetry name queue message persist).withHeap heap := by
  let due := e.now.1 + retryDelay message.attempts e.config.retryBackoff e.config.retryBaseDelay
  let waiting : Message := { message with availableAt := some due }
  exact append_withHeap
    (e := (e.now.2.putQueue name (queue.delay waiting)).pushDelayed name message.id due)

theorem failDelivery_withHeap (e : QueueEngine) (name id : String) (heap : List TimedEntry) :
    (e.withHeap heap).failDelivery name id persist =
      ((e.failDelivery name id persist).1, (e.failDelivery name id persist).2.withHeap heap) := by
  have same : (e.withHeap heap).queues.get? name = e.queues.get? name := rfl
  unfold failDelivery
  rw [same]
  split
  · rfl
  · rename_i queue found
    dsimp only
    split
    · rfl
    · rename_i message held
      refine Prod.ext rfl ?_
      change ((e.putQueue name (queue.endDelivery id)).withHeap heap).retryOrDead name _ message persist = _
      unfold retryOrDead
      dsimp only
      split
      · exact moveToDlq_withHeap
      · exact delayRetry_withHeap

/-- The loop sees through the heap that its state still shows. -/
theorem timeoutEntries_withHeap (e : QueueEngine) (entries heap : List TimedEntry) :
    timeoutEntries ts entries (e.withHeap heap) = timeoutEntries ts entries e := by
  induction entries generalizing e with
  | nil => rfl
  | cons entry rest ih =>
    have same : (e.withHeap heap).queues.get? entry.queue = e.queues.get? entry.queue := rfl
    unfold timeoutEntries
    rw [same]
    split
    · split
      · exact ih e
      · split
        · rw [failDelivery_withHeap]
          dsimp only
          rw [ih]
        · exact ih e
    · rfl

/-- Every round pops an entry, so as many rounds as the heap has entries, and
one to find it empty, bring the loop to its end. -/
theorem timeoutLoop_ends {fuel : Nat} (enough : e.visibilityHeap.length < fuel) :
    timeoutLoop ts fuel e = some (e.timeoutInflight ts) := by
  induction fuel generalizing e with
  | zero => cases enough
  | succ fuel ih =>
    unfold timeoutLoop timeoutInflight
    split
    · rename_i empty
      rw [empty]
      exact congrArg (fun e => some (0, e)) (show e = { e with visibilityHeap := [] } by rw [← empty])
    · rename_i entry rest shape
      rw [shape] at enough ⊢
      have popped : timeoutLoop ts fuel (e.withHeap rest) = some (timeoutEntries ts rest e) := by
        rw [ih (Nat.lt_of_succ_lt_succ enough), timeoutInflight, ← timeoutEntries_withHeap e rest rest]
        rfl
      by_cases due : entry.due ≤ ts
      · simp only [timeoutEntries, if_pos due]
        cases there : (e.queues.get? entry.queue).bind (·.inflight.get? entry.messageId) with
        | none => exact popped
        | some record =>
          by_cases current : record.visibilityDeadline = entry.due
          · simp only [if_pos current]
            have heap : ((e.withHeap rest).failDelivery entry.queue entry.messageId true).2.visibilityHeap
                = rest := failDelivery_frame.2.1
            have later := ih (e := ((e.withHeap rest).failDelivery entry.queue entry.messageId true).2)
              (heap.symm ▸ Nat.lt_of_succ_lt_succ enough)
            rw [timeoutInflight, heap, failDelivery_withHeap, timeoutEntries_withHeap] at later
            have popped : { e with visibilityHeap := rest } = e.withHeap rest := rfl
            rw [popped, failDelivery_withHeap, later]
            rfl
          · simp only [if_neg current]
            exact popped
      · simp only [timeoutEntries, if_neg due, ← shape]

/-! ## The guarantee -/

/-- After a tick exactly the deliveries whose deadline has not passed are
left, each with its consumer and its deadline, whatever entries older
deliveries have left in the heap; and the loop of the tick comes to its end. -/
theorem visibility_timeouts_exact (reached : Reachable Anything e) (now : Option ℚ) :
    (∀ q m record, (e.tick now).2.record? q m = some record ↔
      e.record? q m = some record ∧ e.tickTime now < record.visibilityDeadline) ∧
    ∀ (base : QueueEngine) ts, ∃ rounds, ∀ fuel, rounds ≤ fuel →
      timeoutLoop ts fuel base = some (base.timeoutInflight ts) := by
  refine ⟨fun q m record => ?_,
    fun base ts => ⟨base.visibilityHeap.length + 1, fun fuel enough => timeoutLoop_ends enough⟩⟩
  rw [tick_record? now reached.ordered reached.live, Option.filter_eq_some_iff, decide_eq_true_iff]

/-- A message is delivered, given up and delivered again, so that the heap
has two entries for it. -/
def redeliveredRun : List EngineOp := [
  .declareQueue "orders" { visibilityTimeout := some 60 },
  .enqueue { id := "m1", queue := "orders", payload := [1], createdAt := 0 },
  .reserve "orders" "worker",
  .nack "m1" true,
  .tick (some 3),
  .reserve "orders" "worker"]

/-- An engine whose clock shows the number of readings so far. -/
def ticking : QueueEngine where
  config := { retryBackoff := .fixed }
  clock := fun reads => reads

/-- The first entry is due at the moment that the second is not. -/
theorem visibility_timeouts_exact_redelivered : ∃ record,
    (run (step true) ticking redeliveredRun).visibilityHeap.map (·.due) = [61, 63] ∧
    ((run (step true) ticking redeliveredRun).tick (some 61)).2.record? "orders" "m1" =
      some record := by
  have delivered : ((run (step true) ticking redeliveredRun).record? "orders" "m1").any
      (fun record => decide ((61 : ℚ) < record.visibilityDeadline)) = true := by
    decide +kernel
  obtain ⟨record, there, later⟩ := (Option.any_eq_true _ _).mp delivered
  have reached : Reachable Anything (run (step true) ticking redeliveredRun) :=
    reachable_run (.start { retryBackoff := .fixed } fun reads => reads)
      ⟨trivial, trivial, trivial, trivial, trivial, trivial, trivial⟩
  exact ⟨record, by decide +kernel, ((visibility_timeouts_exact reached (some 61)).1 _ _ record).mpr
    ⟨there, of_decide_eq_true later⟩⟩

end OneOpenBroker.Core.QueueEngine

import OneOpenBroker.Core.Timeouts

/-! What the visibility heap is to the operations. A reservation pushes an entry
under a fresh sequence number, a round of timeouts pops entries, and no other
operation looks at the heap. So the sequence numbers in it differ. -/
namespace OneOpenBroker.Core.QueueEngine
open Collections Systems

variable {e : QueueEngine} {name id queueName consumerId : String} {queue : DurableQueue}
  {message : Message} {persist requeue : Bool} {heap : List TimedEntry} {args : QueueArgs} {ts : ℚ}

/-! ## The heap does not matter -/

theorem declareQueue_withHeap : (e.withHeap heap).declareQueue name args persist =
    (e.declareQueue name args persist).withHeap heap := by
  have same : name ∈ (e.withHeap heap).queues ↔ name ∈ e.queues := .rfl
  have spec : (e.withHeap heap).makeSpec name args = e.makeSpec name args := rfl
  have stored (queue : DurableQueue) :
      (e.withHeap heap).putQueue name queue = (e.putQueue name queue).withHeap heap := rfl
  rw [declareQueue_eq, declareQueue_eq]
  by_cases known : name ∈ e.queues
  · rw [if_pos known, if_pos (same.mpr known)]
  · rw [if_neg known, if_neg (mt same.mp known), spec]
    dsimp only
    rw [stored, ← append_withHeap]
    split
    · rw [declareLeaf_withHeap]
    · rfl

theorem removeQueue_withHeap : (e.withHeap heap).removeQueue name queue persist =
    (e.removeQueue name queue persist).withHeap heap :=
  append_withHeap
    (e := { e with queues := e.queues.erase name, byId := e.byId.eraseAll queue.messages.keys })

theorem deleteLeaf_withHeap : (e.withHeap heap).deleteLeaf name persist =
    (e.deleteLeaf name persist).withHeap heap := by
  have same : (e.withHeap heap).queues.get? name = e.queues.get? name := rfl
  unfold deleteLeaf
  rw [same]
  split
  · rfl
  · exact removeQueue_withHeap

theorem deleteQueue_withHeap : ((e.withHeap heap).deleteQueue name persist).2 =
    (e.deleteQueue name persist).2.withHeap heap := by
  have same : (e.withHeap heap).queues.get? name = e.queues.get? name := rfl
  unfold deleteQueue
  rw [same]
  split
  · rfl
  · dsimp only
    split
    · rw [removeQueue_withHeap, deleteLeaf_withHeap]
    · exact removeQueue_withHeap

theorem accept_withHeap : (e.withHeap heap).accept queue message =
    (e.accept queue message).withHeap heap := by
  unfold accept
  dsimp only
  split <;> rfl

theorem enqueue_withHeap : (e.withHeap heap).enqueue message persist =
    ((e.enqueue message persist).1, (e.enqueue message persist).2.withHeap heap) := by
  have same : (e.withHeap heap).queues.get? message.queue = e.queues.get? message.queue := rfl
  unfold enqueue
  rw [same]
  split
  · rfl
  · dsimp only
    split
    · rfl
    · refine Prod.ext rfl ?_
      change ((e.now.2.withHeap heap).accept _ _).append _ _ = _
      rw [accept_withHeap, append_withHeap]
      rfl

theorem ack_withHeap : ((e.withHeap heap).ack id persist).2 = (e.ack id persist).2.withHeap heap := by
  have acks : (e.withHeap heap).recentAcks = e.recentAcks := rfl
  have index : (e.withHeap heap).byId.get? id = e.byId.get? id := rfl
  unfold ack
  rw [acks, index]
  split
  · rfl
  · split
    · rfl
    · rename_i queueName _
      have same : (e.withHeap heap).queues.get? queueName = e.queues.get? queueName := rfl
      rw [same]
      split
      · rfl
      · dsimp only
        split
        · cases persist <;> rfl
        · rfl

theorem conclude_withHeap : (e.withHeap heap).conclude name queue message requeue persist =
    (e.conclude name queue message requeue persist).withHeap heap := by
  unfold conclude retryOrDead
  dsimp only
  split
  · split
    · exact moveToDlq_withHeap
    · exact delayRetry_withHeap
  · exact moveToDlq_withHeap

theorem nack_withHeap : ((e.withHeap heap).nack id requeue persist).2 =
    (e.nack id requeue persist).2.withHeap heap := by
  have index : (e.withHeap heap).byId.get? id = e.byId.get? id := rfl
  unfold nack
  rw [index]
  split
  · rfl
  · rename_i queueName _
    have same : (e.withHeap heap).queues.get? queueName = e.queues.get? queueName := rfl
    rw [same]
    split
    · rfl
    · dsimp only
      split
      · split
        · rfl
        · change conclude (append ((e.putQueue queueName _).withHeap heap) persist _) queueName _ _ requeue
            persist = _
          rw [append_withHeap, conclude_withHeap]
          rfl
      · rfl

theorem failAll_withHeap (ids : List String) : (e.withHeap heap).failAll name persist ids =
    ((e.failAll name persist ids).1, (e.failAll name persist ids).2.withHeap heap) := by
  induction ids generalizing e with
  | nil => rfl
  | cons id rest ih =>
    unfold failAll
    rw [failDelivery_withHeap]
    dsimp only
    rw [ih]

theorem recoverQueues_withHeap (size : Nat) (names : List String) :
    recoverQueues size consumerId persist names (e.withHeap heap) =
      ((recoverQueues size consumerId persist names e).1,
        (recoverQueues size consumerId persist names e).2.withHeap heap) := by
  have queues (e : QueueEngine) : (e.withHeap heap).queues = e.queues := rfl
  induction names generalizing e with
  | nil =>
    unfold recoverQueues
    rw [queues]
  | cons name rest ih =>
    unfold recoverQueues
    rw [queues]
    split
    · split
      · exact ih
      · rw [failAll_withHeap]
        dsimp only
        rw [ih]
    · rfl

theorem recoverConsumer_withHeap : ((e.withHeap heap).recoverConsumer consumerId persist).2 =
    (e.recoverConsumer consumerId persist).2.withHeap heap :=
  congrArg Prod.snd (recoverQueues_withHeap e.queues.size e.queues.keys)

theorem releaseOne_withHeap : (e.withHeap heap).releaseOne name id =
    ((e.releaseOne name id).1, (e.releaseOne name id).2.withHeap heap) := by
  have same : (e.withHeap heap).queues.get? name = e.queues.get? name := rfl
  unfold releaseOne
  rw [same]
  split
  · rfl
  · dsimp only
    split
    · split
      · rfl
      · split <;> rfl
    · rfl

theorem releaseDelayed_withHeap : (e.withHeap heap).releaseDelayed ts =
    ((e.releaseDelayed ts).1, (e.releaseDelayed ts).2.withHeap heap) := by
  have all (due : List TimedEntry) (e : QueueEngine) : releaseAll due (e.withHeap heap) =
      ((releaseAll due e).1, (releaseAll due e).2.withHeap heap) := by
    induction due generalizing e with
    | nil => rfl
    | cons entry rest ih =>
      unfold releaseAll
      rw [releaseOne_withHeap]
      dsimp only
      rw [ih]
  exact all _ { e with delayed := e.delayed.dropWhile (·.due ≤ ts) }

theorem dlqRequeue_withHeap : ((e.withHeap heap).dlqRequeue queueName id persist).2 =
    (e.dlqRequeue queueName id persist).2.withHeap heap := by
  have taken (dlq : DurableQueue) : (e.withHeap heap).withdrawn queueName id dlq =
      (e.withdrawn queueName id dlq).withHeap heap := rfl
  by_cases drawn : ∃ dlq message, e.Withdraws queueName id dlq message
  · obtain ⟨dlq, message, draws⟩ := drawn
    have draws' : (e.withHeap heap).Withdraws queueName id dlq message :=
      ⟨draws.source, draws.dest, draws.held⟩
    have never {dest dest' : DurableQueue}
        (found : (e.withdrawn queueName id dlq).queues.get? (originQueue queueName) = some dest)
        (free : dest.isFull = false)
        (found' : (e.withdrawn queueName id dlq).queues.get? (originQueue queueName) = some dest')
        (full : dest'.isFull = true) : False := by
      rw [found] at found'
      cases found'
      rw [free] at full
      cases full
    rcases draws.result persist with ⟨dest, accepts, shape⟩ | ⟨⟨dest, found, full⟩, shape⟩ <;>
      rcases draws'.result persist with ⟨dest', accepts', shape'⟩ | ⟨⟨dest', found', full'⟩, shape'⟩
    · rw [shape, shape', taken, enqueue_withHeap]
      exact append_withHeap
    · exact (never accepts.1 accepts.2.1 found' full').elim
    · exact (never accepts'.1 accepts'.2.1 found full).elim
    · rw [shape, shape']
      rfl
  · have nothing := (dlqRequeue_cases e queueName id persist).resolve_right drawn
    have nothing' : (e.withHeap heap).dlqRequeue queueName id persist = (false, e.withHeap heap) :=
      (dlqRequeue_cases (e.withHeap heap) queueName id persist).resolve_right
        fun ⟨dlq, message, draws⟩ => drawn ⟨dlq, message, draws.source, draws.dest, draws.held⟩
    rw [nothing, nothing']

/-- A reservation that delivers pushes an entry, whatever the heap. -/
theorem reserve_withHeap (e : QueueEngine) (queueName consumerId : String) :
    (∀ heap, ((e.withHeap heap).reserve queueName consumerId).2 =
      (e.reserve queueName consumerId).2.withHeap heap) ∨
    ∃ entry, ∀ heap, ((e.withHeap heap).reserve queueName consumerId).2 =
      (e.reserve queueName consumerId).2.withHeap (heappush TimedEntry.le entry heap) := by
  have same (heap : List TimedEntry) : (e.withHeap heap).queues.get? queueName = e.queues.get? queueName := rfl
  cases found : e.queues.get? queueName with
  | none =>
    refine .inl fun heap => ?_
    simp only [reserve, same, found]
  | some queue =>
    rcases popped : popDeliverable queue queue.ready with ⟨_ | ⟨id, message⟩, rest⟩
    · refine .inl fun heap => ?_
      simp only [reserve, same, found, popped]
      rfl
    · refine .inr ⟨⟨e.now.1 + queue.spec.visibilityTimeout, e.seq + 1, queueName, id⟩, fun heap => ?_⟩
      simp only [reserve, same, found, popped]
      rfl

/-- No operation but a tick looks at the heap, and only a reservation changes
it. -/
theorem step_withHeap (e : QueueEngine) {op : EngineOp} (other : ∀ now, op ≠ .tick now) :
    (∀ heap, (e.withHeap heap).step persist op = (e.step persist op).withHeap heap) ∨
    ∃ entry, ∀ heap, (e.withHeap heap).step persist op =
      (e.step persist op).withHeap (heappush TimedEntry.le entry heap) := by
  cases op with
  | declareQueue name args => exact .inl fun _ => declareQueue_withHeap
  | deleteQueue name => exact .inl fun _ => deleteQueue_withHeap
  | enqueue message => exact .inl fun _ => congrArg Prod.snd enqueue_withHeap
  | reserve queueName consumerId => exact reserve_withHeap e queueName consumerId
  | ack messageId => exact .inl fun _ => ack_withHeap
  | nack messageId requeue => exact .inl fun _ => nack_withHeap
  | recoverConsumer consumerId => exact .inl fun _ => recoverConsumer_withHeap
  | tick now => exact absurd rfl (other now)
  | dlqRequeue queueName messageId => exact .inl fun _ => dlqRequeue_withHeap

/-! ## Sequence numbers -/

theorem reserve_seq {queueName : String} :
    e.seq ≤ (e.reserve queueName consumerId).2.seq := by
  unfold reserve
  split
  · exact le_rfl
  · split
    · exact le_rfl
    · exact Nat.le_succ _

theorem ack_seq : (e.ack id persist).2.seq = e.seq := by
  unfold ack
  repeat' (first | split | simp [rememberAck, putQueue])

theorem declareQueue_seq {args : QueueArgs} : (e.declareQueue name args persist).seq = e.seq := by
  rw [declareQueue_eq]
  split
  · rfl
  · rw [append_seq]
    split
    · exact declareLeaf_seq
    · rfl

theorem deleteQueue_seq : (e.deleteQueue name persist).2.seq = e.seq := by
  have removed : ∀ e : QueueEngine, ∀ name queue, (e.removeQueue name queue persist).seq = e.seq :=
    fun _ _ _ => append_seq
  unfold deleteQueue
  split
  · rfl
  · dsimp only
    split
    · unfold deleteLeaf
      split
      · exact removed e name _
      · rw [removed, removed]
    · exact removed e name _

theorem accept_seq : e.seq ≤ (e.accept queue message).seq := by
  unfold accept
  dsimp only
  split <;> exact Nat.le_succ _

theorem enqueue_seq : e.seq ≤ (e.enqueue message persist).2.seq := by
  rcases enqueue_cases e message persist with ⟨queue, accepts⟩ | ⟨_, same⟩
  · rw [accepts.2.2, append_seq]
    exact accept_seq (e := e.now.2)
  · rw [same]

theorem conclude_seq : e.seq ≤ (e.conclude name queue message requeue persist).seq := by
  have buried (e : QueueEngine) (name : String) (message : Message) : e.seq ≤ (e.bury name message).seq := by
    unfold bury
    split
    · exact le_rfl
    · exact Nat.le_succ _
  rcases conclude_cases e name queue message requeue persist with ⟨_, shape⟩ | ⟨_, _, shape⟩
  · rw [shape, moveToDlq_eq]
    split
    · refine le_trans ?_ (buried _ _ _)
      rw [declareLeaf_seq, discarded_seq]
    · rw [discarded_seq]
  · rw [shape, delayRetry, append_seq]
    exact Nat.le_succ _

theorem failDelivery_seq : e.seq ≤ (e.failDelivery name id persist).2.seq := by
  rcases failDelivery_cases e name id persist with ⟨_, shape⟩ | ⟨queue, _, _, shape⟩ |
    ⟨queue, message, _, _, shape⟩
  · rw [shape]
  · rw [shape]
    exact le_rfl
  · rw [shape]
    exact conclude_seq (e := e.putQueue name (queue.endDelivery id))

theorem nack_seq : e.seq ≤ (e.nack id requeue persist).2.seq := by
  rcases nack_cases e id requeue persist with ⟨name, queue, message, nacks⟩ |
    ⟨_, same | ⟨name, queue, _, _, _, shape⟩⟩
  · rw [nacks.shape]
    refine le_trans ?_ conclude_seq
    simp [nacked, putQueue]
  · rw [same]
  · rw [shape]
    exact le_rfl

/-- What every failed delivery keeps, the recovery of a consumer keeps. -/
theorem recoverConsumer_throughout {I : QueueEngine → Prop}
    (fail : ∀ e name id, I e → I (e.failDelivery name id persist).2) (start : I e) :
    I (e.recoverConsumer consumerId persist).2 := by
  have failed (name : String) (ids : List String) (e : QueueEngine) (start : I e) :
      I (e.failAll name persist ids).2 := by
    induction ids generalizing e with
    | nil => exact start
    | cons id rest ih => exact ih _ (fail e name id start)
  have swept (size : Nat) (names : List String) (e : QueueEngine) (start : I e) :
      I (recoverQueues size consumerId persist names e).2 := by
    induction names generalizing e with
    | nil => exact start
    | cons name rest ih =>
      unfold recoverQueues
      split
      · split
        · exact ih e start
        · exact ih _ (failed name _ e start)
      · exact start
  exact swept _ _ e start

theorem releaseOne_seq : e.seq ≤ (e.releaseOne name id).2.seq := by
  unfold releaseOne
  split
  · exact le_rfl
  · dsimp only
    split
    · split
      · exact le_rfl
      · split
        · exact le_rfl
        · exact Nat.le_succ _
    · exact le_rfl

theorem tick_seq {now : Option ℚ} : e.seq ≤ (e.tick now).2.seq :=
  tick_preserves (I := fun ticked => e.seq ≤ ticked.seq) (fun _ _ _ later => later.trans releaseOne_seq)
    (fun _ _ _ _ later _ _ => later.trans failDelivery_seq) (fun _ _ _ _ later => later) le_rfl

theorem dlqRequeue_seq : e.seq ≤ (e.dlqRequeue queueName id persist).2.seq := by
  rcases dlqRequeue_cases e queueName id persist with nothing | ⟨dlq, message, draws⟩
  · rw [nothing]
  · rcases draws.result persist with ⟨_, _, shape⟩ | ⟨_, shape⟩
    · rw [shape, append_seq]
      exact enqueue_seq (e := e.withdrawn queueName id dlq)
    · rw [shape]
      exact Nat.le_succ _

/-- The entries of the heap have different sequence numbers, all given out. -/
structure Numbered (e : QueueEngine) : Prop where
  differ : e.visibilityHeap.Pairwise (·.seq ≠ ·.seq)
  given : ∀ entry ∈ e.visibilityHeap, entry.seq ≤ e.seq

theorem Numbered.fewer {e' : QueueEngine} (numbered : e.Numbered)
    (heap : e'.visibilityHeap.Sublist e.visibilityHeap) (later : e.seq ≤ e'.seq) : e'.Numbered :=
  ⟨numbered.differ.sublist heap, fun entry member =>
    (numbered.given entry (heap.subset member)).trans later⟩

theorem step_numbered (numbered : e.Numbered) (op : EngineOp) : (e.step persist op).Numbered := by
  cases op with
  | declareQueue name args =>
    exact numbered.fewer (by rw [step, (declareQueue_frame e name args persist).2.1]) declareQueue_seq.ge
  | deleteQueue name =>
    exact numbered.fewer (by rw [step, (deleteQueue_frame e name persist).1]) deleteQueue_seq.ge
  | enqueue message => exact numbered.fewer (by rw [step, enqueue_heap]) enqueue_seq
  | reserve queueName consumerId =>
    rcases reserve_cases e queueName consumerId with ⟨queue, id, message, rest, reserves⟩ |
      ⟨_, ⟨same, _⟩ | ⟨queue, _, _, shape⟩⟩
    · have given : (e.reserve queueName consumerId).2.seq = e.seq + 1 := by
        simp [reserve, reserves.found, reserves.popped, putQueue, now]
      have same := List.perm_orderedInsert TimedEntry.le
        ⟨(e.deliveryRecord queue queueName consumerId id).visibilityDeadline, e.seq + 1, queueName, id⟩
        e.visibilityHeap
      refine ⟨?_, fun entry member => ?_⟩
      · rw [step, reserves.heap]
        refine (same.pairwise_iff fun differ => Ne.symm differ).mpr (List.pairwise_cons.mpr ⟨?_, numbered.differ⟩)
        intro entry member
        have := numbered.given entry member
        dsimp only
        omega
      · rw [step, reserves.heap] at member
        rw [step, given]
        rcases List.mem_cons.mp (same.mem_iff.mp member) with rfl | older
        · exact le_rfl
        · exact (numbered.given entry older).trans (Nat.le_succ _)
    · exact numbered.fewer (by rw [step, same]) reserve_seq
    · exact numbered.fewer (by rw [step, shape]; exact .refl _) reserve_seq
  | ack messageId => exact numbered.fewer (by rw [step, (ack_frame e messageId persist).1]) ack_seq.ge
  | nack messageId requeue => exact numbered.fewer (by rw [step, nack_heap]) nack_seq
  | recoverConsumer consumerId =>
    obtain ⟨heap, later⟩ : (e.recoverConsumer consumerId persist).2.visibilityHeap = e.visibilityHeap ∧
        e.seq ≤ (e.recoverConsumer consumerId persist).2.seq :=
      recoverConsumer_throughout (I := fun e' => e'.visibilityHeap = e.visibilityHeap ∧ e.seq ≤ e'.seq)
        (fun _ _ _ kept => ⟨failDelivery_frame.2.1.trans kept.1, kept.2.trans failDelivery_seq⟩) ⟨rfl, le_rfl⟩
    exact numbered.fewer (by rw [step, heap]) later
  | tick now => exact numbered.fewer (tick_heap e now).sublist tick_seq
  | dlqRequeue queueName messageId =>
    exact numbered.fewer (by rw [step, dlqRequeue_heap]) dlqRequeue_seq

end OneOpenBroker.Core.QueueEngine

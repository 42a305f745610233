import OneOpenBroker.Persistence.BrokerRuns

/-! Acknowledged messages after a recovery. Recovery rebuilds messages but no
deliveries, so an ack that it applies finds nothing to settle: a message stays
where the journal filed it until that queue is deleted. -/
namespace OneOpenBroker.Persistence
open Collections Systems OneOpenBroker.Core QueueEngine RoutingEngine

variable {e e' : QueueEngine} {id name q m : String} {requeue : Bool}

/-! ## Deliveries are not journaled -/

/-- No delivery is outstanding. -/
def Idle (e : QueueEngine) : Prop := ∀ q m, e.record? q m = none

theorem Idle.of_eq (idle : Idle e) (same : e'.record? = e.record?) : Idle e' := by
  intro q m
  rw [same]
  exact idle q m

theorem Idle.not_inflight {queue : DurableQueue} (idle : Idle e)
    (found : e.queues.get? name = some queue) : id ∉ queue.inflight := by
  rw [← Dict.get?_eq_none, ← record?_of_get found]
  exact idle name id

theorem Idle.ack (idle : Idle e) : (e.ack id false).2 = e := by
  rcases ack_cases e id false with ⟨name, queue, settles⟩ | ⟨_, same⟩
  · exact absurd settles.inflight (idle.not_inflight settles.found)
  · exact same

theorem Idle.nack (idle : Idle e) : (e.nack id requeue false).2 = e := by
  cases indexed : e.byId.get? id with
  | none => simp [QueueEngine.nack, indexed]
  | some name =>
    cases found : e.queues.get? name with
    | none => simp [QueueEngine.nack, indexed, found]
    | some queue => simp [QueueEngine.nack, indexed, found, idle.not_inflight found]

/-- What an applied record can do to the queues of a recovery. -/
theorem applyToQueues_preserves {I : QueueEngine → Prop} (idle : Idle e)
    (declare : ∀ name args, I (e.declareQueue name args false))
    (delete : ∀ name, I (e.deleteQueue name false).2)
    (publish : ∀ message, message.id ∉ (e.declareQueue message.queue {} false).byId →
      I ((e.declareQueue message.queue {} false).enqueue message false).2)
    (requeue : ∀ id dest, I (e.dlqRequeue dest id false).2) (same : I e) (op : JournalOp) :
    I (applyToQueues e op) := by
  cases op with
  | queueDeclare => exact declare _ _
  | queueDelete name => exact delete name
  | bind _ queue _ => exact declare queue {}
  | messagePublish message =>
    unfold applyToQueues
    dsimp only
    split
    · exact declare _ _
    · rename_i unknown
      exact publish message unknown
  | messageAck id _ => exact (congrArg I idle.ack).mpr same
  | messageNack id _ requeue => exact (congrArg I idle.nack).mpr same
  | messageRequeue id _ dest => exact requeue id dest
  | exchangeDeclare | exchangeDelete | unbind | messageRetry | messageDead => exact same

/-- Recovery stays idle, with everything under its own name. -/
structure Rebuilt (e : QueueEngine) : Prop where
  named : e.Named
  idle : Idle e

theorem requeue_rebuilt {dest : String} (rebuilt : Rebuilt e) :
    Rebuilt (e.dlqRequeue dest id false).2 := by
  refine ⟨dlqRequeue_named rebuilt.named, ?_⟩
  have requeue := dlqRequeue_requeue rebuilt.named dest id false
  generalize (e.dlqRequeue dest id false).1 = result at requeue
  generalize (e.dlqRequeue dest id false).2 = e' at requeue
  cases requeue with
  | missing => exact rebuilt.idle
  | moved _ _ _ _ records => exact rebuilt.idle.of_eq records
  | refused _ _ _ _ records => exact rebuilt.idle.of_eq records

theorem applyToQueues_rebuilt (rebuilt : Rebuilt e) (op : JournalOp) :
    Rebuilt (applyToQueues e op) := by
  have declare : ∀ name args, Rebuilt (e.declareQueue name args false) := fun name args =>
    ⟨step_named rebuilt.named (.declareQueue name args),
      rebuilt.idle.of_eq declareQueue_observe.2⟩
  refine applyToQueues_preserves rebuilt.idle declare (fun name => ⟨?_, fun q m => ?_⟩)
    (fun message _ => ⟨?_, ?_⟩) (fun id dest => requeue_rebuilt rebuilt) rebuilt op
  · exact step_named rebuilt.named (.deleteQueue name)
  · rw [deleteQueue_record?]
    split
    · rfl
    · exact rebuilt.idle q m
  · exact step_named (declare message.queue {}).named (.enqueue message)
  · rcases enqueue_cases (e.declareQueue message.queue {} false) message false with
      ⟨queue, accepts⟩ | ⟨_, same⟩
    · exact (declare message.queue {}).idle.of_eq accepts.record?
    · rw [same]
      exact (declare message.queue {}).idle

/-! ## Where recovery files a message -/

/-- A message leaves a trace in the queue it was published to and in the queue
it was requeued to, until the queue is deleted. -/
def trace (traces : List (String × String)) : JournalOp → List (String × String)
  | .messagePublish message => (message.queue, message.id) :: traces
  | .messageRequeue id _ dest => (originQueue dest, id) :: traces
  | .queueDelete name => traces.filter (·.1 ≠ name)
  | _ => traces

/-- Every message that is held left a trace. -/
def Traced (traces : List (String × String)) (e : QueueEngine) : Prop :=
  ∀ q m message, e.message? q m = some message → (q, m) ∈ traces

variable {traces : List (String × String)}

theorem Traced.of_eq (traced : Traced traces e) (same : e'.message? = e.message?) :
    Traced traces e' := by
  intro q m message there
  rw [same] at there
  exact traced q m message there

theorem applyToQueues_traced (rebuilt : Rebuilt e) (traced : Traced traces e) (op : JournalOp) :
    Traced (trace traces op) (applyToQueues e op) := by
  have declare : ∀ name args, Traced traces (e.declareQueue name args false) := fun name args =>
    traced.of_eq declareQueue_observe.1
  cases op with
  | queueDeclare => exact declare _ _
  | queueDelete name =>
    intro q m message there
    simp only [applyToQueues, deleteQueue_message?] at there
    split at there
    · cases there
    · rename_i kept
      have differ : q ≠ name := fun same => kept (.inl same)
      exact List.mem_filter.mpr ⟨traced q m message there, by simpa using differ⟩
  | bind _ queue _ => exact declare queue {}
  | messagePublish message =>
    have grown : ∀ e, Traced traces e → Traced (trace traces (.messagePublish message)) e :=
      fun e traced q m msg there => List.mem_cons_of_mem _ (traced q m msg there)
    unfold applyToQueues
    dsimp only
    split
    · exact grown _ (declare _ _)
    · rcases enqueue_cases (e.declareQueue message.queue {} false) message false with
        ⟨queue, accepts⟩ | ⟨_, same⟩
      · intro q m msg there
        rw [accepts.message?] at there
        split at there
        · rename_i here
          rw [here.1, here.2]
          exact List.mem_cons_self
        · exact grown _ (declare _ _) q m msg there
      · rw [same]
        exact grown _ (declare _ _)
  | messageAck id _ =>
    rw [applyToQueues, rebuilt.idle.ack]
    exact traced
  | messageNack id _ requeue =>
    rw [applyToQueues, rebuilt.idle.nack]
    exact traced
  | messageRequeue id source dest =>
    have requeue := dlqRequeue_requeue rebuilt.named dest id false
    unfold applyToQueues
    dsimp only
    generalize (e.dlqRequeue dest id false).1 = result at requeue
    generalize (e.dlqRequeue dest id false).2 = e' at requeue ⊢
    have kept : ∀ q m message, e.message? q m = some message →
        (q, m) ∈ trace traces (.messageRequeue id source dest) :=
      fun q m message there => List.mem_cons_of_mem _ (traced q m message there)
    intro q m msg there
    cases requeue with
    | missing => exact kept q m msg there
    | moved message _ held messages =>
      rw [messages] at there
      split at there
      · rename_i here
        rw [here.1, here.2]
        exact List.mem_cons_self
      · split at there
        · cases there
        · exact kept q m msg there
    | refused message _ held messages =>
      rw [messages] at there
      split at there
      · rename_i here
        rw [here.1, here.2]
        exact kept _ _ message held
      · exact kept q m msg there
  | exchangeDeclare | exchangeDelete | unbind | messageRetry | messageDead => exact traced

theorem rebuild_traced (rebuilt : Rebuilt e) (traced : Traced traces e) (ops : List JournalOp) :
    Traced (ops.foldl trace traces) (rebuild e ops) := by
  induction ops generalizing e traces with
  | nil => exact traced
  | cons op rest ih =>
    exact ih (applyToQueues_rebuilt rebuilt op) (applyToQueues_traced rebuilt traced op)

/-- The traces of a snapshot: every message in its queue. -/
def snapshotTraces (state : RuntimeSnapshot) : List (String × String) :=
  state.queues.contents.map fun entry => (entry.1, entry.2.message.id)

theorem restore_rebuilt {saved : QueueEngine} (named : saved.Named) :
    Rebuilt (e.restoreState saved.snapshotState) := by
  refine ⟨restore_named named, ?_⟩
  refine restoreState_preserves (I := fun e _ _ => Idle e) ?_ ?_ (fun _ _ => rfl)
  · intro e _ queue _ idle q m
    rw [record?_of_set (e := e) rfl]
    split
    · rfl
    · exact idle q m
  · intro e _ _ name queue message found _ idle q m
    rw [record?_of_set restoreMessage_queues, refit_inflight]
    split
    · rw [← record?_of_get found]
      exact idle name m
    · exact idle q m

theorem restore_traced {saved : QueueEngine} (filed : saved.Filed) :
    Rebuilt (e.restoreState saved.snapshotState) ∧
    Traced (saved.snapshotState.contents.map fun entry => (entry.1, entry.2.message.id))
      (e.restoreState saved.snapshotState) := by
  refine ⟨restore_rebuilt filed.named, ?_⟩
  refine restoreState_preserves (I := fun e _ _ => Traced _ e) ?_ ?_ (fun _ _ _ there => by cases there)
  · intro e _ queue _ traced q m message there
    rw [message?_of_set (e := e) rfl] at there
    split at there
    · cases there
    · exact traced q m message there
  · intro e _ _ name queue message found listed traced q m msg there
    rw [restoreMessage_message? found] at there
    split at there
    · rename_i here
      exact List.mem_map.mpr ⟨_, listed, by rw [here.1, here.2]⟩
    · exact traced q m msg there

/-! ## What recovery reads -/

/-- The sequence number up to which a snapshot file covers the journal. -/
def fileSeq (file : Option SnapshotFile) : Nat := (file.map (·.1)).getD 0

/-- The operations that recovery applies after it loaded the file. -/
def laterOps (file : Option SnapshotFile) (records : List AofRecord) : List JournalOp :=
  (records.filter (fileSeq file < ·.seq)).map (·.op)

/-- The traces that the snapshot file and the records after it leave. -/
def tracesOf (file : Option SnapshotFile) (records : List AofRecord) : List (String × String) :=
  (laterOps file records).foldl trace ((file.map (snapshotTraces ·.2)).getD [])

/-- The file was written in a state of the run, or there is none and the
journal is complete. -/
def TakenAt (r : RoutingEngine) (before : List BrokerOp) (file : Option SnapshotFile) : Prop :=
  file = none ∧ before = [] ∨
    file = some ((run step r before).queues.journal.seq, snapshot (run step r before))

/-- A broker that was just created. -/
def booted (config : EngineConfig) (clock : Nat → ℚ) : RoutingEngine := create { config, clock }

theorem booted_queues {config : EngineConfig} {clock : Nat → ℚ} :
    (booted config clock).queues = { config, clock } := declareExchange_queues

theorem recovered_traced {r : RoutingEngine} {file : Option SnapshotFile} {records : List AofRecord}
    (rebuilt : Rebuilt r.queues) (traced : Traced [] r.queues)
    (saved : ∀ taken ∈ file, ∃ e : QueueEngine, e.Filed ∧ taken.2.queues = e.snapshotState) :
    Traced (tracesOf file records) (recovered r file records).queues := by
  cases file with
  | none =>
    rw [recovered, replay_queues]
    exact rebuild_traced rebuilt traced _
  | some taken =>
    obtain ⟨seq, state⟩ := taken
    obtain ⟨e, filed, same⟩ := saved _ rfl
    have restored := restore_traced (e := r.queues) filed
    rw [recovered, replay_queues, restoreSnapshot_queues]
    rw [← same] at restored
    exact rebuild_traced restored.1 restored.2 _

/-! ## Acknowledged messages of a run -/

/-- The messages that were acknowledged in the first part of a journal left
no trace that is there after the second part. -/
structure Forgotten (base : List JournalOp) (traces : List (String × String)) (e : QueueEngine) :
    Prop where
  account : Accounted e
  since : ∃ later, e.journal.ops = base ++ later ∧
    ∀ m ∈ ackedIds base, ∀ q, (q, m) ∉ later.foldl trace traces

/-- A message gets a new trace when it is published or requeued. -/
theorem mem_traces {ops : List JournalOp} (there : (q, m) ∈ ops.foldl trace traces) :
    (q, m) ∈ traces ∨ m ∈ publishedIds ops ∨ ∃ source dest, .messageRequeue m source dest ∈ ops := by
  induction ops generalizing traces with
  | nil => exact .inl there
  | cons op rest ih =>
    rcases ih there with now | published | ⟨source, dest, requeued⟩
    · cases op with
      | messagePublish message =>
        rcases List.mem_cons.mp now with new | old
        · obtain rfl : m = message.id := congrArg Prod.snd new
          exact .inr (.inl List.mem_cons_self)
        · exact .inl old
      | messageRequeue id source dest =>
        rcases List.mem_cons.mp now with new | old
        · obtain rfl : m = id := congrArg Prod.snd new
          exact .inr (.inr ⟨source, dest, List.mem_cons_self⟩)
        · exact .inl old
      | queueDelete name => exact .inl (List.mem_filter.mp now).1
      | queueDeclare | exchangeDeclare | exchangeDelete | bind | unbind | messageAck | messageNack
      | messageRetry | messageDead => exact .inl now
    · refine .inr (.inl ?_)
      rw [← List.singleton_append, publishedIds_append]
      exact List.mem_append_right _ published
    · exact .inr (.inr ⟨source, dest, List.mem_cons_of_mem _ requeued⟩)

theorem Accounted.fresh {message : Message} (account : Accounted e)
    (unique : Unique (e.journal.ops ++ [.messagePublish message])) : ¬ e.Held message.id := by
  intro held
  unfold Unique at unique
  rw [publishedIds_append] at unique
  exact (List.nodup_append.mp unique).2.2 _ (account.published _ held) _ (List.mem_singleton.mpr rfl)
    rfl

theorem Forgotten.post {base more : List JournalOp} (forgotten : Forgotten base traces e)
    (posts : Posts e e' more) (unique : Unique e'.journal.ops) : Forgotten base traces e' := by
  obtain ⟨later, grown, absent⟩ := forgotten.since
  refine ⟨forgotten.account.post posts unique, later ++ more, ?_, fun m acked q there => ?_⟩
  · rw [posts.grown, grown, List.append_assoc]
  · rw [List.foldl_append] at there
    have settled : m ∈ publishedIds e.journal.ops ∧ ¬ e.Held m := by
      refine forgotten.account.settled m ?_
      rw [grown, ackedIds_append]
      exact List.mem_append_left _ acked
    rcases mem_traces there with old | published | ⟨source, dest, requeued⟩
    · exact absent m acked q old
    · unfold Unique at unique
      rw [posts.grown, publishedIds_append] at unique
      exact (List.nodup_append.mp unique).2.2 m settled.1 m published rfl
    · exact settled.2 (posts.requeued m source dest requeued)

theorem run_forgotten {r : RoutingEngine} {base : List JournalOp} (ops : List BrokerOp)
    (start : While Unique (Forgotten base traces) r.queues) :
    While Unique (Forgotten base traces) (run step r ops).queues := by
  have cut : ∀ first more, Unique (first ++ more) → Unique first := fun _ _ unique => unique.cut
  have effect : ∀ e e' : QueueEngine, e.Filed → e'.Filed → e'.config = e.config → Effect e e' →
      Unique e'.journal.ops → Forgotten base traces e → Forgotten base traces e' := by
    intro e e' filed _ _ eff unique forgotten
    obtain ⟨more, posts⟩ := effect_posts filed.indexed eff
    exact forgotten.post posts unique
  exact run_work
    (fun _ _ clean inv => step_while cut (fun _ _ inv unique => inv.account.fresh unique) effect clean inv)
    (fun _ _ record inv => append_while cut effect record inv) start

theorem step_broker_named {r : RoutingEngine} (named : r.queues.Named) (op : BrokerOp) :
    (step r op).queues.Named :=
  step_preserves (I := Named) (fun _ op _ named => step_named named op) (fun _ _ _ named => named) op
    named

theorem run_grows {r : RoutingEngine} (named : r.queues.Named) (ops : List BrokerOp) :
    ∃ more, (run step r ops).queues.journal.ops = r.queues.journal.ops ++ more := by
  refine run_journal (P := fun journal => ∃ more, journal.ops = r.queues.journal.ops ++ more) ?_ named
    ⟨[], (List.append_nil _).symm⟩
  rintro journal op ⟨more, grown⟩
  exact ⟨more ++ [op], by rw [Journal.ops_append, grown, List.append_assoc]⟩

/-- An ack that returned OK is in the journal. -/
theorem acked_journaled {r : RoutingEngine} (named : r.queues.Named) {ops : List BrokerOp}
    (there : id ∈ acked r ops) : id ∈ ackedIds (run step r ops).queues.journal.ops := by
  induction ops generalizing r with
  | nil => cases there
  | cons op rest ih =>
    have next := step_broker_named named op
    have later : id ∈ acked (step r op) rest →
        id ∈ ackedIds (run step (step r op) rest).queues.journal.ops := ih next
    cases op with
    | ack settled =>
      rw [acked] at there
      split at there
      · rename_i ok
        rcases List.mem_cons.mp there with rfl | there
        · rcases ack_cases r.queues id true with ⟨name, queue, settles⟩ | ⟨refused, _⟩
          · obtain ⟨more, grown⟩ := run_grows next rest
            have ops : (step r (.ack id)).queues.journal.ops =
                r.queues.journal.ops ++ [.messageAck id name] := settles.ops
            rw [run_cons, grown, ops, ackedIds_append, ackedIds_append]
            exact List.mem_append_left _ (List.mem_append_right _ List.mem_cons_self)
          · exact absurd ok refused
        · exact later there
      · exact later there
    | _ => exact later there

theorem acked_append {r : RoutingEngine} {first second : List BrokerOp} :
    acked r (first ++ second) = acked r first ++ acked (run step r first) second := by
  induction first generalizing r with
  | nil => rfl
  | cons op rest ih =>
    cases op with
    | ack settled =>
      rw [List.cons_append, acked, acked, ih, run_cons]
      split <;> rfl
    | _ => exact ih

section Started

variable {config config' : EngineConfig} {clock clock' : Nat → ℚ} {before after : List BrokerOp}
  {file : Option SnapshotFile}

theorem booted_while {J : QueueEngine → Prop} {C : List JournalOp → Prop}
    (start : J (booted config clock).queues) : While C J (booted config clock).queues := by
  have filed : (booted config clock).queues.Filed := by
    rw [booted_queues]
    exact cleared_filed { config, clock } 0
  exact ⟨filed.named, fun _ => ⟨filed, start⟩⟩

theorem booted_accounted : Accounted (booted config clock).queues := by
  rw [booted_queues]
  exact ⟨fun m ⟨q, message, there⟩ => (nomatch there), fun m there => nomatch there⟩

theorem booted_forgotten (traces : List (String × String)) :
    Forgotten [] traces (booted config clock).queues := by
  refine ⟨booted_accounted, [], ?_, fun m there => nomatch there⟩
  rw [booted_queues]
  rfl

theorem booted_rebuilt : Rebuilt (booted config clock).queues ∧ Traced [] (booted config clock).queues := by
  rw [booted_queues]
  exact ⟨⟨Dict.all_empty, fun _ _ => rfl⟩, fun _ _ _ there => nomatch there⟩

/-- Every broker that ran from its start is filed, as long as no id was published twice. -/
theorem run_filed (unique : Unique (run step (booted config clock) before).queues.journal.ops) :
    (run step (booted config clock) before).queues.Filed ∧
      Accounted (run step (booted config clock) before).queues := by
  obtain ⟨filed, forgotten⟩ :=
    (run_forgotten before (booted_while (booted_forgotten []))).2 unique
  exact ⟨filed, forgotten.account⟩

/-- The messages that a snapshot holds were not acknowledged before it. -/
theorem snapshot_forgotten {r : RoutingEngine} (filed : r.queues.Filed) (account : Accounted r.queues) :
    Forgotten r.queues.journal.ops (snapshotTraces (snapshot r)) r.queues := by
  refine ⟨account, [], (List.append_nil _).symm, fun m settled q there => ?_⟩
  obtain ⟨⟨name, saved⟩, listed, same⟩ := List.mem_map.mp there
  obtain ⟨queue, found, held, _⟩ := (mem_contents filed.named).mp listed
  obtain rfl : saved.message.id = m := congrArg Prod.snd same
  exact (account.settled _ settled).2 ⟨name, saved.message, (message?_of_get found).trans held⟩

/-- After a recovery no acknowledged message is held, provided that each queue
in which recovery may file a message acknowledged since the snapshot was
deleted later on. -/
theorem acknowledged_stay_gone (taken : TakenAt (booted config clock) before file)
    (unique : Unique (run step (booted config clock) (before ++ after)).queues.journal.ops)
    (deleted : ∀ id ∈ acked (run step (booted config clock) before) after, ∀ q, (q, id) ∉
      tracesOf file (run step (booted config clock) (before ++ after)).queues.journal.records) :
    ∀ id ∈ acked (booted config clock) (before ++ after), ¬ (recovered (booted config' clock') file
      (run step (booted config clock) (before ++ after)).queues.journal.records).queues.Held id := by
  rw [run_append] at unique deleted ⊢
  generalize live : run step (run step (booted config clock) before) after = last at unique deleted ⊢
  have named : (booted config clock).queues.Named := booted_rebuilt.1.named
  have middle : (run step (booted config clock) before).queues.Named :=
    run_work (fun _ op _ named => step_named named op) (fun _ _ _ named => named) named
  obtain ⟨more, grown⟩ := run_grows middle after
  rw [live] at grown
  obtain ⟨filed, account⟩ := run_filed (Unique.cut (grown ▸ unique))
  have traced : Traced (tracesOf file last.queues.journal.records)
      (recovered (booted config' clock') file last.queues.journal.records).queues := by
    refine recovered_traced booted_rebuilt.1 booted_rebuilt.2 fun taken' there => ?_
    rcases taken with ⟨rfl, _⟩ | rfl
    · cases there
    · cases there
      exact ⟨_, filed, rfl⟩
  rintro id settled ⟨q, message, held⟩
  rw [acked_append] at settled
  rcases List.mem_append.mp settled with early | late
  · -- What was acknowledged before the snapshot is neither in it nor in later records.
    rcases taken with ⟨_, rfl⟩ | rfl
    · cases early
    · have numbered : Numbered (run step (booted config clock) before).queues.journal := by
        refine run_journal (fun _ op numbered => numbered.append op) named ?_
        rw [booted_queues]
        exact fun _ there => nomatch there
      have extended : Extends (run step (booted config clock) before).queues.journal
          last.queues.journal :=
        live ▸ run_journal (fun _ op extended => extended.append op) middle
          ⟨le_refl _, [], (List.append_nil _).symm, fun _ there => nomatch there⟩
      have start : While Unique (Forgotten _ _) (run step (booted config clock) before).queues :=
        ⟨middle, fun _ => ⟨filed, snapshot_forgotten filed account⟩⟩
      obtain ⟨_, _, later, since, absent⟩ := (live ▸ run_forgotten after start).2 unique
      rw [extended.later numbered] at since
      rw [← List.append_cancel_left since] at absent
      exact absent id (acked_journaled named early) q (traced q id message held)
  · exact deleted id late q (traced q id message held)

end Started

/-- A broker with the default configuration, whose clock stands still. -/
def idleBroker : RoutingEngine := booted {} fun _ => 0

/-- Publish one message to a queue. -/
def publishOne (queue id : String) : BrokerOp :=
  .publish { payload := [1], queue := some queue } fun _ => ⟨id, 0⟩

/-- One message goes all the way to its acknowledgement. -/
def settleOne (id : String) : List BrokerOp :=
  [publishOne "jobs" id, .reserve "jobs" "worker", .ack id]

/-- The journal of one settled message brings the message back. -/
theorem acknowledged_resurrected :
    Unique (run step idleBroker (settleOne "m1")).queues.journal.ops ∧
    "m1" ∈ acked idleBroker (settleOne "m1") ∧ (recovered idleBroker none
      (run step idleBroker (settleOne "m1")).queues.journal.records).queues.Held "m1" := by
  decide +kernel

def deletedAfterwards : List BrokerOp := settleOne "m2" ++ [.deleteQueue "jobs"]

/-- One message is settled before the snapshot, and one after it in a queue
that is deleted in the end. -/
theorem acknowledged_stay_gone_deleted :
    "m1" ∈ acked idleBroker (settleOne "m1" ++ deletedAfterwards) ∧
      ¬ (recovered idleBroker (some ((run step idleBroker (settleOne "m1")).queues.journal.seq,
          snapshot (run step idleBroker (settleOne "m1"))))
        (run step idleBroker (settleOne "m1" ++ deletedAfterwards)).queues.journal.records).queues.Held
          "m1" := by
  have none : tracesOf (some ((run step idleBroker (settleOne "m1")).queues.journal.seq,
        snapshot (run step idleBroker (settleOne "m1"))))
      (run step idleBroker (settleOne "m1" ++ deletedAfterwards)).queues.journal.records = [] := by
    decide +kernel
  have settled : "m1" ∈ acked idleBroker (settleOne "m1" ++ deletedAfterwards) := by decide +kernel
  refine ⟨settled, acknowledged_stay_gone (.inr rfl) (by decide +kernel) (fun id _ q there => ?_) _ settled⟩
  have nowhere : (q, id) ∈ ([] : List (String × String)) := by
    rw [← none]
    exact there
  cases nowhere

end OneOpenBroker.Persistence

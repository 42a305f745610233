import OneOpenBroker.Broker.ServerRuns
import OneOpenBroker.Persistence.Batches

/-! The writer as the server has it. The tasks of the server know the records of
the journal by their numbers, and `Broker.Server` lets the writer take all that
is queued at once. While the broker runs, no task that waits is cancelled and
the file has no error, that is what `persistence/aof.py` does step by step. -/
namespace OneOpenBroker.Broker
open Collections Systems
open Persistence (Item Task WriterEvent)
open Persistence.Records (JsonCodec Op encodeRecord)
open Persistence.Writer (blob collected)

/-- What the steps of the server do with the writer. -/
inductive AOFStep where
  | append (seqs : List Nat)
  | take
  | write (due : Bool)
  | resolve

namespace AOFWriter

def step (b : AOFWriter) : AOFStep → AOFWriter
  | .append seqs => b.append seqs
  | .take => b.take
  | .write due => b.write due
  | .resolve => b.resolve

def fsyncOf : Persistence.Fsync → Fsync
  | .always => .always
  | .everysec => .everysec
  | .none => .none

/-- A batch that is being collected counts as queued. -/
def taskOf : Task → WriterTask
  | .idle | .collecting _ | .stopped | .failed _ => .idle
  | .writing batch => .writing (batch.map (·.seq))
  | .written batch => .wrote (batch.map (·.seq))

/-- What the server does when the writer takes a step. -/
def serverSteps {μ : Type*} (w : Persistence.Writer μ) : WriterEvent μ → List AOFStep
  | .append .. => [.append [w.seq + 1]]
  | .collect =>
    match w.task, w.queue with
    | .collecting _, [] => [.take]
    | _, _ => []
  | .write now => [.write (1 ≤ now - w.file.lastFsync)]
  | .resume => [.resolve]
  | .dequeue | .writeError | .fsyncError _ | .cancel _ | .flushAndStop | .putSentinel | .finish => []

variable {μ : Type*} {crc32 : List UInt8 → UInt32} {json : JsonCodec μ} {w : Persistence.Writer μ}
  {b : AOFWriter} {base : List UInt8} {done batch : List Item} {late : List (List Item)} {now : ℚ}

/-- Records are appended that can be encoded, the file has no error, no task that
waits is cancelled, and the broker does not shut down. -/
def Serving (crc32 : List UInt8 → UInt32) (json : JsonCodec μ) (w : Persistence.Writer μ) :
    WriterEvent μ → Prop
  | .append op metadata payload time =>
    (encodeRecord crc32 json ⟨w.seq + 1, op, metadata, payload, time⟩).isSome
  | .dequeue | .collect | .write _ | .resume => True
  | .writeError | .fsyncError _ | .cancel _ | .flushAndStop | .putSentinel | .finish => False

/-- The batch of the task. -/
def taken : Task → List Item
  | .collecting batch | .writing batch | .written batch | .failed batch => batch
  | .idle | .stopped => []

/-- A writer that takes records, all of which come with a future or none. -/
structure Uniform (w : Persistence.Writer μ) : Prop where
  taking : w.closed = false
  records : ∀ item ∈ taken w.task ++ w.queue, item.stops = false ∧ item.waits = decide (w.fsync = .always)
  filled : ∀ batch, w.task = .collecting batch → batch ≠ []
  awaited : ∀ n, w.futures.get? n = some .pending → w.fsync = .always

/-- The server has the writer: its task and queue, the futures that are not set,
the records in the file, and of these the batches that no fsync has followed. -/
structure Views (base : List UInt8) (w : Persistence.Writer μ) (b : AOFWriter) (done : List Item)
    (late : List (List Item)) : Prop where
  fsync : b.fsync = fsyncOf w.fsync
  task : b.task = taskOf w.task
  queue : b.queue = (collected w.task ++ w.queue).map (·.seq)
  waiters : ∀ n, n ∈ b.waiters ↔ w.futures.get? n = some .pending
  written : b.written = done.map (·.seq)
  content : w.file.content = base ++ blob done
  synced : b.written = b.synced ++ late.flatten.map (·.seq)
  unsynced : late.length = w.file.unsynced.length

/-! ## One step -/

/-- A batch sets the futures that come with its records. -/
theorem resolve_pending {futures : Dict Nat Persistence.Future} {n : Nat} :
    (Persistence.Writer.resolve futures batch).get? n = some .pending ↔
      futures.get? n = some .pending ∧ ∀ item ∈ batch, item.waits = true → item.seq ≠ n := by
  induction batch generalizing futures with
  | nil => simp [Persistence.Writer.resolve]
  | cons item rest ih =>
    refine ih.trans ?_
    rw [List.forall_mem_cons, ← and_assoc]
    apply and_congr_left'
    dsimp only
    split
    · rename_i pending
      rw [Dict.get?_set]
      by_cases same : n = item.seq
      · simp [same, pending.1]
      · simp [same, Ne.symm same]
    · rename_i other
      constructor
      · intro pending
        exact ⟨pending, fun waits same => other ⟨waits, same ▸ pending⟩⟩
      · exact And.left

theorem append_views {op : Op} {metadata : μ} {payload : List UInt8} {time : UInt64}
    (uniform : Uniform w) (views : Views base w b done late)
    (encoded : (encodeRecord crc32 json ⟨w.seq + 1, op, metadata, payload, time⟩).isSome) :
    Uniform (w.append crc32 json op metadata payload time) ∧
      Views base (w.append crc32 json op metadata payload time) (b.append [w.seq + 1]) done late := by
  obtain ⟨raw, encoded⟩ := Option.isSome_iff_exists.mp encoded
  simp only [Persistence.Writer.append, uniform.taking, Bool.false_eq_true, if_false, encoded]
  have new : (⟨w.seq + 1, raw, decide (w.fsync = .always)⟩ : Item).stops = false := by
    simp [Item.stops]
  refine ⟨⟨rfl, ?_, uniform.filled, fun n => ?_⟩, { views with queue := ?_, waiters := fun n => ?_ }⟩
  · simp only [← List.append_assoc, List.forall_mem_append, List.forall_mem_singleton]
    exact ⟨List.forall_mem_append.mp uniform.records, new, trivial⟩
  · split
    · rename_i always
      exact fun _ => always
    · exact uniform.awaited n
  · simp [AOFWriter.append, views.queue]
  · have mode : b.fsync = .always ↔ w.fsync = .always := by
      rw [views.fsync]
      cases w.fsync <;> simp [fsyncOf]
    by_cases always : w.fsync = .always
    · by_cases same : n = w.seq + 1 <;> simp [AOFWriter.append, always, mode, same, views.waiters]
    · simp [AOFWriter.append, always, mode, views.waiters]

theorem dequeue_views (uniform : Uniform w) (views : Views base w b done late) (task : w.task = .idle) :
    Uniform w.dequeue ∧ Views base w.dequeue b done late := by
  have records := uniform.records
  have queue := views.queue
  unfold Persistence.Writer.dequeue
  split
  · exact ⟨uniform, views⟩
  · rename_i item rest shape
    simp only [task, taken, List.nil_append, shape, List.forall_mem_cons] at records
    rw [if_neg (by simp [records.1])]
    exact ⟨⟨uniform.taking, by simpa [taken] using records, by simp, uniform.awaited⟩,
      { views with
        task := by simp [views.task, task, taskOf]
        queue := by simp [queue, task, shape, collected] }⟩

theorem collect_views (uniform : Uniform w) (views : Views base w b done late)
    (task : w.task = .collecting batch) : Uniform (w.collect batch) ∧
      Views base (w.collect batch) (run step b (serverSteps w .collect)) done late := by
  have records := uniform.records
  have idle : b.task = .idle := by rw [views.task, task, taskOf]
  cases queue : w.queue with
  | nil =>
    have listed : b.queue = batch.map (·.seq) := by simp [views.queue, task, queue, collected]
    have nonempty : batch ≠ [] := uniform.filled batch task
    have took : b.take = { b with task := .writing (batch.map (·.seq)), queue := [] } := by
      simp [take, idle, listed, nonempty]
    simp only [Persistence.Writer.collect, serverSteps, task, queue, run_cons, run_nil, step, took]
    exact ⟨⟨uniform.taking, by simpa [task, taken, queue] using records, by simp, uniform.awaited⟩,
      { views with task := rfl, queue := by simp [collected] }⟩
  | cons item rest =>
    simp only [task, taken, queue, List.forall_mem_append, List.forall_mem_cons] at records
    obtain ⟨old, ⟨stops, waits⟩, more⟩ := records
    simp only [Persistence.Writer.collect, serverSteps, task, queue, stops, Bool.false_eq_true, if_false,
      run_nil]
    refine ⟨⟨uniform.taking, ?_, by simp, uniform.awaited⟩, { views with task := ?_, queue := ?_ }⟩
    · simpa only [taken, List.forall_mem_append, List.forall_mem_singleton] using
        ⟨⟨old, stops, waits⟩, more⟩
    · rw [views.task, task, taskOf, taskOf]
    · simp [views.queue, task, queue, collected]

/-- The write is followed by an fsync. -/
def Syncs (mode : Persistence.Fsync) (file : Persistence.AofFile) (now : ℚ) : Prop :=
  mode = .always ∨ mode = .everysec ∧ 1 ≤ now - file.lastFsync

instance (mode : Persistence.Fsync) (file : Persistence.AofFile) (now : ℚ) :
    Decidable (Syncs mode file now) :=
  inferInstanceAs (Decidable (_ ∨ _))

theorem writeBytes_unsynced {mode : Persistence.Fsync} {file : Persistence.AofFile} {data : List UInt8} :
    (file.writeBytes mode now data).unsynced =
      if Syncs mode file now then [] else file.unsynced ++ [now] := by
  cases mode with
  | always => simp [Persistence.AofFile.writeBytes, Persistence.AofFile.sync, Syncs]
  | everysec =>
    by_cases due : 1 ≤ now - file.lastFsync <;>
      simp [Persistence.AofFile.writeBytes, Persistence.AofFile.sync, Persistence.AofFile.add, Syncs, due]
  | none => simp [Persistence.AofFile.writeBytes, Persistence.AofFile.add, Syncs]

theorem write_eq (written : b.task = .writing (batch.map (·.seq))) (fsync : b.fsync = fsyncOf w.fsync) :
    b.write (1 ≤ now - w.file.lastFsync) = { b with
      task := .wrote (batch.map (·.seq))
      written := b.written ++ batch.map (·.seq)
      synced := if Syncs w.fsync w.file now then b.written ++ batch.map (·.seq) else b.synced } := by
  simp only [write, written, fsync]
  cases w.fsync <;> simp [fsyncOf, Syncs]

/-- A batch is in the file, and is fsynced with all before it or stays behind
with those that are not. -/
theorem write_views (uniform : Uniform w) (views : Views base w b done late)
    (task : w.task = .writing batch) : Uniform (w.write batch now) ∧
      Views base (w.write batch now) (b.write (1 ≤ now - w.file.lastFsync)) (done ++ batch)
        (if Syncs w.fsync w.file now then [] else late ++ [batch]) := by
  have records := uniform.records
  rw [task] at records
  have queue := views.queue
  rw [task] at queue
  rw [write_eq (by rw [views.task, task, taskOf]) views.fsync]
  refine ⟨⟨uniform.taking, records, by simp [Persistence.Writer.write], uniform.awaited⟩,
    { fsync := views.fsync, task := rfl, waiters := views.waiters, queue, written := ?_, content := ?_,
      synced := ?_, unsynced := ?_ }⟩
  · simp [views.written]
  · simp [Persistence.Writer.write, views.content, Persistence.Writer.blob_append]
  · by_cases synced : Syncs w.fsync w.file now <;> simp [synced, views.synced]
  · by_cases synced : Syncs w.fsync w.file now <;>
      simp [Persistence.Writer.write, writeBytes_unsynced, synced, views.unsynced]

theorem resume_views (uniform : Uniform w) (views : Views base w b done late)
    (task : w.task = .written batch) :
    Uniform (w.resume batch) ∧ Views base (w.resume batch) b.resolve done late := by
  have wrote : b.task = .wrote (batch.map (·.seq)) := by rw [views.task, task, taskOf]
  have records := uniform.records
  rw [task] at records
  have inBatch := (List.forall_mem_append.mp records).1
  refine ⟨⟨uniform.taking, (List.forall_mem_append.mp records).2, by simp [Persistence.Writer.resume],
    fun n pending => uniform.awaited n (resolve_pending.mp pending).1⟩, ?_⟩
  simp only [resolve, wrote]
  refine { views with task := rfl, queue := ?_, waiters := fun n => ?_ }
  · simp [views.queue, task, collected, Persistence.Writer.resume]
  · refine Iff.trans ?_ resolve_pending.symm
    rw [List.mem_filter, views.waiters]
    refine and_congr_right fun pending => ?_
    -- Who waits for a future does so under `always`, where every record has one.
    have always := uniform.awaited n pending
    simp only [List.mem_map, decide_eq_true_eq, not_exists, not_and]
    constructor
    · exact fun others item member _ => others item member
    · exact fun others item member => others item member (by rw [(inBatch item member).2, always]; rfl)

/-- Where the writer takes no step, the server makes none of it either. -/
theorem serverSteps_off {event : WriterEvent μ} (task : b.task = taskOf w.task) (off : w.Off event) :
    run step b (serverSteps w event) = b := by
  cases event with
  | append => exact off.elim
  | collect => cases shape : w.task <;> simp_all [serverSteps, Persistence.Writer.Off]
  | write now => cases shape : w.task <;> simp_all [serverSteps, step, write, taskOf, Persistence.Writer.Off]
  | resume => cases shape : w.task <;> simp_all [serverSteps, step, resolve, taskOf, Persistence.Writer.Off]
  | dequeue | writeError | fsyncError | cancel | flushAndStop | putSentinel | finish => rfl

/-- What the server does keeps it with the writer. -/
theorem step_views (uniform : Uniform w) (views : Views base w b done late) (event : WriterEvent μ)
    (serving : Serving crc32 json w event) : ∃ done' late', Uniform (w.step crc32 json event) ∧
      Views base (w.step crc32 json event) (run step b (serverSteps w event)) done' late' := by
  have takes := Persistence.Writer.step_takes crc32 json w event
  generalize w.step crc32 json event = w' at takes ⊢
  cases takes with
  | append op metadata payload time => exact ⟨done, late, append_views uniform views serving⟩
  | dequeue task => exact ⟨done, late, dequeue_views uniform views task⟩
  | collect task => exact ⟨done, late, collect_views uniform views task⟩
  | write now task => exact ⟨_, _, write_views uniform views task⟩
  | resume task => exact ⟨done, late, resume_views uniform views task⟩
  | writeError | fsyncError | cancel | flushAndStop | putSentinel | finish => exact serving.elim
  | nothing off =>
    rw [serverSteps_off views.task off]
    exact ⟨done, late, uniform, views⟩

/-! ## Runs -/

/-- **The writer of the server.** While the broker runs, what the server has of
its writer is what `persistence/aof.py` makes of the same appends step by step:
a future is not set as long as the server has a waiter for it, and the records
that it has as fsynced are those of the file that an fsync has followed. -/
theorem views_throughout (crc32 : List UInt8 → UInt32) (json : JsonCodec μ) (fsync : Persistence.Fsync)
    (content : List UInt8) (seq : Nat) (events : List (WriterEvent μ))
    (serving : Allowed (Persistence.Writer.step crc32 json) (Serving crc32 json)
      (.started fsync ⟨content, [], 0⟩ seq) events) :
    let w := run (Persistence.Writer.step crc32 json) (.started fsync ⟨content, [], 0⟩ seq) events
    let b := run step { fsync := fsyncOf fsync }
      (observed (Persistence.Writer.step crc32 json) serverSteps (.started fsync ⟨content, [], 0⟩ seq) events)
    ∃ done late, Views content w b done late := by
  intro w b
  have together : ∃ done late, Uniform w ∧ Views content w b done late := by
    refine run_matched (R := fun w b => ∃ done late, Uniform w ∧ Views content w b done late) ?_ ?_ serving
    · rintro w b event ⟨done, late, uniform, views⟩ allowed
      exact step_views uniform views event allowed
    · refine ⟨[], [], ⟨rfl, ?_, ?_, ?_⟩, ⟨rfl, rfl, rfl, ?_, rfl, ?_, rfl, rfl⟩⟩ <;>
        simp [Persistence.Writer.started, taken, blob]
  obtain ⟨done, late, _, views⟩ := together
  exact ⟨done, late, views⟩

end AOFWriter

namespace Server

variable {s s' : Server}

/-- What another step of the writer makes of what steps have made of it. -/
theorem more_steps {a : AOFWriter} (before : ∃ steps, s.aof = run AOFWriter.step a steps) (last : AOFStep)
    (same : s'.aof = s.aof.step last) : ∃ steps, s'.aof = run AOFWriter.step a steps := by
  obtain ⟨steps, made⟩ := before
  refine ⟨steps ++ [last], ?_⟩
  rw [run_append, ← made, same]
  rfl

/-- The server does nothing else with its writer. -/
theorem step_aof (s : Server) (event : ServerEvent) :
    ∃ steps, (s.step event).aof = run AOFWriter.step s.aof steps := by
  have kept : Kept (fun _ _ => True) fun s' => ∃ steps, s'.aof = run AOFWriter.step s.aof steps := {
    frame := fun _ _ before _ _ _ aof _ _ => aof ▸ before
    answer := fun s' connectionId frame _ room before _ _ => by
      refine more_steps before (.append (s'.appended (s'.handleFrame connectionId frame).2)) ?_
      unfold answer
      dsimp only
      split <;> rfl
    drop := fun s' connectionId order before _ => by
      unfold drop
      split
      · exact more_steps before (.append (s'.appended (s'.handler.drop connectionId order).2)) rfl
      · exact before
    ticker := fun s' before _ => more_steps before (.append (s'.appended s'.handler.ticker)) rfl
    take := fun _ before => more_steps before .take rfl
    write := fun _ due before => more_steps before (.write due) rfl
    resolve := fun _ before => more_steps before .resolve rfl }
  exact kept.step ⟨[], rfl⟩ trivial

end Server
end OneOpenBroker.Broker

import OneOpenBroker.Library.Simulation
import OneOpenBroker.Persistence.Lifecycle
import OneOpenBroker.Persistence.WriterOrder

/-! The writer as the life of a broker has it. `Persistence.Lifecycle` writes all
that waits at once; the task of the writer collects it record by record, and
the file has it when the executor is done. The two agree if a batch counts as
written from the moment that the executor gets it: until then nothing is behind
it in the queue, and a crash before the write cuts it off. -/
namespace OneOpenBroker.Persistence.Writer
open Systems Records
open Lifecycle (State Runtime)

variable {ρ σ μ : Type*}

/-- The records in the queue. -/
def waiting (w : Writer μ) : List Item := w.queue.filter (!·.stops)

/-- What the task has taken off the queue and the executor does not have. -/
def collected : Task → List Item
  | .collecting batch => batch
  | .idle | .writing _ | .written _ | .stopped | .failed _ => []

/-- What the executor was given and the file does not have. -/
def handed : Task → List Item
  | .writing batch | .failed batch => batch
  | .idle | .collecting _ | .written _ | .stopped => []

/-- What the broker of `Persistence.Lifecycle` does when the writer takes a step. -/
def lifecycleEvents (w : Writer μ) : WriterEvent μ → List (Lifecycle.Event ρ μ)
  | .append op metadata payload time => [.append op metadata payload time]
  | .collect =>
    match w.task, w.queue with
    | .collecting _, [] => [.write]
    | .collecting _, item :: _ => if item.stops then [.write] else []
    | _, _ => []
  | .flushAndStop => if w.flush = .uncalled then [.close] else []
  | .dequeue | .write _ | .resume | .writeError | .fsyncError _ | .cancel _ | .putSentinel | .finish => []

/-- A broker that runs has the writer, and its file has what the executor has. -/
structure Batched (w : Writer μ) (s : State ρ σ μ) : Prop where
  running : ∃ p, s.process = some p ∧ p.writer.seq = w.seq ∧ p.writer.closed = w.closed ∧
    p.writer.queue = (collected w.task ++ w.waiting).map fun item => (item.seq, item.raw)
  aof : s.disk.aof = some (w.file.content ++ blob (handed w.task))

variable {crc32 : List UInt8 → UInt32} {json : JsonCodec μ} {rt : Runtime ρ σ μ} {w w' : Writer μ}
  {s : State ρ σ μ} {base : List UInt8} {done entries batch rest : List Item} {item : Item}

/-! ## The queue -/

/-- Nothing is behind the entry that ends the task. -/
theorem Accounts.sealed (accounts : Accounts crc32 json base w done entries) (stop : item.stops = true)
    (queue : w.queue = item :: rest) : rest = [] := by
  have queued := accounts.queued
  rw [queue] at queued
  cases entries with
  | nil => exact (tail_shape queued).2.2
  | cons first more =>
    obtain ⟨rfl, _⟩ := List.cons.inj queued
    have record : item.stops = false := accounts.goes_on (by simp)
    simp [record] at stop

/-! ## One step -/

/-- A step that leaves the queue, what is collected, and the file with what the
executor has. -/
theorem Batched.same (batched : Batched w s) (seq : w'.seq = w.seq) (closed : w'.closed = w.closed)
    (queue : collected w'.task ++ w'.waiting = collected w.task ++ w.waiting)
    (aof : w'.file.content ++ blob (handed w'.task) = w.file.content ++ blob (handed w.task)) :
    Batched w' s where
  running := by
    rw [seq, closed, queue]
    exact batched.running
  aof := by
    rw [aof]
    exact batched.aof

theorem Batched.append (batched : Batched w s) (op : Op) (metadata : μ) (payload : List UInt8)
    (time : UInt64) : Batched (w.append crc32 json op metadata payload time)
      (s.step crc32 json rt (.append op metadata payload time)) := by
  obtain ⟨⟨p, running, seq, closed, queue⟩, aof⟩ := batched
  cases taking : w.closed with
  | true =>
    simp only [State.step, running, State.append, Lifecycle.AOFWriter.append, Writer.append, closed,
      taking, if_true]
    exact ⟨⟨_, rfl, seq, closed, queue⟩, aof⟩
  | false =>
    simp only [State.step, running, State.append, Lifecycle.AOFWriter.append,
      Lifecycle.AOFWriter.record, Writer.append, closed, taking, seq, Bool.false_eq_true, if_false]
    cases encodeRecord crc32 json ⟨w.seq + 1, op, metadata, payload, time⟩ with
    | none => exact ⟨⟨_, rfl, rfl, rfl, queue⟩, aof⟩
    | some raw =>
      refine ⟨⟨_, rfl, rfl, rfl, ?_⟩, aof⟩
      simp [queue, waiting, Item.stops]

/-- All that waits is in the batch that goes to the executor. -/
theorem Batched.hand (batched : Batched w s) (task : w.task = .collecting batch)
    (all : w.waiting = []) (seq : w'.seq = w.seq) (closed : w'.closed = w.closed)
    (file : w'.file = w.file) (writing : w'.task = .writing batch) (none : w'.waiting = []) :
    Batched w' (s.step crc32 json rt .write) := by
  obtain ⟨⟨p, running, seq', closed', queue⟩, aof⟩ := batched
  rw [task, all] at queue
  rw [task] at aof
  simp only [State.step, running]
  refine ⟨⟨_, rfl, seq'.trans seq.symm, closed'.trans closed.symm, ?_⟩, ?_⟩
  · simp [Lifecycle.AOFWriter.written, writing, none, collected]
  · simp [State.write, aof, Lifecycle.AOFWriter.blob, queue, file, writing, handed, collected, blob,
      Function.comp_def]

theorem dequeue_batched (batched : Batched w s) (task : w.task = .idle) : Batched w.dequeue s := by
  unfold dequeue
  split
  · exact batched
  · rename_i item rest queue
    split
    · rename_i stop
      refine batched.same rfl rfl ?_ ?_
      · simp [waiting, queue, stop, task, collected]
      · simp [task, handed]
    · rename_i record
      refine batched.same rfl rfl ?_ ?_
      · simp [waiting, queue, record, task, collected]
      · simp [task, handed]

theorem collect_batched (accounts : Accounts crc32 json base w done entries) (batched : Batched w s)
    (task : w.task = .collecting batch) :
    Batched (w.collect batch) (run (State.step crc32 json rt) s (w.lifecycleEvents .collect)) := by
  cases queue : w.queue with
  | nil =>
    have all : w.waiting = [] := by simp [waiting, queue]
    simp only [collect, lifecycleEvents, task, queue, run_cons, run_nil]
    exact batched.hand task all rfl rfl rfl rfl rfl
  | cons item rest =>
    cases stop : item.stops with
    | true =>
      obtain rfl := accounts.sealed stop queue
      have all : w.waiting = [] := by simp [waiting, queue, stop]
      simp only [collect, lifecycleEvents, task, queue, stop, if_true, run_cons, run_nil]
      exact batched.hand task all rfl rfl rfl rfl (by simp [waiting, stop])
    | false =>
      simp only [collect, lifecycleEvents, task, queue, stop, Bool.false_eq_true, if_false, run_nil]
      refine batched.same rfl rfl ?_ ?_
      · simp [waiting, queue, stop, task, collected]
      · simp [task, handed]

theorem lifecycleEvents_off {event : WriterEvent μ} (off : w.Off event) :
    w.lifecycleEvents event = ([] : List (Lifecycle.Event ρ μ)) := by
  cases event with
  | append => exact off.elim
  | collect => cases task : w.task <;> simp_all [lifecycleEvents, Off]
  | flushAndStop => exact if_neg off
  | dequeue | write | resume | writeError | fsyncError | cancel | putSentinel | finish => rfl

/-- What the broker of `Persistence.Lifecycle` does keeps it with the writer. -/
theorem step_batched (accounts : Accounts crc32 json base w done entries) (batched : Batched w s)
    (event : WriterEvent μ) : Batched (w.step crc32 json event)
      (run (State.step crc32 json rt) s (w.lifecycleEvents event)) := by
  have takes := step_takes crc32 json w event
  generalize w.step crc32 json event = w' at takes ⊢
  cases takes with
  | append op metadata payload time => exact batched.append op metadata payload time
  | dequeue task => exact dequeue_batched batched task
  | collect task => exact collect_batched accounts batched task
  | write now task =>
    exact batched.same rfl rfl (by simp [write, task, collected, waiting])
      (by simp [write, task, handed, blob])
  | resume task =>
    exact batched.same rfl rfl (by simp [resume, task, collected, waiting]) (by simp [resume, task, handed])
  | writeError task =>
    exact batched.same rfl rfl (by simp [task, collected, waiting]) (by simp [task, handed])
  | fsyncError now task =>
    exact batched.same rfl rfl (by simp [task, collected, waiting])
      (by simp [task, handed, AofFile.add, blob])
  | cancel seq pending => exact batched.same rfl rfl rfl rfl
  | flushAndStop uncalled =>
    obtain ⟨⟨p, running, seq, _, queue⟩, aof⟩ := batched
    simp only [lifecycleEvents, uncalled, if_true, run_cons, run_nil, State.step, running]
    exact ⟨⟨_, rfl, seq, rfl, queue⟩, aof⟩
  | putSentinel closing => exact batched.same rfl rfl (by simp [waiting, sentinel_stops]) rfl
  | finish waiting stopped => exact batched.same rfl rfl rfl rfl
  | nothing off =>
    rw [lifecycleEvents_off off]
    exact batched

/-! ## Runs -/

/-- After `flush_and_stop` nothing is queued, collected, or at the executor. -/
theorem Accounts.nothing_left (accounts : Accounts crc32 json base w done entries)
    (returned : w.flush = .returned) : w.queue = [] ∧ w.task = .stopped := by
  have stopped := accounts.returned returned
  have queued := accounts.queued
  rw [(accounts.ended stopped).1] at queued
  exact ⟨by simpa [tail, stopped] using queued, stopped⟩

/-- **A batch counts as written when the executor gets it.** A broker that was
just started on the file, and does what it is shown by a run of its writer, has
the number of the writer, takes appends when the writer does, and has the same
records waiting. A crash within the file leaves of both the same; and when
`flush_and_stop` has returned, the shutdown leaves the file of the writer. -/
theorem batched_throughout (crc32 : List UInt8 → UInt32) (json : JsonCodec μ) (rt : Runtime ρ σ μ)
    (fsync : Fsync) (file : AofFile) (seq : Nat) (runtime : ρ) (snapshot : Option (Nat × σ))
    (since : List (AOFRecord μ)) (events : List (WriterEvent μ)) :
    let w := run (step crc32 json) (started fsync file seq) events
    let s : State ρ σ μ := run (State.step crc32 json rt)
      ⟨⟨some file.content, snapshot⟩, some ⟨runtime, ({} : Lifecycle.AOFWriter).attachExistingSeq seq⟩, since⟩
      (observed (step crc32 json) lifecycleEvents (started fsync file seq) events)
    Batched w s ∧
    (∀ k ≤ w.file.content.length, (s.crash k).disk.aof = some (w.file.content.take k)) ∧
    (w.flush = .returned → ∀ p, s.process = some p → ∀ last,
      (s.shutdown rt p last).disk.aof = some w.file.content) := by
  intro w s
  have together : (∃ done entries, Accounts crc32 json file.content w done entries) ∧ Batched w s := by
    refine run_matched (R := fun w s => (∃ done entries,
      Accounts crc32 json file.content w done entries) ∧ Batched w s) ?_ ?_
      (allowed_of_forall (A := fun _ => True) (by simp) _)
    · rintro w s event ⟨⟨done, entries, accounts⟩, batched⟩ _
      exact ⟨step_accounts accounts event, step_batched accounts batched event⟩
    · exact ⟨⟨[], [], started_accounts fsync file seq⟩, ⟨_, rfl, rfl, rfl, rfl⟩, by simp [started, handed, blob]⟩
  obtain ⟨⟨done, entries, accounts⟩, batched⟩ := together
  refine ⟨batched, fun k inside => ?_, fun returned p running last => ?_⟩
  · simp [State.crash, batched.aof, List.take_append_of_le_length inside]
  · obtain ⟨empty, stopped⟩ := accounts.nothing_left returned
    obtain ⟨⟨p', running', _, _, queue⟩, aof⟩ := batched
    obtain rfl := Option.some.inj (running.symm.trans running')
    have nothing : p.writer.queue = [] := by simp [queue, stopped, collected, waiting, empty]
    have written : (s.write p).disk.aof = some w.file.content := by
      simp [State.write, aof, stopped, handed, Lifecycle.AOFWriter.blob, nothing, blob]
    cases last <;> simpa [State.shutdown, State.writeSnapshot] using written

end OneOpenBroker.Persistence.Writer

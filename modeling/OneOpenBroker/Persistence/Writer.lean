import Mathlib.Algebra.Order.Ring.Rat
import OneOpenBroker.Library.Dict
import OneOpenBroker.Library.Runs
import OneOpenBroker.Persistence.Records

/-! The batched writer of `persistence/aof.py`, step by step. Appends come from
the broker at any time; the writer task takes records off its queue, hands a
batch to the executor and goes on when the batch is written. `flush_and_stop`
ends the task by an entry of its own, which is put back when it shows up behind
a batch. -/
namespace OneOpenBroker.Persistence
open Collections Systems Records

/-- `persistence.fsync`. -/
inductive Fsync where
  | always | everysec | none
  deriving DecidableEq

/-- The file, with the times of the writes that no fsync has followed. -/
structure AofFile where
  content : List UInt8
  unsynced : List ℚ := []
  lastFsync : ℚ := 0

namespace AofFile

/-- `flush` and `os.fsync`. -/
def sync (file : AofFile) (now : ℚ) : AofFile := { file with unsynced := [], lastFsync := now }

/-- A write that returns has written its whole blob. -/
def add (file : AofFile) (now : ℚ) (blob : List UInt8) : AofFile :=
  { file with content := file.content ++ blob, unsynced := file.unsynced ++ [now] }

/-- `_write_bytes`, at the time that the clock shows after the write. -/
def writeBytes (mode : Fsync) (file : AofFile) (now : ℚ) (blob : List UInt8) : AofFile :=
  let file := file.add now blob
  match mode with
  | .always => file.sync now
  | .everysec => if 1 ≤ now - file.lastFsync then file.sync now else file
  | .none => file

@[simp] theorem writeBytes_content {mode : Fsync} {file : AofFile} {now : ℚ} {blob : List UInt8} :
    (writeBytes mode file now blob).content = file.content ++ blob := by
  unfold writeBytes
  dsimp only
  split
  · rfl
  · split <;> rfl
  · rfl

end AofFile

/-- An entry of the queue. The flag says that a future comes with it. -/
structure Item where
  seq : Nat
  raw : List UInt8
  waits : Bool
  deriving DecidableEq

/-- The entry that ends the task. -/
def sentinel : Item := ⟨0, [], false⟩

def Item.stops (item : Item) : Bool := item.seq = 0 && item.raw.isEmpty

/-- A durability future. It is cancelled with the task that awaits it. -/
inductive Future where
  | pending | resolved | cancelled
  deriving DecidableEq

/-- Where the writer task is: at the queue, in the inner loop, in the executor
before and after the write, or at its end. A task that was ended by an error of
the file lets go of what it had not written. -/
inductive Task where
  | idle
  | collecting (batch : List Item)
  | writing (batch : List Item)
  | written (batch : List Item)
  | stopped
  | failed (lost : List Item)
  deriving DecidableEq

/-- Where the call of `flush_and_stop` is. -/
inductive Flush where
  | uncalled | closing | waiting | returned
  deriving DecidableEq

/-- The writer. What was appended is kept to compare the file with. -/
structure Writer (μ : Type*) where
  fsync : Fsync
  seq : Nat
  queue : List Item := []
  durableSeq : Nat
  futures : Dict Nat Future := ∅
  file : AofFile
  closed : Bool := false
  task : Task := .idle
  flush : Flush := .uncalled
  appended : List (AOFRecord μ) := []

/-- What happens next: an append, a step of the writer task, an error of the
file, the end of a task that awaits a future, or a step of `flush_and_stop`. -/
inductive WriterEvent (μ : Type*) where
  | append (op : Op) (metadata : μ) (payload : List UInt8) (time : UInt64)
  | dequeue
  | collect
  | write (now : ℚ)
  | resume
  | writeError
  | fsyncError (now : ℚ)
  | cancel (seq : Nat)
  | flushAndStop
  | putSentinel
  | finish

namespace Writer

variable {μ : Type*} (crc32 : List UInt8 → UInt32) (json : JsonCodec μ)

/-- A writer whose task was started, on a file with a number to go on from. -/
def started (fsync : Fsync) (file : AofFile) (seq : Nat) : Writer μ :=
  { fsync, seq, durableSeq := seq, file }

/-- A number is used up also where `encode_record` raises. -/
def append (w : Writer μ) (op : Op) (metadata : μ) (payload : List UInt8) (time : UInt64) :
    Writer μ :=
  if w.closed then w
  else
    let w := { w with seq := w.seq + 1 }
    let made : AOFRecord μ := { seq := w.seq, op, metadata, payload, timestamp := time }
    match encodeRecord crc32 json made with
    | none => w
    | some raw =>
      let waits := w.fsync = .always
      { w with
        futures := if waits then w.futures.set w.seq .pending else w.futures
        queue := w.queue ++ [⟨w.seq, raw, waits⟩]
        appended := w.appended ++ [made] }

/-- `queue.get` returns. -/
def dequeue (w : Writer μ) : Writer μ :=
  match w.queue with
  | [] => w
  | item :: rest =>
    if item.stops then { w with queue := rest, task := .stopped }
    else { w with queue := rest, task := .collecting [item] }

/-- A round of the inner loop; at its end the batch goes to the executor. -/
def collect (w : Writer μ) (batch : List Item) : Writer μ :=
  match w.queue with
  | [] => { w with task := .writing batch }
  | item :: rest =>
    if item.stops then { w with queue := rest ++ [item], task := .writing batch }
    else { w with queue := rest, task := .collecting (batch ++ [item]) }

def blob (batch : List Item) : List UInt8 := (batch.map (·.raw)).flatten

def write (w : Writer μ) (batch : List Item) (now : ℚ) : Writer μ :=
  { w with file := w.file.writeBytes w.fsync now (blob batch), task := .written batch }

/-- The futures of a batch that are not done get their result. -/
def resolve (futures : Dict Nat Future) (batch : List Item) : Dict Nat Future :=
  batch.foldl (fun futures item =>
    if item.waits ∧ futures.get? item.seq = some .pending then futures.set item.seq .resolved
    else futures) futures

/-- The executor is done. -/
def resume (w : Writer μ) (batch : List Item) : Writer μ :=
  { w with
    durableSeq := (batch.getLast?.map (·.seq)).getD w.durableSeq
    futures := resolve w.futures batch
    task := .idle }

def cancel (w : Writer μ) (seq : Nat) : Writer μ :=
  if w.futures.get? seq = some .pending then { w with futures := w.futures.set seq .cancelled } else w

def step (w : Writer μ) : WriterEvent μ → Writer μ
  | .append op metadata payload time => w.append crc32 json op metadata payload time
  | .dequeue =>
    match w.task with
    | .idle => w.dequeue
    | _ => w
  | .collect =>
    match w.task with
    | .collecting batch => w.collect batch
    | _ => w
  | .write now =>
    match w.task with
    | .writing batch => w.write batch now
    | _ => w
  | .resume =>
    match w.task with
    | .written batch => w.resume batch
    | _ => w
  | .writeError =>
    match w.task with
    | .writing batch => { w with task := .failed batch }
    | _ => w
  | .fsyncError now =>
    match w.task with
    | .writing batch => { w with file := w.file.add now (blob batch), task := .failed [] }
    | _ => w
  | .cancel seq => w.cancel seq
  | .flushAndStop => if w.flush = .uncalled then { w with closed := true, flush := .closing } else w
  | .putSentinel =>
    if w.flush = .closing then { w with queue := w.queue ++ [sentinel], flush := .waiting } else w
  | .finish =>
    match w.flush, w.task with
    | .waiting, .stopped => { w with file := { w.file with unsynced := [] }, flush := .returned }
    | _, _ => w

/-! ## What a step does -/

variable {crc32 json} {w : Writer μ} {base : List UInt8} {done entries batch : List Item}

/-- The event is not one for where the task, the future or the flush is. -/
def Off (w : Writer μ) : WriterEvent μ → Prop
  | .append .. => False
  | .dequeue => w.task ≠ .idle
  | .collect => ∀ batch, w.task ≠ .collecting batch
  | .write _ | .writeError | .fsyncError _ => ∀ batch, w.task ≠ .writing batch
  | .resume => ∀ batch, w.task ≠ .written batch
  | .cancel seq => w.futures.get? seq ≠ some .pending
  | .flushAndStop => w.flush ≠ .uncalled
  | .putSentinel => w.flush ≠ .closing
  | .finish => w.flush = .waiting → w.task ≠ .stopped

/-- What an event makes of the writer, and where the writer is for that. -/
inductive Takes (crc32 : List UInt8 → UInt32) (json : JsonCodec μ) (w : Writer μ) :
    WriterEvent μ → Writer μ → Prop where
  | append (op : Op) (metadata : μ) (payload : List UInt8) (time : UInt64) :
    Takes crc32 json w (.append op metadata payload time) (w.append crc32 json op metadata payload time)
  | dequeue (task : w.task = .idle) : Takes crc32 json w .dequeue w.dequeue
  | collect {batch : List Item} (task : w.task = .collecting batch) :
    Takes crc32 json w .collect (w.collect batch)
  | write {batch : List Item} (now : ℚ) (task : w.task = .writing batch) :
    Takes crc32 json w (.write now) (w.write batch now)
  | resume {batch : List Item} (task : w.task = .written batch) :
    Takes crc32 json w .resume (w.resume batch)
  | writeError {batch : List Item} (task : w.task = .writing batch) :
    Takes crc32 json w .writeError { w with task := .failed batch }
  | fsyncError {batch : List Item} (now : ℚ) (task : w.task = .writing batch) :
    Takes crc32 json w (.fsyncError now) { w with file := w.file.add now (blob batch), task := .failed [] }
  | cancel (seq : Nat) (pending : w.futures.get? seq = some .pending) :
    Takes crc32 json w (.cancel seq) { w with futures := w.futures.set seq .cancelled }
  | flushAndStop (uncalled : w.flush = .uncalled) :
    Takes crc32 json w .flushAndStop { w with closed := true, flush := .closing }
  | putSentinel (closing : w.flush = .closing) :
    Takes crc32 json w .putSentinel { w with queue := w.queue ++ [sentinel], flush := .waiting }
  | finish (waiting : w.flush = .waiting) (stopped : w.task = .stopped) :
    Takes crc32 json w .finish { w with file := { w.file with unsynced := [] }, flush := .returned }
  | nothing {event : WriterEvent μ} (off : w.Off event) : Takes crc32 json w event w

theorem step_takes (crc32 : List UInt8 → UInt32) (json : JsonCodec μ) (w : Writer μ)
    (event : WriterEvent μ) : Takes crc32 json w event (w.step crc32 json event) := by
  cases event with
  | append op metadata payload time => exact .append op metadata payload time
  | dequeue =>
    simp only [step]
    split
    · exact .dequeue ‹_›
    · exact .nothing ‹_›
  | collect =>
    simp only [step]
    split
    · exact .collect ‹_›
    · exact .nothing ‹_›
  | write now =>
    simp only [step]
    split
    · exact .write now ‹_›
    · exact .nothing ‹_›
  | resume =>
    simp only [step]
    split
    · exact .resume ‹_›
    · exact .nothing ‹_›
  | writeError =>
    simp only [step]
    split
    · exact .writeError ‹_›
    · exact .nothing ‹_›
  | fsyncError now =>
    simp only [step]
    split
    · exact .fsyncError now ‹_›
    · exact .nothing ‹_›
  | cancel seq =>
    simp only [step, Writer.cancel]
    split
    · exact .cancel seq ‹_›
    · exact .nothing ‹_›
  | flushAndStop =>
    simp only [step]
    split
    · exact .flushAndStop ‹_›
    · exact .nothing ‹_›
  | putSentinel =>
    simp only [step]
    split
    · exact .putSentinel ‹_›
    · exact .nothing ‹_›
  | finish =>
    simp only [step]
    split
    · exact .finish ‹_› ‹_›
    · exact .nothing ‹_›

/-! ## What is where -/

/-- The entry that an append of the record puts into the queue. -/
def Makes (crc32 : List UInt8 → UInt32) (json : JsonCodec μ) (rec : AOFRecord μ) (item : Item) : Prop :=
  encodeRecord crc32 json rec = some item.raw ∧ item.seq = rec.seq

/-- What was taken off the queue and is not in the file. -/
def inHand : Task → List Item
  | .collecting batch | .writing batch | .failed batch => batch
  | .idle | .written _ | .stopped => []

/-- What stands in the queue behind the records. -/
def tail (w : Writer μ) : List Item :=
  if (w.flush = .waiting ∨ w.flush = .returned) ∧ w.task ≠ .stopped then [sentinel] else []

/-- What was appended is in the file, in the hands of the task, or in the queue,
in this order. -/
structure Accounts (crc32 : List UInt8 → UInt32) (json : JsonCodec μ) (base : List UInt8)
    (w : Writer μ) (done entries : List Item) : Prop where
  made : List.Forall₂ (Makes crc32 json) w.appended (done ++ inHand w.task ++ entries)
  queued : w.queue = entries ++ w.tail
  content : w.file.content = base ++ blob done
  resolved : ∀ s, w.futures.get? s = some .resolved → s ∈ done.map (·.seq)
  filed : ∀ batch, w.task = .written batch → ∀ item ∈ batch, item ∈ done
  rising : (w.appended.map (·.seq)).Pairwise (· < ·)
  bound : ∀ rec ∈ w.appended, 0 < rec.seq ∧ rec.seq ≤ w.seq
  closed : w.closed = true ↔ w.flush ≠ .uncalled
  ended : w.task = .stopped → entries = [] ∧ (w.flush = .waiting ∨ w.flush = .returned)
  returned : w.flush = .returned → w.task = .stopped

end Writer
end OneOpenBroker.Persistence

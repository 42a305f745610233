import OneOpenBroker.Library.Runs
import OneOpenBroker.Persistence.Records

/-! The journal over the life of a broker: the writer of `persistence/aof.py`,
`recover_into`, and of `broker/lifecycle.py` what starts, stops and snapshots
the broker. The two files survive a crash, the writer and the runtime do not.
What a runtime is does not matter here. A batch is written at once;
`Persistence.Batches` has that the steps of the writer come to the same. -/
namespace OneOpenBroker.Persistence.Lifecycle
open Records

/-- What recovery and snapshots use of a `BrokerRuntime`. -/
structure Runtime (ρ σ μ : Type*) where
  fresh : ρ
  restoreSnapshot : ρ → σ → ρ
  applyRecord : ρ → AOFRecord μ → ρ
  tick : ρ → ρ
  snapshot : ρ → σ

/-- Records wait in the queue with their sequence numbers until a batch of
them is written. -/
structure AOFWriter where
  seq : Nat := 0
  queue : List (Nat × List UInt8) := []
  durableSeq : Nat := 0
  closed : Bool := false

/-- The files `appendonly.aof` and `snapshot.dat`. -/
structure Disk (σ : Type*) where
  aof : Option (List UInt8) := none
  snapshot : Option (Nat × σ) := none

variable {ρ σ μ : Type*} (crc32 : List UInt8 → UInt32) (json : JsonCodec μ)
  (rt : Runtime ρ σ μ)

namespace AOFWriter

def attachExistingSeq (w : AOFWriter) (seq : Nat) : AOFWriter := { w with seq, durableSeq := seq }

/-- The record that an append makes. -/
def record (w : AOFWriter) (op : Op) (metadata : μ) (payload : List UInt8) (time : UInt64) :
    AOFRecord μ :=
  { seq := w.seq + 1, op, metadata, payload, timestamp := time }

/-- A number is used up also where `encode_record` raises. -/
def append (w : AOFWriter) (op : Op) (metadata : μ) (payload : List UInt8) (time : UInt64) :
    AOFWriter :=
  if w.closed then w
  else
    let made := w.record op metadata payload time
    match encodeRecord crc32 json made with
    | none => { w with seq := made.seq }
    | some raw => { w with seq := made.seq, queue := w.queue ++ [(made.seq, raw)] }

/-- `b"".join` over a batch. -/
def blob (w : AOFWriter) : List UInt8 := (w.queue.map (·.2)).flatten

/-- The writer after a round of `_run` wrote what waited. -/
def written (w : AOFWriter) : AOFWriter :=
  { w with queue := [], durableSeq := (w.queue.getLast?.map (·.1)).getD w.durableSeq }

end AOFWriter

/-- The loop of `recover_into`: how many records were applied, the last of
their numbers, and the runtime. -/
def applyRecords (snapSeq : Nat) (records : List (AOFRecord μ)) (r : ρ) : Nat × Nat × ρ :=
  records.foldl (fun (applied, lastSeq, r) rec =>
    if rec.seq ≤ snapSeq then (applied, lastSeq, r)
    else (applied + 1, rec.seq, rt.applyRecord r rec)) (0, snapSeq, r)

/-- The number to go on with, the runtime, and the files with the end of the
AOF cut off that is no record. -/
def recoverInto (r : ρ) (disk : Disk σ) : Nat × ρ × Disk σ :=
  let (snapSeq, r) := match disk.snapshot with
    | none => (0, r)
    | some (seq, state) => (seq, rt.restoreSnapshot r state)
  let (records, keep) := readAof crc32 json disk.aof
  let (_, lastSeq, r) := applyRecords rt snapSeq records r
  (lastSeq, rt.tick r, { disk with aof := disk.aof.map (·.take keep) })

/-- A broker that runs. -/
structure Process (ρ : Type*) where
  runtime : ρ
  writer : AOFWriter

/-- The files, the broker where one runs on them, and the records appended
since the snapshot was written. -/
structure State (ρ σ μ : Type*) where
  disk : Disk σ := {}
  process : Option (Process ρ) := none
  since : List (AOFRecord μ) := []

/-- What happens to a broker and its files. A command changes the runtime in
whatever way; a crash cuts the AOF after `k` bytes. -/
inductive Event (ρ μ : Type*) where
  | start
  | command (runtime : ρ)
  | append (op : Op) (metadata : μ) (payload : List UInt8) (time : UInt64)
  | write
  | snapshot
  | close
  | shutdown (snapshotOnShutdown : Bool)
  | crash (k : Nat)

namespace State

/-- `Broker.start` on the files: the writer opens the AOF to append to it. -/
def start (s : State ρ σ μ) : State ρ σ μ :=
  let (lastSeq, runtime, disk) := recoverInto crc32 json rt rt.fresh s.disk
  { s with disk := { disk with aof := some (disk.aof.getD []) }
           process := some ⟨runtime, ({} : AOFWriter).attachExistingSeq lastSeq⟩ }

/-- An append, where the runtime journals. -/
def append (s : State ρ σ μ) (p : Process ρ) (op : Op) (metadata : μ) (payload : List UInt8)
    (time : UInt64) : State ρ σ μ :=
  { s with process := some { p with writer := p.writer.append crc32 json op metadata payload time }
           since := s.since ++ if p.writer.closed then [] else [p.writer.record op metadata payload time] }

/-- `_write_bytes` of a batch. -/
def write (s : State ρ σ μ) (p : Process ρ) : State ρ σ μ :=
  { s with disk := { s.disk with aof := some (s.disk.aof.getD [] ++ p.writer.blob) }
           process := some { p with writer := p.writer.written } }

/-- `_write_snapshot`, which replaces the file at once. -/
def writeSnapshot (s : State ρ σ μ) (p : Process ρ) : State ρ σ μ :=
  { s with disk := { s.disk with snapshot := some (p.writer.seq, rt.snapshot p.runtime) }
           since := [] }

/-- `flush_and_stop` takes no more appends from then on. -/
def close (s : State ρ σ μ) (p : Process ρ) : State ρ σ μ :=
  { s with process := some { p with writer := { p.writer with closed := true } } }

/-- The end of `Broker.shutdown`: what waits is written, and a snapshot if the
configuration has one. -/
def shutdown (s : State ρ σ μ) (p : Process ρ) (snapshotOnShutdown : Bool) : State ρ σ μ :=
  let s := s.write p
  let s := if snapshotOnShutdown then s.writeSnapshot rt p else s
  { s with process := none }

def crash (s : State ρ σ μ) (k : Nat) : State ρ σ μ :=
  { s with disk := { s.disk with aof := s.disk.aof.map (·.take k) }, process := none }

/-- A broker that runs is not started again, and only a running one does
anything. -/
def step (s : State ρ σ μ) (event : Event ρ μ) : State ρ σ μ :=
  match event, s.process with
  | .crash k, _ => s.crash k
  | .start, none => s.start crc32 json rt
  | .start, some _ => s
  | _, none => s
  | .command runtime, some p => { s with process := some { p with runtime } }
  | .append op metadata payload time, some p => s.append crc32 json p op metadata payload time
  | .write, some p => s.write p
  | .snapshot, some p => s.writeSnapshot rt p
  | .close, some p => s.close p
  | .shutdown snapshotOnShutdown, some p => s.shutdown rt p snapshotOnShutdown

end State
end OneOpenBroker.Persistence.Lifecycle

import OneOpenBroker.Broker.HandlerRuns

/-! The tasks of the server, `broker/server.py`, with the writer task of
`persistence/aof.py`. A step is what one task does between two awaits: one
read loop runs at a time, until it awaits the next bytes or the durability of
the journal. Whether an outbound queue has room, which is where the write
loops come in, is left open. Shutting down is left out. The writer knows records
by their numbers; `Broker.JournalWriter` derives it from the one that has bytes. -/
namespace OneOpenBroker.Broker
open Collections OneOpenBroker.Core

/-! ## The journal writer -/

inductive Fsync where
  | always | everysec | none
  deriving DecidableEq

/-- What `_run` is doing: it waits for records, a thread writes a batch, or the
thread is done with it. -/
inductive WriterTask where
  | idle
  | writing (batch : List Nat)
  | wrote (batch : List Nat)

/-- `AOFWriter`, with records given by their sequence numbers: those in the
queue, the futures that are not set, and what is in the file and fsynced. -/
structure AOFWriter where
  fsync : Fsync
  queue : List Nat := []
  waiters : List Nat := []
  task : WriterTask := .idle
  written : List Nat := []
  synced : List Nat := []

namespace AOFWriter

def append (w : AOFWriter) (seqs : List Nat) : AOFWriter :=
  { w with
    queue := w.queue ++ seqs
    waiters := if w.fsync = .always then w.waiters ++ seqs else w.waiters }

/-- The writer takes everything off the queue. -/
def take (w : AOFWriter) : AOFWriter :=
  match w.task with
  | .idle => if w.queue = [] then w else { w with task := .writing w.queue, queue := [] }
  | _ => w

/-- `_write_bytes` in its thread. The flag says that a second has passed since
the last fsync. -/
def write (w : AOFWriter) (due : Bool) : AOFWriter :=
  match w.task with
  | .writing batch =>
    let written := w.written ++ batch
    let sync := w.fsync = .always ∨ w.fsync = .everysec ∧ due
    { w with task := .wrote batch, written, synced := if sync then written else w.synced }
  | _ => w

/-- The futures of the batch are set. -/
def resolve (w : AOFWriter) : AOFWriter :=
  match w.task with
  | .wrote batch => { w with task := .idle, waiters := w.waiters.filter (· ∉ batch) }
  | _ => w

end AOFWriter

/-! ## The tasks of the connections -/

/-- A command, or one whose handling changes nothing. The loop skips frames of
other types. -/
inductive Frame where
  | command (command : Command)
  | inert

/-- Where a read loop awaits: the next bytes, the durability of a record with
frames left to handle, or the queueing of a last frame. -/
inductive ReadLoop where
  | reading
  | syncing (seq : Nat) (rest : List Frame)
  | leaving

/-- A response that was placed in an outbound queue: whether it reports
success, the records that its command appended, and whether these were written
and fsynced at that time. -/
structure Placement where
  connectionId : String
  success : Bool
  records : List Nat
  durable : Bool

/-- The server. `running` is the read loop that is not suspended, with the
frames it has left. The last three fields only record what happened: the ids
that were used, the connections that `_drop` removed, and the responses. -/
structure Server where
  handler : Handler
  aof : AOFWriter
  connections : List String := []
  closed : List String := []
  loops : Dict String ReadLoop := ∅
  running : Option (String × List Frame) := none
  slow : List String := []
  known : List String := []
  dropped : List String := []
  placed : List Placement := []

inductive ServerEvent where
  | accept (connectionId : String)
  | receive (connectionId : String) (frames : List Frame)
  | serve (room : Bool)
  | resume (connectionId : String)
  | leave (connectionId : String) (order : List String)
  | dropSlow (connectionId : String) (order : List String)
  | ticker
  | take
  | write (due : Bool)
  | resolve

namespace Server

def seq (s : Server) : Nat := s.handler.queues.journal.seq

/-- The sequence numbers that are new in a later state of the handler. -/
def appended (s : Server) (h : Handler) : List Nat :=
  List.range' (s.seq + 1) (h.queues.journal.seq - s.seq)

def withHandler (s : Server) (h : Handler) : Server :=
  { s with handler := h, aof := s.aof.append (s.appended h) }

/-- `_on_connect`. The id is a new UUID. -/
def accept (s : Server) (connectionId : String) : Server :=
  { s with
    handler := s.handler.connect connectionId
    connections := s.connections ++ [connectionId]
    loops := s.loops.set connectionId .reading
    known := connectionId :: s.known }

/-- `_drop`. An error of the cleanup keeps it from closing the connection. -/
def drop (s : Server) (connectionId : String) (order : List String) : Server :=
  if connectionId ∈ s.connections then
    let (done, h) := s.handler.drop connectionId order
    let s := s.withHandler h
    { s with
      connections := s.connections.filter (· ≠ connectionId)
      closed := if done then connectionId :: s.closed else s.closed
      dropped := connectionId :: s.dropped }
  else { s with closed := connectionId :: s.closed }

/-- A read loop goes on with the frames that are left, or with its head, which
is left when the connection is closed. -/
def proceed (s : Server) (connectionId : String) (rest : List Frame) : Server :=
  if rest = [] then
    let state : ReadLoop := if connectionId ∈ s.closed then .leaving else .reading
    { s with running := none, loops := s.loops.set connectionId state }
  else { s with running := some (connectionId, rest) }

/-- The end of the body of the loop: slow subscribers are disconnected, each in
a task of its own. -/
def disconnectSlow (s : Server) : Server :=
  { s with
    handler := { s.handler with lastSlow := [] }
    slow := s.slow ++ s.handler.lastSlow.filter (· ∈ s.connections) }

/-- After a response was placed, the loop awaits the last record of the
journal, unless its future is set or there is none. -/
def awaitDurable (s : Server) (connectionId : String) (rest : List Frame) : Server :=
  if s.seq ∈ s.aof.waiters then
    { s with running := none, loops := s.loops.set connectionId (.syncing s.seq rest) }
  else s.disconnectSlow.proceed connectionId rest

def isOk : Reply → Bool
  | .ok _ => true
  | .err .. => false

def handleFrame (s : Server) (connectionId : String) : Frame → Bool × Handler
  | .command command =>
    let (reply, h) := s.handler.handle connectionId command
    (isOk reply, h)
  | .inert => (true, s.handler)

/-- Handle a frame and try to place the response. -/
def answer (s : Server) (connectionId : String) (frame : Frame) (room : Bool) : Bool × Server :=
  let (success, h) := s.handleFrame connectionId frame
  let records := s.appended h
  let s := s.withHandler h
  if room ∧ connectionId ∉ s.closed then
    let durable := records.all (· ∈ s.aof.synced)
    (true, { s with placed := ⟨connectionId, success, records, durable⟩ :: s.placed })
  else (false, s)

def serve (s : Server) (connectionId : String) (frame : Frame) (rest : List Frame) (room : Bool) :
    Server :=
  match s.answer connectionId frame room with
  | (true, s) => s.awaitDurable connectionId rest
  | (false, s) => { s with running := none, loops := s.loops.set connectionId .leaving }

def step (s : Server) : ServerEvent → Server
  | .accept connectionId =>
    if s.running.isNone ∧ connectionId ∉ s.known then s.accept connectionId else s
  | .receive connectionId frames =>
    match s.running, s.loops.get? connectionId with
    | none, some .reading => s.proceed connectionId frames
    | _, _ => s
  | .serve room =>
    match s.running with
    | some (connectionId, frame :: rest) => s.serve connectionId frame rest room
    | _ => s
  | .resume connectionId =>
    match s.running, s.loops.get? connectionId with
    | none, some (.syncing seq rest) =>
      if seq ∈ s.aof.waiters then s else s.disconnectSlow.proceed connectionId rest
    | _, _ => s
  | .leave connectionId order =>
    match s.running, s.loops.get? connectionId with
    | none, some .reading | none, some .leaving =>
      { s.drop connectionId order with loops := s.loops.erase connectionId }
    | some (running, _), some _ =>
      if running = connectionId then
        { s.drop connectionId order with loops := s.loops.erase connectionId, running := none }
      else s
    | _, _ => s
  | .dropSlow connectionId order =>
    if s.running.isNone ∧ connectionId ∈ s.slow then
      { s.drop connectionId order with slow := s.slow.erase connectionId }
    else s
  | .ticker => if s.running.isNone then s.withHandler s.handler.ticker else s
  | .take => if s.running.isNone then { s with aof := s.aof.take } else s
  | .write due => { s with aof := s.aof.write due }
  | .resolve => if s.running.isNone then { s with aof := s.aof.resolve } else s

/-- A server that was just started. -/
def started (config : EngineConfig) (clock : Nat → ℚ) (sends : Nat → Bool) (fsync : Fsync) :
    Server where
  handler := .created config clock sends
  aof := { fsync }

/-- The states of runs whose events meet a condition. -/
inductive Reachable (allowed : Server → ServerEvent → Prop) : Server → Prop where
  | start (config : EngineConfig) (clock : Nat → ℚ) (sends : Nat → Bool) (fsync : Fsync) :
    Reachable allowed (started config clock sends fsync)
  | step {s : Server} (reached : Reachable allowed s) (event : ServerEvent)
      (ok : allowed s event) : Reachable allowed (s.step event)

end Server
end OneOpenBroker.Broker

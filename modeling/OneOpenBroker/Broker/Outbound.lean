import Mathlib.Data.List.Basic
import OneOpenBroker.Library.Runs

/-! The outbound side of a connection, `ClientConnection` of `broker/server.py`:
a queue of limited length, the tasks that put frames on it, and the write loop.
Closing puts a `None` behind what waits, and takes the frame off the front
where the queue is full, so a close may lose one frame and loses no other. -/
namespace OneOpenBroker.Broker
open Systems

/-- What `_write_loop` is doing: it awaits the queue or `drain`, it found the
`None`, or it was cancelled or the connection failed. -/
inductive WriteLoop where
  | waiting | draining | ended | failed
  deriving DecidableEq

/-- `ClientConnection`, with the `send` calls that await room in the queue. The
last three fields only record what happened: the frames that were queued, the
frame that `close` took off the queue, and those that were written. -/
structure ClientConnection (φ : Type*) where
  limit : Nat
  outbound : List (Option φ) := []
  closed : Bool := false
  sending : List φ := []
  writeLoop : WriteLoop := .waiting
  queued : List φ := []
  overwritten : Option φ := none
  written : List φ := []

/-- What happens next on a connection. A `send` that waits goes on in any order
once there is room. -/
inductive ConnectionStep (φ : Type*) where
  | trySend (data : φ)
  | send (data : φ)
  | resume (i : Nat)
  | close
  | write
  | drained
  | fail

variable {φ : Type*}

namespace ClientConnection

/-- `Queue.full`. A limit of zero is none. -/
def full (c : ClientConnection φ) : Bool := 0 < c.limit ∧ c.limit ≤ c.outbound.length

def put (c : ClientConnection φ) (data : φ) : ClientConnection φ :=
  { c with outbound := c.outbound ++ [some data], queued := c.queued ++ [data] }

def trySend (c : ClientConnection φ) (data : φ) : Bool × ClientConnection φ :=
  if c.closed ∨ c.full then (false, c) else (true, c.put data)

/-- `send` up to where it awaits. -/
def send (c : ClientConnection φ) (data : φ) : ClientConnection φ :=
  if c.closed then c
  else if c.full then { c with sending := c.sending ++ [data] }
  else c.put data

/-- `Queue.put` goes on and waits again where the room is gone. -/
def resume (c : ClientConnection φ) (i : Nat) : ClientConnection φ :=
  match c.sending[i]? with
  | none => c
  | some data => if c.full then c else { c.put data with sending := c.sending.eraseIdx i }

/-- `close` up to where it awaits the write loop. -/
def close (c : ClientConnection φ) : ClientConnection φ :=
  if c.closed then c
  else if c.full then
    { c with
      closed := true
      overwritten := c.outbound.head?.join
      outbound := c.outbound.tail ++ [none] }
  else { c with closed := true, outbound := c.outbound ++ [none] }

/-- A round of `_write_loop` up to where it awaits `drain`. -/
def write (c : ClientConnection φ) : ClientConnection φ :=
  match c.writeLoop, c.outbound with
  | .waiting, none :: rest => { c with outbound := rest, writeLoop := .ended }
  | .waiting, some data :: rest =>
    { c with outbound := rest, writeLoop := .draining, written := c.written ++ [data] }
  | _, _ => c

def drained (c : ClientConnection φ) : ClientConnection φ :=
  if c.writeLoop = .draining then { c with writeLoop := .waiting } else c

/-- A `ConnectionError`, or the task is cancelled where it awaits. -/
def fail (c : ClientConnection φ) : ClientConnection φ :=
  if c.writeLoop = .ended then c else { c with writeLoop := .failed }

def step (c : ClientConnection φ) : ConnectionStep φ → ClientConnection φ
  | .trySend data => (c.trySend data).2
  | .send data => c.send data
  | .resume i => c.resume i
  | .close => c.close
  | .write => c.write
  | .drained => c.drained
  | .fail => c.fail

/-! ## What a connection has done with its frames -/

/-- The second list is the first without the frame that was lost, if one was. -/
def Without (lost : Option φ) (all rest : List φ) : Prop :=
  match lost with
  | none => all = rest
  | some data => ∃ before after, all = before ++ data :: after ∧ rest = before ++ after

/-- The frames that wait ahead of the `None`, and those that are behind it,
which are frames that `send` was asked to put there. -/
structure Stands (asked : φ → Prop) (c : ClientConnection φ) (ahead behind : List φ) : Prop where
  started : c.closed = false → behind = [] ∧ c.overwritten = none ∧
    c.outbound = ahead.map some ∧ c.writeLoop ≠ .ended
  ended : c.closed = true → c.outbound = (if c.writeLoop = .ended then [] else ahead.map some ++ [none]) ++
    behind.map some
  finished : c.writeLoop = .ended → ahead = []
  queued : ∃ early, c.queued = early ++ behind ∧ Without c.overwritten early (c.written ++ ahead)
  limited : 0 < c.limit → c.outbound.length ≤ c.limit
  sends : ∀ data ∈ behind ++ c.sending, asked data

variable {asked : φ → Prop} {c : ClientConnection φ} {ahead behind : List φ} {data : φ}

theorem room_left (room : c.full = false) (limited : 0 < c.limit) : c.outbound.length + 1 ≤ c.limit := by
  simp only [full, decide_eq_false_iff_not, not_and] at room
  have short := room limited
  omega

/-- A frame is queued ahead of where the `None` will be, or behind it. -/
theorem Stands.put (stands : Stands asked c ahead behind) (room : c.full = false)
    (late : c.closed = true → asked data) :
    ∃ ahead behind, Stands asked (c.put data) ahead behind := by
  obtain ⟨early, queued, without⟩ := stands.queued
  cases closed : c.closed with
  | false =>
    obtain ⟨rfl, kept, waits, going⟩ := stands.started closed
    rw [List.append_nil] at queued
    rw [kept, Without] at without
    refine ⟨ahead ++ [data], [], fun _ => ⟨rfl, kept, ?_, going⟩, fun shut => ?_,
      fun finished => absurd finished going, ⟨early ++ [data], ?_, ?_⟩, fun limited => ?_, stands.sends⟩
    · rw [ClientConnection.put, waits, List.map_append, List.map_singleton]
    · rw [ClientConnection.put, closed] at shut
      cases shut
    · rw [ClientConnection.put, queued, List.append_nil]
    · rw [ClientConnection.put, kept, Without, without, List.append_assoc]
    · simpa [ClientConnection.put] using room_left room limited
  | true =>
    refine ⟨ahead, behind ++ [data], fun going => ?_, fun _ => ?_, stands.finished,
      ⟨early, ?_, without⟩, fun limited => ?_, fun other member => ?_⟩
    · rw [ClientConnection.put, closed] at going
      cases going
    · rw [ClientConnection.put, stands.ended closed, List.map_append, List.append_assoc]
      rfl
    · rw [ClientConnection.put, queued, List.append_assoc]
    · simpa [ClientConnection.put] using room_left room limited
    · simp only [ClientConnection.put, List.append_assoc, List.singleton_append, List.mem_append,
        List.mem_cons] at member
      rcases member with old | rfl | waits
      · exact stands.sends other (List.mem_append_left _ old)
      · exact late closed
      · exact stands.sends other (List.mem_append_right _ waits)

/-- What a step does not touch. -/
theorem Stands.same {c' : ClientConnection φ} (stands : Stands asked c ahead behind)
    (closed : c'.closed = c.closed) (outbound : c'.outbound = c.outbound)
    (writeLoop : c'.writeLoop = .ended ↔ c.writeLoop = .ended) (queued : c'.queued = c.queued)
    (overwritten : c'.overwritten = c.overwritten) (written : c'.written = c.written)
    (limit : c'.limit = c.limit) (sends : ∀ data ∈ c'.sending, asked data) :
    Stands asked c' ahead behind := by
  obtain ⟨started, ended, finished, account, limited, before⟩ := stands
  refine ⟨?_, ?_, fun done => finished (writeLoop.mp done), ?_, ?_, fun data member => ?_⟩
  · rwa [closed, overwritten, outbound, ne_eq, writeLoop]
  · simpa only [closed, outbound, writeLoop] using ended
  · rwa [queued, overwritten, written]
  · rwa [limit, outbound]
  · rcases List.mem_append.mp member with old | waits
    · exact before data (List.mem_append_left _ old)
    · exact sends data waits

theorem Stands.close (stands : Stands asked c ahead behind) :
    ∃ ahead behind, Stands asked c.close ahead behind := by
  unfold ClientConnection.close
  by_cases closed : c.closed = true
  · rw [if_pos closed]
    exact ⟨ahead, behind, stands⟩
  rw [if_neg closed]
  obtain ⟨rfl, kept, waits, going⟩ := stands.started (eq_false_of_ne_true closed)
  obtain ⟨early, queued, without⟩ := stands.queued
  by_cases full : c.full = true
  · obtain ⟨limited, stuffed⟩ : 0 < c.limit ∧ c.limit ≤ c.outbound.length := by
      simpa [ClientConnection.full] using full
    rw [if_pos full]
    rw [kept] at without
    cases ahead with
    | nil =>
      rw [waits, List.map_nil, List.length_nil] at stuffed
      omega
    | cons first rest =>
      refine ⟨rest, [], fun open' => (nomatch open'), fun _ => ?_, fun finished => absurd finished going,
        ⟨early, queued, ?_⟩, fun limited => ?_, stands.sends⟩
      · simp [going, waits]
      · simp only [waits, List.map_cons, List.head?_cons, Option.join_some]
        exact ⟨c.written, rest, without, rfl⟩
      · have bound := stands.limited limited
        rw [waits] at bound ⊢
        simpa using bound
  · rw [if_neg full]
    refine ⟨ahead, [], fun open' => (nomatch open'), fun _ => ?_, fun finished => absurd finished going,
      ⟨early, queued, without⟩, fun limited => ?_, stands.sends⟩
    · simp [going, waits]
    · simpa using room_left (eq_false_of_ne_true full) limited

theorem Stands.write (stands : Stands asked c ahead behind) :
    ∃ ahead behind, Stands asked c.write ahead behind := by
  obtain ⟨early, queued, without⟩ := stands.queued
  unfold ClientConnection.write
  split
  · rename_i rest waits front
    -- The sentinel is at the front, so the connection is closed and nothing is ahead of it.
    cases closed : c.closed with
    | false =>
      rw [(stands.started closed).2.2.1] at front
      cases ahead with
      | nil => cases front
      | cons first others => cases front
    | true =>
      have shape := stands.ended closed
      rw [front, waits, if_neg (by decide)] at shape
      cases ahead with
      | nil =>
        obtain rfl : rest = behind.map some := by simpa using shape
        refine ⟨[], behind, ⟨?_, fun _ => rfl, fun _ => rfl, ⟨early, queued, without⟩,
          fun limited => ?_, stands.sends⟩⟩
        · rintro ⟨⟩
        · have bound := stands.limited limited
          rw [front, List.length_cons] at bound
          exact Nat.le_of_succ_le bound
      | cons first others => cases shape
  · rename_i data rest waits front
    obtain ⟨later, rfl, left⟩ : ∃ later, ahead = data :: later ∧
        (c.closed = false → rest = later.map some) ∧
        (c.closed = true → rest = later.map some ++ [none] ++ behind.map some) := by
      cases closed : c.closed with
      | false =>
        have shape := (stands.started closed).2.2.1
        rw [front] at shape
        cases ahead with
        | nil => cases shape
        | cons first others =>
          simp only [List.map_cons, List.cons.injEq, Option.some.injEq] at shape
          exact ⟨others, by rw [shape.1], fun _ => shape.2, fun shut => nomatch shut⟩
      | true =>
        have shape := stands.ended closed
        rw [front, waits, if_neg (by decide)] at shape
        cases ahead with
        | nil => cases shape
        | cons first others =>
          simp only [List.map_cons, List.cons_append, List.cons.injEq, Option.some.injEq] at shape
          exact ⟨others, by rw [shape.1], fun going => (nomatch going), fun _ => shape.2⟩
    refine ⟨later, behind, fun going => ?_, fun shut => ?_, fun finished => (nomatch finished),
      ⟨early, queued, ?_⟩, fun limited => ?_, stands.sends⟩
    · obtain ⟨none, kept, _⟩ := stands.started going
      exact ⟨none, kept, left.1 going, by simp⟩
    · exact left.2 shut
    · rwa [List.append_assoc]
    · have bound := stands.limited limited
      rw [front, List.length_cons] at bound
      exact Nat.le_of_succ_le bound
  · exact ⟨ahead, behind, stands⟩

theorem Stands.step (stands : Stands asked c ahead behind) (op : ConnectionStep φ)
    (sends : ∀ data, op = .send data → asked data) :
    ∃ ahead behind, Stands asked (c.step op) ahead behind := by
  have still : ∃ ahead behind, Stands asked c ahead behind := ⟨ahead, behind, stands⟩
  have waits : ∀ data ∈ c.sending, asked data :=
    fun data member => stands.sends data (List.mem_append_right _ member)
  cases op with
  | trySend data =>
    rw [ClientConnection.step, trySend]
    split
    · exact still
    · rename_i open'
      exact stands.put (eq_false_of_ne_true fun full => open' (.inr full))
        fun closed => absurd (.inl closed) open'
  | send data =>
    rw [ClientConnection.step, ClientConnection.send]
    split
    · exact still
    · split
      · refine ⟨ahead, behind, stands.same rfl rfl .rfl rfl rfl rfl rfl fun other member => ?_⟩
        rcases List.mem_append.mp member with old | same
        · exact waits other old
        · exact sends other (by rw [List.mem_singleton.mp same])
      · rename_i room
        exact stands.put (eq_false_of_ne_true room) fun _ => sends data rfl
  | resume i =>
    rw [ClientConnection.step, ClientConnection.resume]
    split
    · exact still
    · rename_i data found
      split
      · exact still
      · rename_i room
        obtain ⟨ahead', behind', stands'⟩ := stands.put (eq_false_of_ne_true room)
          fun _ => waits data (List.mem_of_getElem? found)
        exact ⟨ahead', behind', stands'.same rfl rfl .rfl rfl rfl rfl rfl
          fun other member => waits other (List.mem_of_mem_eraseIdx member)⟩
  | close => exact stands.close
  | write => exact stands.write
  | drained =>
    rw [ClientConnection.step, ClientConnection.drained]
    split
    · rename_i draining
      exact ⟨ahead, behind, stands.same rfl rfl (by simp [draining]) rfl rfl rfl rfl waits⟩
    · exact still
  | fail =>
    rw [ClientConnection.step, ClientConnection.fail]
    split
    · exact still
    · rename_i going
      exact ⟨ahead, behind, stands.same rfl rfl (by simp [going]) rfl rfl rfl rfl waits⟩

theorem step_limit (c : ClientConnection φ) (op : ConnectionStep φ) : (c.step op).limit = c.limit := by
  unfold step trySend ClientConnection.send resume ClientConnection.close ClientConnection.write
    drained fail ClientConnection.put
  split <;> grind

theorem run_stands (limit : Nat) (ops : List (ConnectionStep φ)) :
    (run step { limit } ops).limit = limit ∧
    ∃ ahead behind, Stands (.send · ∈ ops) (run step { limit } ops) ahead behind := by
  refine run_preserves
    (I := fun c => c.limit = limit ∧ ∃ ahead behind, Stands (.send · ∈ ops) c ahead behind)
    (fun c op ⟨same, _, _, stands⟩ (listed : op ∈ ops) => ⟨(step_limit c op).trans same,
      stands.step op fun _ asks => asks ▸ listed⟩)
    ⟨rfl, [], [], fun _ => ⟨rfl, rfl, rfl, nofun⟩, fun shut => (nomatch shut), fun _ => rfl,
      ⟨[], rfl, rfl⟩, fun _ => Nat.zero_le _, nofun⟩ (allowed_of_forall (fun _ listed => listed) _)

/-- **Closing flushes.** Whatever the tasks of a connection do, its queue keeps
its limit, and until it is closed the frames that were queued are written in
their order, or wait for it. Once the write loop has come to its end all that
was queued before the close is written, but for the one frame that `close` may
have taken off, and what is behind are frames of `send` calls that the close
found waiting. -/
theorem close_flushes (limit : Nat) (ops : List (ConnectionStep φ)) {c : ClientConnection φ}
    (after : run step { limit } ops = c) :
    (0 < limit → c.outbound.length ≤ limit) ∧
    (c.closed = false → c.queued.map some = c.written.map some ++ c.outbound) ∧
    ∃ early late rest, c.queued = early ++ late ∧ (∀ data ∈ late, .send data ∈ ops) ∧
      Without c.overwritten early (c.written ++ rest) ∧ (c.writeLoop = .ended → rest = []) := by
  subst after
  obtain ⟨same, ahead, behind, stands⟩ := run_stands limit ops
  obtain ⟨early, queued, without⟩ := stands.queued
  refine ⟨fun limited => ?_, fun going => ?_, early, behind, ahead, queued,
    fun data member => stands.sends data (List.mem_append_left _ member), without, stands.finished⟩
  · have bound := stands.limited (by rwa [same])
    rwa [same] at bound
  · obtain ⟨rfl, kept, waits, _⟩ := stands.started going
    rw [kept] at without
    have all : early = _ ++ ahead := without
    rw [queued, List.append_nil, all, List.map_append, waits]

/-- A connection is closed while its queue is full and a `send` waits. -/
def crowdedClose : List (ConnectionStep Nat) :=
  [.trySend 1, .write, .trySend 2, .trySend 3, .send 4, .close, .drained, .write, .drained, .resume 0,
    .write]

theorem close_flushes_crowded : ∃ early late, [1, 2, 3, 4] = early ++ late ∧
    (∀ data ∈ late, .send data ∈ crowdedClose) ∧ Without (some 2) early [1, 3] := by
  obtain ⟨early, late, rest, all, sends, without, finished⟩ := (close_flushes 2 crowdedClose
    (c := ⟨2, [some 4], true, [], .ended, [1, 2, 3, 4], some 2, [1, 3]⟩) rfl).2.2
  rw [finished rfl, List.append_nil] at without
  exact ⟨early, late, all, sends, without⟩

end ClientConnection
end OneOpenBroker.Broker

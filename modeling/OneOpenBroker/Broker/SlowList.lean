import OneOpenBroker.Broker.Channels
import OneOpenBroker.Broker.Server

/-! The list of slow subscribers. `cmd_publish_channel` leaves it in one
attribute of the handler that all read loops share, and a loop reads it after
it has awaited the journal. What the loops do with the attribute in a run is a
list of notes: a report is passed on by the loop that made it as long as no
other loop touches the attribute in between. -/
namespace OneOpenBroker.Broker.Server
open Collections OneOpenBroker.Core

/-- What a read loop does with the list: it handles a PUBLISH_CHANNEL, which
reports subscribers as slow and whose reply is placed or not, or it takes the
list and passes everyone on it to `_disconnect_slow`. -/
inductive Note where
  | published (connectionId : String) (slow : List String) (replied : Bool)
  | looked (connectionId : String) (passed : List String)
  deriving DecidableEq

/-- The read loop that the note is about. -/
def Note.loop : Note → String
  | published connectionId .. => connectionId
  | looked connectionId _ => connectionId

/-- The subscribers that handling a frame reports as slow. -/
def reports (s : Server) (connectionId : String) : Frame → Option (List String)
  | .command (.publishChannel channel) =>
    match (s.handler.handle connectionId (.publishChannel channel)).1 with
    | .ok (.delivered _ slow) => some slow
    | _ => none
  | _ => none

/-- What the loop of a frame does until it awaits something. -/
def serveNotes (s : Server) (connectionId : String) (frame : Frame) (room : Bool) : List Note :=
  let replied := (s.answer connectionId frame room).1
  let after := (s.answer connectionId frame room).2
  let report := (s.reports connectionId frame).toList.map (Note.published connectionId · replied)
  if replied ∧ after.seq ∉ after.aof.waiters then
    report ++ [.looked connectionId after.handler.lastSlow]
  else report

def notes (s : Server) : ServerEvent → List Note
  | .serve room =>
    match s.running with
    | some (connectionId, frame :: _) => s.serveNotes connectionId frame room
    | _ => []
  | .resume connectionId =>
    match s.running, s.loops.get? connectionId with
    | none, some (.syncing seq _) =>
      if seq ∈ s.aof.waiters then [] else [.looked connectionId s.handler.lastSlow]
    | _, _ => []
  | _ => []

/-- The notes of a run. -/
def trace : Server → List ServerEvent → List Note
  | _, [] => []
  | s, event :: rest => s.notes event ++ trace (s.step event) rest

variable {s : Server} {event : ServerEvent} {events : List ServerEvent} {connectionId : String}
  {frame : Frame} {room : Bool} {slow passed : List String} {before after notes : List Note}

/-! ## The attribute -/

/-- The attribute after some notes: what the last one left in it. -/
def left (value : List String) : List Note → List String
  | [] => value
  | .published _ slow _ :: rest => left slow rest
  | .looked .. :: rest => left [] rest

/-- Every look finds what is in the attribute. -/
def Finds : List String → List Note → Prop
  | _, [] => True
  | _, .published _ slow _ :: rest => Finds slow rest
  | value, .looked _ passed :: rest => passed = value ∧ Finds [] rest

theorem handleFrame_lastSlow : (s.handleFrame connectionId frame).2.lastSlow =
    (s.reports connectionId frame).getD s.handler.lastSlow := by
  cases frame with
  | inert => rfl
  | command command =>
    by_cases publishes : ∃ channel, command = .publishChannel channel
    · obtain ⟨channel, rfl⟩ := publishes
      unfold reports handleFrame
      change (s.handler.cmdPublishChannel channel).2.lastSlow = _
      change _ = (match (s.handler.cmdPublishChannel channel).1 with
        | .ok (.delivered _ slow) => some slow
        | _ => none).getD _
      unfold Handler.cmdPublishChannel
      split <;> rfl
    · have other : ∀ channel, command ≠ .publishChannel channel :=
        fun channel same => publishes ⟨channel, same⟩
      have silent : s.reports connectionId (.command command) = none := by
        unfold reports
        split
        · rename_i channel same
          exact absurd (Frame.command.inj same) (other channel)
        · rfl
      rw [silent]
      exact Handler.handle_lastSlow other

theorem answer_handler :
    (s.answer connectionId frame room).2.handler = (s.handleFrame connectionId frame).2 := by
  unfold answer
  rcases s.handleFrame connectionId frame with ⟨success, h⟩
  dsimp only
  split <;> rfl

theorem proceed_handler {rest : List Frame} : (s.proceed connectionId rest).handler = s.handler := by
  unfold proceed
  split <;> rfl

theorem drop_lastSlow {order : List String} :
    (s.drop connectionId order).handler.lastSlow = s.handler.lastSlow := by
  unfold drop
  split <;> rfl

theorem left_report (connectionId : String) (value : List String) (report : Option (List String))
    (replied : Bool) :
    left value (report.toList.map (Note.published connectionId · replied)) = report.getD value ∧
      Finds value (report.toList.map (Note.published connectionId · replied)) := by
  cases report <;> exact ⟨rfl, trivial⟩

theorem left_append (value : List String) :
    left value (before ++ after) = left (left value before) after := by
  induction before generalizing value with
  | nil => rfl
  | cons note rest ih => cases note <;> exact ih _

theorem finds_append (value : List String) :
    Finds value (before ++ after) ↔ Finds value before ∧ Finds (left value before) after := by
  induction before generalizing value with
  | nil => exact (true_and _).symm ▸ Iff.rfl
  | cons note rest ih =>
    cases note with
    | published _ slow _ => exact ih slow
    | looked _ passed =>
      change _ ∧ Finds [] (rest ++ after) ↔ (_ ∧ Finds [] rest) ∧ Finds (left [] rest) after
      rw [ih, and_assoc]

/-- Serving a frame leaves in the attribute what its notes say. -/
theorem serve_finds {rest : List Frame} :
    Finds s.handler.lastSlow (s.serveNotes connectionId frame room) ∧
      (s.serve connectionId frame rest room).handler.lastSlow =
        left s.handler.lastSlow (s.serveNotes connectionId frame room) := by
  have kept : (s.answer connectionId frame room).2.handler.lastSlow =
      (s.reports connectionId frame).getD s.handler.lastSlow := by
    rw [answer_handler, handleFrame_lastSlow]
  unfold serveNotes serve
  rcases shape : s.answer connectionId frame room with ⟨replied, answered⟩
  rw [shape] at kept
  obtain ⟨reported, finds⟩ :=
    left_report connectionId s.handler.lastSlow (s.reports connectionId frame) replied
  cases replied with
  | false =>
    dsimp only
    rw [if_neg (by simp)]
    exact ⟨finds, kept.trans reported.symm⟩
  | true =>
    dsimp only
    unfold awaitDurable
    by_cases waits : answered.seq ∈ answered.aof.waiters
    · rw [if_neg (by simp [waits]), if_pos waits]
      exact ⟨finds, kept.trans reported.symm⟩
    · rw [if_pos ⟨rfl, waits⟩, if_neg waits, finds_append, left_append, reported, proceed_handler]
      exact ⟨⟨finds, kept, trivial⟩, rfl⟩

/-- The list and the loops are as they were, and no one is to be dropped who was
not before. -/
structure Idle (s : Server) (event : ServerEvent) (after : Server) : Prop where
  list : after.handler.lastSlow = s.handler.lastSlow
  loops : after.loops = s.loops
  known : after.known = s.known
  running : after.running = s.running
  slow : (∀ connectionId order, event ≠ .dropSlow connectionId order) → after.slow = s.slow

/-- The loop of a connection is gone, which awaited no record. -/
structure Gone (s : Server) (connectionId : String) (after : Server) : Prop where
  awake : (∀ seq rest, s.loops.get? connectionId ≠ some (.syncing seq rest)) ∨
    ∃ frames, s.running = some (connectionId, frames)
  list : after.handler.lastSlow = s.handler.lastSlow
  loops : after.loops = s.loops.erase connectionId
  known : after.known = s.known
  running : ∀ other frames, after.running = some (other, frames) → s.running = some (other, frames)
  slow : after.slow = s.slow

/-- What an event does with the loops, and what these do with the list. -/
inductive Acts (s : Server) : ServerEvent → List Note → Server → Prop where
  | serves {connectionId : String} {frame : Frame} {rest : List Frame} {room : Bool}
    (running : s.running = some (connectionId, frame :: rest)) :
    Acts s (.serve room) (s.serveNotes connectionId frame room) (s.serve connectionId frame rest room)
  | looks {connectionId : String} {seq : Nat} {rest : List Frame}
    (there : s.loops.get? connectionId = some (.syncing seq rest)) :
    Acts s (.resume connectionId) [.looked connectionId s.handler.lastSlow]
      (s.disconnectSlow.proceed connectionId rest)
  | accepts {connectionId : String} (fresh : connectionId ∉ s.known) :
    Acts s (.accept connectionId) [] (s.accept connectionId)
  | receives {connectionId : String} {frames : List Frame}
    (there : s.loops.get? connectionId = some .reading) :
    Acts s (.receive connectionId frames) [] (s.proceed connectionId frames)
  | leaves {connectionId : String} {order : List String} {after : Server}
    (gone : Gone s connectionId after) : Acts s (.leave connectionId order) [] after
  | idle {event : ServerEvent} {after : Server} (same : Idle s event after) : Acts s event [] after

theorem Idle.refl (s : Server) (event : ServerEvent) : Idle s event s := ⟨rfl, rfl, rfl, rfl, fun _ => rfl⟩

theorem drop_frame (s : Server) (connectionId : String) (order : List String) :
    (s.drop connectionId order).loops = s.loops ∧
    (s.drop connectionId order).known = s.known ∧
    (s.drop connectionId order).running = s.running ∧
    (s.drop connectionId order).slow = s.slow := by
  unfold drop
  split <;> exact ⟨rfl, rfl, rfl, rfl⟩

theorem proceed_slow {rest : List Frame} : (s.proceed connectionId rest).slow = s.slow := by
  unfold proceed
  split <;> rfl

theorem step_acts (s : Server) (event : ServerEvent) : Acts s event (s.notes event) (s.step event) := by
  have nothing : Acts s event [] s := .idle (.refl s event)
  cases event with
  | serve room =>
    unfold notes step
    dsimp only
    rcases running : s.running with _ | ⟨connectionId, _ | ⟨frame, rest⟩⟩
    · exact nothing
    · exact nothing
    · exact .serves running
  | resume connectionId =>
    unfold notes step
    dsimp only
    rcases s.running with _ | running
    · rcases there : s.loops.get? connectionId with _ | _ | ⟨seq, rest⟩ | _
      · exact nothing
      · exact nothing
      · dsimp only
        split
        · exact nothing
        · exact .looks there
      · exact nothing
    · exact nothing
  | accept connectionId =>
    unfold step
    dsimp only
    split
    · rename_i fresh
      exact .accepts fresh.2
    · exact nothing
  | receive connectionId frames =>
    unfold step
    dsimp only
    split
    · rename_i there
      exact .receives there
    · exact nothing
  | leave connectionId order =>
    obtain ⟨-, known, running, slow⟩ := drop_frame s connectionId order
    have list : (s.drop connectionId order).handler.lastSlow = s.handler.lastSlow := drop_lastSlow
    unfold step
    dsimp only
    split
    · rename_i there
      exact .leaves ⟨.inl (by simp [there]), list, rfl, known, running ▸ fun _ _ same => same, slow⟩
    · rename_i there
      exact .leaves ⟨.inl (by simp [there]), list, rfl, known, running ▸ fun _ _ same => same, slow⟩
    · rename_i runner frames state there _
      split
      · rename_i same
        exact .leaves ⟨.inr ⟨frames, same ▸ there⟩, list, rfl, known, by simp, slow⟩
      · exact nothing
    · exact nothing
  | dropSlow connectionId order =>
    obtain ⟨loops, known, running, -⟩ := drop_frame s connectionId order
    unfold step
    dsimp only
    split
    · exact .idle ⟨drop_lastSlow, loops, known, running,
        fun other => absurd rfl (other connectionId order)⟩
    · exact nothing
  | ticker =>
    unfold step
    dsimp only
    split
    · exact .idle ⟨congrArg Prod.snd Handler.ticker_channelState, rfl, rfl, rfl, fun _ => rfl⟩
    · exact nothing
  | take =>
    unfold step
    dsimp only
    split
    · exact .idle ⟨rfl, rfl, rfl, rfl, fun _ => rfl⟩
    · exact nothing
  | write due => exact .idle ⟨rfl, rfl, rfl, rfl, fun _ => rfl⟩
  | resolve =>
    unfold step
    dsimp only
    split
    · exact .idle ⟨rfl, rfl, rfl, rfl, fun _ => rfl⟩
    · exact nothing

theorem notes_find (s : Server) (event : ServerEvent) : Finds s.handler.lastSlow (s.notes event) ∧
    (s.step event).handler.lastSlow = left s.handler.lastSlow (s.notes event) := by
  have acts := step_acts s event
  generalize s.notes event = noted, s.step event = after at acts ⊢
  cases acts with
  | serves => exact serve_finds
  | looks => exact ⟨⟨rfl, trivial⟩, congrArg Handler.lastSlow proceed_handler⟩
  | accepts => exact ⟨trivial, rfl⟩
  | receives => exact ⟨trivial, congrArg Handler.lastSlow proceed_handler⟩
  | leaves gone => exact ⟨trivial, gone.list⟩
  | idle same => exact ⟨trivial, same.list⟩

theorem trace_finds (s : Server) (events : List ServerEvent) :
    Finds s.handler.lastSlow (trace s events) := by
  induction events generalizing s with
  | nil => trivial
  | cons event rest ih =>
    obtain ⟨finds, kept⟩ := notes_find s event
    exact (finds_append _).mpr ⟨finds, kept ▸ ih _⟩

/-- A look right after a report finds what was reported. -/
theorem look_after_report {other : String} {replied : Bool}
    (split : trace s events = before ++ .published connectionId slow replied :: .looked other passed :: after) :
    passed = slow := by
  have finds := trace_finds s events
  rw [split, finds_append] at finds
  exact finds.2.1

/-! ## The loops -/

/-- The loop awaits the durability of the journal. -/
structure Suspended (s : Server) (connectionId : String) : Prop where
  known : connectionId ∈ s.known
  syncing : ∃ seq rest, s.loops.get? connectionId = some (.syncing seq rest)
  stopped : ∀ frames, s.running ≠ some (connectionId, frames)

/-- The loops are those of connections that were accepted. -/
structure Accepted (s : Server) : Prop where
  loops : ∀ connectionId state, s.loops.get? connectionId = some state → connectionId ∈ s.known
  running : ∀ connectionId frames, s.running = some (connectionId, frames) → connectionId ∈ s.known

variable {c : String} {rest : List Frame}

theorem Suspended.ne_of_state {state : ReadLoop} (suspended : Suspended s c)
    (there : s.loops.get? connectionId = some state) (awake : ∀ seq rest, state ≠ .syncing seq rest) :
    c ≠ connectionId := by
  rintro rfl
  obtain ⟨seq, rest, syncing⟩ := suspended.syncing
  exact awake seq rest (Option.some.inj (there.symm.trans syncing))

theorem Suspended.proceed (suspended : Suspended s c) (other : c ≠ connectionId) :
    Suspended (s.proceed connectionId rest) c := by
  unfold Server.proceed
  split
  · exact ⟨suspended.known, by simpa [other] using suspended.syncing, by simp⟩
  · refine ⟨suspended.known, suspended.syncing, fun frames same => other ?_⟩
    exact (congrArg Prod.fst (Option.some.inj same)).symm

theorem answer_frame (s : Server) (connectionId : String) (frame : Frame) (room : Bool) :
    (s.answer connectionId frame room).2.loops = s.loops ∧
    (s.answer connectionId frame room).2.known = s.known ∧
    (s.answer connectionId frame room).2.running = s.running ∧
    (s.answer connectionId frame room).2.slow = s.slow ∧
    (s.answer connectionId frame room).2.connections = s.connections := by
  unfold answer
  rcases s.handleFrame connectionId frame with ⟨success, h⟩
  dsimp only
  split <;> exact ⟨rfl, rfl, rfl, rfl, rfl⟩

theorem Suspended.serve (suspended : Suspended s c) (other : c ≠ connectionId) :
    Suspended (s.serve connectionId frame rest room) c := by
  obtain ⟨loops, known, running, -⟩ := answer_frame s connectionId frame room
  unfold Server.serve
  rcases shape : s.answer connectionId frame room with ⟨replied, answered⟩
  rw [shape] at loops known running
  have still : Suspended answered c :=
    ⟨known ▸ suspended.known, loops ▸ suspended.syncing, running ▸ suspended.stopped⟩
  cases replied with
  | false => exact ⟨still.known, by simpa [other] using still.syncing, by simp⟩
  | true =>
    dsimp only
    unfold awaitDurable
    split
    · exact ⟨still.known, by simpa [other] using still.syncing, by simp⟩
    · have looked : Suspended answered.disconnectSlow c := ⟨still.known, still.syncing, still.stopped⟩
      exact looked.proceed other

theorem serveNotes_loop : ∀ note ∈ s.serveNotes connectionId frame room, note.loop = connectionId := by
  intro note member
  unfold serveNotes at member
  dsimp only at member
  split at member
  · rcases List.mem_append.mp member with report | look
    · obtain ⟨slow, _, rfl⟩ := List.mem_map.mp report
      rfl
    · obtain rfl := List.mem_singleton.mp look
      rfl
  · obtain ⟨slow, _, rfl⟩ := List.mem_map.mp member
    rfl

/-- A suspended loop stays so, and does nothing with the list, until it looks. -/
theorem step_suspended (suspended : Suspended s c) (event : ServerEvent) :
    (Suspended (s.step event) c ∧ ∀ note ∈ s.notes event, note.loop ≠ c) ∨
      ∃ passed, s.notes event = [.looked c passed] := by
  have acts := step_acts s event
  generalize s.notes event = noted, s.step event = after at acts ⊢
  cases acts with
  | serves running =>
    rename_i connectionId frame rest room
    have other : c ≠ connectionId := by
      rintro rfl
      exact suspended.stopped _ running
    exact .inl ⟨suspended.serve other, fun note member same => other (same ▸ serveNotes_loop note member)⟩
  | looks there =>
    rename_i connectionId seq rest
    by_cases own : c = connectionId
    · exact .inr ⟨_, by rw [own]⟩
    · have looked : Suspended s.disconnectSlow c :=
        ⟨suspended.known, suspended.syncing, suspended.stopped⟩
      refine .inl ⟨looked.proceed own, fun note member same => own ?_⟩
      rw [List.mem_singleton.mp member] at same
      exact same.symm
  | accepts fresh =>
    rename_i connectionId
    have other : c ≠ connectionId := fun same => fresh (same ▸ suspended.known)
    exact .inl ⟨⟨List.mem_cons_of_mem _ suspended.known,
      by simpa [accept, other] using suspended.syncing, suspended.stopped⟩, List.forall_mem_nil _⟩
  | receives there =>
    exact .inl ⟨suspended.proceed (suspended.ne_of_state there (by simp)), List.forall_mem_nil _⟩
  | leaves gone =>
    rename_i connectionId order
    have other : c ≠ connectionId := by
      rintro rfl
      obtain ⟨seq, rest, syncing⟩ := suspended.syncing
      rcases gone.awake with awake | ⟨frames, running⟩
      · exact awake seq rest syncing
      · exact suspended.stopped frames running
    refine .inl ⟨⟨gone.known ▸ suspended.known, ?_, fun frames running =>
      suspended.stopped frames (gone.running c frames running)⟩, List.forall_mem_nil _⟩
    rw [gone.loops]
    simpa [other] using suspended.syncing
  | idle same =>
    exact .inl ⟨⟨same.known ▸ suspended.known, same.loops ▸ suspended.syncing,
      same.running ▸ suspended.stopped⟩, List.forall_mem_nil _⟩

theorem Accepted.loop (accepted : Accepted s) (known : connectionId ∈ s.known) (state : ReadLoop) :
    Accepted { s with running := none, loops := s.loops.set connectionId state } := by
  refine ⟨fun other state there => ?_, by simp⟩
  rw [Dict.get?_set] at there
  split at there
  · rename_i same
    exact same ▸ known
  · exact accepted.loops other state there

theorem Accepted.proceed (accepted : Accepted s) (known : connectionId ∈ s.known) :
    Accepted (s.proceed connectionId rest) := by
  unfold Server.proceed
  split
  · exact accepted.loop known _
  · refine ⟨accepted.loops, fun other frames same => ?_⟩
    obtain ⟨rfl, -⟩ := Prod.mk.inj (Option.some.inj same)
    exact known

theorem Accepted.erased (accepted : Accepted s) (connectionId : String) :
    ∀ other state, (s.loops.erase connectionId).get? other = some state → other ∈ s.known := by
  intro other state there
  rw [Dict.get?_erase] at there
  split at there
  · cases there
  · exact accepted.loops other state there

theorem Accepted.serve (accepted : Accepted s) (known : connectionId ∈ s.known) :
    Accepted (s.serve connectionId frame rest room) := by
  obtain ⟨loops, same, running, -⟩ := answer_frame s connectionId frame room
  unfold Server.serve
  rcases shape : s.answer connectionId frame room with ⟨replied, answered⟩
  rw [shape] at loops same running
  have still : Accepted answered :=
    ⟨by rw [loops, same]; exact accepted.loops, by rw [running, same]; exact accepted.running⟩
  have member : connectionId ∈ answered.known := same ▸ known
  cases replied with
  | false => exact still.loop member .leaving
  | true =>
    dsimp only
    unfold awaitDurable
    split
    · exact still.loop member _
    · have looked : Accepted answered.disconnectSlow := ⟨still.loops, still.running⟩
      exact looked.proceed member

theorem Accepted.accept (accepted : Accepted s) : Accepted (s.accept connectionId) := by
  refine ⟨fun other state there => ?_, fun other frames same =>
    List.mem_cons_of_mem _ (accepted.running other frames same)⟩
  change (s.loops.set connectionId .reading).get? other = some state at there
  rw [Dict.get?_set] at there
  split at there
  · rename_i same
    exact List.mem_cons.mpr (.inl same)
  · exact List.mem_cons_of_mem _ (accepted.loops other state there)

theorem Accepted.step (accepted : Accepted s) (event : ServerEvent) : Accepted (s.step event) := by
  have acts := step_acts s event
  generalize s.notes event = noted, s.step event = after at acts ⊢
  cases acts with
  | serves running => exact accepted.serve (accepted.running _ _ running)
  | looks there =>
    have looked : Accepted s.disconnectSlow := ⟨accepted.loops, accepted.running⟩
    exact looked.proceed (accepted.loops _ _ there)
  | accepts => exact accepted.accept
  | receives there => exact accepted.proceed (accepted.loops _ _ there)
  | leaves gone =>
    refine ⟨?_, fun other frames running => ?_⟩
    · rw [gone.loops, gone.known]
      exact accepted.erased _
    · rw [gone.known]
      exact accepted.running other frames (gone.running other frames running)
  | idle same =>
    refine ⟨?_, ?_⟩
    · rw [same.loops, same.known]
      exact accepted.loops
    · rw [same.running, same.known]
      exact accepted.running

/-- A frame's notes with a report: what follows it is the loop's look, unless
the journal has to be awaited. -/
theorem serveNotes_report
    (split : s.serveNotes connectionId frame room = before ++ .published c slow true :: after) :
    connectionId = c ∧ (s.answer connectionId frame room).1 = true ∧
      (if (s.answer connectionId frame room).2.seq ∈ (s.answer connectionId frame room).2.aof.waiters
        then after = [] else ∃ passed, after = [.looked c passed]) := by
  unfold serveNotes at split
  generalize s.answer connectionId frame room = answer at split ⊢
  obtain ⟨replied, answered⟩ := answer
  dsimp only at split ⊢
  generalize s.reports connectionId frame = report at split
  cases report with
  | none =>
    have member : Note.published c slow true ∈
        if replied ∧ answered.seq ∉ answered.aof.waiters then
          [Note.looked connectionId answered.handler.lastSlow] else [] := by
      rw [Option.toList_none, List.map_nil, List.nil_append] at split
      rw [split]
      exact List.mem_append_right _ List.mem_cons_self
    split at member <;> simp at member
  | some reported =>
    rw [Option.toList_some, List.map_singleton] at split
    by_cases looks : replied = true ∧ answered.seq ∉ answered.aof.waiters
    · rw [if_pos looks] at split
      rcases before with _ | ⟨first, before⟩
      · obtain ⟨same, rfl⟩ := List.cons.inj split
        obtain ⟨rfl, rfl, rfl⟩ := Note.published.inj same
        exact ⟨rfl, rfl, by rw [if_neg looks.2]; exact ⟨_, rfl⟩⟩
      · have tail := (List.cons.inj split).2
        rcases before with _ | ⟨second, before⟩ <;> simp at tail
    · rw [if_neg looks] at split
      rcases before with _ | ⟨first, before⟩
      · obtain ⟨same, rfl⟩ := List.cons.inj split
        obtain ⟨rfl, rfl, rfl⟩ := Note.published.inj same
        have waits : answered.seq ∈ answered.aof.waiters := by simpa using looks
        exact ⟨rfl, rfl, by rw [if_pos waits]⟩
      · simp at split

/-- A loop that placed its report looks at the list at once, or is suspended. -/
theorem report_step (accepted : Accepted s)
    (split : s.notes event = before ++ .published c slow true :: after) :
    (∃ passed, after = [.looked c passed]) ∨ (after = [] ∧ Suspended (s.step event) c) := by
  cases event with
  | serve room =>
    unfold notes at split
    unfold step
    dsimp only at split ⊢
    rcases running : s.running with _ | ⟨connectionId, _ | ⟨frame, rest⟩⟩ <;> rw [running] at split
    · simp at split
    · simp at split
    · obtain ⟨rfl, replied, follows⟩ := serveNotes_report split
      obtain ⟨-, known, -⟩ := answer_frame s connectionId frame room
      dsimp only
      unfold serve
      rcases shape : s.answer connectionId frame room with ⟨flag, answered⟩
      rw [shape] at replied follows known
      obtain rfl : flag = true := replied
      dsimp only at follows ⊢
      split at follows
      · rename_i waits
        refine .inr ⟨follows, ?_⟩
        rw [awaitDurable, if_pos waits]
        exact ⟨known ▸ accepted.running _ _ running, ⟨_, _, Dict.get?_set_self⟩, by simp⟩
      · exact .inl follows
  | resume connectionId =>
    unfold notes at split
    dsimp only at split
    generalize s.running = running at split
    generalize s.loops.get? connectionId = state at split
    rcases running with _ | running
    · rcases state with _ | _ | ⟨seq, rest⟩ | _ <;> dsimp only at split
      · simp at split
      · simp at split
      · have member : Note.published c slow true ∈
            if seq ∈ s.aof.waiters then [] else [.looked connectionId s.handler.lastSlow] := by
          rw [split]
          exact List.mem_append_right _ List.mem_cons_self
        split at member <;> simp at member
      · simp at split
    · simp at split
  | _ => simp [notes] at split

/-- What becomes of a suspended loop in a run. -/
theorem suspended_next (suspended : Suspended s c) (events : List ServerEvent) :
    (∃ passed, ((trace s events).filter (·.loop = c)).head? = some (.looked c passed)) ∨
      ((trace s events).filter (·.loop = c) = [] ∧ Suspended (Systems.run step s events) c) := by
  induction events generalizing s with
  | nil => exact .inr ⟨rfl, suspended⟩
  | cons event rest ih =>
    unfold trace
    rw [List.filter_append, Systems.run_cons]
    rcases step_suspended suspended event with ⟨still, others⟩ | ⟨passed, looks⟩
    · have none : (s.notes event).filter (·.loop = c) = [] :=
        List.filter_eq_nil_iff.mpr fun note member => by simpa using others note member
      rw [none]
      exact ih still
    · rw [looks]
      exact .inl ⟨passed, by simp [Note.loop]⟩

/-- What becomes of a report: the loop's next note is its look, or it is still
suspended. -/
theorem report_next (accepted : Accepted s)
    (split : trace s events = before ++ .published c slow true :: after) :
    (∃ passed, (after.filter (·.loop = c)).head? = some (.looked c passed)) ∨
      (after.filter (·.loop = c) = [] ∧ Suspended (Systems.run step s events) c) := by
  induction events generalizing s before with
  | nil => simp [trace] at split
  | cons event rest ih =>
    unfold trace at split
    rw [Systems.run_cons]
    rcases List.append_eq_append_iff.mp split with ⟨later, rfl, tail⟩ | ⟨own, here, tail⟩
    · exact ih (accepted.step event) tail
    · rcases own with _ | ⟨first, own⟩
      · have whole : trace (s.step event) rest = [] ++ .published c slow true :: after := tail.symm
        exact ih (accepted.step event) whole
      · obtain ⟨rfl, rfl⟩ := List.cons.inj tail
        rcases report_step accepted here with ⟨passed, rfl⟩ | ⟨rfl, suspended⟩
        · exact .inl ⟨passed, by simp [Note.loop]⟩
        · exact suspended_next suspended rest

/-! ## Reports are passed on -/

/-- Those whom a note passes to `_disconnect_slow`. -/
def Note.dropped : Note → List String
  | published .. => []
  | looked _ passed => passed

theorem serve_drops : (s.serve connectionId frame rest room).slow =
    s.slow ++ ((s.serveNotes connectionId frame room).flatMap Note.dropped).filter
      (· ∈ s.connections) := by
  obtain ⟨-, -, -, slow, connections⟩ := answer_frame s connectionId frame room
  have silent (report : Option (List String)) (replied : Bool) :
      (report.toList.map (Note.published connectionId · replied)).flatMap Note.dropped = [] := by
    cases report <;> rfl
  unfold serveNotes serve
  rcases shape : s.answer connectionId frame room with ⟨replied, answered⟩
  rw [shape] at slow connections
  cases replied with
  | false =>
    dsimp only
    rw [if_neg (by simp), silent]
    exact slow.trans (List.append_nil _).symm
  | true =>
    dsimp only at slow connections ⊢
    unfold awaitDurable
    by_cases waits : answered.seq ∈ answered.aof.waiters
    · rw [if_pos waits, if_neg (by simp [waits]), silent]
      exact slow.trans (List.append_nil _).symm
    · rw [if_neg waits, if_pos ⟨rfl, waits⟩, proceed_slow, List.flatMap_append, silent]
      change answered.slow ++ _ = _
      rw [slow, connections]
      simp [Note.dropped]

/-- A look starts a task for everyone on the list who is still connected. -/
theorem look_drops (s : Server) (event : ServerEvent)
    (other : ∀ connectionId order, event ≠ .dropSlow connectionId order) :
    (s.step event).slow =
      s.slow ++ ((s.notes event).flatMap Note.dropped).filter (· ∈ s.connections) := by
  have acts := step_acts s event
  generalize s.notes event = noted, s.step event = after at acts ⊢
  cases acts with
  | serves => exact serve_drops
  | looks =>
    rw [proceed_slow]
    simp [disconnectSlow, Note.dropped]
  | accepts => exact (List.append_nil _).symm
  | receives => exact proceed_slow.trans (List.append_nil _).symm
  | leaves gone => exact gone.slow.trans (List.append_nil _).symm
  | idle same => exact (same.slow other).trans (List.append_nil _).symm

/-- What comes of a report: the loop's next note passes everyone on who was
reported, or the loop still awaits the journal. -/
def PassedOn (c : String) (slow : List String) (after : List Note) (final : Server) : Prop :=
  (∃ passed, (after.filter (·.loop = c)).head? = some (.looked c passed) ∧ slow ⊆ passed) ∨
    (after.filter (·.loop = c) = [] ∧ Suspended final c)

/-- Every report of a run whose reply was placed is passed on by its loop. -/
def ReportsPassed (s : Server) (events : List ServerEvent) : Prop :=
  ∀ before c slow after, trace s events = before ++ .published c slow true :: after →
    PassedOn c slow after (Systems.run step s events)

/-- Until a loop that reported someone looks at the list, no other loop handles
a PUBLISH_CHANNEL or looks: what is noted next is its own. -/
def Undisturbed (notes : List Note) : Prop :=
  ∀ before c slow note after, notes = before ++ .published c slow true :: note :: after →
    slow ≠ [] → note.loop = c

/-- **Slow subscribers are dropped where no two reports meet.** In a run whose
reports are not disturbed, the loop that made one passes everyone on it to
`_disconnect_slow` as soon as it goes on. -/
theorem undisturbed_reports_passed (config : EngineConfig) (clock : Nat → ℚ) (sends : Nat → Bool)
    (fsync : Fsync) (events : List ServerEvent)
    (undisturbed : Undisturbed (trace (started config clock sends fsync) events)) :
    ReportsPassed (started config clock sends fsync) events := by
  intro before c slow after split
  have accepted : Accepted (started config clock sends fsync) := ⟨by simp [started], by simp [started]⟩
  rcases report_next accepted split with ⟨passed, next⟩ | still
  · refine .inl ⟨passed, next, ?_⟩
    by_cases nobody : slow = []
    · rw [nobody]
      exact List.nil_subset _
    · rcases after with _ | ⟨note, later⟩
      · cases next
      · have own : note.loop = c := undisturbed before c slow note later split nobody
        rw [List.filter_cons_of_pos (by simpa using own)] at next
        obtain rfl : note = .looked c passed := Option.some.inj next
        rw [look_after_report split]
        exact List.Subset.refl _
  · exact .inr still

/-- With a sender that takes no frame, `x` is slow on the channel `news`. While
the loop of `a`, which found that out, awaits a record of `b`, the loop of `d`
publishes on a channel without subscribers. -/
def twoPublishers (second : Frame) : List ServerEvent := [
  .accept "a", .accept "b", .accept "d", .accept "x",
  .receive "x" [.command (.subscribe "news")], .serve true,
  .receive "b" [.command (.declareQueue "jobs" none none none)], .serve true,
  .receive "a" [.command (.publishChannel "news")], .serve true,
  .receive "d" [second], .serve true,
  .take, .write false, .resolve, .resume "a"]

def unwilling : Server := started {} (fun n => n) (fun _ => false) .always

/-- In between the loop of `d` handles another command: the report is passed on. -/
theorem undisturbed_reports_passed_once :
    ReportsPassed unwilling (twoPublishers (.command (.unsubscribe "news"))) := by
  have notes : trace unwilling (twoPublishers (.command (.unsubscribe "news"))) =
      [.looked "x" [], .published "a" ["x"] true, .looked "a" ["x"]] := by
    decide +kernel
  refine undisturbed_reports_passed {} (fun n => n) (fun _ => false) .always _ ?_
  change Undisturbed (trace unwilling _)
  rw [notes]
  intro before c slow note after split _
  rcases before with _ | ⟨first, _ | ⟨second, _ | ⟨third, before⟩⟩⟩
  · cases split
  · cases split
    rfl
  · cases split
  · simp at split

/-- The report of the loop of `a` is overwritten: `x` is passed on by nobody. -/
theorem report_overwritten :
    trace unwilling (twoPublishers (.command (.publishChannel "sport"))) =
      [.looked "x" [], .published "a" ["x"] true, .published "d" [] true, .looked "a" []] ∧
    ¬ ReportsPassed unwilling (twoPublishers (.command (.publishChannel "sport"))) := by
  have notes : trace unwilling (twoPublishers (.command (.publishChannel "sport"))) =
      [.looked "x" [], .published "a" ["x"] true, .published "d" [] true, .looked "a" []] := by
    decide +kernel
  refine ⟨notes, fun passes => ?_⟩
  have report := passes [.looked "x" []] "a" ["x"] [.published "d" [] true, .looked "a" []] notes
  rcases report with ⟨passed, next, included⟩ | ⟨silent, _⟩
  · cases next
    exact absurd (included List.mem_cons_self) List.not_mem_nil
  · exact absurd silent (by decide)

end OneOpenBroker.Broker.Server

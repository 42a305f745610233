import OneOpenBroker.Client.Connection
import OneOpenBroker.Library.Runs

/-! Heartbeats between the read loop of the server, `broker/server.py`, and
that of a client. Both answer every heartbeat with a heartbeat, and nothing in
a frame tells an answer from what it answers. What else the two ends send each
other is left open. -/
namespace OneOpenBroker.Broker
open Collections Systems OneOpenBroker.Client

/-- Whether a frame was sent of an end's own accord or in answer to a heartbeat,
which is not in the frame. -/
inductive Origin where
  | initiated | answer
  deriving DecidableEq

/-- A connection with its two ends. Frames of the server go through its
outbound queue of limited length. The last fields only count: heartbeats that
were initiated, answers to those, and answers to answers. -/
structure Link where
  limit : Nat
  client : ProtocolClient := {}
  toServer : List (Outgoing × Origin) := []
  outbound : List (Incoming × Origin) := []
  toClient : List (Incoming × Origin) := []
  serverReading : Bool := true
  serverClosed : Bool := false
  initiated : Nat := 0
  answered : Nat := 0
  reanswered : Nat := 0

/-- What happens next at one of the ends. -/
inductive LinkStep where
  | clientInitiates (requestId : Nat)
  | clientRequests (cmd : Request)
  | clientReads
  | clientCloses
  | serverInitiates (requestId : Nat)
  | serverSends (frame : Incoming)
  | serverReads
  | serverWrites
  | serverStops
  | serverCloses

namespace Link

/-- The heartbeats that were sent by either end. -/
def sent (s : Link) : Nat := s.initiated + s.answered + s.reanswered

/-- An answer to a frame is counted by what it answers. -/
def countAnswer (s : Link) : Origin → Link
  | .initiated => { s with answered := s.answered + 1 }
  | .answer => { s with reanswered := s.reanswered + 1 }

/-! ## The client -/

def clientInitiates (s : Link) (requestId : Nat) : Link :=
  if s.client.connected then
    { s with
      client := { s.client with written := s.client.written ++ [.heartbeat requestId] }
      toServer := s.toServer ++ [(.heartbeat requestId, .initiated)]
      initiated := s.initiated + 1 }
  else s

/-- The client writes to its end of the connection. -/
def withClient (s : Link) (client : ProtocolClient) (origin : Origin) : Link :=
  let frames := client.written.drop s.client.written.length
  { s with client, toServer := s.toServer ++ frames.map (·, origin) }

def clientReads (s : Link) : Link :=
  match s.toClient with
  | [] => s
  | (frame, origin) :: rest =>
    let client := s.client.receive frame
    let s' := { s with toClient := rest }.withClient client .answer
    if client.written.length = s.client.written.length then s' else s'.countAnswer origin

/-! ## The server -/

/-- `try_send`. A limit of zero is none. -/
def trySend (s : Link) (frame : Incoming) (origin : Origin) : Bool × Link :=
  if s.serverClosed ∨ 0 < s.limit ∧ s.limit ≤ s.outbound.length then (false, s)
  else (true, { s with outbound := s.outbound ++ [(frame, origin)] })

def serverInitiates (s : Link) (requestId : Nat) : Link :=
  match s.trySend (.heartbeat requestId) .initiated with
  | (true, s) => { s with initiated := s.initiated + 1 }
  | (false, s) => s

/-- Responses and events, which are no heartbeats. -/
def serverSends (s : Link) (frame : Incoming) : Link :=
  match frame with
  | .heartbeat _ => s
  | frame => (s.trySend frame .initiated).2

/-- A round of the loop over the frames. What the handler makes of a command is
sent in steps of its own. -/
def serverReads (s : Link) : Link :=
  if s.serverReading then
    match s.toServer with
    | [] => s
    | (.heartbeat requestId, origin) :: rest =>
      match { s with toServer := rest }.trySend (.heartbeat requestId) .answer with
      | (true, s) => s.countAnswer origin
      | (false, s) => s
    | (.command .., _) :: rest => { s with toServer := rest }
  else s

/-- A round of `_write_loop`. -/
def serverWrites (s : Link) : Link :=
  match s.outbound with
  | [] => s
  | entry :: rest => { s with outbound := rest, toClient := s.toClient ++ [entry] }

def step (s : Link) : LinkStep → Link
  | .clientInitiates requestId => s.clientInitiates requestId
  | .clientRequests cmd => s.withClient (s.client.request cmd).2 .initiated
  | .clientReads => s.clientReads
  | .clientCloses => { s with client := s.client.close }
  | .serverInitiates requestId => s.serverInitiates requestId
  | .serverSends frame => s.serverSends frame
  | .serverReads => s.serverReads
  | .serverWrites => s.serverWrites
  | .serverStops => { s with serverReading := false }
  | .serverCloses => { s with serverReading := false, serverClosed := true }

/-! ## What is on the way -/

/-- A heartbeat that was initiated. -/
def opensToServer : Outgoing × Origin → Bool
  | (.heartbeat _, .initiated) => true
  | _ => false

def opensToClient : Incoming × Origin → Bool
  | (.heartbeat _, .initiated) => true
  | _ => false

/-- The initiated heartbeats that are on the way. -/
def underway (s : Link) : Nat :=
  s.toServer.countP opensToServer + s.outbound.countP opensToClient + s.toClient.countP opensToClient

/-- An initiated heartbeat is answered once at most. -/
def Counted (s : Link) : Prop := s.answered + s.underway ≤ s.initiated

/-- There are two heartbeats at most for each that was initiated, and no answer
was answered. -/
def DiesOut (s : Link) : Prop := s.sent ≤ 2 * s.initiated ∧ s.reanswered = 0

/-- The outbound queue takes a frame. -/
def HasRoom (s : Link) : Prop :=
  ¬ (s.serverClosed ∨ 0 < s.limit ∧ s.limit ≤ s.outbound.length)

/-- No read loop that can send gets an answer. -/
def FirstHand (s : Link) : LinkStep → Prop
  | .clientReads => ∀ requestId rest, s.toClient = (.heartbeat requestId, .answer) :: rest →
      ¬ (s.client.reading ∧ s.client.connected)
  | .serverReads => ∀ requestId rest, s.toServer = (.heartbeat requestId, .answer) :: rest →
      ¬ (s.serverReading ∧ s.HasRoom)
  | _ => True

variable {s s' : Link} {frame : Incoming} {origin : Origin} {requestId : Nat}

/-- What a step does to the counts: it answers no answer, or it is the step of
a loop that gets one. -/
inductive Counts (s : Link) (step : LinkStep) (s' : Link) : Prop where
  | fair (fits : s.FirstHand step) (reanswered : s'.reanswered = s.reanswered)
      (initiated : s.initiated ≤ s'.initiated) (counted : s.Counted → s'.Counted)
  | again (unfit : ¬ s.FirstHand step) (reanswered : s'.reanswered = s.reanswered + 1)
      (counted : s.Counted → s'.Counted)

theorem trySend_room (room : s.HasRoom) :
    s.trySend frame origin = (true, { s with outbound := s.outbound ++ [(frame, origin)] }) := if_neg room

theorem trySend_full (full : ¬ s.HasRoom) : s.trySend frame origin = (false, s) :=
  if_pos (not_not.mp full)

/-- A step that is no reading, and after which as much is on the way. -/
theorem Counts.same {step : LinkStep} (fits : s.FirstHand step) (answered : s'.answered = s.answered)
    (reanswered : s'.reanswered = s.reanswered) (initiated : s.initiated ≤ s'.initiated)
    (underway : s'.underway + s.initiated ≤ s.underway + s'.initiated) : Counts s step s' := by
  refine .fair fits reanswered initiated fun counted => ?_
  unfold Counted at counted ⊢
  omega

/-! ## One step -/

theorem clientReads_silent {rest : List (Incoming × Origin)} (shape : s.toClient = (frame, origin) :: rest)
    (silent : s.client.answersTo frame = []) :
    s.clientReads = { s with client := s.client.receive frame, toClient := rest } := by
  have written := ProtocolClient.receive_written (c := s.client) frame
  rw [silent, List.append_nil] at written
  simp [clientReads, shape, withClient, written]

theorem clientReads_answers {rest : List (Incoming × Origin)}
    (shape : s.toClient = (.heartbeat requestId, origin) :: rest)
    (runs : s.client.reading ∧ s.client.connected) : s.clientReads =
      ({ s with
        client := s.client.receive (.heartbeat requestId)
        toClient := rest
        toServer := s.toServer ++ [(.heartbeat requestId, .answer)] } : Link).countAnswer origin := by
  have written := ProtocolClient.receive_written (c := s.client) (.heartbeat requestId)
  have answer : s.client.answersTo (.heartbeat requestId) = [.heartbeat requestId] := by
    simp [ProtocolClient.answersTo, runs]
  rw [answer] at written
  simp [clientReads, shape, withClient, written]

/-- What is answered was on the way. -/
theorem countAnswer_counts {step : LinkStep} (origin : Origin) (reanswered : s'.reanswered = s.reanswered)
    (answered : s'.answered = s.answered) (initiated : s'.initiated = s.initiated)
    (first : origin = .initiated → s.FirstHand step ∧ s'.underway + 1 = s.underway)
    (second : origin = .answer → ¬ s.FirstHand step ∧ s'.underway = s.underway) :
    Counts s step (s'.countAnswer origin) := by
  cases origin with
  | initiated =>
    obtain ⟨fits, underway⟩ := first rfl
    refine .fair fits reanswered initiated.ge fun counted => ?_
    unfold Counted at counted ⊢
    change s'.answered + 1 + s'.underway ≤ s'.initiated
    omega
  | answer =>
    obtain ⟨unfit, underway⟩ := second rfl
    refine .again unfit (congrArg (· + 1) reanswered) fun counted => ?_
    unfold Counted at counted ⊢
    change s'.answered + s'.underway ≤ s'.initiated
    omega

theorem clientReads_counts (s : Link) : Counts s .clientReads s.clientReads := by
  cases shape : s.toClient with
  | nil =>
    have nothing : s.clientReads = s := by simp [clientReads, shape]
    rw [nothing]
    exact .same (by simp [FirstHand, shape]) rfl rfl le_rfl le_rfl
  | cons entry rest =>
    obtain ⟨frame, origin⟩ := entry
    by_cases silent : s.client.answersTo frame = []
    · rw [clientReads_silent shape silent]
      refine .same ?_ rfl rfl le_rfl ?_
      · rintro requestId rest' shape' ⟨reading, connected⟩
        cases shape.symm.trans shape'
        simp [ProtocolClient.answersTo, reading, connected] at silent
      · simp only [underway, shape, List.countP_cons]
        omega
    · cases frame with
      | heartbeat requestId =>
        have runs : s.client.reading ∧ s.client.connected := by
          simpa [ProtocolClient.answersTo] using silent
        rw [clientReads_answers shape runs]
        refine countAnswer_counts origin rfl rfl rfl ?_ ?_
        · rintro rfl
          have first_hand : FirstHand s .clientReads := by
            intro _ _ shape'
            cases shape.symm.trans shape'
          refine ⟨first_hand, ?_⟩
          have first : s.toClient.countP opensToClient = rest.countP opensToClient + 1 := by
            rw [shape]
            exact List.countP_cons_of_pos rfl
          have last : (s.toServer ++ [(Outgoing.heartbeat requestId, Origin.answer)]).countP opensToServer =
              s.toServer.countP opensToServer := by simp [opensToServer]
          unfold underway
          dsimp only
          omega
        · rintro rfl
          refine ⟨fun fits => fits requestId rest shape runs, ?_⟩
          simp [underway, shape, opensToClient, opensToServer]
      | _ => simp [ProtocolClient.answersTo] at silent

theorem serverReads_counts (s : Link) : Counts s .serverReads s.serverReads := by
  by_cases reading : s.serverReading
  · cases shape : s.toServer with
    | nil =>
      have nothing : s.serverReads = s := by simp [serverReads, shape]
      rw [nothing]
      exact .same (by simp [FirstHand, shape]) rfl rfl le_rfl le_rfl
    | cons entry rest =>
      obtain ⟨frame, origin⟩ := entry
      cases frame with
      | command requestId cmd =>
        have passed : s.serverReads = { s with toServer := rest } := by
          simp [serverReads, reading, shape]
        rw [passed]
        refine .same (fun _ _ shape' => nomatch shape.symm.trans shape') rfl rfl le_rfl ?_
        simp [underway, shape, opensToServer]
      | heartbeat requestId =>
        by_cases room : s.HasRoom
        · have answers : s.serverReads = ({ s with
              toServer := rest
              outbound := s.outbound ++ [(.heartbeat requestId, .answer)] } : Link).countAnswer origin := by
            have placed : ({ s with toServer := rest } : Link).HasRoom := room
            unfold serverReads
            rw [if_pos reading, shape]
            dsimp only
            rw [trySend_room placed]
          rw [answers]
          refine countAnswer_counts origin rfl rfl rfl ?_ ?_
          · rintro rfl
            have first_hand : FirstHand s .serverReads := by
              intro _ _ shape'
              cases shape.symm.trans shape'
            refine ⟨first_hand, ?_⟩
            have first : s.toServer.countP opensToServer = rest.countP opensToServer + 1 := by
              rw [shape]
              exact List.countP_cons_of_pos rfl
            have last : (s.outbound ++ [(Incoming.heartbeat requestId, Origin.answer)]).countP opensToClient =
                s.outbound.countP opensToClient := by simp [opensToClient]
            unfold underway
            dsimp only
            omega
          · rintro rfl
            refine ⟨fun fits => fits requestId rest shape ⟨reading, room⟩, ?_⟩
            simp [underway, shape, opensToClient, opensToServer]
        · have dropped : s.serverReads = { s with toServer := rest } := by
            have full : ¬ ({ s with toServer := rest } : Link).HasRoom := room
            unfold serverReads
            rw [if_pos reading, shape]
            dsimp only
            rw [trySend_full full]
          rw [dropped]
          refine .same (fun _ _ _ both => room both.2) rfl rfl le_rfl ?_
          simp only [underway, shape, List.countP_cons]
          omega
  · have nothing : s.serverReads = s := by simp [serverReads, reading]
    rw [nothing]
    exact .same (fun _ _ _ both => reading both.1) rfl rfl le_rfl le_rfl

theorem step_counts (s : Link) (step : LinkStep) : Counts s step (s.step step) := by
  cases step with
  | clientReads => exact clientReads_counts s
  | serverReads => exact serverReads_counts s
  | clientInitiates requestId =>
    unfold Link.step clientInitiates
    dsimp only
    split
    · refine .same trivial rfl rfl (Nat.le_succ _) ?_
      have one : (s.toServer ++ [(Outgoing.heartbeat requestId, Origin.initiated)]).countP opensToServer =
          s.toServer.countP opensToServer + 1 := by simp [opensToServer]
      unfold underway
      dsimp only
      omega
    · exact .same trivial rfl rfl le_rfl le_rfl
  | clientRequests cmd =>
    have commands : ∃ frames : List Outgoing, (s.client.request cmd).2.written = s.client.written ++ frames ∧
        (frames.map (·, Origin.initiated)).countP opensToServer = 0 := by
      unfold ProtocolClient.request
      split
      · exact ⟨[.command (s.client.rid + 1) cmd], rfl, rfl⟩
      · exact ⟨[], (List.append_nil _).symm, rfl⟩
    obtain ⟨frames, written, none_opens⟩ := commands
    refine .same trivial rfl rfl le_rfl ?_
    simp [Link.step, withClient, written, underway, none_opens]
  | clientCloses => exact .same trivial rfl rfl le_rfl le_rfl
  | serverInitiates requestId =>
    unfold Link.step serverInitiates
    dsimp only
    by_cases room : s.HasRoom
    · rw [trySend_room room]
      refine .same trivial rfl rfl (Nat.le_succ _) ?_
      have one : (s.outbound ++ [(Incoming.heartbeat requestId, Origin.initiated)]).countP opensToClient =
          s.outbound.countP opensToClient + 1 := by simp [opensToClient]
      unfold underway
      dsimp only
      omega
    · rw [trySend_full room]
      exact .same trivial rfl rfl le_rfl le_rfl
  | serverSends frame =>
    have kept : ∀ frame : Incoming, opensToClient (frame, .initiated) = false →
        Counts s (.serverSends frame) (s.trySend frame .initiated).2 := by
      intro frame other
      by_cases room : s.HasRoom
      · rw [trySend_room room]
        refine .same trivial rfl rfl le_rfl ?_
        simp [underway, other]
      · rw [trySend_full room]
        exact .same trivial rfl rfl le_rfl le_rfl
    cases frame with
    | heartbeat requestId => exact .same trivial rfl rfl le_rfl le_rfl
    | _ => exact kept _ rfl
  | serverWrites =>
    unfold Link.step serverWrites
    dsimp only
    split
    · exact .same trivial rfl rfl le_rfl le_rfl
    · rename_i entry rest shape
      refine .same trivial rfl rfl le_rfl ?_
      simp only [underway, shape, List.countP_cons, List.countP_append, List.countP_nil]
      omega
  | serverStops => exact .same trivial rfl rfl le_rfl le_rfl
  | serverCloses => exact .same trivial rfl rfl le_rfl le_rfl

/-! ## Runs -/

theorem Counts.counted {step : LinkStep} (counts : Counts s step s') (counted : s.Counted) :
    s'.Counted := by
  cases counts with
  | fair _ _ _ kept | again _ _ kept => exact kept counted

/-- **Heartbeats between two read loops.** In every state of a run of a
connection there are two heartbeats at most for each that was initiated, and no
answer is answered, exactly if no read loop that can send ever gets an answer. -/
theorem heartbeats_die_out_iff (limit : Nat) (steps : List LinkStep) :
    (∀ early, early <+: steps → DiesOut (run step { limit } early)) ↔
      Allowed step FirstHand { limit } steps := by
  refine always_iff (I := DiesOut) (J := Counted) (A := fun _ => True)
    (fun s step _ counted => (step_counts s step).counted counted) (fun s step _ counted dies => ?_)
    ⟨Nat.zero_le _, rfl⟩ (Nat.le_refl _) (fun _ _ => trivial)
  cases step_counts s step with
  | fair fits reanswered initiated kept =>
    refine iff_of_true ⟨?_, reanswered.trans dies.2⟩ fits
    have counted' := kept counted
    have none_again := reanswered.trans dies.2
    unfold Counted at counted'
    unfold sent
    omega
  | again unfit reanswered _ =>
    refine iff_of_false (fun dies' => ?_) unfit
    exact absurd (reanswered.symm.trans dies'.2) (Nat.succ_ne_zero _)

/-- Both loops run, and a single heartbeat is on its way to the server. -/
structure Bouncing (s : Link) : Prop where
  reading : s.client.reading ∧ s.client.connected
  serving : s.serverReading ∧ ¬ s.serverClosed
  heartbeat : ∃ requestId origin, s.toServer = [(.heartbeat requestId, origin)]
  outbound : s.outbound = []
  toClient : s.toClient = []

theorem receive_heartbeat (requestId : Nat) (c : ProtocolClient) :
    (c.receive (.heartbeat requestId)).reading = c.reading ∧
      (c.receive (.heartbeat requestId)).connected = c.connected := by
  unfold ProtocolClient.receive ProtocolClient.readFrame
  split
  · dsimp only
    split <;> exact ⟨rfl, rfl⟩
  · exact ⟨rfl, rfl⟩

theorem countAnswer_frame (s : Link) (origin : Origin) : ∃ answered reanswered,
    s.countAnswer origin = { s with answered, reanswered } ∧
      answered + reanswered = s.answered + s.reanswered + 1 := by
  cases origin with
  | initiated => exact ⟨s.answered + 1, s.reanswered, rfl, by omega⟩
  | answer => exact ⟨s.answered, s.reanswered + 1, rfl, by omega⟩

/-- The heartbeat goes to and fro, and both ends have sent one more. -/
theorem Bouncing.round (bouncing : Bouncing s) :
    let after := run step s [.serverReads, .serverWrites, .clientReads]
    Bouncing after ∧ after.initiated = s.initiated ∧ after.sent = s.sent + 2 := by
  obtain ⟨requestId, origin, shape⟩ := bouncing.heartbeat
  obtain ⟨reading, connected⟩ := receive_heartbeat requestId s.client
  have room : ({ s with toServer := [] } : Link).HasRoom := by
    simp [HasRoom, bouncing.serving.2, bouncing.outbound]
    omega
  obtain ⟨answered, reanswered, counted, one⟩ := countAnswer_frame
    { s with toServer := [], outbound := [(.heartbeat requestId, .answer)] } origin
  have served : s.serverReads = { s with
      toServer := []
      outbound := [(.heartbeat requestId, .answer)]
      answered
      reanswered } := by
    unfold serverReads
    rw [if_pos bouncing.serving.1, shape]
    dsimp only
    rw [trySend_room room, bouncing.outbound]
    exact counted
  have read := clientReads_answers (s := ({ s with
      toServer := []
      outbound := []
      toClient := [(.heartbeat requestId, .answer)]
      answered
      reanswered } : Link)) rfl bouncing.reading
  have all : run step s [.serverReads, .serverWrites, .clientReads] = { s with
      client := s.client.receive (.heartbeat requestId)
      toServer := [(.heartbeat requestId, .answer)]
      outbound := []
      toClient := []
      answered
      reanswered := reanswered + 1 } := by
    simp only [run_cons, run_nil, step, served, serverWrites, bouncing.toClient]
    exact read
  rw [all]
  refine ⟨⟨by rw [reading, connected]; exact bouncing.reading, bouncing.serving,
    ⟨requestId, .answer, rfl⟩, rfl, rfl⟩, rfl, ?_⟩
  unfold sent
  dsimp only at one ⊢
  omega

/-- One heartbeat is enough for any number of them. -/
theorem heartbeats_unbounded (limit n : Nat) : ∃ steps,
    (run step { limit } steps).initiated = 1 ∧ n ≤ (run step { limit } steps).sent := by
  have goes_on : ∃ steps, Bouncing (run step { limit } steps) ∧
      (run step { limit } steps).initiated = 1 ∧ n ≤ (run step { limit } steps).sent := by
    induction n with
    | zero =>
      exact ⟨[.clientInitiates 1], ⟨⟨rfl, rfl⟩, ⟨rfl, nofun⟩, ⟨1, .initiated, rfl⟩, rfl, rfl⟩, rfl,
        Nat.zero_le _⟩
    | succ n ih =>
      obtain ⟨steps, bouncing, initiated, enough⟩ := ih
      obtain ⟨again, same, more⟩ := bouncing.round
      refine ⟨steps ++ [.serverReads, .serverWrites, .clientReads], ?_⟩
      rw [run_append]
      exact ⟨again, same.trans initiated, by omega⟩
  obtain ⟨steps, _, both⟩ := goes_on
  exact ⟨steps, both⟩

/-- The heartbeat that a client initiates comes back, and its answer is answered. -/
theorem answer_answered : ¬ ∀ early, early <+: [LinkStep.clientInitiates 1, .serverReads, .serverWrites,
    .clientReads] → DiesOut (run step { limit := 10 } early) := by
  intro dies
  exact absurd (dies _ List.prefix_rfl).1 (by decide)

end Link
end OneOpenBroker.Broker

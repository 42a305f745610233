import OneOpenBroker.Broker.Outbound
import OneOpenBroker.Client.Connection

/-! A connection from end to end: the requests of a client, the read loop of
the server, `broker/server.py`, its outbound queue with the write loop, and the
read loop of the client that hands responses to the requests. What the handler
answers, the events it pushes meanwhile and the moments at which either end
gives up are left open. -/
namespace OneOpenBroker.Broker
open Collections Systems OneOpenBroker.Client

/-- Where the read loop of a connection stands: at the frames of what it has
read, in `wait_durable` with frames left, or at its end. -/
inductive SessionLoop where
  | serving (frames : List Outgoing)
  | syncing (frames : List Outgoing)
  | leaving
  | left

/-- The two ends, and the frames on their way between them. The last field only
records the answers that were given to requests. -/
structure Session where
  client : ProtocolClient := {}
  toServer : List Outgoing := []
  conn : ClientConnection Incoming
  loop : SessionLoop := .serving []
  toClient : List Incoming := []
  answered : List (Nat × Answer) := []

/-- What happens next. The steps of the client come first, then those of the
read loop, and then those of other tasks of the server. -/
inductive SessionStep where
  | requests (cmd : Request)
  | timesOut (requestId : Nat)
  | clientReads
  | clientStops
  | clientCloses
  | serverReads (count : Nat)
  | serverHandles (answer : Answer) (mustClose : Bool)
  | serverResumes
  | serverRefuses
  | serverRejects
  | serverLeaves
  | pushes (event : Incoming)
  | tasks (step : ConnectionStep Incoming)

/-- The frames that a loop has left, while it goes on. -/
def SessionLoop.frames : SessionLoop → Option (List Outgoing)
  | .serving frames | .syncing frames => some frames
  | .leaving | .left => none

/-- The steps that the client takes. -/
def SessionStep.byClient : SessionStep → Bool
  | .requests _ | .timesOut _ | .clientReads | .clientStops | .clientCloses => true
  | _ => false

namespace Session

/-! ## The client -/

/-- What the client writes goes to the server. -/
def withClient (s : Session) (client : ProtocolClient) : Session :=
  { s with client, toServer := s.toServer ++ client.written.drop s.client.written.length }

def clientReads (s : Session) : Session :=
  match s.toClient with
  | [] => s
  | frame :: rest => { s with toClient := rest }.withClient (s.client.receive frame)

/-! ## The server -/

/-- The head of the loop, and the frames of the bytes that it reads. -/
def serverReads (s : Session) (count : Nat) : Session :=
  match s.loop with
  | .serving [] =>
    if s.conn.closed then { s with loop := .leaving }
    else { s with loop := .serving (s.toServer.take count), toServer := s.toServer.drop count }
  | _ => s

/-- A response of the loop, after which it leaves where there is no room. -/
def respond (s : Session) (response : Incoming) (next : SessionLoop) : Session :=
  match s.conn.trySend response with
  | (true, conn) => { s with conn, loop := next }
  | (false, conn) => { s with conn := conn.send .other, loop := .leaving }

/-- A round of the loop over the frames. -/
def serverHandles (s : Session) (answer : Answer) (mustClose : Bool) : Session :=
  match s.loop with
  | .serving (.heartbeat requestId :: rest) =>
    { s with conn := (s.conn.trySend (.heartbeat requestId)).2, loop := .serving rest }
  | .serving (.command requestId _ :: rest) =>
    { s with answered := s.answered ++ [(requestId, answer)] }.respond (.response requestId answer)
      (if mustClose then .leaving else .syncing rest)
  | _ => s

def serverResumes (s : Session) : Session :=
  match s.loop with
  | .syncing rest => { s with loop := .serving rest }
  | _ => s

/-- The metadata of a command do not parse. -/
def serverRefuses (s : Session) : Session :=
  match s.loop with
  | .serving (.command requestId _ :: _) =>
    { s with
      conn := s.conn.send (.response requestId { ok := false })
      loop := .leaving
      answered := s.answered ++ [(requestId, { ok := false })] }
  | _ => s

/-- The bytes are no frame. -/
def serverRejects (s : Session) : Session :=
  match s.loop with
  | .serving [] => { s with conn := s.conn.send (.response 0 { ok := false }), loop := .leaving }
  | _ => s

/-- The loop ends, also by an exception or where its task is cancelled while a
`send` waits, and `_drop` closes the connection. -/
def serverLeaves (s : Session) : Session :=
  match s.loop with
  | .left => s
  | _ => { s with conn := { s.conn with sending := [] }.close, loop := .left }

/-- A frame that is no response. -/
def pushes (s : Session) (event : Incoming) : Session :=
  match event with
  | .response .. => s
  | event => { s with conn := (s.conn.trySend event).2 }

/-- Another task queues nothing; what the write loop writes goes to the client. -/
def tasks (s : Session) (step : ConnectionStep Incoming) : Session :=
  match step with
  | .trySend _ | .send _ => s
  | step =>
    let conn := s.conn.step step
    { s with conn, toClient := s.toClient ++ conn.written.drop s.conn.written.length }

def step (s : Session) : SessionStep → Session
  | .requests cmd => s.withClient (s.client.request cmd).2
  | .timesOut requestId => { s with client := s.client.settle requestId none }
  | .clientReads => s.clientReads
  | .clientStops => { s with client := s.client.stopReading }
  | .clientCloses => { s with client := s.client.close }
  | .serverReads count => s.serverReads count
  | .serverHandles answer mustClose => s.serverHandles answer mustClose
  | .serverResumes => s.serverResumes
  | .serverRefuses => s.serverRefuses
  | .serverRejects => s.serverRejects
  | .serverLeaves => s.serverLeaves
  | .pushes event => s.pushes event
  | .tasks step => s.tasks step

/-- A connection that was just made. -/
def opened (limit : Nat) : Session := { conn := { limit } }

/-! ## What the client writes and awaits -/

/-- The numbers of the requests among the frames. -/
def numbers (frames : List Outgoing) : List Nat :=
  frames.filterMap fun
    | .command requestId _ => some requestId
    | .heartbeat _ => none

@[simp] theorem numbers_append (first second : List Outgoing) :
    numbers (first ++ second) = numbers first ++ numbers second := List.filterMap_append

/-- What a client writes goes on with the numbers of its requests. -/
structure Speaks (c c' : ProtocolClient) (frames : List Outgoing) : Prop where
  written : c'.written = c.written ++ frames
  counted : List.range' 1 c'.rid = List.range' 1 c.rid ++ numbers frames

/-- Every request is pending or done, and none is pending once the client is closed. -/
structure Awaits (c : ProtocolClient) : Prop where
  single : c.pending.Nodup
  known : ∀ n, n ∈ c.pending ∨ n ∈ c.done ↔ 1 ≤ n ∧ n ≤ c.rid
  apart : ∀ n ∈ c.pending, n ∉ c.done
  closed : c.connected = false → c.pending = []

variable {c : ProtocolClient} {n : Nat} {result : Option Answer} {answer : Answer}

theorem settle_keeps : (c.settle n result).written = c.written ∧ (c.settle n result).rid = c.rid ∧
    (c.settle n result).connected = c.connected := by
  unfold ProtocolClient.settle
  split <;> exact ⟨rfl, rfl, rfl⟩

theorem stopReading_keeps : c.stopReading.written = c.written ∧ c.stopReading.rid = c.rid ∧
    c.stopReading.connected = c.connected := by
  have all (rids : List Nat) : ∀ c : ProtocolClient,
      (rids.foldl (fun c rid => c.settle rid none) c).rid = c.rid ∧
      (rids.foldl (fun c rid => c.settle rid none) c).connected = c.connected := by
    induction rids with
    | nil => exact fun _ => ⟨rfl, rfl⟩
    | cons rid rest ih =>
      intro c
      obtain ⟨rid', connected⟩ := ih (c.settle rid none)
      exact ⟨rid'.trans settle_keeps.2.1, connected.trans settle_keeps.2.2⟩
  exact ⟨ProtocolClient.stopReading_written, all c.pending c⟩

theorem Speaks.silent {c' : ProtocolClient} (written : c'.written = c.written) (rid : c'.rid = c.rid) :
    Speaks c c' [] := ⟨by rw [written, List.append_nil], by rw [rid]; exact (List.append_nil _).symm⟩

theorem request_speaks (cmd : Request) : ∃ frames, Speaks c (c.request cmd).2 frames := by
  unfold ProtocolClient.request
  split
  · exact ⟨[.command (c.rid + 1) cmd], rfl, by simp [List.range'_concat, numbers, Nat.add_comm]⟩
  · exact ⟨[], .silent rfl rfl⟩

theorem receive_speaks (frame : Incoming) : ∃ frames, Speaks c (c.receive frame) frames := by
  unfold ProtocolClient.receive
  split
  · cases frame with
    | heartbeat n =>
      unfold ProtocolClient.readFrame
      dsimp only
      split
      · exact ⟨[.heartbeat n], rfl, (List.append_nil _).symm⟩
      · exact ⟨[], .silent rfl rfl⟩
    | response n answer => exact ⟨[], .silent settle_keeps.1 settle_keeps.2.1⟩
    | malformed => exact ⟨[], .silent stopReading_keeps.1 stopReading_keeps.2.1⟩
    | deliver | pubsubMessage | other => exact ⟨[], .silent rfl rfl⟩
  · exact ⟨[], .silent rfl rfl⟩

theorem request_awaits (awaits : Awaits c) (cmd : Request) : Awaits (c.request cmd).2 := by
  unfold ProtocolClient.request
  split
  · rename_i connected
    have fresh : c.rid + 1 ∉ c.pending ∧ c.rid + 1 ∉ c.done := by
      refine ⟨fun there => ?_, fun there => ?_⟩
      · have bound := ((awaits.known (c.rid + 1)).mp (.inl there)).2
        omega
      · have bound := ((awaits.known (c.rid + 1)).mp (.inr there)).2
        omega
    refine ⟨?_, fun n => ?_, fun n there => ?_, fun closed => ?_⟩
    · exact List.nodup_append.mpr ⟨awaits.single, List.nodup_singleton _, by
        rintro n old _ (_ | ⟨_, ⟨⟩⟩) rfl
        exact fresh.1 old⟩
    · have known := awaits.known n
      simp only [List.mem_append, List.mem_singleton]
      constructor
      · rintro ((old | rfl) | done)
        · have bound := known.mp (.inl old)
          omega
        · omega
        · have bound := known.mp (.inr done)
          omega
      · rintro ⟨low, high⟩
        by_cases last : n = c.rid + 1
        · exact .inl (.inr last)
        · exact (known.mpr ⟨low, by omega⟩).imp .inl id
    · rcases List.mem_append.mp there with old | last
      · exact awaits.apart n old
      · rw [List.mem_singleton.mp last]
        exact fresh.2
    · exact absurd connected (by simpa using closed)
  · exact awaits

theorem settle_awaits (awaits : Awaits c) : Awaits (c.settle n result) := by
  unfold ProtocolClient.settle
  split
  · rename_i pending
    refine ⟨awaits.single.filter _, fun m => ?_, fun m there => ?_, fun closed => ?_⟩
    · rw [← awaits.known m, List.mem_filter, decide_eq_true_eq, Dict.mem_set]
      by_cases here : m = n
      · simp [here, pending]
      · simp [here]
    · obtain ⟨old, differ⟩ := List.mem_filter.mp there
      rw [Dict.mem_set]
      rintro (same | done)
      · exact (of_decide_eq_true differ) same
      · exact awaits.apart m old done
    · change c.pending.filter _ = []
      rw [awaits.closed closed]
      rfl
  · exact awaits

/-- When reading stops no request is pending. -/
theorem stopReading_awaits (awaits : Awaits c) : Awaits c.stopReading ∧ c.stopReading.pending = [] := by
  have all (rids : List Nat) : ∀ c : ProtocolClient, Awaits c → (∀ n ∈ c.pending, n ∈ rids) →
      Awaits (rids.foldl (fun c rid => c.settle rid none) c) ∧
        (rids.foldl (fun c rid => c.settle rid none) c).pending = [] := by
    induction rids with
    | nil => exact fun c awaits none => ⟨awaits, List.eq_nil_iff_forall_not_mem.mpr fun n there => by
        cases none n there⟩
    | cons rid rest ih =>
      intro c awaits listed
      refine ih (c.settle rid none) (settle_awaits awaits) fun n there => ?_
      unfold ProtocolClient.settle at there
      split at there
      · obtain ⟨old, differ⟩ := List.mem_filter.mp there
        exact (List.mem_cons.mp (listed n old)).resolve_left (of_decide_eq_true differ)
      · rename_i absent
        refine (List.mem_cons.mp (listed n there)).resolve_left ?_
        rintro rfl
        exact absent there
  obtain ⟨awaits', none⟩ := all c.pending c awaits fun _ there => there
  exact ⟨⟨awaits'.single, awaits'.known, awaits'.apart, awaits'.closed⟩, none⟩

theorem receive_awaits (awaits : Awaits c) (frame : Incoming) : Awaits (c.receive frame) := by
  unfold ProtocolClient.receive
  split
  · cases frame with
    | heartbeat n =>
      unfold ProtocolClient.readFrame
      dsimp only
      split
      · exact ⟨awaits.single, awaits.known, awaits.apart, awaits.closed⟩
      · exact awaits
    | response n answer => exact settle_awaits awaits
    | malformed => exact (stopReading_awaits awaits).1
    | deliver | pubsubMessage | other => exact ⟨awaits.single, awaits.known, awaits.apart, awaits.closed⟩
  · exact awaits

theorem settle_done {m : Nat} (done : (c.settle m result).done.get? n = some (some answer)) :
    c.done.get? n = some (some answer) ∨ m = n ∧ result = some answer ∧ n ∈ c.pending := by
  unfold ProtocolClient.settle at done
  split at done
  · rename_i pending
    rw [Dict.get?_set] at done
    split at done
    · rename_i same
      exact .inr ⟨same.symm, Option.some.inj done, same ▸ pending⟩
    · exact .inl done
  · exact .inl done

theorem stopReading_done (done : c.stopReading.done.get? n = some (some answer)) :
    c.done.get? n = some (some answer) := by
  have all (rids : List Nat) : ∀ c : ProtocolClient,
      (rids.foldl (fun c rid => c.settle rid none) c).done.get? n = some (some answer) →
      c.done.get? n = some (some answer) := by
    induction rids with
    | nil => exact fun _ done => done
    | cons rid rest ih => exact fun c done => (settle_done (ih _ done)).resolve_right (by simp)
  exact all c.pending c done

/-- An answer that a client has was in a response to a request that was pending. -/
theorem receive_done {frame : Incoming} (done : (c.receive frame).done.get? n = some (some answer)) :
    c.done.get? n = some (some answer) ∨ frame = .response n answer ∧ n ∈ c.pending := by
  unfold ProtocolClient.receive at done
  split at done
  · cases frame with
    | heartbeat m =>
      unfold ProtocolClient.readFrame at done
      dsimp only at done
      split at done <;> exact .inl done
    | response m told =>
      rcases settle_done done with old | ⟨rfl, same, pending⟩
      · exact .inl old
      · exact .inr ⟨by rw [Option.some.inj same], pending⟩
    | malformed => exact .inl (stopReading_done done)
    | deliver | pubsubMessage | other => exact .inl done
  · exact .inl done

/-! ## What the server answers -/

/-- The responses among the frames, but for those to no request. -/
def responses (frames : List Incoming) : List (Nat × Answer) :=
  frames.filterMap fun
    | .response requestId answer => if requestId = 0 then none else some (requestId, answer)
    | _ => none

@[simp] theorem responses_append (first second : List Incoming) :
    responses (first ++ second) = responses first ++ responses second := List.filterMap_append

/-- The requests are answered in their order, as long as the loop goes on, and
every response that is queued, or waits to be, is one of the answers. -/
structure Replies (s : Session) : Prop where
  order : ∃ later, s.answered.map (·.1) ++ later = List.range' 1 s.client.rid ∧
    ∀ frames, s.loop.frames = some frames → later = numbers frames ++ numbers s.toServer
  replies : (responses (s.conn.queued ++ s.conn.sending)).Sublist s.answered
  waits : s.conn.sending = [] ∨ s.loop.frames = none ∧ ∃ frame, s.conn.sending = [frame]
  outbound : ∀ frame, some frame ∈ s.conn.outbound → frame ∈ s.conn.queued
  toClient : ∀ frame ∈ s.toClient, frame ∈ s.conn.queued

variable {s : Session} {conn : ClientConnection Incoming} {frame : Incoming}

/-- A frame that is read was queued for a request, or for none. -/
theorem Replies.given (replies : Replies s) {requestId : Nat} (positive : requestId ≠ 0)
    (queued : .response requestId answer ∈ s.conn.queued) : (requestId, answer) ∈ s.answered := by
  refine replies.replies.subset ?_
  rw [responses_append]
  exact List.mem_append_left _ (List.mem_filterMap.mpr ⟨_, queued, by simp [positive]⟩)

/-- The client writes, and may have read the first frame. -/
theorem Replies.client (replies : Replies s) {client : ProtocolClient} {frames : List Outgoing}
    {rest : List Incoming} (speaks : Speaks s.client client frames) (left : rest ⊆ s.toClient) :
    Replies ({ s with toClient := rest }.withClient client) := by
  obtain ⟨later, all, going⟩ := replies.order
  have sent : client.written.drop s.client.written.length = frames := by
    rw [speaks.written, List.drop_left]
  refine ⟨⟨later ++ numbers frames, ?_, fun rest running => ?_⟩, replies.replies, replies.waits,
    replies.outbound, fun frame there => replies.toClient frame (left there)⟩
  · change s.answered.map (·.1) ++ _ = List.range' 1 client.rid
    rw [← List.append_assoc, all, speaks.counted]
  · change later ++ numbers frames = _ ++ numbers (s.toServer ++ client.written.drop _)
    rw [going rest running, sent, numbers_append, List.append_assoc]

/-- The client writes nothing. -/
theorem Replies.quietClient (replies : Replies s) {client : ProtocolClient}
    (speaks : Speaks s.client client []) : Replies { s with client } := by
  have same := replies.client speaks (List.Subset.refl _)
  rwa [withClient, speaks.written, List.append_nil, List.drop_length, List.append_nil] at same

/-- The loop goes on with the requests that it has left, or ends. -/
theorem Replies.proceed (replies : Replies s) {loop : SessionLoop}
    (same : ∀ frames, loop.frames = some frames →
      ∃ before, s.loop.frames = some before ∧ numbers frames = numbers before) :
    Replies { s with loop } := by
  obtain ⟨later, all, going⟩ := replies.order
  refine ⟨⟨later, all, fun frames running => ?_⟩, replies.replies, ?_, replies.outbound,
    replies.toClient⟩
  · obtain ⟨before, was, equal⟩ := same frames running
    rw [equal]
    exact going before was
  · refine replies.waits.imp_right fun ⟨ended, one⟩ => ⟨?_, one⟩
    cases running : loop.frames with
    | none => rfl
    | some frames =>
      obtain ⟨before, was, _⟩ := same frames running
      exact absurd (ended.symm.trans was) (by simp)

/-- A loop that has frames left does not wait for room. -/
theorem Replies.idle (replies : Replies s) {frames : List Outgoing}
    (running : s.loop.frames = some frames) : s.conn.sending = [] :=
  replies.waits.resolve_right fun ended => absurd (ended.1.symm.trans running) (by simp)

/-- A frame is put on the queue, with its answer recorded if it is a response. -/
theorem Replies.put (replies : Replies s) (frame : Incoming) (more : List (Nat × Answer))
    (loop : SessionLoop) (idle : s.conn.sending = [] ∨ responses [frame] = [])
    (recorded : (responses [frame]).Sublist more)
    (order : ∃ later, (s.answered ++ more).map (·.1) ++ later = List.range' 1 s.client.rid ∧
      ∀ frames, loop.frames = some frames → later = numbers frames ++ numbers s.toServer)
    (waits : s.conn.sending = [] ∨ loop.frames = none ∧ ∃ frame, s.conn.sending = [frame]) :
    Replies { s with conn := s.conn.put frame, loop, answered := s.answered ++ more } := by
  refine ⟨order, ?_, waits, fun data there => ?_, fun data there => ?_⟩
  · have before := replies.replies
    simp only [ClientConnection.put, responses_append] at before ⊢
    rcases idle with none | silent
    · rw [none] at before ⊢
      have grown : (responses s.conn.queued).Sublist s.answered := by simpa [responses] using before
      simpa [responses] using grown.append recorded
    · rw [silent, List.append_nil]
      exact before.trans (List.sublist_append_left _ _)
  · rcases List.mem_append.mp there with old | new
    · exact List.mem_append_left _ (replies.outbound data old)
    · exact List.mem_append_right _ (by simpa using new)
  · exact List.mem_append_left _ (replies.toClient data there)

/-- A frame that is no response is put on the queue or refused. -/
theorem Replies.trySend (replies : Replies s) {frame : Incoming} (silent : responses [frame] = []) :
    Replies { s with conn := (s.conn.trySend frame).2 } := by
  unfold ClientConnection.trySend
  split
  · exact replies
  · have posted := replies.put frame [] s.loop (.inr silent) (by rw [silent])
      (by rw [List.append_nil]; exact replies.order) replies.waits
    rwa [List.append_nil] at posted

/-- The last frame of a loop that leaves: it is queued, waits for room, or is
refused by a closed connection. -/
theorem Replies.leave (replies : Replies s) (frame : Incoming) (more : List (Nat × Answer))
    (idle : s.conn.sending = []) (recorded : (responses [frame]).Sublist more)
    (order : ∃ later, (s.answered ++ more).map (·.1) ++ later = List.range' 1 s.client.rid) :
    Replies { s with conn := s.conn.send frame, loop := .leaving, answered := s.answered ++ more } := by
  obtain ⟨later, all⟩ := order
  have ended : ∃ later, (s.answered ++ more).map (·.1) ++ later = List.range' 1 s.client.rid ∧
      ∀ frames, SessionLoop.leaving.frames = some frames → later = numbers frames ++ numbers s.toServer :=
    ⟨later, all, nofun⟩
  have before : (responses s.conn.queued).Sublist s.answered := by
    have queued := replies.replies
    rwa [idle, List.append_nil] at queued
  unfold ClientConnection.send
  split
  · refine ⟨ended, ?_, .inl idle, replies.outbound, replies.toClient⟩
    exact replies.replies.trans (List.sublist_append_left _ _)
  · split
    · refine ⟨ended, ?_, .inr ⟨rfl, frame, by simp [idle]⟩, replies.outbound, replies.toClient⟩
      simpa [idle] using before.append recorded
    · exact replies.put frame more .leaving (.inl idle) recorded ended (.inl idle)

/-- The request that is at the front gets its answer. -/
theorem Replies.next (replies : Replies s) (result : Answer) {requestId : Nat} {cmd : Request}
    {rest : List Outgoing} (serving : s.loop = .serving (.command requestId cmd :: rest)) :
    s.conn.sending = [] ∧ ∃ later, (s.answered ++ [(requestId, result)]).map (·.1) ++ later =
      List.range' 1 s.client.rid ∧ later = numbers rest ++ numbers s.toServer := by
  have running : s.loop.frames = some (.command requestId cmd :: rest) := by rw [serving]; rfl
  obtain ⟨later, all, going⟩ := replies.order
  refine ⟨replies.idle running, _, ?_, rfl⟩
  rw [← all, going _ running]
  simp [numbers]

/-- A response to a request is the answer to it, and one to no request is none. -/
theorem responses_response (requestId : Nat) (result : Answer) :
    (responses [.response requestId result]).Sublist [(requestId, result)] := by
  by_cases zero : requestId = 0 <;> simp [responses, zero]

theorem Replies.serverHandles (replies : Replies s) (result : Answer) (mustClose : Bool) :
    Replies (s.serverHandles result mustClose) := by
  unfold Session.serverHandles
  split
  · rename_i requestId rest serving
    have posted : Replies { s with conn := (s.conn.trySend (.heartbeat requestId)).2 } :=
      replies.trySend rfl
    refine posted.proceed fun frames running => ⟨.heartbeat requestId :: rest, ?_, ?_⟩
    · change s.loop.frames = _
      rw [serving]
      rfl
    · cases running
      rfl
  · rename_i requestId cmd rest serving
    obtain ⟨idle, later, all, left⟩ := replies.next result serving
    unfold respond ClientConnection.trySend
    dsimp only
    split
    · rename_i closed
      split at closed
      · cases closed
      · cases closed
        refine replies.put (.response requestId result) [(requestId, result)]
          (if mustClose then .leaving else .syncing rest) (.inl idle) (responses_response _ _)
          ⟨later, all, fun frames running => ?_⟩ (.inl idle)
        cases mustClose with
        | true => cases running
        | false =>
          cases running
          exact left
    · rename_i refused
      split at refused
      · cases refused
        exact replies.leave .other [(requestId, result)] idle (List.nil_sublist _) ⟨later, all⟩
      · cases refused
  · exact replies

theorem Replies.serverReads (replies : Replies s) (count : Nat) : Replies (s.serverReads count) := by
  unfold Session.serverReads
  split
  · rename_i serving
    split
    · exact replies.proceed nofun
    · have running : s.loop.frames = some [] := by rw [serving]; rfl
      obtain ⟨later, all, going⟩ := replies.order
      refine ⟨⟨later, all, fun frames reads => ?_⟩, replies.replies, .inl (replies.idle running),
        replies.outbound, replies.toClient⟩
      cases reads
      change later = numbers (s.toServer.take count) ++ numbers (s.toServer.drop count)
      rw [← numbers_append, List.take_append_drop]
      exact going [] running
  · exact replies

theorem Replies.serverResumes (replies : Replies s) : Replies s.serverResumes := by
  unfold Session.serverResumes
  split
  · rename_i rest syncing
    refine replies.proceed fun frames running => ⟨frames, ?_, rfl⟩
    rw [syncing, ← running]
    rfl
  · exact replies

theorem Replies.serverRefuses (replies : Replies s) : Replies s.serverRefuses := by
  unfold Session.serverRefuses
  split
  · rename_i requestId cmd rest serving
    obtain ⟨idle, later, all, _⟩ := replies.next { ok := false } serving
    exact replies.leave _ _ idle (responses_response _ _) ⟨later, all⟩
  · exact replies

theorem Replies.serverRejects (replies : Replies s) : Replies s.serverRejects := by
  unfold Session.serverRejects
  split
  · rename_i serving
    have running : s.loop.frames = some [] := by rw [serving]; rfl
    obtain ⟨later, all, _⟩ := replies.order
    have left := replies.leave (.response 0 { ok := false }) [] (replies.idle running)
      (List.Sublist.refl _) ⟨later, by rwa [List.append_nil]⟩
    rwa [List.append_nil] at left
  · exact replies

/-- The connection has queued nothing, and gives the client what was queued. -/
theorem Replies.withConn (replies : Replies s) {toClient : List Incoming}
    (queued : conn.queued = s.conn.queued) (sending : conn.sending = s.conn.sending)
    (outbound : ∀ frame, some frame ∈ conn.outbound → some frame ∈ s.conn.outbound)
    (given : ∀ frame ∈ toClient, frame ∈ s.conn.queued) : Replies { s with conn, toClient } := by
  refine ⟨replies.order, ?_, ?_, fun frame there => ?_, fun frame there => ?_⟩
  · change (responses (conn.queued ++ conn.sending)).Sublist _
    rw [queued, sending]
    exact replies.replies
  · change conn.sending = [] ∨ _ ∧ ∃ frame, conn.sending = [frame]
    rw [sending]
    exact replies.waits
  · change frame ∈ conn.queued
    rw [queued]
    exact replies.outbound frame (outbound frame there)
  · change frame ∈ conn.queued
    rw [queued]
    exact given frame there

/-- What a close leaves on the queue was there, but for the `None`. -/
theorem Replies.close (replies : Replies s) : Replies { s with conn := s.conn.close } := by
  unfold ClientConnection.close
  split
  · exact replies
  · split
    · refine replies.withConn rfl rfl (fun frame there => ?_) replies.toClient
      exact List.mem_of_mem_tail ((List.mem_append.mp there).resolve_right (by simp))
    · refine replies.withConn rfl rfl (fun frame there => ?_) replies.toClient
      exact (List.mem_append.mp there).resolve_right (by simp)

theorem Replies.serverLeaves (replies : Replies s) : Replies s.serverLeaves := by
  unfold Session.serverLeaves
  split
  · exact replies
  · have dropped : Replies { s with conn := { s.conn with sending := [] } } := by
      refine ⟨replies.order, ?_, .inl rfl, replies.outbound, replies.toClient⟩
      have replied := replies.replies
      rw [responses_append] at replied ⊢
      exact (List.append_sublist_append_left _).mpr (List.nil_sublist _) |>.trans replied
    exact dropped.close.proceed nofun

theorem Replies.pushes (replies : Replies s) (event : Incoming) : Replies (s.pushes event) := by
  cases event with
  | response => exact replies
  | heartbeat | deliver | pubsubMessage | other | malformed => exact replies.trySend rfl

/-- The frame that the write loop takes is written to the client. -/
theorem Replies.write (replies : Replies s) : Replies { s with
    conn := s.conn.write
    toClient := s.toClient ++ s.conn.write.written.drop s.conn.written.length } := by
  unfold ClientConnection.write
  split
  · rename_i rest _ front
    refine replies.withConn rfl rfl (fun frame there => ?_) fun frame there => ?_
    · rw [front]
      exact List.mem_cons_of_mem _ there
    · exact replies.toClient frame (by simpa using there)
  · rename_i data rest _ front
    refine replies.withConn rfl rfl (fun frame there => ?_) fun frame there => ?_
    · rw [front]
      exact List.mem_cons_of_mem _ there
    · rcases List.mem_append.mp there with old | new
      · exact replies.toClient frame old
      · refine replies.outbound frame ?_
        rw [front]
        simp only [List.drop_left, List.mem_singleton] at new
        rw [new]
        exact List.mem_cons_self
  · rw [List.drop_length, List.append_nil]
    exact replies

/-- The frame that waits for room is queued once there is. -/
theorem Replies.resume (replies : Replies s) (i : Nat) : Replies { s with conn := s.conn.resume i } := by
  unfold ClientConnection.resume
  split
  · exact replies
  · rename_i data found
    split
    · exact replies
    · rcases replies.waits with none | ⟨_, last, one⟩
      · simp [none] at found
      · obtain rfl : i = 0 := by
          by_contra later
          rw [one, List.getElem?_eq_none (by simp; omega)] at found
          cases found
        obtain rfl : last = data := by simpa [one] using found
        have replied := replies.replies
        rw [one] at replied
        refine ⟨replies.order, ?_, .inl (by simp [one]), fun frame there => ?_, fun frame there => ?_⟩
        · simpa [ClientConnection.put, one] using replied
        · rcases List.mem_append.mp there with old | new
          · exact List.mem_append_left _ (replies.outbound frame old)
          · exact List.mem_append_right _ (by simpa using new)
        · exact List.mem_append_left _ (replies.toClient frame there)

theorem Replies.tasks (replies : Replies s) (op : ConnectionStep Incoming) : Replies (s.tasks op) := by
  have quiet (conn : ClientConnection Incoming) (after : Replies { s with conn })
      (written : conn.written = s.conn.written) :
      Replies { s with conn, toClient := s.toClient ++ conn.written.drop s.conn.written.length } := by
    rwa [written, List.drop_length, List.append_nil]
  cases op with
  | trySend | send => exact replies
  | write => exact replies.write
  | resume i =>
    refine quiet (s.conn.resume i) (replies.resume i) ?_
    unfold ClientConnection.resume
    split
    · rfl
    · split <;> rfl
  | close =>
    refine quiet s.conn.close replies.close ?_
    unfold ClientConnection.close
    split
    · rfl
    · split <;> rfl
  | drained =>
    refine quiet s.conn.drained ?_ ?_ <;> unfold ClientConnection.drained <;> split
    · exact replies.withConn rfl rfl (fun _ there => there) replies.toClient
    · exact replies
    · rfl
    · rfl
  | fail =>
    refine quiet s.conn.fail ?_ ?_ <;> unfold ClientConnection.fail <;> split
    · exact replies
    · exact replies.withConn rfl rfl (fun _ there => there) replies.toClient
    · rfl
    · rfl

/-! ## Runs -/

/-- Both ends, and the answers that the client has. -/
structure Holds (s : Session) : Prop where
  replies : Replies s
  awaits : Awaits s.client
  given : ∀ n answer, s.client.done.get? n = some (some answer) → (n, answer) ∈ s.answered

/-- A step of the server only adds to the answers. -/
theorem Holds.serves {s' : Session} (holds : Holds s) (replies : Replies s')
    (adds : s'.client = s.client ∧ s.answered ⊆ s'.answered) : Holds s' :=
  ⟨replies, adds.1 ▸ holds.awaits, fun n answer done =>
    adds.2 (holds.given n answer (adds.1 ▸ done))⟩

theorem serves_adds (op : SessionStep) (server : op.byClient = false) :
    (s.step op).client = s.client ∧ s.answered ⊆ (s.step op).answered := by
  have quiet : s.client = s.client ∧ s.answered ⊆ s.answered := ⟨rfl, List.Subset.refl _⟩
  cases op with
  | requests | timesOut | clientReads | clientStops | clientCloses => cases server
  | serverReads count =>
    rw [Session.step, Session.serverReads]
    split
    · split <;> exact quiet
    · exact quiet
  | serverHandles result mustClose =>
    rw [Session.step, Session.serverHandles]
    split
    · exact quiet
    · unfold respond
      dsimp only
      split <;> exact ⟨rfl, List.subset_append_left _ _⟩
    · exact quiet
  | serverResumes =>
    rw [Session.step, Session.serverResumes]
    split <;> exact quiet
  | serverRefuses =>
    rw [Session.step, Session.serverRefuses]
    split
    · exact ⟨rfl, List.subset_append_left _ _⟩
    · exact quiet
  | serverRejects =>
    rw [Session.step, Session.serverRejects]
    split <;> exact quiet
  | serverLeaves =>
    rw [Session.step, Session.serverLeaves]
    split <;> exact quiet
  | pushes event => cases event <;> exact quiet
  | tasks op => cases op <;> exact quiet

theorem Holds.step (holds : Holds s) (op : SessionStep) : Holds (s.step op) := by
  cases op with
  | requests cmd =>
    obtain ⟨frames, speaks⟩ := request_speaks cmd
    refine ⟨holds.replies.client speaks (List.Subset.refl _), request_awaits holds.awaits cmd,
      fun n answer done => holds.given n answer ?_⟩
    change (s.client.request cmd).2.done.get? n = _ at done
    unfold ProtocolClient.request at done
    split at done <;> exact done
  | timesOut requestId =>
    have speaks : Speaks s.client (s.client.settle requestId none) [] :=
      .silent settle_keeps.1 settle_keeps.2.1
    refine ⟨holds.replies.quietClient speaks, settle_awaits holds.awaits, fun n answer done => ?_⟩
    exact holds.given n answer ((settle_done done).resolve_right (by simp))
  | clientReads =>
    rw [Session.step, Session.clientReads]
    split
    · exact holds
    · rename_i frame rest front
      obtain ⟨frames, speaks⟩ := receive_speaks (c := s.client) frame
      have left : rest ⊆ s.toClient := by
        rw [front]
        exact List.subset_cons_self _ _
      refine ⟨holds.replies.client speaks left, receive_awaits holds.awaits frame, fun n answer done => ?_⟩
      rcases receive_done done with old | ⟨rfl, pending⟩
      · exact holds.given n answer old
      · have known := (holds.awaits.known n).mp (.inl pending)
        exact holds.replies.given (by omega) (holds.replies.toClient _ (by rw [front]; exact List.mem_cons_self))
  | clientStops =>
    have speaks : Speaks s.client s.client.stopReading [] :=
      .silent stopReading_keeps.1 stopReading_keeps.2.1
    exact ⟨holds.replies.quietClient speaks, (stopReading_awaits holds.awaits).1,
      fun n answer done => holds.given n answer (stopReading_done done)⟩
  | clientCloses =>
    have speaks : Speaks s.client s.client.close [] :=
      .silent stopReading_keeps.1 stopReading_keeps.2.1
    obtain ⟨awaits, none⟩ := stopReading_awaits holds.awaits
    exact ⟨holds.replies.quietClient speaks, ⟨awaits.single, awaits.known, awaits.apart, fun _ => none⟩,
      fun n answer done => holds.given n answer (stopReading_done done)⟩
  | serverReads count => exact holds.serves (holds.replies.serverReads count) (serves_adds _ rfl)
  | serverHandles result mustClose =>
    exact holds.serves (holds.replies.serverHandles result mustClose) (serves_adds _ rfl)
  | serverResumes => exact holds.serves holds.replies.serverResumes (serves_adds _ rfl)
  | serverRefuses => exact holds.serves holds.replies.serverRefuses (serves_adds _ rfl)
  | serverRejects => exact holds.serves holds.replies.serverRejects (serves_adds _ rfl)
  | serverLeaves => exact holds.serves holds.replies.serverLeaves (serves_adds _ rfl)
  | pushes event => exact holds.serves (holds.replies.pushes event) (serves_adds _ rfl)
  | tasks op => exact holds.serves (holds.replies.tasks op) (serves_adds _ rfl)

theorem opened_holds (limit : Nat) : Holds (opened limit) := by
  refine ⟨⟨⟨[], rfl, fun frames running => ?_⟩, List.Sublist.refl _, .inl rfl, ?_, ?_⟩,
    ⟨List.nodup_nil, fun n => ?_, ?_, fun _ => rfl⟩, ?_⟩
  · cases running
    rfl
  · rintro frame ⟨⟩
  · rintro frame ⟨⟩
  · simp only [opened, List.not_mem_nil, false_or]
    exact ⟨fun done => (Dict.not_mem_empty done).elim, fun ⟨low, high⟩ => by omega⟩
  · rintro n ⟨⟩
  · rintro n answer ⟨⟩

theorem run_holds (limit : Nat) (steps : List SessionStep) : Holds (run step (opened limit) steps) :=
  run_invariant (fun _ op holds => holds.step op) (opened_holds limit)

/-- **Requests are answered.** Whatever the two ends do, the requests that were
answered are the first ones of the client, each with one answer, and the
responses that were sent are answers, in their order. A request that the client
has not heard of waits, and none waits once the client is closed; one that is
done has failed, or has the answer that was given to it. -/
theorem requests_answered (limit : Nat) (steps : List SessionStep) {s : Session}
    (after : run step (opened limit) steps = s) :
    (s.answered.map (·.1) = List.range' 1 s.answered.length ∧ s.answered.length ≤ s.client.rid) ∧
    (responses s.conn.queued).Sublist s.answered ∧
    (∀ n answer, s.client.done.get? n = some (some answer) → (n, answer) ∈ s.answered) ∧
    s.client.pending.Nodup ∧ (∀ n ∈ s.client.pending, n ∉ s.client.done) ∧
    (∀ n, n ∈ s.client.pending ∨ n ∈ s.client.done ↔ 1 ≤ n ∧ n ≤ s.client.rid) ∧
    (s.client.connected = false → s.client.pending = []) := by
  have holds : Holds s := after ▸ run_holds limit steps
  obtain ⟨later, all, _⟩ := holds.replies.order
  refine ⟨?_, ?_, holds.given, holds.awaits.single, holds.awaits.apart, holds.awaits.known,
    holds.awaits.closed⟩
  · have count : s.answered.length + later.length = s.client.rid := by
      simpa using congrArg List.length all
    refine ⟨?_, by omega⟩
    have taken := congrArg (List.take s.answered.length) all
    rw [← count, ← List.range'_append_1] at taken
    simpa [List.take_append_of_le_length] using taken
  · have sent := holds.replies.replies
    rw [responses_append] at sent
    exact (List.sublist_append_left _ _).trans sent

/-- A request is answered, and another one fails when the client closes. -/
def askTwice : List SessionStep :=
  [.requests .other, .serverReads 1, .serverHandles { ok := true } false, .tasks .write, .requests .other,
    .clientReads, .clientCloses]

theorem requests_answered_twice :
    (run step (opened 4) askTwice).client.done.get? 1 = some (some { ok := true }) ∧
    (run step (opened 4) askTwice).client.done.get? 2 = some none ∧
    (1, { ok := true }) ∈ (run step (opened 4) askTwice).answered :=
  ⟨rfl, rfl, (requests_answered 4 askTwice rfl).2.2.1 1 _ rfl⟩

end Session
end OneOpenBroker.Broker

import OneOpenBroker.Protocol.Metadata
import OneOpenBroker.Protocol.Packets

/-! What goes over a connection. The two ends write messages as frames with
JSON metadata, `protocol/codec.py`, and read them in loops over the frames of
each chunk, `_read_loop` of the server and of the client. What a loop does with
its frames is modelled up to the handler, which may end the server's loop with
its answer, and the waiting requests. -/
namespace OneOpenBroker.Protocol
open Collections Streams OneOpenBroker.Untyped JsonValue FrameReader

def frameHeartbeat : Nat := 4

variable {φ ω σ α : Type*} (format : FloatFormat φ) (crc32 : List UInt8 → UInt32)

/-! ## Writing -/

/-- The metadata of a frame. -/
abbrev Fields (φ : Type*) := Dict Text (JsonValue φ)

/-- `given or default`. -/
def orDefault (given : Option Text) (default : Text) : Text :=
  match given with
  | none | some [] => default
  | some t => t

/-- A frame with its metadata, unless `_dumps` or `pack` raises. -/
def framed (frameType requestId : Nat) (fields : Fields φ) (payload : List UInt8) :
    Option (List UInt8) :=
  match (JsonValue.dict fields.entries).dumpsMeta format with
  | .error _ => none
  | .ok metadata => encodeFrame crc32 { frameType, requestId, metadata, payload }

def commandFields (cmd : Text) (extra : Fields φ) : Fields φ :=
  (Dict.set ∅ (text "cmd") (.text cmd)).update extra

def commandFrame (requestId : Nat) (cmd : Text) (extra : Fields φ) (payload : List UInt8) :
    Option (List UInt8) :=
  framed format crc32 frameCommand requestId (commandFields cmd extra) payload

def responseFields (ok : Bool) (extra : Fields φ) (code message : Option Text) : Fields φ :=
  let fields := (Dict.set ∅ (text "ok") (.bool ok)).update extra
  if ok then fields
  else
    let code := orDefault code (text "INTERNAL_ERROR")
    (fields.set (text "code") (.text code)).set (text "message") (.text (orDefault message code))

def responseFrame (requestId : Nat) (ok : Bool) (extra : Fields φ) (payload : List UInt8)
    (code message : Option Text) : Option (List UInt8) :=
  framed format crc32 frameResponse requestId (responseFields ok extra code message) payload

def eventFields (event : Text) (extra : Fields φ) : Fields φ :=
  (Dict.set ∅ (text "event") (.text event)).update extra

def eventFrame (event : Text) (extra : Fields φ) (payload : List UInt8) (requestId : Nat) :
    Option (List UInt8) :=
  framed format crc32 frameEvent requestId (eventFields event extra) payload

/-- The metadata is `{}`. -/
def heartbeatFrame (requestId : Nat) : Option (List UInt8) :=
  encodeFrame crc32 { frameType := frameHeartbeat, requestId, metadata := [0x7B, 0x7D], payload := [] }

/-- What the two ends write. -/
inductive Message (φ : Type*) where
  | command (requestId : Nat) (cmd : Text) (extra : Fields φ) (payload : List UInt8)
  | response (requestId : Nat) (ok : Bool) (extra : Fields φ) (payload : List UInt8)
    (code message : Option Text)
  | event (name : Text) (extra : Fields φ) (payload : List UInt8) (requestId : Nat)
  | heartbeat (requestId : Nat)

namespace Message

def encode : Message φ → Option (List UInt8)
  | .command requestId cmd extra payload => commandFrame format crc32 requestId cmd extra payload
  | .response requestId ok extra payload code message =>
    responseFrame format crc32 requestId ok extra payload code message
  | .event name extra payload requestId => eventFrame format crc32 name extra payload requestId
  | .heartbeat requestId => heartbeatFrame crc32 requestId

def fields : Message φ → Fields φ
  | .command _ cmd extra _ => commandFields cmd extra
  | .response _ ok extra _ code message => responseFields ok extra code message
  | .event name extra _ _ => eventFields name extra
  | .heartbeat _ => ∅

/-- The frame of a message whose metadata can be written. -/
def frame (m : Message φ) : Frame :=
  let metadata := bytes ((JsonValue.dict m.fields.entries).written format)
  match m with
  | .command requestId _ _ payload => { frameType := frameCommand, requestId, metadata, payload }
  | .response requestId _ _ payload _ _ => { frameType := frameResponse, requestId, metadata, payload }
  | .event _ _ payload requestId => { frameType := frameEvent, requestId, metadata, payload }
  | .heartbeat requestId => { frameType := frameHeartbeat, requestId, metadata, payload := [] }

end Message

/-! ## Reading -/

/-- Items are taken one by one, until one ends the loop. -/
def takeAll (take : σ → α → List ω × Bool × σ) : σ → List α → List ω × Bool × σ
  | s, [] => ([], true, s)
  | s, item :: rest =>
    let (acts, going, s) := take s item
    if going then
      let (later, going, s) := takeAll take s rest
      (acts ++ later, going, s)
    else (acts, false, s)

/-- A read loop over the chunks that come, and what it does when the reader raises. -/
def readLoop (take : σ → Frame → List ω × Bool × σ) (broken : ProtocolError → List ω) :
    σ → FrameReader → List (List UInt8) → List ω
  | _, _, [] => []
  | s, r, chunk :: chunks =>
    match r.feed crc32 chunk with
    | (.error err, _) => broken err
    | (.ok frames, r) =>
      let (acts, going, s) := takeAll take s frames
      if going then acts ++ readLoop take broken s r chunks else acts

/-- What becomes of a command: its reply is queued and the loop goes on, or it
ends because `must_close` is set, because the outbound queue has no place for the
reply, or because `handle` raises. -/
inductive Fate where
  | goesOn
  | closes
  | slow
  | raises

/-- The broker behind a connection: what becomes of a command, and whether the
outbound queue has a place for an echo. -/
structure Service (σ φ : Type*) where
  handle : σ → Nat → JsonValue φ → List UInt8 → Fate × σ
  queues : σ → Nat → Bool × σ

inductive ServerAct (φ : Type*) where
  | handle (requestId : Nat) (metadata : JsonValue φ) (payload : List UInt8)
  | echo (requestId : Nat) (queued : Bool)
  | slowConsumer
  | refuse (requestId : Nat) (err : ProtocolError)

namespace Service

/-- A command in the loop of the server. -/
def command (service : Service σ φ) (s : σ) (requestId : Nat) (metadata : JsonValue φ)
    (payload : List UInt8) : List (ServerAct φ) × Bool × σ :=
  match service.handle s requestId metadata payload with
  | (.goesOn, s) => ([.handle requestId metadata payload], true, s)
  | (.slow, s) => ([.handle requestId metadata payload, .slowConsumer], false, s)
  | (.closes, s) | (.raises, s) => ([.handle requestId metadata payload], false, s)

/-- A heartbeat, whose echo may find no place. -/
def heartbeat (service : Service σ φ) (s : σ) (requestId : Nat) : List (ServerAct φ) × Bool × σ :=
  let (queued, s) := service.queues s requestId
  ([.echo requestId queued], true, s)

end Service

/-- A frame in the loop of the server. A `ValueError` leaves the loop. -/
def serverTakes (service : Service σ φ) (s : σ) (frame : Frame) : List (ServerAct φ) × Bool × σ :=
  if frame.frameType = frameHeartbeat then service.heartbeat s frame.requestId
  else if frame.frameType ≠ frameCommand then ([], true, s)
  else
    match loadsJson format frame.metadata with
    | .error (.protocolError err) => ([.refuse frame.requestId err], false, s)
    | .error .valueError => ([], false, s)
    | .ok metadata => service.command s frame.requestId metadata frame.payload

def serverReads (maxFrameSize : Nat) (service : Service σ φ) (s : σ) (chunks : List (List UInt8)) :
    List (ServerAct φ) :=
  readLoop crc32 (serverTakes format service) (fun err => [.refuse 0 err]) s { maxFrameSize } chunks

inductive ClientAct (φ : Type*) where
  | settle (requestId : Nat) (metadata : JsonValue φ) (payload : List UInt8)
  | deliver (metadata : JsonValue φ) (payload : List UInt8)
  | pubsub (metadata : JsonValue φ) (payload : List UInt8)
  | echo (requestId : Nat)

/-- An event is told by its name. -/
def eventActs (metadata : JsonValue φ) (payload : List UInt8) : List (ClientAct φ) :=
  match metadata with
  | .dict entries =>
    match entries.lookup (text "event") with
    | some (.text name) =>
      if name = text "DELIVER" then [.deliver metadata payload]
      else if name = text "PUBSUB_MESSAGE" then [.pubsub metadata payload]
      else []
    | _ => []
  | _ => []

/-- A frame in the loop of the client, which every exception ends. -/
def clientTakes (s : σ) (frame : Frame) : List (ClientAct φ) × Bool × σ :=
  if frame.frameType = frameHeartbeat then ([.echo frame.requestId], true, s)
  else
    match loadsJson format frame.metadata with
    | .error _ => ([], false, s)
    | .ok metadata =>
      if frame.frameType = frameResponse then
        ([.settle frame.requestId metadata frame.payload], true, s)
      else if frame.frameType = frameEvent then (eventActs metadata frame.payload, true, s)
      else ([], true, s)

def clientReads (maxFrameSize : Nat) (chunks : List (List UInt8)) : List (ClientAct φ) :=
  readLoop crc32 (clientTakes format) (fun _ => []) () { maxFrameSize } chunks

/-! ## Loops -/

section
variable {crc32} {take : σ → Frame → List ω × Bool × σ} {broken : ProtocolError → List ω} {s : σ}

theorem takeAll_cons (take : σ → α → List ω × Bool × σ) (item : α) (rest : List α) :
    takeAll take s (item :: rest) =
      if (take s item).2.1 then
        ((take s item).1 ++ (takeAll take (take s item).2.2 rest).1,
          (takeAll take (take s item).2.2 rest).2)
      else ((take s item).1, false, (take s item).2.2) := rfl

theorem takeAll_append (take : σ → α → List ω × Bool × σ) (first second : List α) :
    takeAll take s (first ++ second) =
      if (takeAll take s first).2.1 then
        ((takeAll take s first).1 ++ (takeAll take (takeAll take s first).2.2 second).1,
          (takeAll take (takeAll take s first).2.2 second).2)
      else takeAll take s first := by
  induction first generalizing s with
  | nil => simp [takeAll]
  | cons item rest ih =>
    rw [List.cons_append, takeAll_cons, takeAll_cons, ih]
    cases (take s item).2.1 with
    | false => rfl
    | true => cases going : (takeAll take (take s item).2.2 rest).2.1 <;> simp [going]

/-- Items that are taken alike, one for one. -/
theorem takeAll_map {β : Type*} {make : β → α} {take : σ → α → List ω × Bool × σ}
    {take' : σ → β → List ω × Bool × σ} {items : List β}
    (alike : ∀ item ∈ items, ∀ s, take s (make item) = take' s item) :
    takeAll take s (items.map make) = takeAll take' s items := by
  induction items generalizing s with
  | nil => rfl
  | cons item rest ih =>
    obtain ⟨here, there⟩ := List.forall_mem_cons.mp alike
    rw [List.map_cons, takeAll_cons, takeAll_cons, here, ih there]

/-- Where every item lets the loop go on, all are taken. -/
theorem takeAll_all {acts : α → List ω} (items : List α) :
    takeAll (fun s item => (acts item, true, s)) s items = (items.flatMap acts, true, s) := by
  induction items with
  | nil => rfl
  | cons item rest ih => simp [takeAll_cons, ih]

/-- Where the reader does not raise, the chunks are of no account. -/
theorem readLoop_feedAll {r : FrameReader} {chunks : List (List UInt8)}
    (fine : (feedAll crc32 r chunks).2.1 = none) :
    readLoop crc32 take broken s r chunks = (takeAll take s (feedAll crc32 r chunks).1).1 := by
  induction chunks generalizing r s with
  | nil => rfl
  | cons chunk chunks ih =>
    unfold feedAll at fine ⊢
    unfold readLoop
    cases fed : r.feed crc32 chunk with
    | mk result next =>
      rw [fed] at fine
      cases result with
      | error err => cases fine
      | ok frames =>
        dsimp only at fine ⊢
        rw [takeAll_append, ih fine]
        cases going : (takeAll take s frames).2.1 <;> simp

end

/-! ## Metadata -/

/-- Metadata that can be written and is read back. -/
def Fields.Regular (fields : Fields φ) : Prop :=
  fields.All fun key v => scalarText key = true ∧ v.all (regular format) = true

section
variable {format} {fields extra : Fields φ}

theorem Fields.Regular.all (fits : fields.Regular format) :
    (JsonValue.dict fields.entries).all (regular format) = true := by
  simp only [JsonValue.all, Bool.and_eq_true]
  refine ⟨decide_eq_true fields.nodup, allEntries_iff.mpr fun entry listed => ?_⟩
  exact fits entry.1 entry.2 (Dict.get?_eq_some.mpr listed)

theorem Fields.Regular.set {key : Text} {v : JsonValue φ} (fits : Fields.Regular format fields)
    (named : scalarText key = true) (good : v.all (regular format) = true) :
    Fields.Regular format (Dict.set fields key v) := Dict.All.set fits ⟨named, good⟩

theorem Fields.regular_single {key : Text} {v : JsonValue φ} (named : scalarText key = true)
    (good : v.all (regular format) = true) : Fields.Regular format (Dict.set ∅ key v) :=
  Dict.All.set Dict.all_empty ⟨named, good⟩

theorem text_regular {t : Text} (scalars : scalarText t = true) :
    (JsonValue.text t : JsonValue φ).all (regular format) = true := scalars

theorem orDefault_scalars {given : Option Text} {default : Text}
    (scalars : ∀ t, given = some t → scalarText t = true) (fallback : scalarText default = true) :
    scalarText (orDefault given default) = true := by
  unfold orDefault
  split
  · exact fallback
  · exact fallback
  · exact scalars _ rfl

end

namespace Message

/-- The texts and the extra fields can be written, and an event keeps its name. -/
def Plain : Message φ → Prop
  | .command _ cmd extra _ => scalarText cmd = true ∧ Fields.Regular format extra
  | .response _ _ extra _ code message => Fields.Regular format extra ∧
    (∀ t, code = some t → scalarText t = true) ∧ ∀ t, message = some t → scalarText t = true
  | .event name extra _ _ =>
    scalarText name = true ∧ Fields.Regular format extra ∧ extra.get? (text "event") = none
  | .heartbeat _ => True

/-- A message that fits in a frame. -/
structure Sendable (limit : Nat) (m : Message φ) : Prop where
  plain : m.Plain format
  fits : (m.frame format).Fits limit

/-- What the loop of the server is to do with a message. -/
def handled (service : Service σ φ) (s : σ) : Message φ → List (ServerAct φ) × Bool × σ
  | .command requestId cmd extra payload =>
    service.command s requestId (.dict (commandFields cmd extra).entries) payload
  | .heartbeat requestId => service.heartbeat s requestId
  | _ => ([], true, s)

/-- What the loop of the client is to do with it. -/
def received : Message φ → List (ClientAct φ)
  | .response requestId ok extra payload code message =>
    [.settle requestId (.dict (responseFields ok extra code message).entries) payload]
  | .event name extra payload _ =>
    let metadata := JsonValue.dict (eventFields name extra).entries
    if name = text "DELIVER" then [.deliver metadata payload]
    else if name = text "PUBSUB_MESSAGE" then [.pubsub metadata payload]
    else []
  | .heartbeat requestId => [.echo requestId]
  | .command .. => []

variable {format} {m : Message φ}

theorem Plain.regular (plain : m.Plain format) : Fields.Regular format m.fields := by
  cases m with
  | command requestId cmd extra payload =>
    obtain ⟨named, more⟩ := plain
    exact (Fields.regular_single (by decide) (text_regular named)).update more
  | response requestId ok extra payload code message =>
    obtain ⟨more, coded, worded⟩ := plain
    have start : Fields.Regular format
        ((Dict.set ∅ (text "ok") (.bool ok)).update extra) :=
      (Fields.regular_single (by decide) rfl).update more
    have scalars := orDefault_scalars coded (show scalarText (text "INTERNAL_ERROR") = true by decide)
    unfold fields responseFields
    dsimp only
    split
    · exact start
    · exact (start.set (by decide) (text_regular scalars)).set (by decide)
        (text_regular (orDefault_scalars worded scalars))
  | event name extra payload requestId =>
    obtain ⟨named, more, _⟩ := plain
    exact (Fields.regular_single (by decide) (text_regular named)).update more
  | heartbeat requestId => exact Dict.all_empty

theorem framed_regular {frameType requestId : Nat} {fields : Fields φ} {payload : List UInt8}
    (fits : Fields.Regular format fields) : framed format crc32 frameType requestId fields payload =
      encodeFrame crc32
        { frameType, requestId
          metadata := bytes ((JsonValue.dict fields.entries).written format)
          payload } := by
  unfold framed
  rw [dumpsMeta_regular fits.all]

/-- A message is written as its frame. -/
theorem Plain.encode (plain : m.Plain format) :
    m.encode format crc32 = encodeFrame crc32 (m.frame format) := by
  have fits := plain.regular
  cases m with
  | heartbeat requestId =>
    have braces : bytes ((JsonValue.dict (∅ : Fields φ).entries).written format) = [0x7B, 0x7D] := by
      simp [written, writtenEntries, EmptyCollection.emptyCollection, Dict.empty, bytes, utf8]
    unfold Message.encode heartbeatFrame frame
    dsimp only [fields]
    rw [braces]
  | _ => exact framed_regular crc32 fits

theorem Plain.loaded (plain : m.Plain format) :
    loadsJson format (m.frame format).metadata = .ok (.dict m.fields.entries) := by
  have read := loadsJson_written plain.regular.all
  cases m <;> exact read

theorem Plain.serverTakes (plain : m.Plain format) (service : Service σ φ) (s : σ) :
    serverTakes format service s (m.frame format) = m.handled service s := by
  have read := plain.loaded
  unfold Protocol.serverTakes
  rw [read]
  cases m <;> rfl

theorem Plain.clientTakes (plain : m.Plain format) (s : σ) :
    clientTakes format s (m.frame format) = (m.received, true, s) := by
  have read := plain.loaded
  unfold Protocol.clientTakes
  rw [read]
  cases m with
  | event name extra payload requestId =>
    have kept : (eventFields name extra).entries.lookup (text "event") = some (.text name) := by
      have found : (eventFields name extra).get? (text "event") = some (.text name) := by
        rw [eventFields, Dict.get?_update, plain.2.2, Dict.get?_set_self, Option.none_or]
      rw [← found, Dict.get?]
      congr 1
      exact lawful_beq_subsingleton _ _
    have acts : eventActs (.dict (eventFields name extra).entries) payload =
        (Message.event name extra payload requestId).received := by
      unfold eventActs
      dsimp only
      rw [kept]
      rfl
    rw [← acts]
    rfl
  | _ => rfl

end Message

/-! ## Streams of messages -/

section
variable {format crc32} {limit k : Nat} {frames : List Frame} {pieces chunks : List (List UInt8)}

/-- Of a stream that is cut off, a reader finds the frames that are whole. -/
theorem feedAll_take (encodes : List.Forall₂ (decoder crc32 limit).Encodes frames pieces)
    (cut : chunks.flatten = pieces.flatten.take k) : ∃ n ≤ pieces.length,
      (feedAll crc32 { maxFrameSize := limit } chunks).1 = frames.take n ∧
      (feedAll crc32 { maxFrameSize := limit } chunks).2.1 = none ∧
      ∀ m ≤ pieces.length, (pieces.take m).flatten.length ≤ k ↔ m ≤ n := by
  obtain ⟨n, bound, scanned, within⟩ := (decoder crc32 limit).scan_take encodes k
  rw [← cut] at scanned
  have whole : (decoder crc32 limit).before [] chunks = chunks.flatten :=
    Decoder.before_all (by rw [List.nil_append, scanned])
  obtain ⟨items, error, _⟩ := @feedAll_scan crc32 limit [] chunks (by rw [Decoder.scan_nil])
  rw [Decoder.scan_nil, whole, scanned] at items
  rw [Decoder.scan_nil, List.nil_append, scanned] at error
  exact ⟨n, bound, items, error, within⟩

/-- A loop does for a stream what it does for its whole messages. -/
theorem readLoop_take {take : σ → Frame → List ω × Bool × σ} {broken : ProtocolError → List ω}
    {messages : List (Message φ)} {acts : σ → Message φ → List ω × Bool × σ} {s : σ}
    (taken : ∀ m ∈ messages, ∀ s, take s (m.frame format) = acts s m)
    {n : Nat} (frames : (feedAll crc32 { maxFrameSize := limit } chunks).1 =
      (messages.map (Message.frame format)).take n)
    (fine : (feedAll crc32 { maxFrameSize := limit } chunks).2.1 = none) :
    readLoop crc32 take broken s { maxFrameSize := limit } chunks =
      (takeAll acts s (messages.take n)).1 := by
  rw [readLoop_feedAll fine, frames, ← List.map_take,
    takeAll_map fun m member => taken m (List.mem_of_mem_take member)]

end

/-- **Messages on the wire.** Messages whose parts can be written, and whose
frames fit, are all written. Of any first part of their bytes, cut into chunks
in any way, each end reads the messages that are whole, in order, with their
numbers, payloads and exactly the metadata that they were given; the server up
to the command that ends its loop. -/
theorem messages_carried (limit : Nat) (service : Service σ φ) (s : σ) (messages : List (Message φ))
    (sendable : ∀ m ∈ messages, m.Sendable format limit) :
    ∃ pieces, List.Forall₂ (fun m piece => m.encode format crc32 = some piece) messages pieces ∧
      ∀ (k : Nat) (chunks : List (List UInt8)), chunks.flatten = pieces.flatten.take k →
        ∃ n ≤ messages.length,
          (∀ m ≤ messages.length, (pieces.take m).flatten.length ≤ k ↔ m ≤ n) ∧
          serverReads format crc32 limit service s chunks =
            (takeAll (Message.handled service) s (messages.take n)).1 ∧
          clientReads format crc32 limit chunks = (messages.take n).flatMap Message.received := by
  have fits : ∀ frame ∈ messages.map (Message.frame format), frame.Fits limit := by
    intro frame listed
    obtain ⟨m, member, rfl⟩ := List.mem_map.mp listed
    exact (sendable m member).fits
  obtain ⟨pieces, encoded, encodes⟩ := encoded_fits crc32 fits
  have count : pieces.length = messages.length := by
    rw [← encodes.length_eq, List.length_map]
  refine ⟨pieces, ?_, fun k chunks cut => ?_⟩
  · unfold Encoded at encoded
    rw [List.forall₂_map_left_iff] at encoded
    have each : List.Forall₂ (fun (m : Message φ) piece =>
        m.Sendable format limit ∧ encodeFrame crc32 (m.frame format) = some piece) messages pieces :=
      (List.forall₂_and_left messages pieces).mpr ⟨sendable, encoded⟩
    apply each.imp
    rintro m piece ⟨good, written⟩
    rw [good.plain.encode, written]
  · obtain ⟨n, bound, frames, fine, within⟩ := feedAll_take encodes cut
    rw [count] at bound within
    refine ⟨n, bound, within, ?_, ?_⟩
    · exact readLoop_take (fun m member => (sendable m member).plain.serverTakes service) frames fine
    · have all : clientReads format crc32 limit chunks = _ :=
        readLoop_take (fun m member => (sendable m member).plain.clientTakes) frames fine
      rw [all, takeAll_all]

/-- PINGs and a heartbeat. -/
def pinged : List (Message Text) := [.command 1 (text "PING") ∅ [], .heartbeat 2,
  .command 3 (text "PING") ∅ [], .command 4 (text "PING") ∅ []]

/-- A broker that closes the connection with the second command. -/
def impatient : Service Nat Text where
  handle n _ _ _ := (if n = 0 then .goesOn else .closes, n + 1)
  queues n _ := (true, n)

theorem messages_carried_ping : ∃ pieces,
    List.Forall₂ (fun m piece => m.encode literalFloats Words.crc32 = some piece) pinged pieces ∧
      ∀ (k : Nat) (chunks : List (List UInt8)), chunks.flatten = pieces.flatten.take k →
        ∃ n ≤ pinged.length,
          (∀ m ≤ pinged.length, (pieces.take m).flatten.length ≤ k ↔ m ≤ n) ∧
          serverReads literalFloats Words.crc32 100 impatient 0 chunks =
            (takeAll (Message.handled impatient) 0 (pinged.take n)).1 ∧
          clientReads literalFloats Words.crc32 100 chunks =
            (pinged.take n).flatMap Message.received := by
  refine messages_carried literalFloats Words.crc32 100 impatient 0 pinged ?_
  intro m member
  simp only [pinged, List.mem_cons, List.not_mem_nil, or_false] at member
  rcases member with rfl | rfl | rfl | rfl
  · exact ⟨⟨by decide, Dict.all_empty⟩, by constructor <;> decide⟩
  · exact ⟨trivial, by constructor <;> decide⟩
  · exact ⟨⟨by decide, Dict.all_empty⟩, by constructor <;> decide⟩
  · exact ⟨⟨by decide, Dict.all_empty⟩, by constructor <;> decide⟩

end OneOpenBroker.Protocol

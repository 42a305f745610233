import OneOpenBroker.Protocol.Codec
import OneOpenBroker.Protocol.Packets
import OneOpenBroker.Untyped.Ticker

/-! The frames in which a published message goes out, a DELIVER event or the
response of a GET, against the limit under which its PUBLISH frame came in.
Their metadata is another object than that of the PUBLISH: it names the message,
its queue and the consumer, and counts the attempts. -/
namespace OneOpenBroker.Untyped
open Collections Programs Program
open OneOpenBroker.Core (EnqueueResult)
open OneOpenBroker.Protocol (Codec Frame FrameReader headerSize)

/-! ## The frames -/

/-- What a DELIVER event says. -/
def deliverFields (consumer : Consumer) (message : Message) : List (String × Value) :=
  delivery consumer message ++ [("priority", .number (.int message.priority))]

/-- The frame that `pump_queue` builds. -/
def deliverFrame (codec : Codec) (consumer : Consumer) (message : Message) : Option (List UInt8) :=
  codec.eventFrame "DELIVER" (deliverFields consumer message) message.payload 0

/-- The response of a GET with a message. -/
def getFrame (codec : Codec) (requestId : Nat) (consumer : Consumer) (message : Message) :
    Option (List UInt8) :=
  codec.responseFrame requestId true (("empty", .bool false) :: delivery consumer message)
    message.payload .null .null

/-- The request that the read loop makes of a command frame. -/
def requestOf (codec : Codec) (frame : Frame) (connectionId : String) (uuid : Text → String) :
    Except Protocol.ProtocolError Request :=
  (codec.parseMetadata frame).map fun metadata =>
    { connectionId, metadata, payload := frame.payload, uuid }

theorem requestOf_ok {codec : Codec} {frame : Frame} {connectionId : String} {uuid : Text → String}
    {request : Request} (read : requestOf codec frame connectionId uuid = .ok request) :
    ∃ metadata, request = { connectionId, metadata, payload := frame.payload, uuid } := by
  unfold requestOf at read
  cases parsed : codec.parseMetadata frame with
  | error err =>
    rw [parsed] at read
    cases read
  | ok metadata =>
    rw [parsed] at read
    exact ⟨metadata, (Except.ok.inj read).symm⟩

/-- The length of what both frames say: the message's id, its queue, the count
of its attempts, its headers, and the consumer's id. -/
def carried (codec : Codec) (id : Value) (queue : Text) (attempts : Nat) (headers consumerId : Value) :
    Nat :=
  codec.size id + codec.size (.text queue) + codec.size (.number (.int attempts)) +
    codec.size headers + codec.size consumerId

def Message.carried (codec : Codec) (message : Message) (consumer : Consumer) : Nat :=
  Untyped.carried codec message.id message.queue message.attempts message.headers consumer.consumerId

variable {codec : Codec} {consumer : Consumer} {message stored : Message} {raw : List UInt8}
  {requestId : Nat}

theorem size_literal (codec : Codec) (literal : String) {n : Nat}
    (counted : (Protocol.bytes (Protocol.quote (text literal))).length = n) :
    codec.size (.text (text literal)) = n := by
  rw [Codec.size, Codec.dumps, counted]

theorem size_bool (codec : Codec) (b : Bool) : codec.size (.bool b) = if b then 4 else 5 := by
  rw [Codec.size, Codec.dumps]
  cases b <;> rfl

/-- The fields that both frames have. -/
theorem delivery_sum : ((delivery consumer message).map fun entry =>
    codec.size (.text (text entry.1)) + codec.size entry.2 + 2).sum =
      61 + message.carried codec consumer := by
  have id : codec.size (.text (text "message_id")) = 12 := size_literal codec _ rfl
  have queue : codec.size (.text (text "queue")) = 7 := size_literal codec _ rfl
  have attempts : codec.size (.text (text "attempts")) = 10 := size_literal codec _ rfl
  have headers : codec.size (.text (text "headers")) = 9 := size_literal codec _ rfl
  have consumer : codec.size (.text (text "consumer_id")) = 13 := size_literal codec _ rfl
  simp only [delivery, Message.carried, carried, List.map_cons, List.map_nil, List.sum_cons,
    List.sum_nil, id, queue, attempts, headers, consumer]
  omega

theorem deliverFrame_length (built : deliverFrame codec consumer message = some raw) :
    raw.length = headerSize + (92 + message.carried codec consumer +
      codec.size (.number (.int message.priority))) + message.payload.length := by
  obtain ⟨metadata, written, encoded⟩ := Option.bind_eq_some_iff.mp built
  have event : codec.size (.text (text "event")) = 7 := size_literal codec _ rfl
  have deliver : codec.size (.text (text "DELIVER")) = 9 := size_literal codec _ rfl
  have priority : codec.size (.text (text "priority")) = 10 := size_literal codec _ rfl
  have length : metadata.length = 92 + message.carried codec consumer +
      codec.size (.number (.int message.priority)) := by
    rw [Codec.dumpsMeta_length written (List.cons_ne_nil _ _), List.map_cons, List.sum_cons,
      deliverFields, List.map_append, List.sum_append, delivery_sum, List.map_singleton,
      List.sum_singleton, event, deliver, priority]
    dsimp only
    omega
  rw [Codec.encodeFrame_length encoded, length]

/-- The frame is built where its metadata can be written in no more bytes than
a header can count. -/
theorem deliverFrame_builds {metadata : List UInt8}
    (written : codec.dumpsMeta (("event", .text (text "DELIVER")) :: deliverFields consumer message) =
      some metadata)
    (short : metadata.length < 2 ^ 32) (payload : message.payload.length < 2 ^ 32) :
    ∃ raw, deliverFrame codec consumer message = some raw := by
  unfold deliverFrame Codec.eventFrame
  rw [written]
  have event : Protocol.frameEvent < 2 ^ 8 := by decide
  exact Protocol.encodeFrame_fits codec.crc32
    ⟨rfl, event, Nat.two_pow_pos 16, Nat.two_pow_pos 64, short, payload, le_rfl⟩

theorem getFrame_length (built : getFrame codec requestId consumer message = some raw) :
    raw.length = headerSize + (86 + message.carried codec consumer) + message.payload.length := by
  obtain ⟨metadata, written, encoded⟩ := Option.bind_eq_some_iff.mp built
  have ok : codec.size (.text (text "ok")) = 4 := size_literal codec _ rfl
  have empty : codec.size (.text (text "empty")) = 7 := size_literal codec _ rfl
  rw [if_pos rfl, List.append_nil] at written
  have length : metadata.length = 86 + message.carried codec consumer := by
    rw [Codec.dumpsMeta_length written (List.cons_ne_nil _ _), List.map_cons, List.sum_cons,
      List.map_cons, List.sum_cons, delivery_sum, ok, empty, size_bool, size_bool]
    simp only [if_true, Bool.false_eq_true, if_false]
    omega
  rw [Codec.encodeFrame_length encoded, length]

/-! ## What a reader accepts -/

section Accepted

variable {crc32 : List UInt8 → UInt32} {r r' : FrameReader} {frame : Frame} {data : List UInt8}
  {frames : List Frame}

theorem tryOne_size (accepted : r.tryOne crc32 = (.ok (some frame), r')) :
    headerSize + frame.metadata.length + frame.payload.length ≤ r.maxFrameSize ∧
      r'.maxFrameSize = r.maxFrameSize := by
  cases outcome : Protocol.front crc32 r.maxFrameSize r.buf with
  | more =>
    rw [FrameReader.tryOne_more outcome] at accepted
    cases accepted
  | bad err =>
    obtain ⟨buf, failed⟩ := FrameReader.tryOne_bad outcome
    rw [failed] at accepted
    cases accepted
  | item found size =>
    rw [FrameReader.tryOne_item outcome] at accepted
    obtain ⟨header, _, _, total, within, there, _, rfl⟩ := Protocol.front_item outcome
    cases accepted
    refine ⟨?_, rfl⟩
    unfold Protocol.Header.total at total
    simp only [Protocol.Header.frameIn, List.length_drop, List.length_take]
    omega

theorem rounds_size {n : Nat} {earlier : List Frame}
    (taken : r.rounds crc32 n earlier = (.ok frames, r'))
    (fit : ∀ frame ∈ earlier,
      headerSize + frame.metadata.length + frame.payload.length ≤ r.maxFrameSize) :
    ∀ frame ∈ frames, headerSize + frame.metadata.length + frame.payload.length ≤ r.maxFrameSize := by
  induction n generalizing r earlier with
  | zero =>
    cases taken
    exact fit
  | succ n ih =>
    unfold FrameReader.rounds at taken
    split at taken
    · cases taken
    · cases taken
      exact fit
    · rename_i frame next tried
      obtain ⟨size, same⟩ := tryOne_size tried
      rw [← same] at fit size ⊢
      exact ih taken (List.forall_mem_append.mpr ⟨fit, List.forall_mem_singleton.mpr size⟩)

/-- A frame that a reader returns is within its limit. -/
theorem feed_size (fed : (r.feed crc32 data).1 = .ok frames) (returned : frame ∈ frames) :
    headerSize + frame.metadata.length + frame.payload.length ≤ r.maxFrameSize := by
  unfold FrameReader.feed at fed
  split at fed
  · cases fed
  · exact rounds_size (r := { r with buf := r.buf ++ data }) (Prod.ext fed rfl)
      (List.forall_mem_nil _) frame returned

end Accepted

/-! ## What a PUBLISH stores -/

/-- A stored message as it is later, in whatever queue and after however many
attempts. -/
structure Later (stored message : Message) : Prop where
  id : message.id = stored.id
  payload : message.payload = stored.payload
  priority : message.priority = stored.priority
  headers : message.headers = stored.headers

/-- A message of a queue. -/
def QueueEngine.Holds (e : QueueEngine) (name : Text) (message : Message) : Prop :=
  ∃ queue key, e.queues.get? name = some queue ∧ queue.messages.get? key = some message

/-- The message made for a queue is in it. -/
def QueueEngine.Stores (e : QueueEngine) (created : Text → Message) (name : Text) : Prop :=
  ∃ stored, e.Holds name stored ∧ Later (created name) stored

variable {e : QueueEngine} {b : Broker} {created : Text → Message} {name target : Text} {key : Key}

namespace QueueEngine

theorem dueMessage_later (message : Message) (now : ℚ) :
    (dueMessage message now).queue = message.queue ∧ Later message (dueMessage message now) := by
  unfold dueMessage
  split
  · exact ⟨rfl, rfl, rfl, rfl, rfl⟩
  · split <;> exact ⟨rfl, rfl, rfl, rfl, rfl⟩

theorem Holds.alter_self {change : DurableQueue → DurableQueue} (known : name ∈ e.queues)
    (held : ∀ queue, (change queue).messages.get? key = some message) :
    (e.alter name change).Holds name message := by
  obtain ⟨queue, found⟩ := Dict.mem_iff.mp known
  refine ⟨change queue, key, ?_, held queue⟩
  rw [alter_get?, if_pos rfl, found]
  rfl

theorem Holds.alter_ne {change : DurableQueue → DurableQueue} {other : Text} (apart : name ≠ other)
    (held : e.Holds name message) : (e.alter other change).Holds name message := by
  obtain ⟨queue, key, found, there⟩ := held
  refine ⟨queue, key, ?_, there⟩
  rw [alter_get?, if_neg apart]
  exact found

/-- A message that is accepted is in its queue, and the other queues keep theirs. -/
theorem accept_holds (known : message.queue ∈ e.queues) :
    (e.accept key message).Holds message.queue message ∧
      ∀ name stored, name ≠ message.queue → e.Holds name stored →
        (e.accept key message).Holds name stored := by
  unfold accept
  have hold (queue : DurableQueue) : (queue.hold key message).messages.get? key = some message :=
    Dict.get?_set_self
  dsimp only
  split
  · exact ⟨Holds.alter_self known hold, fun _ _ apart held => Holds.alter_ne apart held⟩
  · exact ⟨Holds.alter_self known hold, fun _ _ apart held => Holds.alter_ne apart held⟩

theorem enqueue_stores (named : (created target).queue = target) :
    wp (enqueue (created target))
      (fun result e' => (result = .ok → e'.Stores created target) ∧
        ∀ name, e.Stores created name → e'.Stores created name)
      (fun _ _ => True) e := by
  unfold enqueue
  rw [named, wp_bind, wp_get]
  split
  · exact ⟨by simp, fun _ stored => stored⟩
  rename_i queue found
  rw [wp_bind, wp_ofExcept]
  cases isFull queue with
  | error raised => exact .inr ⟨raised, rfl, trivial⟩
  | ok full =>
    refine .inl ⟨full, rfl, ?_⟩
    rw [wp_ite]
    split
    · exact ⟨by simp, fun _ stored => stored⟩
    rw [wp_bind, wp_now, wp_bind, wp_ofExcept]
    cases (created target).id.hash with
    | error raised => exact .inr ⟨raised, rfl, trivial⟩
    | ok key =>
      refine .inl ⟨key, rfl, ?_⟩
      rw [wp_bind, wp_modify, wp_pure]
      obtain ⟨queued, later⟩ := dueMessage_later (created target) (e.clock e.reads)
      have known : target ∈ e.queues := Dict.mem_of_get? found
      rw [named] at queued
      generalize dueMessage (created target) (e.clock e.reads) = message at queued later ⊢
      have accepted := @accept_holds message { e with reads := e.reads + 1 } key (queued ▸ known)
      rw [queued] at accepted
      refine ⟨fun _ => ⟨_, accepted.1, later⟩, fun name ⟨stored, held, from_created⟩ => ?_⟩
      by_cases same : name = target
      · subst same
        exact ⟨_, accepted.1, later⟩
      · exact ⟨stored, accepted.2 name stored same held, from_created⟩

end QueueEngine

/-- The fan-out stores a message in every queue that it reaches. -/
theorem fanOut_stores {targets routed : List Text} {lastId : Value}
    (named : ∀ target, (created target).queue = target)
    (reached : ∀ name ∈ routed, b.queues.Stores created name) :
    wp (fanOut created targets routed lastId)
      (fun answer b' => ∀ name ∈ answer.2.1, b'.queues.Stores created name) (fun _ _ => True) b := by
  induction targets generalizing b routed lastId with
  | nil => exact reached
  | cons target rest ih =>
    unfold fanOut
    rw [wp_bind, wp_onQueues]
    refine wp_mono (QueueEngine.enqueue_stores (named target)) (fun result e after => ?_)
      fun _ _ _ => trivial
    have still : ∀ name ∈ routed, e.Stores created name :=
      fun name member => after.2 name (reached name member)
    cases result with
    | queueFull => exact still
    | notFound => exact ih still
    | ok =>
      refine ih (List.forall_mem_append.mpr ⟨still, List.forall_mem_singleton.mpr ?_⟩)
      exact after.1 rfl

/-- A message that was made of these arguments. -/
def PublishArgs.Made (args : PublishArgs) (stored : Message) : Prop :=
  stored.payload = args.payload ∧ stored.priority = args.priority ∧ stored.headers = args.headers

/-- Every queue that a publish reaches holds a message that was made of its
arguments. -/
def Delivers (args : PublishArgs) (answer : Value × List Text × EnqueueResult) (b : Broker) : Prop :=
  ∀ name ∈ answer.2.1, ∃ stored, b.queues.Holds name stored ∧ args.Made stored

theorem route_stores {args : PublishArgs} {exchange routingKey : Value} {uuid : Text → String} :
    wp (route args exchange routingKey uuid) (Delivers args) (fun _ _ => True) b := by
  unfold route
  rw [wp_bind]
  refine wp_mono hashed_wp (fun key b' _ => ?_) fun _ _ _ => trivial
  rw [wp_bind, wp_get, wp_ite]
  split
  · dsimp only
    rw [wp_ite]
    split
    · exact List.forall_mem_nil _
    · refine wp_mono (fanOut_stores (fun _ => rfl) (List.forall_mem_nil _)) (fun answer b'' stores => ?_)
        fun _ _ _ => trivial
      intro name member
      obtain ⟨stored, held, later⟩ := stores name member
      exact ⟨stored, held, later.payload, later.priority, later.headers⟩
  · exact List.forall_mem_nil _

theorem publish_stores {args : PublishArgs} {uuid : Text → String} :
    wp (publish args uuid) (Delivers args) (fun _ _ => True) b := by
  unfold publish
  rw [wp_ite]
  split
  · rw [wp_bind]
    have declared : wp (ensureQueue args.queue) (fun _ _ => True) (fun _ _ => True) b := wp_trivial
    exact wp_mono declared (fun _ _ _ => route_stores) fun _ _ _ => trivial
  · exact route_stores

theorem fail_not_ok {code : ErrorCode} {text : Text} {extra : List (String × Value)} :
    ((fail code text).exec b).1 ≠ .ok (.ok extra) := by
  unfold fail encode
  split <;> simp

/-- A PUBLISH that is answered with ok has reached a queue. -/
theorem cmdPublish_ok {host : Host} {metadata : Metadata} {payload : List UInt8}
    {uuid : Text → String} {extra : List (String × Value)}
    (ok : ((cmdPublish host metadata payload uuid).exec b).1 = .ok (.ok extra)) :
    ∃ priority messageId routed after,
      host.toInt ((field metadata "priority").or (.number (.int 0))) = .ok priority ∧
      (publish (publishArgs metadata payload priority) uuid).exec b =
        (.ok (messageId, routed, .ok), after) ∧ routed ≠ [] := by
  unfold cmdPublish at ok
  cases converted : host.toInt ((field metadata "priority").or (.number (.int 0))) with
  | error raised =>
    rw [converted] at ok
    cases ok
  | ok priority =>
    rw [converted, exec_bind_ok exec_ofExcept] at ok
    rcases ran : (publish (publishArgs metadata payload priority) uuid).exec b with ⟨_ | answer, after⟩
    · rw [exec_bind_error ran] at ok
      cases ok
    · obtain ⟨messageId, routed, result⟩ := answer
      rw [exec_bind_ok ran] at ok
      dsimp only at ok
      split at ok
      · exact absurd ok fail_not_ok
      rename_i room
      split at ok
      · exact absurd ok fail_not_ok
      rename_i found
      obtain ⟨known, some_queue⟩ := not_or.mp found
      refine ⟨priority, messageId, routed, after, rfl, ?_, some_queue⟩
      cases result with
      | ok => exact ran
      | queueFull => exact absurd rfl room
      | notFound => exact absurd rfl known

theorem handle_publish_ok {host : Host} {refusal : Option (ErrorCode × Text)} {request : Request}
    {cmd : Text} {extra : List (String × Value)}
    (asked : field request.metadata "cmd" = .text cmd) (lowered : host.lower cmd = text "publish")
    (ok : ((handle host refusal request).exec b).1 = .ok (.ok extra)) :
    ((cmdPublish host request.metadata request.payload request.uuid).exec b).1 = .ok (.ok extra) := by
  have chosen : dispatch host request =
      cmdPublish host request.metadata request.payload request.uuid := by
    unfold dispatch
    rw [asked]
    dsimp only
    rw [lowered]
    rfl
  unfold handle at ok
  split at ok
  · cases refusal with
    | some refusal => exact absurd ok fail_not_ok
    | none =>
      dsimp only at ok
      rw [exec_bind_ok exec_attempt, chosen] at ok
      generalize (cmdPublish host request.metadata request.payload request.uuid).exec b = ran at ok ⊢
      obtain ⟨_ | reply, after⟩ := ran
      · exact absurd ok fail_not_ok
      · exact ok
  · exact absurd ok fail_not_ok

/-! ## The limit -/

/-- A PUBLISH frame that a reader accepted and that was answered with ok has
stored a message in every queue that it reached. Whenever that goes out, in a
DELIVER frame or in the response of a GET, the frame is within the reader's
limit exactly if its metadata fits in what the payload leaves. -/
theorem delivery_within_limit_iff {host : Host} {refusal : Option (ErrorCode × Text)}
    {request : Request} {connectionId : String} {uuid : Text → String} {reader : FrameReader}
    {data : List UInt8} {frames : List Frame} {frame : Frame} {cmd : Text}
    {extra : List (String × Value)}
    (fed : (reader.feed codec.crc32 data).1 = .ok frames) (returned : frame ∈ frames)
    (read : requestOf codec frame connectionId uuid = .ok request)
    (asked : field request.metadata "cmd" = .text cmd) (lowered : host.lower cmd = text "publish")
    (ok : ((handle host refusal request).exec b).1 = .ok (.ok extra)) :
    ∃ priority messageId routed after,
      host.toInt ((field request.metadata "priority").or (.number (.int 0))) = .ok priority ∧
      (publish (publishArgs request.metadata frame.payload priority) uuid).exec b =
        (.ok (messageId, routed, .ok), after) ∧ routed ≠ [] ∧
      ∀ name ∈ routed, ∃ stored, after.queues.Holds name stored ∧
        stored.payload = frame.payload ∧ ∀ message, Later stored message → ∀ consumer,
          let room := reader.maxFrameSize - headerSize - frame.payload.length
          let said := carried codec message.id message.queue message.attempts
            (field request.metadata "headers") consumer.consumerId
          (∀ raw, deliverFrame codec consumer message = some raw →
            (raw.length ≤ reader.maxFrameSize ↔
              92 + said + codec.size (.number (.int priority)) ≤ room)) ∧
          ∀ requestId raw, getFrame codec requestId consumer message = some raw →
            (raw.length ≤ reader.maxFrameSize ↔ 86 + said ≤ room) := by
  obtain ⟨metadata, rfl⟩ := requestOf_ok read
  obtain ⟨priority, messageId, routed, after, converted, ran, some_queue⟩ :=
    cmdPublish_ok (handle_publish_ok asked lowered ok)
  have stores := wp_ok publish_stores ran
  have within := feed_size fed returned
  refine ⟨priority, messageId, routed, after, converted, ran, some_queue, fun name member => ?_⟩
  obtain ⟨stored, held, payload, ranked, headers⟩ := stores name member
  refine ⟨stored, held, payload, fun message later consumer => ?_⟩
  have same_payload : message.payload = frame.payload := later.payload.trans payload
  have same_headers : message.headers = field metadata "headers" :=
    later.headers.trans headers
  have same_priority : message.priority = priority := later.priority.trans ranked
  dsimp only
  refine ⟨fun raw built => ?_, fun requestId raw built => ?_⟩
  · rw [deliverFrame_length built, same_payload, same_priority, Message.carried, same_headers]
    omega
  · rw [getFrame_length built, same_payload, Message.carried, same_headers]
    omega

/-! A PUBLISH of one byte to the queue `q`, in 58 bytes. -/

def noteFields : List (String × Value) :=
  [("cmd", .text (text "PUBLISH")), ("queue", .text (text "q"))]

def noteCodec : Codec where
  crc32 := Words.crc32
  float _ := text "0.0"
  parse _ := some (.dict (noteFields.map fun f => (text f.1, f.2)))

def note : Frame where
  frameType := Protocol.frameCommand
  requestId := 1
  metadata := (noteCodec.dumpsMeta noteFields).getD []
  payload := [0x21]

def noteBytes : List UInt8 := (Protocol.encodeFrame Words.crc32 note).getD []

def noteRequest : Request := { requested noteFields with payload := [0x21] }

def opened : Broker := .created {} (fun _ => 0) fun _ => true

def pulling : Consumer where
  consumerId := .text (text "c")
  connectionId := "c1"
  queues := [.text (text "q")]

def answered : Except Raised Reply → Bool
  | .ok (.ok _) => true
  | _ => false

theorem answered_ok {reply : Except Raised Reply} (ok : answered reply = true) :
    ∃ extra, reply = .ok (.ok extra) := by
  unfold answered at ok
  split at ok
  · exact ⟨_, rfl⟩
  · cases ok

/-- Under a limit of 200 bytes there are 171 for the metadata. -/
theorem delivery_within_limit_iff_note : ∃ stored : Message, stored.payload = [0x21] ∧
    ∀ raw, deliverFrame noteCodec pulling stored = some raw →
      (raw.length ≤ 200 ↔ 92 + carried noteCodec stored.id stored.queue stored.attempts .null
        pulling.consumerId + noteCodec.size (.number (.int 0)) ≤ 171) := by
  have fed : (({ maxFrameSize := 200 } : FrameReader).feed noteCodec.crc32 noteBytes).1 = .ok [note] := by
    decide +kernel
  have read : requestOf noteCodec note "c1" (fun _ => "u1") = .ok noteRequest := rfl
  obtain ⟨extra, ok⟩ : ∃ extra, ((handle ascii none noteRequest).exec opened).1 = .ok (.ok extra) :=
    answered_ok (by decide +kernel)
  obtain ⟨priority, _, routed, after, converted, _, some_queue, stores⟩ :=
    delivery_within_limit_iff fed List.mem_cons_self read rfl (by decide +kernel) ok
  obtain rfl : 0 = priority := Except.ok.inj converted
  obtain ⟨name, member⟩ := List.exists_mem_of_ne_nil routed some_queue
  obtain ⟨stored, _, payload, later⟩ := stores name member
  exact ⟨stored, payload, (later stored ⟨rfl, rfl, rfl, rfl⟩ pulling).1⟩

/-- The DELIVER frame of the message is longer than the frame in which it came. -/
theorem full_frame_outgrown :
    (({ maxFrameSize := 58 } : FrameReader).feed noteCodec.crc32 noteBytes).1 = .ok [note] ∧
      answered ((handle ascii none noteRequest).exec opened).1 = true ∧
      ∃ stored, ((handle ascii none noteRequest).exec opened).2.queues.Holds (text "q") stored ∧
        ∃ raw, deliverFrame noteCodec pulling stored = some raw ∧ 58 < raw.length := by
  refine ⟨by decide +kernel, by decide +kernel, ?_⟩
  have found : (((handle ascii none noteRequest).exec opened).2.queues.queues.get? (text "q")).any
      fun queue => (queue.messages.get? (.text (text "u1"))).any fun stored =>
        decide (stored.payload.length < 2 ^ 32) &&
          (noteCodec.dumpsMeta (("event", .text (text "DELIVER")) ::
            deliverFields pulling stored)).any fun metadata => decide (metadata.length < 2 ^ 32) := by
    decide +kernel
  obtain ⟨queue, known, found⟩ := (Option.any_eq_true _ _).mp found
  obtain ⟨stored, held, found⟩ := (Option.any_eq_true _ _).mp found
  obtain ⟨payload, written⟩ := Bool.and_eq_true_iff.mp found
  obtain ⟨metadata, written, short⟩ := (Option.any_eq_true _ _).mp written
  obtain ⟨raw, built⟩ := deliverFrame_builds written (of_decide_eq_true short) (of_decide_eq_true payload)
  refine ⟨stored, ⟨queue, _, known, held⟩, raw, built, ?_⟩
  rw [deliverFrame_length built, headerSize]
  omega

end OneOpenBroker.Untyped

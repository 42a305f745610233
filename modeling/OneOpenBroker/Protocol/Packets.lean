import OneOpenBroker.Protocol.FrameStreams

/-! Feeding a frame reader chunk by chunk. Frames come back as they went in,
however the stream is cut; where a stream is malformed, `feed` drops the
frames that ended in the chunk with which the error shows. -/
namespace OneOpenBroker.Protocol
open Streams

variable {crc32 : List UInt8 → UInt32} {frame : Frame} {r : FrameReader} {data : List UInt8}
  {err : ProtocolError}

namespace FrameReader

/-! ## One chunk -/

theorem tryOne_more (outcome : front crc32 r.maxFrameSize r.buf = .more) :
    r.tryOne crc32 = (.ok none, r) := by
  unfold front at outcome
  unfold tryOne
  split at outcome
  · rename_i short
    rw [if_pos short]
  rename_i long
  rw [if_neg long]
  cases decoded : decodeHeader (r.buf.take headerSize) with
  | error exc => rw [decoded] at outcome; cases outcome
  | ok header =>
    rw [decoded] at outcome
    dsimp only at outcome ⊢
    split at outcome
    · cases outcome
    rename_i within
    split at outcome
    · rename_i part
      rw [if_neg (by exact within), if_pos (by exact part)]
    · split at outcome <;> cases outcome

theorem tryOne_item {size : Nat} (outcome : front crc32 r.maxFrameSize r.buf = .item frame size) :
    r.tryOne crc32 = (.ok (some frame), { r with buf := r.buf.drop size }) := by
  obtain ⟨header, decoded, long, rfl, within, there, checked, rfl⟩ := front_item outcome
  unfold tryOne
  rw [if_neg (by omega), decoded]
  dsimp only
  unfold Header.total at within there checked ⊢
  rw [if_neg (by omega), if_neg (by omega), if_neg (by exact not_not.mpr checked)]
  rfl

/-- On an error the reader is closed; a frame with a wrong checksum is off the
buffer by then. -/
theorem tryOne_bad (outcome : front crc32 r.maxFrameSize r.buf = .bad err) :
    ∃ buf, r.tryOne crc32 = (.error err, { r with buf, closedError := some err }) := by
  unfold front at outcome
  unfold tryOne
  split at outcome
  · cases outcome
  rename_i long
  rw [if_neg long]
  cases decoded : decodeHeader (r.buf.take headerSize) with
  | error exc =>
    rw [decoded] at outcome
    obtain rfl := Outcome.bad.inj outcome
    exact ⟨r.buf, rfl⟩
  | ok header =>
    rw [decoded] at outcome
    dsimp only at outcome ⊢
    split at outcome
    · rename_i large
      obtain rfl := Outcome.bad.inj outcome
      rw [if_pos (by exact large)]
      exact ⟨r.buf, rfl⟩
    rename_i within
    rw [if_neg (by exact within)]
    split at outcome
    · cases outcome
    rename_i there
    rw [if_neg (by exact there)]
    split at outcome
    · rename_i wrong
      obtain rfl := Outcome.bad.inj outcome
      rw [if_pos (by exact wrong)]
      exact ⟨_, rfl⟩
    · cases outcome

/-- The rounds of the loop are those of the scan. -/
theorem rounds_scan {n : Nat} {frames : List Frame} {scan : Scan UInt8 Frame ProtocolError}
    (rounds : (decoder crc32 r.maxFrameSize).rounds n r.buf = scan) :
    (scan.error = none →
      r.rounds crc32 n frames = (.ok (frames ++ scan.items), { r with buf := scan.rest })) ∧
    ∀ err, scan.error = some err → ∃ buf,
      r.rounds crc32 n frames = (.error err, { r with buf, closedError := some err }) := by
  induction n generalizing r frames scan with
  | zero =>
    subst rounds
    exact ⟨fun _ => by simp [FrameReader.rounds, Decoder.rounds], nofun⟩
  | succ n ih =>
    subst rounds
    unfold FrameReader.rounds Decoder.rounds
    cases outcome : (decoder crc32 r.maxFrameSize).decode r.buf with
    | more =>
      rw [tryOne_more outcome]
      exact ⟨fun _ => by simp, nofun⟩
    | bad err =>
      obtain ⟨buf, failed⟩ := tryOne_bad outcome
      rw [failed]
      refine ⟨nofun, fun other same => ⟨buf, ?_⟩⟩
      rw [Option.some.inj same]
    | item frame size =>
      rw [tryOne_item outcome]
      obtain ⟨fine, bad⟩ := @ih { r with buf := r.buf.drop size } (frames ++ [frame]) _ rfl
      refine ⟨fun none => (fine none).trans ?_, bad⟩
      rw [List.append_assoc]
      rfl

variable {scan : Scan UInt8 Frame ProtocolError}

theorem feed_scan (opened : r.closedError = none)
    (scanned : (decoder crc32 r.maxFrameSize).scan (r.buf ++ data) = scan) :
    (scan.error = none → r.feed crc32 data = (.ok scan.items, { r with buf := scan.rest })) ∧
    ∀ err, scan.error = some err → ∃ buf,
      r.feed crc32 data = (.error err, { r with buf, closedError := some err }) := by
  unfold feed
  rw [opened]
  exact rounds_scan scanned

/-! ## Many chunks -/

/-- Feed a reader until it raises: the frames that came back, the error, and
the reader. -/
def feedAll (crc32 : List UInt8 → UInt32) :
    FrameReader → List (List UInt8) → List Frame × Option ProtocolError × FrameReader
  | r, [] => ([], none, r)
  | r, chunk :: chunks =>
    match r.feed crc32 chunk with
    | (.error err, r) => ([], some err, r)
    | (.ok frames, r) =>
      let (later, err, r) := feedAll crc32 r chunks
      (frames ++ later, err, r)

/-- What comes back is what is found in the bytes before the chunk with which
the scan fails. -/
theorem feedAll_scan {limit : Nat} {seen : List UInt8} (chunks : List (List UInt8))
    (fine : ((decoder crc32 limit).scan seen).error = none) :
    ((decoder crc32 limit).scan seen).items ++
        (feedAll crc32 ⟨limit, ((decoder crc32 limit).scan seen).rest, none⟩ chunks).1 =
      ((decoder crc32 limit).scan ((decoder crc32 limit).before seen chunks)).items ∧
    (feedAll crc32 ⟨limit, ((decoder crc32 limit).scan seen).rest, none⟩ chunks).2.1 =
      ((decoder crc32 limit).scan (seen ++ chunks.flatten)).error ∧
    (((decoder crc32 limit).scan (seen ++ chunks.flatten)).error = none →
      (feedAll crc32 ⟨limit, ((decoder crc32 limit).scan seen).rest, none⟩ chunks).2.2 =
        ⟨limit, ((decoder crc32 limit).scan (seen ++ chunks.flatten)).rest, none⟩) := by
  induction chunks generalizing seen with
  | nil =>
    rw [List.flatten_nil, List.append_nil]
    exact ⟨List.append_nil _, fine.symm, fun _ => rfl⟩
  | cons chunk chunks ih =>
    have whole := (decoder crc32 limit).scan_append seen chunk fine
    generalize remaining : ((decoder crc32 limit).scan seen).rest = buf at whole ⊢
    generalize found : (decoder crc32 limit).scan (buf ++ chunk) = next at whole
    obtain ⟨going, failing⟩ := feed_scan (r := ⟨limit, buf, none⟩) rfl found
    have error : ((decoder crc32 limit).scan (seen ++ chunk)).error = next.error := by
      rw [whole, Scan.after_error]
    rw [List.flatten_cons, ← List.append_assoc]
    unfold feedAll Decoder.before
    cases failed : next.error with
    | none =>
      rw [going failed]
      rw [failed] at error
      obtain ⟨items, errors, readers⟩ := ih error
      have rest : ((decoder crc32 limit).scan (seen ++ chunk)).rest = next.rest := by
        rw [whole, Scan.after_rest]
      have first : ((decoder crc32 limit).scan (seen ++ chunk)).items =
          ((decoder crc32 limit).scan seen).items ++ next.items := by rw [whole, Scan.after_items]
      rw [rest] at items errors readers
      rw [first, List.append_assoc] at items
      rw [error]
      exact ⟨items, errors, readers⟩
    | some err =>
      obtain ⟨_, raised⟩ := failing err failed
      rw [failed] at error
      rw [raised, error]
      have ends := ((decoder crc32 limit).scan_append_bad _ chunks.flatten error).2
      rw [ends]
      exact ⟨List.append_nil _, rfl, fun clean => by cases clean⟩

end FrameReader

open FrameReader

/-- The pieces are the bytes of the frames. -/
def Encoded (crc32 : List UInt8 → UInt32) (frames : List Frame) (pieces : List (List UInt8)) : Prop :=
  List.Forall₂ (fun frame piece => encodeFrame crc32 frame = some piece) frames pieces

theorem encoded_fits {limit : Nat} {frames : List Frame} (crc32 : List UInt8 → UInt32)
    (fits : ∀ frame ∈ frames, frame.Fits limit) : ∃ pieces, Encoded crc32 frames pieces ∧
      List.Forall₂ (decoder crc32 limit).Encodes frames pieces := by
  induction frames with
  | nil => exact ⟨[], .nil, .nil⟩
  | cons frame frames ih =>
    have good := fits frame List.mem_cons_self
    obtain ⟨piece, encoded⟩ := encodeFrame_fits crc32 good
    obtain ⟨pieces, all, encodes⟩ := ih fun other member => fits other (List.mem_cons_of_mem _ member)
    exact ⟨piece :: pieces, .cons encoded all,
      .cons (encodeFrame_encodes encoded good.version good.size) encodes⟩

theorem feedAll_encoded {limit : Nat} {frames : List Frame} {pieces chunks : List (List UInt8)}
    (encodes : List.Forall₂ (decoder crc32 limit).Encodes frames pieces)
    (cut : chunks.flatten = pieces.flatten) :
    feedAll crc32 { maxFrameSize := limit } chunks = (frames, none, { maxFrameSize := limit }) := by
  have scanned := (decoder crc32 limit).scan_pieces encodes []
  rw [List.append_nil, Decoder.scan_nil, ← cut] at scanned
  have whole : (decoder crc32 limit).before [] chunks = chunks.flatten :=
    Decoder.before_all (by rw [List.nil_append, scanned]; rfl)
  obtain ⟨items, error, reader⟩ := @feedAll_scan crc32 limit [] chunks (by rw [Decoder.scan_nil])
  rw [Decoder.scan_nil, whole, scanned] at items
  rw [Decoder.scan_nil, List.nil_append, scanned] at error reader
  exact Prod.ext (items.trans (List.append_nil _)) (Prod.ext error (reader rfl))

theorem feed_encoded {r' : FrameReader} {frames : List Frame}
    (fed : r.feed crc32 data = (.ok frames, r')) :
    ∃ pieces, Encoded crc32 frames pieces ∧ r.buf ++ data = pieces.flatten ++ r'.buf := by
  cases opened : r.closedError with
  | some err =>
    unfold feed at fed
    rw [opened] at fed
    cases fed
  | none =>
    obtain ⟨fine, bad⟩ := @feed_scan crc32 r data _ opened rfl
    cases failed : ((decoder crc32 r.maxFrameSize).scan (r.buf ++ data)).error with
    | some err =>
      obtain ⟨_, raised⟩ := bad err failed
      rw [raised] at fed
      cases fed
    | none =>
      obtain ⟨pieces, encodes, same⟩ := (decoder crc32 r.maxFrameSize).scan_sound (r.buf ++ data)
      have result := (fine failed).symm.trans fed
      obtain ⟨items, rfl⟩ := Prod.mk.inj result
      obtain rfl := Except.ok.inj items
      exact ⟨pieces, encodes.imp fun _ _ found => encoded_of_encodes found, same⟩

/-- **Frame stream round trip.** The encodings of frames, cut into chunks in
any way, come back as these frames and leave nothing in the buffer; and the
frames that a `feed` returns are re-encoded to the bytes it consumed. -/
theorem frame_stream_round_trip (crc32 : List UInt8 → UInt32) (limit : Nat) :
    (∀ frames : List Frame, (∀ frame ∈ frames, frame.Fits limit) →
      ∃ pieces, Encoded crc32 frames pieces ∧ ∀ chunks : List (List UInt8),
        chunks.flatten = pieces.flatten →
          feedAll crc32 { maxFrameSize := limit } chunks = (frames, none, { maxFrameSize := limit })) ∧
    ∀ (r r' : FrameReader) (data : List UInt8) (frames : List Frame),
      r.feed crc32 data = (.ok frames, r') →
        ∃ pieces, Encoded crc32 frames pieces ∧ r.buf ++ data = pieces.flatten ++ r'.buf := by
  constructor
  · intro frames fits
    obtain ⟨pieces, encoded, encodes⟩ := encoded_fits crc32 fits
    exact ⟨pieces, encoded, fun chunks cut => feedAll_encoded encodes cut⟩
  · intro r r' data frames fed
    exact feed_encoded fed

/-- A PING, its metadata being `{}`. -/
def ping : Frame := { frameType := 1, requestId := 7, metadata := [0x7B, 0x7D], payload := [] }

theorem ping_fits : ping.Fits 100 := by constructor <;> decide

theorem frame_stream_round_trip_ping : ∃ pieces, Encoded Words.crc32 [ping, ping] pieces ∧
    ∀ chunks : List (List UInt8), chunks.flatten = pieces.flatten →
      feedAll Words.crc32 { maxFrameSize := 100 } chunks =
        ([ping, ping], none, { maxFrameSize := 100 }) :=
  (frame_stream_round_trip Words.crc32 100).1 [ping, ping] (by simp [ping_fits])

/-- What a client gets of a stream: the frames, and how it ends. -/
def outcome (crc32 : List UInt8 → UInt32) (limit : Nat) (chunks : List (List UInt8)) :
    List Frame × Option ProtocolError :=
  ((feedAll crc32 { maxFrameSize := limit } chunks).1,
    (feedAll crc32 { maxFrameSize := limit } chunks).2.1)

/-- The number of frames that end in the chunks before the one with which the
error shows, if one does. -/
def framesBefore (crc32 : List UInt8 → UInt32) (limit : Nat) (chunks : List (List UInt8)) : Nat :=
  ((decoder crc32 limit).scan ((decoder crc32 limit).before [] chunks)).items.length

theorem outcome_eq (crc32 : List UInt8 → UInt32) (limit : Nat) (chunks : List (List UInt8)) :
    outcome crc32 limit chunks =
      (((decoder crc32 limit).scan ((decoder crc32 limit).before [] chunks)).items,
        ((decoder crc32 limit).scan chunks.flatten).error) := by
  have empty : (decoder crc32 limit).scan [] = ⟨[], [], none⟩ := (decoder crc32 limit).scan_nil
  have scanned := @feedAll_scan crc32 limit [] chunks (by rw [empty])
  rw [empty] at scanned
  exact Prod.ext scanned.1 scanned.2.1

/-- **Packetization.** Two cuttings of a stream give the same frames and the
same end exactly where no error shows or as many frames end before the chunk
with which it shows in the one as in the other. -/
theorem packetization_iff (crc32 : List UInt8 → UInt32) (limit : Nat)
    (first second : List (List UInt8)) (same : first.flatten = second.flatten) :
    outcome crc32 limit first = outcome crc32 limit second ↔
      ((decoder crc32 limit).scan first.flatten).error = none ∨
        framesBefore crc32 limit first = framesBefore crc32 limit second := by
  have firstPart := (decoder crc32 limit).scan_items_grow ((decoder crc32 limit).before_append [] first)
  have secondPart := (decoder crc32 limit).scan_items_grow ((decoder crc32 limit).before_append [] second)
  rw [List.nil_append] at firstPart secondPart
  rw [← same] at secondPart
  rw [outcome_eq, outcome_eq, ← same]
  constructor
  · intro equal
    exact .inr (congrArg List.length (Prod.mk.inj equal).1)
  · rintro (fine | equal)
    · have firstAll : (decoder crc32 limit).before [] first = first.flatten :=
        Decoder.before_all (by rwa [List.nil_append])
      have secondAll : (decoder crc32 limit).before [] second = second.flatten :=
        Decoder.before_all (by rwa [List.nil_append, ← same])
      rw [firstAll, secondAll, same]
    · have part := List.prefix_of_prefix_length_le firstPart secondPart (Nat.le_of_eq equal)
      rw [part.eq_of_length equal]

/-- The bytes of a PING. -/
def pingBytes : List UInt8 := (encodeFrame Words.crc32 ping).getD []

theorem packetization_iff_pings : outcome Words.crc32 100 [pingBytes ++ pingBytes] =
    outcome Words.crc32 100 [pingBytes, pingBytes] :=
  (packetization_iff Words.crc32 100 [pingBytes ++ pingBytes] [pingBytes, pingBytes]
    (by simp only [List.flatten_cons, List.flatten_nil, List.append_nil])).mpr
    (.inl (by decide +kernel))

/-- A PING and 28 zeros: with both in one chunk the PING is lost. -/
theorem frame_lost_with_chunk :
    [pingBytes ++ List.replicate 28 0].flatten = [pingBytes, List.replicate 28 0].flatten ∧
      outcome Words.crc32 100 [pingBytes ++ List.replicate 28 0] =
        ([], some ⟨invalidFrame, "bad magic"⟩) ∧
      outcome Words.crc32 100 [pingBytes, List.replicate 28 0] =
        ([ping], some ⟨invalidFrame, "bad magic"⟩) := by
  refine ⟨?_, ?_, ?_⟩
  · simp only [List.flatten_cons, List.flatten_nil, List.append_nil]
  · decide +kernel
  · decide +kernel

end OneOpenBroker.Protocol

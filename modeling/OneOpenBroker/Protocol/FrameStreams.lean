import OneOpenBroker.Protocol.Frames

/-! The frame reader as a scan: what it returns depends on the bytes it was
fed, and of their division into chunks on no more than which of them came
before the chunk in which an error shows. -/
namespace OneOpenBroker.Protocol
open Words Streams

variable {crc32 : List UInt8 → UInt32} {limit : Nat} {frame : Frame} {bytes rest : List UInt8}
  {crc : Nat} {header : List UInt8} {decoded : Header}

/-! ## Headers -/

theorem packHeader_length (packed : packHeader frame crc = some header) :
    header.length = headerSize := by
  obtain ⟨fields, packedFields, rfl⟩ := Option.map_eq_some_iff.mp packed
  have length := (unpack_pack packedFields []).2
  simp [magic, length, headerStruct, headerSize]

/-- A packed header is decoded to the fields of the frame. -/
theorem decodeHeader_packHeader (packed : packHeader frame crc = some header)
    (version : frame.version = currentVersion) : decodeHeader header = .ok
      { frameType := frame.frameType, flags := frame.flags, requestId := frame.requestId,
        metaLen := frame.metadata.length, payloadLen := frame.payload.length, crc,
        version := frame.version } := by
  have length := packHeader_length packed
  obtain ⟨fields, packedFields, rfl⟩ := Option.map_eq_some_iff.mp packed
  have spelled := (unpack_pack packedFields []).1
  rw [List.append_nil] at spelled
  unfold decodeHeader
  rw [if_neg (by omega), List.take_of_length_le length.le, List.drop_left' (by rfl), spelled,
    List.take_left' (by rfl)]
  simp [version]

/-- The fields that a decoded header was packed from. -/
theorem decodeHeader_ok (length : header.length = headerSize)
    (ok : decodeHeader header = .ok decoded) : header.take 4 = magic ∧
      decoded.version = currentVersion ∧ unpack headerStruct (header.drop 4) = [decoded.version,
        decoded.frameType, decoded.flags, decoded.requestId, decoded.metaLen, decoded.payloadLen,
        decoded.crc] := by
  unfold decodeHeader at ok
  rw [if_neg (by omega), List.take_of_length_le length.le] at ok
  dsimp only at ok
  split at ok
  · cases ok
  rename_i magic
  split at ok
  · cases ok
  rename_i version
  obtain rfl := Except.ok.inj ok
  exact ⟨not_not.mp magic, not_not.mp version, rfl⟩

theorem packHeader_decodeHeader (length : header.length = headerSize)
    (ok : decodeHeader header = .ok decoded) (frameType : frame.frameType = decoded.frameType)
    (flags : frame.flags = decoded.flags) (requestId : frame.requestId = decoded.requestId)
    (metaLen : frame.metadata.length = decoded.metaLen)
    (payloadLen : frame.payload.length = decoded.payloadLen)
    (version : frame.version = decoded.version) : packHeader frame decoded.crc = some header := by
  obtain ⟨first, _, fields⟩ := decodeHeader_ok length ok
  have packed : pack headerStruct (unpack headerStruct (header.drop 4)) = some (header.drop 4) :=
    pack_unpack (by rw [List.length_drop, length]; rfl)
  unfold packHeader
  rw [frameType, flags, requestId, metaLen, payloadLen, version, ← fields, packed, Option.map_some,
    ← first, List.take_append_drop]

/-- The checksum is in the last bytes of the header. -/
theorem packHeader_take (packed : packHeader frame crc = some header) :
    ∃ header₀, packHeader frame 0 = some header₀ ∧ header₀.take 24 = header.take 24 := by
  have cut (n : Nat) : pack headerStruct [frame.version, frame.frameType, frame.flags,
      frame.requestId, frame.metadata.length, frame.payload.length, n] =
      if n < 256 ^ 4 then (pack [1, 1, 2, 8, 4, 4] [frame.version, frame.frameType, frame.flags,
        frame.requestId, frame.metadata.length, frame.payload.length]).map (· ++ bigEndian 4 n)
      else none := @pack_concat 4 n [1, 1, 2, 8, 4, 4] [frame.version, frame.frameType, frame.flags,
        frame.requestId, frame.metadata.length, frame.payload.length] rfl
  obtain ⟨fields, packedFields, rfl⟩ := Option.map_eq_some_iff.mp packed
  rw [cut] at packedFields
  split at packedFields
  · obtain ⟨six, packedSix, rfl⟩ := Option.map_eq_some_iff.mp packedFields
    have length : (magic ++ six).length = 24 := by
      rw [List.length_append, (unpack_pack packedSix []).2]
      rfl
    refine ⟨magic ++ (six ++ bigEndian 4 0), ?_, ?_⟩
    · unfold packHeader
      rw [cut, if_pos (by norm_num), packedSix]
      rfl
    · rw [← List.append_assoc, ← List.append_assoc, List.take_left' length, List.take_left' length]
  · cases packedFields

/-- The bytes of a frame: its checksum is that of the first part of its own
header. -/
theorem encodeFrame_iff : encodeFrame crc32 frame = some bytes ↔ ∃ header,
    packHeader frame (crc32 (header.take 24 ++ frame.metadata ++ frame.payload)).toNat = some header ∧
      bytes = header ++ frame.metadata ++ frame.payload :=
  @sealed_iff _ _ (packHeader frame)
    (fun first => (crc32 (first ++ frame.metadata ++ frame.payload)).toNat) 24
    (· ++ frame.metadata ++ frame.payload) bytes packHeader_take

/-! ## The decoder -/

/-- The length of a frame. -/
def Header.total (header : Header) : Nat := headerSize + header.metaLen + header.payloadLen

/-- The frame in its bytes. -/
def Header.frameIn (header : Header) (raw : List UInt8) : Frame where
  frameType := header.frameType
  requestId := header.requestId
  metadata := (raw.take (headerSize + header.metaLen)).drop headerSize
  payload := raw.drop (headerSize + header.metaLen)
  flags := header.flags
  version := header.version

/-- The checksum of a frame in its bytes. -/
def Header.actual (crc32 : List UInt8 → UInt32) (header : Header) (raw : List UInt8) : Nat :=
  (crc32 (raw.take 24 ++ (header.frameIn raw).metadata ++ (header.frameIn raw).payload)).toNat

/-- What `_try_one` finds at the front of the buffer. -/
def front (crc32 : List UInt8 → UInt32) (limit : Nat) (bytes : List UInt8) :
    Outcome Frame ProtocolError :=
  if bytes.length < headerSize then .more
  else
    match decodeHeader (bytes.take headerSize) with
    | .error exc => .bad exc
    | .ok header =>
      if header.total > limit then .bad ⟨frameTooLarge, "frame exceeds max_frame_size"⟩
      else if bytes.length < header.total then .more
      else if header.actual crc32 (bytes.take header.total) ≠ header.crc then
        .bad ⟨invalidFrame, "checksum mismatch"⟩
      else .item (header.frameIn (bytes.take header.total)) header.total

theorem front_item {size : Nat} (outcome : front crc32 limit bytes = .item frame size) :
    ∃ header : Header, decodeHeader (bytes.take headerSize) = .ok header ∧ headerSize ≤ bytes.length ∧
      header.total = size ∧ size ≤ limit ∧ size ≤ bytes.length ∧
      header.actual crc32 (bytes.take size) = header.crc ∧ header.frameIn (bytes.take size) = frame := by
  unfold front at outcome
  split at outcome
  · cases outcome
  rename_i long
  split at outcome
  · cases outcome
  rename_i header decoded
  split at outcome
  · cases outcome
  rename_i within
  split at outcome
  · cases outcome
  rename_i there
  split at outcome
  · cases outcome
  rename_i checked
  obtain ⟨rfl, rfl⟩ := Outcome.item.inj outcome
  exact ⟨header, decoded, not_lt.mp long, rfl, not_lt.mp within, not_lt.mp there, not_not.mp checked,
    rfl⟩

/-- More bytes change nothing but that there are too few. -/
theorem front_append (known : front crc32 limit bytes ≠ .more) (rest : List UInt8) :
    front crc32 limit (bytes ++ rest) = front crc32 limit bytes := by
  unfold front at known ⊢
  by_cases short : bytes.length < headerSize
  · rw [if_pos short] at known
    exact absurd rfl known
  have long : ¬ (bytes ++ rest).length < headerSize := by rw [List.length_append]; omega
  rw [if_neg short] at known ⊢
  rw [if_neg long, List.take_append_of_le_length (not_lt.mp short)]
  cases decoded : decodeHeader (bytes.take headerSize) with
  | error exc => rfl
  | ok header =>
    rw [decoded] at known
    dsimp only at known ⊢
    split
    · rfl
    rename_i within
    rw [if_neg within] at known
    by_cases part : bytes.length < header.total
    · rw [if_pos part] at known
      exact absurd rfl known
    have whole : ¬ (bytes ++ rest).length < header.total := by rw [List.length_append]; omega
    rw [if_neg part, if_neg whole, List.take_append_of_le_length (not_lt.mp part)]

theorem front_take {size : Nat} (outcome : front crc32 limit bytes = .item frame size) :
    front crc32 limit (bytes.take size) = .item frame size := by
  obtain ⟨header, decoded, _, rfl, within, there, checked, rfl⟩ := front_item outcome
  have length : (bytes.take header.total).length = header.total := by rw [List.length_take]; omega
  have least : headerSize ≤ header.total := by unfold Header.total; omega
  have first : (bytes.take header.total).take headerSize = bytes.take headerSize := by
    rw [List.take_take, Nat.min_eq_left least]
  unfold front
  rw [if_neg (by omega), first, decoded]
  dsimp only
  rw [if_neg (not_lt.mpr within), if_neg (by omega), List.take_of_length_le length.le,
    if_neg (not_not.mpr checked)]

/-- The decoder of the reader with a limit on the length of a frame. -/
def decoder (crc32 : List UInt8 → UInt32) (limit : Nat) : Decoder UInt8 Frame ProtocolError where
  decode := front crc32 limit
  sized outcome := by
    obtain ⟨header, _, _, rfl, _, there, _⟩ := front_item outcome
    exact ⟨by unfold Header.total headerSize; omega, there⟩
  found outcome rest := by
    have known := front_take outcome
    rw [front_append (by rw [known]; exact nofun) rest, known]
  final outcome rest := by rw [front_append (by rw [outcome]; exact nofun) rest, outcome]
  empty := rfl

/-! ## Encodings -/

/-- The fields are in the range of their widths, and the frame is not too
large for the reader. -/
structure Frame.Fits (limit : Nat) (frame : Frame) : Prop where
  version : frame.version = currentVersion
  frameType : frame.frameType < 2 ^ 8
  flags : frame.flags < 2 ^ 16
  requestId : frame.requestId < 2 ^ 64
  metadata : frame.metadata.length < 2 ^ 32
  payload : frame.payload.length < 2 ^ 32
  size : headerSize + frame.metadata.length + frame.payload.length ≤ limit

theorem packHeader_fits (fits : frame.Fits limit) (crc : Nat) (small : crc < 2 ^ 32) :
    ∃ header, packHeader frame crc = some header := by
  have version : frame.version < 256 ^ 1 := by rw [fits.version]; decide
  have frameType : frame.frameType < 256 ^ 1 := fits.frameType
  have flags : frame.flags < 256 ^ 2 := fits.flags
  have requestId : frame.requestId < 256 ^ 8 := fits.requestId
  have metadata : frame.metadata.length < 256 ^ 4 := fits.metadata
  have payload : frame.payload.length < 256 ^ 4 := fits.payload
  have checksum : crc < 256 ^ 4 := small
  obtain ⟨fields, packed⟩ := pack_eq_some_iff.mpr (.cons version (.cons frameType (.cons flags
    (.cons requestId (.cons metadata (.cons payload (.cons checksum .nil)))))))
  exact ⟨magic ++ fields, Option.map_eq_some_iff.mpr ⟨fields, packed, rfl⟩⟩

theorem encodeFrame_fits (crc32 : List UInt8 → UInt32) (fits : frame.Fits limit) :
    ∃ piece, encodeFrame crc32 frame = some piece := by
  obtain ⟨header₀, packed₀⟩ := packHeader_fits fits 0 (by decide)
  obtain ⟨header, packed⟩ := packHeader_fits fits _
    (crc32 (header₀.take 24 ++ frame.metadata ++ frame.payload)).toNat_lt
  refine ⟨header ++ frame.metadata ++ frame.payload, encodeFrame_iff.mpr ⟨header, ?_, rfl⟩⟩
  obtain ⟨other, same, first⟩ := packHeader_take packed
  obtain rfl := Option.some.inj (packed₀.symm.trans same)
  rwa [← first]

/-- The reader finds a frame in the bytes that `encode_frame` made of it. -/
theorem encodeFrame_encodes {piece : List UInt8} (encoded : encodeFrame crc32 frame = some piece)
    (version : frame.version = currentVersion)
    (size : headerSize + frame.metadata.length + frame.payload.length ≤ limit) :
    (decoder crc32 limit).Encodes frame piece := by
  obtain ⟨header, packed, rfl⟩ := encodeFrame_iff.mp encoded
  have length := packHeader_length packed
  intro rest
  have whole : (header ++ frame.metadata ++ frame.payload).length =
      headerSize + frame.metadata.length + frame.payload.length := by
    rw [List.length_append, List.length_append, length]
  have first : (header ++ frame.metadata ++ frame.payload ++ rest).take headerSize = header := by
    rw [List.append_assoc, List.append_assoc, List.take_left' length]
  have raw : (header ++ frame.metadata ++ frame.payload ++ rest).take
      (headerSize + frame.metadata.length + frame.payload.length) =
        header ++ frame.metadata ++ frame.payload := List.take_left' whole
  have metadata : ((header ++ frame.metadata ++ frame.payload).take
      (headerSize + frame.metadata.length)).drop headerSize = frame.metadata := by
    rw [List.take_left' (by rw [List.length_append, length]), List.drop_left' length]
  have payload : (header ++ frame.metadata ++ frame.payload).drop
      (headerSize + frame.metadata.length) = frame.payload :=
    List.drop_left' (by rw [List.length_append, length])
  have start : (header ++ frame.metadata ++ frame.payload).take 24 = header.take 24 := by
    rw [List.append_assoc, List.take_append_of_le_length (by rw [length]; decide)]
  change front crc32 limit _ = _
  unfold front
  rw [if_neg (by rw [List.length_append, whole]; omega), first,
    decodeHeader_packHeader packed version]
  simp only [Header.total, Header.actual, Header.frameIn, raw, metadata, payload, start]
  rw [if_neg (by omega), if_neg (by rw [List.length_append, whole]; omega), if_neg (by simp), whole]

/-- A frame that the reader finds is re-encoded to the bytes it was found in. -/
theorem encoded_of_encodes {piece : List UInt8} (encodes : (decoder crc32 limit).Encodes frame piece) :
    encodeFrame crc32 frame = some piece := by
  have outcome := encodes []
  rw [List.append_nil] at outcome
  obtain ⟨header, decoded, long, total, _, _, checked, rfl⟩ := front_item outcome
  rw [List.take_length] at checked ⊢
  have length : (piece.take headerSize).length = headerSize := by rw [List.length_take]; omega
  unfold Header.total at total
  have metadata : (header.frameIn piece).metadata.length = header.metaLen := by
    simp only [Header.frameIn, List.length_drop, List.length_take]
    omega
  have payload : (header.frameIn piece).payload.length = header.payloadLen := by
    simp only [Header.frameIn, List.length_drop]
    omega
  have packed : packHeader (header.frameIn piece) header.crc = some (piece.take headerSize) :=
    packHeader_decodeHeader length decoded rfl rfl rfl metadata payload rfl
  refine encodeFrame_iff.mpr ⟨piece.take headerSize, ?_, ?_⟩
  · rw [List.take_take]
    exact (congrArg (packHeader _) checked).trans packed
  · have first : (piece.take (headerSize + header.metaLen)).take headerSize =
        piece.take headerSize := by
      rw [List.take_take, Nat.min_eq_left (Nat.le_add_right _ _)]
    change piece = piece.take headerSize ++ (piece.take (headerSize + header.metaLen)).drop headerSize
      ++ piece.drop (headerSize + header.metaLen)
    rw [← first, List.take_append_drop, List.take_append_drop]

end OneOpenBroker.Protocol

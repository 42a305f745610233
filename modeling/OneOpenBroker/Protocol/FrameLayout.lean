import OneOpenBroker.Protocol.Packets

/-! What the frame reader accepts, against the layout of frames in the protocol
document, which gives each field of the header by its offset. The reader checks
every field but two: any type and any flags pass. -/
namespace OneOpenBroker.Protocol
open Words Streams

/-- The bytes of a field. -/
def field (s : List UInt8) (offset size : Nat) : List UInt8 := (s.drop offset).take size

/-- The fields of the header in front of the bytes, by their offsets. -/
def headerAt (s : List UInt8) : Header where
  version := number (field s 4 1)
  frameType := number (field s 5 1)
  flags := number (field s 6 2)
  requestId := number (field s 8 8)
  metaLen := number (field s 16 4)
  payloadLen := number (field s 20 4)
  crc := number (field s 24 4)

/-- The frame layout: a header, its metadata and its payload, and nothing else. -/
structure Laid (crc32 : List UInt8 → UInt32) (limit : Nat) (s : List UInt8) : Prop where
  header : headerSize ≤ s.length
  magic : field s 0 4 = magic
  version : (headerAt s).version = currentVersion
  length : s.length = headerSize + (headerAt s).metaLen + (headerAt s).payloadLen
  size : s.length ≤ limit
  crc : (headerAt s).crc = (crc32 (s.take 24 ++ s.drop headerSize)).toNat

/-- The layout with the types and the flags of version 1. -/
structure Documented (crc32 : List UInt8 → UInt32) (limit : Nat) (s : List UInt8) : Prop
    extends Laid crc32 limit s where
  frameType : (headerAt s).frameType ∈ [1, 2, 3, 4]
  flags : (headerAt s).flags = 0

/-- A fresh reader returns one frame and keeps no byte. -/
def Accepts (crc32 : List UInt8 → UInt32) (limit : Nat) (s : List UInt8) : Prop :=
  ∃ frame r, FrameReader.feed crc32 { maxFrameSize := limit } s = (.ok [frame], r) ∧ r.buf = []

variable {crc32 : List UInt8 → UInt32} {limit : Nat} {frame : Frame} {s : List UInt8}
  {decoded : Header}

/-! ## The header -/

theorem field_take {offset size n : Nat} (inside : offset + size ≤ n) :
    field (s.take n) offset size = field s offset size := by
  unfold field
  rw [List.drop_take, List.take_take, Nat.min_eq_left (by omega)]

/-- `HEADER_STRUCT` reads the fields at the offsets of the layout. -/
theorem unpack_header : unpack headerStruct (s.drop 4) =
    [(headerAt s).version, (headerAt s).frameType, (headerAt s).flags, (headerAt s).requestId,
      (headerAt s).metaLen, (headerAt s).payloadLen, (headerAt s).crc] := by
  simp only [headerStruct, unpack, List.drop_drop, headerAt, field]

theorem headerAt_take : headerAt (s.take headerSize) = headerAt s := by
  simp only [headerAt, headerSize]
  rw [field_take, field_take, field_take, field_take, field_take, field_take, field_take] <;> decide

theorem decodeHeader_ok_iff (long : headerSize ≤ s.length) :
    decodeHeader (s.take headerSize) = .ok decoded ↔
      field s 0 4 = magic ∧ (headerAt s).version = currentVersion ∧ decoded = headerAt s := by
  have whole : (s.take headerSize).length = headerSize := List.length_take_of_le long
  have first : (s.take headerSize).take 4 = field s 0 4 := by
    rw [field, List.drop_zero, List.take_take]
    rfl
  unfold decodeHeader
  rw [if_neg (by omega), List.take_of_length_le whole.le, unpack_header, headerAt_take, first]
  simp only [List.getD_cons_zero, List.getD_cons_succ]
  by_cases start : field s 0 4 = magic
  · by_cases version : (headerAt s).version = currentVersion
    · rw [if_neg (not_not.mpr start), if_neg (not_not.mpr version), Except.ok.injEq]
      exact ⟨fun same => ⟨start, version, same.symm⟩, fun all => all.2.2.symm⟩
    · simp [start, version]
  · simp [start]

/-- The metadata and the payload are all that follows the header. -/
theorem actual_whole (header : Header) : header.actual crc32 s =
    (crc32 (s.take 24 ++ s.drop headerSize)).toNat := by
  have first : (s.drop headerSize).take header.metaLen ++ (s.drop headerSize).drop header.metaLen =
    s.drop headerSize := List.take_append_drop _ _
  unfold Header.actual Header.frameIn
  dsimp only
  rw [List.drop_take, Nat.add_sub_cancel_left, List.append_assoc, ← List.drop_drop, first]

/-! ## The frame -/

/-- The decoder finds a frame in all of the bytes exactly if they are laid out
as one. -/
theorem front_whole_iff : (∃ frame, front crc32 limit s = .item frame s.length) ↔
    Laid crc32 limit s := by
  constructor
  · rintro ⟨frame, found⟩
    obtain ⟨header, decoded, long, total, within, _, checked, _⟩ := front_item found
    obtain ⟨start, version, rfl⟩ := (decodeHeader_ok_iff long).mp decoded
    rw [List.take_length, actual_whole] at checked
    exact ⟨long, start, version, total.symm, within, checked.symm⟩
  · intro laid
    have decoded := (decodeHeader_ok_iff laid.header).mpr ⟨laid.magic, laid.version, rfl⟩
    have total : (headerAt s).total = s.length := laid.length.symm
    have fits := laid.size
    have long := laid.header
    refine ⟨(headerAt s).frameIn s, ?_⟩
    unfold front
    rw [if_neg (by omega), decoded]
    dsimp only
    rw [total, if_neg (by omega), if_neg (by omega), List.take_length, actual_whole,
      if_neg (not_not.mpr laid.crc.symm)]

/-- What a fresh reader accepts, the decoder finds, and nothing else. -/
theorem accepts_iff_front : Accepts crc32 limit s ↔
    ∃ frame, front crc32 limit s = .item frame s.length := by
  obtain ⟨fine, bad⟩ := @FrameReader.feed_scan crc32 { maxFrameSize := limit } s _ rfl rfl
  rw [List.nil_append] at fine bad
  constructor
  · rintro ⟨frame, r, fed, empty⟩
    cases failed : ((decoder crc32 limit).scan s).error with
    | some err =>
      obtain ⟨_, raised⟩ := bad err failed
      exact absurd (raised.symm.trans fed) (by simp)
    | none =>
      obtain ⟨items, rfl⟩ := Prod.mk.inj ((fine failed).symm.trans fed)
      obtain ⟨pieces, encodes, same⟩ := (decoder crc32 limit).scan_sound s
      rw [Except.ok.inj items] at encodes
      obtain ⟨piece, _, own, none, rfl⟩ := List.forall₂_cons_left_iff.mp encodes
      obtain rfl := List.forall₂_nil_left_iff.mp none
      have rest : ((decoder crc32 limit).scan s).rest = [] := empty
      rw [rest, List.flatten_singleton, List.append_nil] at same
      have found := own []
      rw [List.append_nil, ← same] at found
      exact ⟨frame, found⟩
  · rintro ⟨frame, found⟩
    have scanned : (decoder crc32 limit).scan s = ⟨[frame], [], none⟩ := by
      rw [Decoder.scan_item found, List.drop_length, Decoder.scan_nil]
      rfl
    rw [scanned] at fine
    exact ⟨frame, _, fine rfl, rfl⟩

/-- The reader accepts the bytes that are laid out as a frame, of any type and
with any flags, and no others. -/
theorem accepts_iff_laid (crc32 : List UInt8 → UInt32) (limit : Nat) (s : List UInt8) :
    Accepts crc32 limit s ↔ Laid crc32 limit s :=
  accepts_iff_front.trans front_whole_iff

/-- An empty frame with a type and flags. -/
def bare (frameType flags : Nat) : Frame :=
  { frameType, flags, requestId := 7, metadata := [], payload := [] }

def bareBytes (frameType flags : Nat) : List UInt8 :=
  (encodeFrame Words.crc32 (bare frameType flags)).getD []

/-- A type that the document does not list is accepted, and so are flags that it
reserves. -/
theorem undocumented_accepted :
    (Accepts Words.crc32 100 (bareBytes 5 0) ∧ ¬ Documented Words.crc32 100 (bareBytes 5 0)) ∧
    Accepts Words.crc32 100 (bareBytes 1 1) ∧ ¬ Documented Words.crc32 100 (bareBytes 1 1) := by
  refine ⟨⟨⟨bare 5 0, { maxFrameSize := 100 }, by decide +kernel, rfl⟩, fun documented => ?_⟩,
    ⟨bare 1 1, { maxFrameSize := 100 }, by decide +kernel, rfl⟩, fun documented => ?_⟩
  · exact absurd documented.frameType (by decide +kernel)
  · exact absurd documented.flags (by decide +kernel)

end OneOpenBroker.Protocol

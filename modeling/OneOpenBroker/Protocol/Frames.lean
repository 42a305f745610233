import OneOpenBroker.Library.Streams
import OneOpenBroker.Library.Words

/-! The binary frames of `protocol/frames.py`. The checksum is any function of
the bytes. -/
namespace OneOpenBroker.Protocol
open Words

structure ProtocolError where
  code : String
  message : String
  deriving DecidableEq

def invalidFrame : String := "INVALID_FRAME"

def frameTooLarge : String := "FRAME_TOO_LARGE"

/-- `b"OOB1"`. -/
def magic : List UInt8 := [0x4F, 0x4F, 0x42, 0x31]

def currentVersion : Nat := 1

def headerSize : Nat := 28

/-- The widths of `HEADER_STRUCT` after the magic: the version, the type, the
flags, the request id, the two lengths and the checksum. -/
def headerStruct : List Nat := [1, 1, 2, 8, 4, 4, 4]

structure Frame where
  frameType : Nat
  requestId : Nat
  metadata : List UInt8
  payload : List UInt8
  flags : Nat := 0
  version : Nat := currentVersion
  deriving DecidableEq

/-- `HEADER_STRUCT.pack`. -/
def packHeader (frame : Frame) (crc : Nat) : Option (List UInt8) :=
  (pack headerStruct [frame.version, frame.frameType, frame.flags, frame.requestId,
    frame.metadata.length, frame.payload.length, crc]).map (magic ++ ·)

/-- The bytes of a frame. A field that is out of the range of its width makes
`pack` raise. -/
def encodeFrame (crc32 : List UInt8 → UInt32) (frame : Frame) : Option (List UInt8) := do
  let header24 := (← packHeader frame 0).take 24
  let crc := crc32 (header24 ++ frame.metadata ++ frame.payload)
  let header ← packHeader frame crc.toNat
  return header ++ frame.metadata ++ frame.payload

/-- The fields of a header. -/
structure Header where
  frameType : Nat
  flags : Nat
  requestId : Nat
  metaLen : Nat
  payloadLen : Nat
  crc : Nat
  version : Nat

def decodeHeader (header : List UInt8) : Except ProtocolError Header :=
  if header.length < headerSize then .error ⟨invalidFrame, "truncated header"⟩
  else
    let fields := unpack headerStruct ((header.take headerSize).drop 4)
    let decoded : Header :=
      { version := fields.getD 0 0
        frameType := fields.getD 1 0
        flags := fields.getD 2 0
        requestId := fields.getD 3 0
        metaLen := fields.getD 4 0
        payloadLen := fields.getD 5 0
        crc := fields.getD 6 0 }
    if header.take 4 ≠ magic then .error ⟨invalidFrame, "bad magic"⟩
    else if decoded.version ≠ currentVersion then .error ⟨invalidFrame, "unsupported version"⟩
    else .ok decoded

structure FrameReader where
  maxFrameSize : Nat
  buf : List UInt8 := []
  closedError : Option ProtocolError := none
  deriving DecidableEq

namespace FrameReader

/-- Keep an error for every later `feed`. -/
def close (r : FrameReader) (err : ProtocolError) : Except ProtocolError (Option Frame) × FrameReader :=
  (.error err, { r with closedError := some err })

/-- `_try_one`: a frame is off the buffer before its checksum is compared. -/
def tryOne (crc32 : List UInt8 → UInt32) (r : FrameReader) :
    Except ProtocolError (Option Frame) × FrameReader :=
  if r.buf.length < headerSize then (.ok none, r)
  else
    match decodeHeader (r.buf.take headerSize) with
    | .error exc => r.close exc
    | .ok header =>
      let total := headerSize + header.metaLen + header.payloadLen
      if total > r.maxFrameSize then r.close ⟨frameTooLarge, "frame exceeds max_frame_size"⟩
      else if r.buf.length < total then (.ok none, r)
      else
        let raw := r.buf.take total
        let r := { r with buf := r.buf.drop total }
        let metadata := (raw.take (headerSize + header.metaLen)).drop headerSize
        let payload := raw.drop (headerSize + header.metaLen)
        if (crc32 (raw.take 24 ++ metadata ++ payload)).toNat ≠ header.crc then
          r.close ⟨invalidFrame, "checksum mismatch"⟩
        else
          (.ok (some
            { frameType := header.frameType
              requestId := header.requestId
              metadata := metadata
              payload := payload
              flags := header.flags
              version := header.version }), r)

/-- Rounds of the loop of `feed`, which keeps its frames in a local list. -/
def rounds (crc32 : List UInt8 → UInt32) :
    Nat → FrameReader → List Frame → Except ProtocolError (List Frame) × FrameReader
  | 0, r, frames => (.ok frames, r)
  | n + 1, r, frames =>
    match r.tryOne crc32 with
    | (.error err, r) => (.error err, r)
    | (.ok none, r) => (.ok frames, r)
    | (.ok (some frame), r) => rounds crc32 n r (frames ++ [frame])

/-- Every frame takes a byte off the buffer, so that there are no more rounds
than bytes. -/
def feed (crc32 : List UInt8 → UInt32) (r : FrameReader) (data : List UInt8) :
    Except ProtocolError (List Frame) × FrameReader :=
  match r.closedError with
  | some err => (.error err, r)
  | none =>
    let r := { r with buf := r.buf ++ data }
    rounds crc32 (r.buf.length + 1) r []

end FrameReader
end OneOpenBroker.Protocol

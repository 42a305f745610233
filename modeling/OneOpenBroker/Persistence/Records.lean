import OneOpenBroker.Library.Streams
import OneOpenBroker.Library.Words

/-! The records of the append-only file, `persistence/records.py`, and the
reading of the file at startup, `read_aof`. The checksum is any function of
the bytes, and the JSON of the metadata any pair of functions. -/
namespace OneOpenBroker.Persistence.Records
open Words

/-- `b"OAOF"`. -/
def magic : List UInt8 := [0x4F, 0x41, 0x4F, 0x46]

def version : Nat := 1

/-- The widths of `HEADER_STRUCT` after the magic: the version, the operation,
the sequence number, the timestamp, the two lengths and the checksum. -/
def headerStruct : List Nat := [1, 2, 8, 8, 4, 4, 4]

def headerSize : Nat := 35

inductive Op where
  | queueDeclare
  | queueDelete
  | exchangeDeclare
  | exchangeDelete
  | bind
  | unbind
  | messagePublish
  | messageAck
  | messageNack
  | messageRequeue
  | messageDead
  deriving DecidableEq

/-- `OP_BY_NAME`. -/
def opByName : Op → Nat
  | .queueDeclare => 1
  | .queueDelete => 2
  | .exchangeDeclare => 3
  | .exchangeDelete => 4
  | .bind => 5
  | .unbind => 6
  | .messagePublish => 7
  | .messageAck => 8
  | .messageNack => 9
  | .messageRequeue => 10
  | .messageDead => 11

/-- `NAME_BY_OP`. -/
def nameByOp : Nat → Option Op
  | 1 => some .queueDeclare
  | 2 => some .queueDelete
  | 3 => some .exchangeDeclare
  | 4 => some .exchangeDelete
  | 5 => some .bind
  | 6 => some .unbind
  | 7 => some .messagePublish
  | 8 => some .messageAck
  | 9 => some .messageNack
  | 10 => some .messageRequeue
  | 11 => some .messageDead
  | _ => none

/-- `json.dumps` followed by `encode`, `json.loads` after `decode`, which
raises a `ValueError`, and the metadata `{}`. That `json.loads` gives up on text
nested deeper than the recursion limit of the interpreter is left out. -/
structure JsonCodec (μ : Type*) where
  dumps : μ → List UInt8
  loads : List UInt8 → Except String μ
  empty : μ

/-- The timestamp is kept as the bits of its double. -/
structure AOFRecord (μ : Type*) where
  seq : Nat
  op : Op
  metadata : μ
  payload : List UInt8
  timestamp : UInt64
  deriving DecidableEq

variable {μ : Type*}

/-- `HEADER_STRUCT.pack`, with the lengths of the metadata bytes and of the
payload. -/
def packHeader (rec : AOFRecord μ) (metaLen crc : Nat) : Option (List UInt8) :=
  (pack headerStruct [version, opByName rec.op, rec.seq, rec.timestamp.toNat, metaLen,
    rec.payload.length, crc]).map (magic ++ ·)

/-- The bytes of a record. A field that is out of the range of its width makes
`pack` raise. -/
def encodeRecord (crc32 : List UInt8 → UInt32) (json : JsonCodec μ) (rec : AOFRecord μ) :
    Option (List UInt8) := do
  let metaB := json.dumps rec.metadata
  let headerWoCrc := (← packHeader rec metaB.length 0).take (headerSize - 4)
  let crc := crc32 (headerWoCrc ++ metaB ++ rec.payload)
  let header ← packHeader rec metaB.length crc.toNat
  return header ++ metaB ++ rec.payload

/-- The fields of a header after the magic. -/
structure Header where
  version : Nat
  opId : Nat
  seq : Nat
  ts : Nat
  metaLen : Nat
  payloadLen : Nat
  crc : Nat

/-- `HEADER_STRUCT.unpack`. -/
def unpackHeader (header : List UInt8) : Header :=
  let fields := unpack headerStruct (header.drop 4)
  { version := fields.getD 0 0
    opId := fields.getD 1 0
    seq := fields.getD 2 0
    ts := fields.getD 3 0
    metaLen := fields.getD 4 0
    payloadLen := fields.getD 5 0
    crc := fields.getD 6 0 }

def Header.total (header : Header) : Nat := headerSize + header.metaLen + header.payloadLen

/-- No bytes stand for `{}`. -/
def loadMetadata (json : JsonCodec μ) (metaB : List UInt8) : Except String μ :=
  if metaB = [] then .ok json.empty else json.loads metaB

/-- The bytes of a record that is there in full. -/
def decodeWhole (crc32 : List UInt8 → UInt32) (json : JsonCodec μ) (header : Header)
    (raw : List UInt8) : Except String (AOFRecord μ) :=
  let metaB := (raw.take (headerSize + header.metaLen)).drop headerSize
  let payload := raw.drop (headerSize + header.metaLen)
  if (crc32 (raw.take (headerSize - 4) ++ metaB ++ payload)).toNat ≠ header.crc then
    .error "AOF checksum mismatch"
  else
    match nameByOp header.opId with
    | none => .error s!"unknown AOF op {header.opId}"
    | some op => (loadMetadata json metaB).map fun metadata =>
      { seq := header.seq, op, metadata, payload, timestamp := .ofNat header.ts }

/-- The record at the front of the bytes and its length, `none` where it is
incomplete, and the `ValueError` on a corrupt one. -/
def decodeRecord (crc32 : List UInt8 → UInt32) (json : JsonCodec μ) (buf : List UInt8) :
    Except String (Option (AOFRecord μ × Nat)) :=
  if buf.length < headerSize then .ok none
  else
    let header := unpackHeader (buf.take headerSize)
    if buf.take 4 ≠ magic ∨ header.version ≠ version then
      .error "invalid AOF magic or version"
    else if buf.length < header.total then .ok none
    else (decodeWhole crc32 json header (buf.take header.total)).map
      fun rec => some (rec, header.total)

/-- Rounds of the loop of `read_aof`. -/
def readRounds (crc32 : List UInt8 → UInt32) (json : JsonCodec μ) (data : List UInt8) :
    Nat → Nat → List (AOFRecord μ) → List (AOFRecord μ) × Nat
  | 0, offset, records => (records, offset)
  | n + 1, offset, records =>
    if offset < data.length then
      match decodeRecord crc32 json (data.drop offset) with
      | .error _ => (records, offset)
      | .ok none => (records, offset)
      | .ok (some (rec, consumed)) =>
        readRounds crc32 json data n (offset + consumed) (records ++ [rec])
    else (records, offset)

/-- The valid records of a file and the size to keep of it. Every record takes
a byte, so that there are no more rounds than bytes. -/
def readAof (crc32 : List UInt8 → UInt32) (json : JsonCodec μ) :
    Option (List UInt8) → List (AOFRecord μ) × Nat
  | none => ([], 0)
  | some data => readRounds crc32 json data (data.length + 1) 0 []

end OneOpenBroker.Persistence.Records

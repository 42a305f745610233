import OneOpenBroker.Library.Trees
import OneOpenBroker.Library.Words
import OneOpenBroker.Protocol.Codec

/-! The snapshot file, `persistence/snapshot.py`. The payloads of the messages
are taken out of the state into a blob of length-prefixed items, and each
message keeps the index of its item. What is left of the state goes into the
file as JSON. -/
namespace OneOpenBroker.Persistence.Snapshot
open Collections Words
open OneOpenBroker.Untyped (Text Number text)

/-- A value of a state: what JSON has, and bytes. -/
inductive Data where
  | null
  | bool (b : Bool)
  | number (n : Number)
  | text (t : Text)
  | bytes (b : List UInt8)
  | list (items : List Data)
  | dict (entries : List (Text × Data))

/-- The exceptions that the writer and the reader can raise. -/
inductive Failure where
  | typeError | attributeError | keyError | valueError | unicodeEncodeError | overflowError
  | structError

/-- What is taken from zlib and from Python: the checksum, `json.dumps` before
`encode`, `json.loads` after `decode`, and `int` of a text. -/
structure Codec where
  crc32 : List UInt8 → UInt32
  dumps : Data → Except Failure (List UInt8)
  loads : List UInt8 → Except Failure Data
  int : Text → Except Failure ℤ

/-- `b"OSNP"`. -/
def magic : List UInt8 := [0x4F, 0x53, 0x4E, 0x50]

def version : Nat := 1

/-- The widths of the header after the magic: the version, the time of
creation, the sequence number, the two lengths and the checksum. -/
def headerStruct : List Nat := [1, 8, 8, 4, 4, 4]

def headerSize : Nat := 33

namespace Data

/-- `.get(key)`, which only a dictionary has. -/
def get? (value : Data) (key : Text) : Except Failure (Option Data) :=
  match value with
  | dict entries => .ok (entries.lookup key)
  | _ => .error .attributeError

/-- `value[key]`. -/
def item (value : Data) (key : Text) : Except Failure Data :=
  match value with
  | dict entries =>
    match entries.lookup key with
    | some found => .ok found
    | none => .error .keyError
  | _ => .error .typeError

/-- What a loop visits. -/
def iterate : Data → Except Failure (List Data)
  | list items => .ok items
  | dict entries => .ok (entries.map fun entry => text entry.1)
  | text t => .ok (t.map fun c => text [c])
  | bytes b => .ok (b.map fun x => number (.int x.toNat))
  | _ => .error .typeError

/-- A loop whose body changes what it visits. The elements of a list stay
changed, and those of anything else are no dictionaries. -/
def loop {σ : Type} (body : σ → Data → Except Failure (σ × Data)) (s : σ) (value : Data) :
    Except Failure (σ × Data) := do
  let (s, items) ← each body s (← value.iterate)
  return (s, match value with | list _ => list items | other => other)

/-- An element that `bytearray.extend` takes. -/
def byte : Data → Except Failure UInt8
  | bool b => .ok (UInt8.ofNat b.toNat)
  | number (.int n) => if 0 ≤ n ∧ n < 256 then .ok (UInt8.ofNat n.toNat) else .error .valueError
  | _ => .error .typeError

/-- The bytes that `bytearray.extend` takes from a value with a length. -/
def extended : Data → Except Failure (List UInt8)
  | bytes b => .ok b
  | list items => items.mapM byte
  | dict [] => .ok []
  | _ => .error .typeError

/-- The position that an index names among that many items, if it names one. -/
def position (index : Data) (count : Nat) : Except Failure (Option Nat) :=
  match index with
  | null => .ok none
  | bool b => .ok (if b.toNat < count then some b.toNat else none)
  | number (.int n) => .ok (if 0 ≤ n ∧ n < count then some n.toNat else none)
  | number (.float q) => if 0 ≤ q ∧ q < count then .error .typeError else .ok none
  | number (.inf _) => .ok none
  | _ => .error .typeError

/-- `int(value)`, of a value of JSON. -/
def toInt (codec : Codec) : Data → Except Failure ℤ
  | bool b => .ok b.toNat
  | number (.int n) => .ok n
  | number (.float q) => .ok (if 0 ≤ q then q.floor else q.ceil)
  | number (.inf _) => .error .overflowError
  | text t => codec.int t
  | _ => .error .typeError

end Data

/-! ## The writer -/

/-- The payload of a message. A text is encoded, and nothing is no bytes. -/
def takenPayload (fields : List (Text × Data)) : Except Failure Data :=
  match fields.lookup (text "payload") with
  | some (.text t) => if t.encodable then .ok (.bytes (Protocol.bytes t)) else .error .unicodeEncodeError
  | some .null | none => .ok (.bytes [])
  | some payload => .ok payload

/-- One round of `_extract`. -/
def extractMessage (payloads : List Data) : Data → Except Failure (List Data × Data)
  | .dict fields => do
    let payload ← takenPayload fields
    let index := Data.number (.int payloads.length)
    return (payloads ++ [payload],
      .dict (setEntry (setEntry fields (text "payload") .null) (text "payload_index") index))
  | _ => .error .attributeError

def extractQueue (payloads : List Data) : Data → Except Failure (List Data × Data)
  | .dict fields =>
    match fields.lookup (text "messages") with
    | some messages => do
      let (payloads, messages) ← messages.loop extractMessage payloads
      return (payloads, .dict (setEntry fields (text "messages") messages))
    | none => .ok (payloads, .dict fields)
  | other => .ok (payloads, other)

/-- The payloads of a state and the state without them. The queues are a list
in a block of the state, or that block itself. -/
def extract : Data → Except Failure (List Data × Data)
  | .dict entries =>
    match entries.lookup (text "queues") with
    | some (.dict block) =>
      match block.lookup (text "queues") with
      | some (.list queues) => do
        let (payloads, queues) ← each extractQueue [] queues
        let block := setEntry block (text "queues") (.list queues)
        return (payloads, .dict (setEntry entries (text "queues") (.dict block)))
      | _ => .ok ([], .dict entries)
    | some (.list queues) => do
      let (payloads, queues) ← each extractQueue [] queues
      return (payloads, .dict (setEntry entries (text "queues") (.list queues)))
    | _ => .ok ([], .dict entries)
  | _ => .error .attributeError

/-- An item of the blob: `struct.pack(">I", len(item))` and the item. -/
def packItem (payload : Data) : Except Failure (List UInt8) := do
  let bytes ← payload.extended
  match pack [4] [bytes.length] with
  | some size => .ok (size ++ bytes)
  | none => .error .structError

/-- What the file holds as JSON. -/
def metadata (aofSeq : ℤ) (state : Data) : Data :=
  .dict [(text "aof_seq", .number (.int aofSeq)), (text "state", state)]

/-- The time of creation is the bits of its double. -/
def packHeader (created : UInt64) (aofSeq : ℤ) (metaLen blobLen : Nat) (crc : UInt32) :
    Except Failure (List UInt8) :=
  if aofSeq < 0 then .error .structError
  else
    match pack headerStruct [version, created.toNat, aofSeq.toNat, metaLen, blobLen, crc.toNat] with
    | some fields => .ok (magic ++ fields)
    | none => .error .structError

/-- The bytes of the file, which takes the place of the one before in one step. -/
def writeSnapshot (codec : Codec) (created : UInt64) (aofSeq : ℤ) (state : Data) :
    Except Failure (List UInt8) := do
  let (payloads, state) ← extract state
  let metaB ← codec.dumps (metadata aofSeq state)
  let blob := (← payloads.mapM packItem).flatten
  let header ← packHeader created aofSeq metaB.length blob.length (codec.crc32 (metaB ++ blob))
  return header ++ metaB ++ blob

/-! ## The reader -/

/-- The items of a blob. A last one that is cut off is taken as it is. -/
def scanBlob (blob : List UInt8) : List (List UInt8) :=
  if 4 ≤ blob.length then
    let n := number (blob.take 4)
    (blob.drop 4).take n :: scanBlob ((blob.drop 4).drop n)
  else []
termination_by blob.length
decreasing_by simp only [List.length_drop]; omega

/-- A message gets the payload that its index names. -/
def restoreMessage (payloads : List (List UInt8)) :
    Data → Except Failure (List (List UInt8) × Data)
  | .dict fields => do
    let index := (fields.lookup (text "payload_index")).getD .null
    match ← index.position payloads.length with
    | some n =>
      let payload := payloads.getD n []
      return (payloads, .dict (setEntry fields (text "payload") (.bytes payload)))
    | none => return (payloads, .dict fields)
  | _ => .error .attributeError

def restoreQueue (payloads : List (List UInt8)) : Data → Except Failure (List (List UInt8) × Data)
  | .dict fields =>
    match fields.lookup (text "messages") with
    | some messages => do
      let (payloads, messages) ← messages.loop restoreMessage payloads
      return (payloads, .dict (setEntry fields (text "messages") messages))
    | none => .ok (payloads, .dict fields)
  | _ => .error .attributeError

/-- The state with the payloads in it. Unlike the writer, the reader wants the
block of the queues to be a dictionary. -/
def restore (payloads : List (List UInt8)) : Data → Except Failure Data
  | .dict entries =>
    match entries.lookup (text "queues") with
    | some (.dict block) =>
      match block.lookup (text "queues") with
      | some (.list queues) => do
        let (_, queues) ← each restoreQueue payloads queues
        let block := setEntry block (text "queues") (.list queues)
        return .dict (setEntry entries (text "queues") (.dict block))
      | _ => .ok (.dict entries)
    | none => .ok (.dict entries)
    | some _ => .error .attributeError
  | _ => .error .attributeError

/-- The fields of a header after the magic. -/
structure Header where
  version : Nat
  aofSeq : Nat
  metaLen : Nat
  blobLen : Nat
  crc : Nat

def unpackHeader (header : List UInt8) : Header :=
  let fields := unpack headerStruct (header.drop 4)
  { version := fields.getD 0 0
    aofSeq := fields.getD 2 0
    metaLen := fields.getD 3 0
    blobLen := fields.getD 4 0
    crc := fields.getD 5 0 }

/-- The sequence number and the state in a body that is there in full. -/
def readBody (codec : Codec) (header : Header) (body : List UInt8) : Except Failure (ℤ × Data) := do
  let loaded ← codec.loads (body.take header.metaLen)
  let payloads := scanBlob (body.drop header.metaLen)
  let state ← restore payloads (← loaded.item (text "state"))
  let aofSeq := ((← loaded.get? (text "aof_seq")).getD (.number (.int header.aofSeq)))
  return (← aofSeq.toInt codec, state)

/-- Nothing, of a file that is missing, too small, of another kind, truncated
or damaged. -/
def readSnapshot (codec : Codec) : Option (List UInt8) → Except Failure (Option (ℤ × Data))
  | none => .ok none
  | some data =>
    if data.length < headerSize then .ok none
    else
      let header := unpackHeader (data.take headerSize)
      let size := header.metaLen + header.blobLen
      let body := (data.drop headerSize).take size
      if data.take 4 ≠ magic ∨ header.version ≠ version then .ok none
      else if body.length ≠ size then .ok none
      else if (codec.crc32 body).toNat ≠ header.crc then .ok none
      else (readBody codec header body).map some

end OneOpenBroker.Persistence.Snapshot

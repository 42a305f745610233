import OneOpenBroker.Protocol.FrameStreams
import OneOpenBroker.Untyped.Handler

/-! Metadata as JSON in frames, `protocol/codec.py`. It is written without
blanks and without ASCII escapes, so a text takes as many bytes as its UTF-8,
plus its quotes and escapes. -/
namespace OneOpenBroker.Protocol
open Collections OneOpenBroker.Untyped

def frameCommand : Nat := 1

def frameResponse : Nat := 2

def frameEvent : Nat := 3

/-- The UTF-8 of a code point. -/
def utf8 (c : Nat) : List UInt8 :=
  let continued (n : Nat) : UInt8 := UInt8.ofNat (0x80 + n % 64)
  if c < 0x80 then [UInt8.ofNat c]
  else if c < 0x800 then [UInt8.ofNat (0xC0 + c / 64), continued c]
  else if c < 0x10000 then [UInt8.ofNat (0xE0 + c / 4096), continued (c / 64), continued c]
  else [UInt8.ofNat (0xF0 + c / 262144), continued (c / 4096), continued (c / 64), continued c]

/-- `.encode("utf-8")`, of a text without surrogates. -/
def bytes (t : Text) : List UInt8 := t.flatMap utf8

/-- The characters that have an escape of their own. -/
def escapes : List (Nat × Text) := [
  (0x22, text "\\\""), (0x5C, text "\\\\"), (0x0A, text "\\n"), (0x0D, text "\\r"),
  (0x09, text "\\t"), (0x0C, text "\\f"), (0x08, text "\\b")]

def hexDigit (n : Nat) : Nat := if n < 10 then 0x30 + n else 0x57 + n

/-- What is written for a character of a string. -/
def escape (c : Nat) : Text :=
  (escapes.lookup c).getD <|
    if c < 0x20 then text "\\u00" ++ [hexDigit (c / 16), hexDigit (c % 16)] else [c]

def quote (t : Text) : Text := [0x22] ++ t.flatMap escape ++ [0x22]

/-- `int.__repr__`. -/
def decimal (n : ℤ) : Text :=
  (if n < 0 then [0x2D] else []) ++ (Nat.toDigits 10 n.natAbs).map Char.toNat

/-- The checksum, and what is taken from Python: how a float is written, and
what `json.loads` makes of bytes that are the UTF-8 of JSON. -/
structure Codec where
  crc32 : List UInt8 → UInt32
  float : ℚ → Text
  parse : List UInt8 → Option Value

namespace Codec

mutual

/-- `json.dumps`. -/
def dumps (codec : Codec) : Value → Text
  | .null => text "null"
  | .bool b => text (if b then "true" else "false")
  | .number (.int n) => decimal n
  | .number (.float q) => codec.float q
  | .number (.inf negative) => text (if negative then "-Infinity" else "Infinity")
  | .text t => quote t
  | .list items => [0x5B] ++ [0x2C].intercalate (codec.dumpsItems items) ++ [0x5D]
  | .dict entries => [0x7B] ++ [0x2C].intercalate (codec.dumpsEntries entries) ++ [0x7D]

def dumpsItems (codec : Codec) : List Value → List Text
  | [] => []
  | item :: rest => codec.dumps item :: codec.dumpsItems rest

def dumpsEntries (codec : Codec) : List (Text × Value) → List Text
  | [] => []
  | (key, value) :: rest =>
    (quote key ++ [0x3A] ++ codec.dumps value) :: codec.dumpsEntries rest

end

/-- `_dumps`, which raises on a surrogate. -/
def dumpsMeta (codec : Codec) (fields : List (String × Value)) : Option (List UInt8) :=
  if fields.all (·.2.encodable) then
    some (bytes (codec.dumps (.dict (fields.map fun entry => (text entry.1, entry.2)))))
  else none

/-- `_loads`. -/
def loads (codec : Codec) (raw : List UInt8) : Except ProtocolError Metadata :=
  if raw = [] then .ok ∅
  else
    match codec.parse raw with
    | none => .error ⟨invalidFrame, "invalid metadata json"⟩
    | some (.dict entries) =>
      .ok (entries.foldl (fun metadata entry => metadata.set entry.1 entry.2) ∅)
    | some _ => .error ⟨invalidFrame, "metadata must be an object"⟩

def parseMetadata (codec : Codec) (frame : Frame) : Except ProtocolError Metadata :=
  codec.loads frame.metadata

def responseFrame (codec : Codec) (requestId : Nat) (ok : Bool) (extra : List (String × Value))
    (payload : List UInt8) (code message : Value) : Option (List UInt8) := do
  let code := code.or (.text (text "INTERNAL_ERROR"))
  let failure := if ok then [] else [("code", code), ("message", message.or code)]
  let metadata ← codec.dumpsMeta (("ok", .bool ok) :: extra ++ failure)
  encodeFrame codec.crc32 { frameType := frameResponse, requestId, metadata, payload }

def eventFrame (codec : Codec) (event : String) (extra : List (String × Value))
    (payload : List UInt8) (requestId : Nat) : Option (List UInt8) := do
  let metadata ← codec.dumpsMeta (("event", .text (text event)) :: extra)
  encodeFrame codec.crc32 { frameType := frameEvent, requestId, metadata, payload }

/-! ## Lengths -/

variable {codec : Codec} {s t : Text} {parts : List Text} {entries : List (Text × Value)}
  {fields : List (String × Value)} {metadata payload raw : List UInt8}

/-- The length of a value's JSON. -/
def size (codec : Codec) (value : Value) : Nat := (bytes (codec.dumps value)).length

theorem bytes_append : bytes (s ++ t) = bytes s ++ bytes t := List.flatMap_append

/-- A separator follows every part but the last. -/
theorem length_separated (part : Text) :
    (bytes ([0x2C].intercalate (part :: parts))).length + 1 =
      ((part :: parts).map fun part => (bytes part).length + 1).sum := by
  induction parts generalizing part with
  | nil => simp [List.intercalate]
  | cons next rest ih =>
    have split : [0x2C].intercalate (part :: next :: rest) =
        part ++ [0x2C] ++ [0x2C].intercalate (next :: rest) := by simp [List.intercalate]
    have comma : (bytes [0x2C]).length = 1 := rfl
    rw [split, bytes_append, bytes_append, List.length_append, List.length_append, comma,
      Nat.add_assoc, ih next]
    simp only [List.map_cons, List.sum_cons]

/-- An entry is its key and its value with a colon between them. -/
theorem map_dumpsEntries :
    (codec.dumpsEntries entries).map (fun part => (bytes part).length + 1) =
      entries.map fun entry => codec.size (.text entry.1) + codec.size entry.2 + 2 := by
  induction entries with
  | nil => rfl
  | cons entry rest ih =>
    have colon : (bytes [0x3A]).length = 1 := rfl
    rw [dumpsEntries, List.map_cons, List.map_cons, ih, bytes_append, bytes_append,
      List.length_append, List.length_append, colon]
    have quoted : codec.size (.text entry.1) = (bytes (quote entry.1)).length := by
      rw [size, dumps]
    rw [quoted, size]
    congr 1
    exact congrArg (· + 1) (Nat.add_right_comm _ _ _)

theorem size_dict (some_entry : entries ≠ []) : codec.size (.dict entries) =
    1 + (entries.map fun entry => codec.size (.text entry.1) + codec.size entry.2 + 2).sum := by
  have opening : (bytes [0x7B]).length = 1 := rfl
  have closing : (bytes [0x7D]).length = 1 := rfl
  rw [← map_dumpsEntries, size, dumps, bytes_append, bytes_append, List.length_append,
    List.length_append, opening, closing]
  cases written : codec.dumpsEntries entries with
  | nil =>
    cases entries with
    | nil => exact absurd rfl some_entry
    | cons entry rest => cases written
  | cons part parts =>
    rw [Nat.add_assoc, length_separated]

theorem dumpsMeta_length (written : codec.dumpsMeta fields = some metadata) (some_field : fields ≠ []) :
    metadata.length =
      1 + (fields.map fun entry => codec.size (.text (text entry.1)) + codec.size entry.2 + 2).sum := by
  unfold dumpsMeta at written
  split at written
  · obtain rfl := Option.some.inj written
    have some_entry : (fields.map fun entry => (text entry.1, entry.2)) ≠ [] :=
      mt List.map_eq_nil_iff.mp some_field
    have listed : codec.size _ = _ := size_dict some_entry
    rw [List.map_map] at listed
    exact listed
  · cases written

theorem encodeFrame_length {frame : Frame} (encoded : encodeFrame codec.crc32 frame = some raw) :
    raw.length = headerSize + frame.metadata.length + frame.payload.length := by
  obtain ⟨header, packed, rfl⟩ := encodeFrame_iff.mp encoded
  rw [List.length_append, List.length_append, packHeader_length packed]

end Codec
end OneOpenBroker.Protocol

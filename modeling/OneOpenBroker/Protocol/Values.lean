import OneOpenBroker.Protocol.Metadata

/-! The two views of metadata. The codec reads and writes JSON whose floats are
of any type; the handler computes with values whose floats are numbers. What is
read is a value unless it has a NaN in it, which `json.loads` takes although JSON
has no such word, and what the handler answers is written as the codec writes
it. -/
namespace OneOpenBroker.Protocol
open Collections OneOpenBroker.Untyped JsonValue

variable {φ : Type*} {format : FloatFormat φ}

/-- How the floats of a format and numbers stand for each other. NaN is no
number. -/
structure Numerals (format : FloatFormat φ) where
  float : ℚ → φ
  number : φ → Option Number
  nan : number format.nan = none
  infinity : format.floatstr format.infinity = text "Infinity"
  minusInfinity : format.floatstr format.minusInfinity = text "-Infinity"

namespace Numerals

variable (numerals : Numerals format)

mutual

/-- The value that was read, if there is no NaN in it. -/
def value? : JsonValue φ → Option Value
  | .null => some .null
  | .bool b => some (.bool b)
  | .int n => some (.number (.int n))
  | .float x => (numerals.number x).map .number
  | .text t => some (.text t)
  | .list items => (valueItems? items).map .list
  | .dict entries => (valueEntries? entries).map .dict

def valueItems? : List (JsonValue φ) → Option (List Value)
  | [] => some []
  | item :: rest => do return (← value? item) :: (← valueItems? rest)

def valueEntries? : List (Text × JsonValue φ) → Option (List (Text × Value))
  | [] => some []
  | (key, v) :: rest => do return (key, ← value? v) :: (← valueEntries? rest)

end

mutual

/-- A value as it is to be written. -/
def json : Value → JsonValue φ
  | .null => .null
  | .bool b => .bool b
  | .number (.int n) => .int n
  | .number (.float q) => .float (numerals.float q)
  | .number (.inf negative) => .float (if negative then format.minusInfinity else format.infinity)
  | .text t => .text t
  | .list items => .list (jsonItems items)
  | .dict entries => .dict (jsonEntries entries)

def jsonItems : List Value → List (JsonValue φ)
  | [] => []
  | item :: rest => json item :: jsonItems rest

def jsonEntries : List (Text × Value) → List (Text × JsonValue φ)
  | [] => []
  | (key, v) :: rest => (key, json v) :: jsonEntries rest

end

/-- The codec of values that a codec of JSON makes. -/
def codec (crc32 : List UInt8 → UInt32) : Codec where
  crc32
  float q := format.floatstr (numerals.float q)
  parse raw :=
    match decodeUtf8 raw with
    | none => none
    | some t => (jsonLoads format t).toOption.bind numerals.value?

variable {numerals} {crc32 : List UInt8 → UInt32} {raw : List UInt8}

/-! ## Writing -/

theorem writtenItems_eq (items : List (JsonValue φ)) :
    writtenItems format items = [0x2C].intercalate (items.map (written format)) := by
  induction items with
  | nil => rfl
  | cons item rest ih =>
    cases rest with
    | nil => simp [writtenItems, List.intercalate]
    | cons next rest => simp [writtenItems, List.intercalate, ih]

theorem writtenEntries_eq (entries : List (Text × JsonValue φ)) : writtenEntries format entries =
    [0x2C].intercalate (entries.map fun entry => quote entry.1 ++ [0x3A] ++ entry.2.written format) := by
  induction entries with
  | nil => rfl
  | cons entry rest ih =>
    cases rest with
    | nil => simp [writtenEntries, List.intercalate]
    | cons next rest => simp [writtenEntries, List.intercalate, ih]

mutual

/-- Values are written as their JSON is. -/
theorem dumps_json : ∀ v : Value, (numerals.codec crc32).dumps v = (numerals.json v).written format
  | .null | .bool _ | .number (.int _) | .number (.float _) | .text _ => by
    simp only [Codec.dumps, json, written, codec]
  | .number (.inf true) => by simp [Codec.dumps, json, written, numerals.minusInfinity]
  | .number (.inf false) => by simp [Codec.dumps, json, written, numerals.infinity]
  | .list items => by
    simp only [Codec.dumps, json, written, writtenItems_eq, dumps_jsonItems items]
  | .dict entries => by
    simp only [Codec.dumps, json, written, writtenEntries_eq, dumps_jsonEntries entries]

theorem dumps_jsonItems : ∀ items : List Value,
    (numerals.codec crc32).dumpsItems items = (numerals.jsonItems items).map (written format)
  | [] => rfl
  | item :: rest => by
    simp only [Codec.dumpsItems, jsonItems, List.map_cons, dumps_json item, dumps_jsonItems rest]

theorem dumps_jsonEntries : ∀ entries : List (Text × Value),
    (numerals.codec crc32).dumpsEntries entries =
      (numerals.jsonEntries entries).map fun entry => quote entry.1 ++ [0x3A] ++ entry.2.written format
  | [] => rfl
  | (key, v) :: rest => by
    simp only [Codec.dumpsEntries, jsonEntries, List.map_cons, dumps_json v, dumps_jsonEntries rest]

end

mutual

theorem encodable_json : ∀ v : Value, (numerals.json v).encodable = v.encodable
  | .null | .bool _ | .number (.int _) | .number (.float _) | .number (.inf _) | .text _ => rfl
  | .list items => encodable_jsonItems items
  | .dict entries => by
    simp only [JsonValue.encodable, json, JsonValue.all, Bool.true_and]
    exact encodable_jsonEntries entries

theorem encodable_jsonItems : ∀ items : List Value,
    allItems { text := Text.encodable } (numerals.jsonItems items) = Value.encodableAll items
  | [] => rfl
  | item :: rest => congrArg₂ (· && ·) (encodable_json item) (encodable_jsonItems rest)

theorem encodable_jsonEntries : ∀ entries : List (Text × Value),
    allEntries { text := Text.encodable } (numerals.jsonEntries entries) = Value.encodableEntries entries
  | [] => rfl
  | (key, v) :: rest =>
    congrArg₂ (· && ·) (congrArg (Text.encodable key && ·) (encodable_json v)) (encodable_jsonEntries rest)

end

theorem encodable_fields (fields : List (String × Value)) : fields.all (·.2.encodable) =
    Value.encodable (.dict (fields.map fun entry => (text entry.1, entry.2))) := by
  rw [Value.encodable]
  induction fields with
  | nil => rfl
  | cons entry rest ih =>
    rw [List.all_cons, ih, List.map_cons, Value.encodableEntries, text_encodable, Bool.true_and]

/-- **What is answered.** The fields of an answer are written to the bytes of their
JSON, or not at all because a text has a surrogate. -/
theorem dumpsMeta_json (fields : List (String × Value))
    (short : (numerals.json (.dict (fields.map fun entry => (text entry.1, entry.2)))).all
      { int := isShort } = true)
    (finite : (numerals.json (.dict (fields.map fun entry => (text entry.1, entry.2)))).finite format = true) :
    (numerals.codec crc32).dumpsMeta fields =
      ((numerals.json (.dict (fields.map fun entry => (text entry.1, entry.2)))).dumpsMeta format).toOption := by
  rw [dumpsMeta_eq short finite, encodable_json, ← encodable_fields, Codec.dumpsMeta, dumps_json]
  split <;> rfl

/-! ## Reading -/

/-- The metadata of a request, if what was read is an object without NaN. -/
def metadata? (numerals : Numerals format) (v : JsonValue φ) : Option Metadata :=
  match numerals.value? v with
  | some (.dict entries) => some (entries.foldl (fun metadata entry => metadata.set entry.1 entry.2) ∅)
  | _ => none

theorem nan_no_value : numerals.value? (.float format.nan) = none := by
  rw [value?, numerals.nan]
  rfl

theorem metadata?_dict {v : JsonValue φ} {metadata : Metadata}
    (found : numerals.metadata? v = some metadata) : ∃ entries, v = .dict entries := by
  unfold metadata? at found
  cases v with
  | dict entries => exact ⟨entries, rfl⟩
  | null | bool | int | text | float | list => simp [value?] at found

theorem loadsJson_ok {v : JsonValue φ} (some_byte : raw ≠ []) : loadsJson format raw = .ok v ↔
    (∃ entries, v = .dict entries) ∧ ∃ t, decodeUtf8 raw = some t ∧ jsonLoads format t = .ok v := by
  unfold loadsJson
  rw [if_neg some_byte]
  cases decodeUtf8 raw with
  | none => simp
  | some t =>
    cases read : jsonLoads format t with
    | error fault => cases fault <;> simp [read]
    | ok w =>
      cases w with
      | dict entries =>
        simp only [Except.ok.injEq, Option.some.injEq, exists_eq_left', read]
        exact ⟨fun same => ⟨⟨entries, same.symm⟩, same⟩, And.right⟩
      | null | bool | int | text | float | list =>
        simp only [reduceCtorEq, Except.ok.injEq, Option.some.injEq, exists_eq_left', read, false_iff]
        rintro ⟨⟨entries, rfl⟩, ⟨⟩⟩

/-- **What is asked.** A request's metadata is the object that the codec reads,
where it has no NaN. -/
theorem loads_json {metadata : Metadata} : (numerals.codec crc32).loads raw = .ok metadata ↔
    ∃ v, loadsJson format raw = .ok v ∧ numerals.metadata? v = some metadata := by
  by_cases empty : raw = []
  · simp [Codec.loads, loadsJson, empty, metadata?, value?, valueEntries?]
  · have parsed : (numerals.codec crc32).loads raw = .ok metadata ↔
        ∃ t v, decodeUtf8 raw = some t ∧ jsonLoads format t = .ok v ∧ numerals.metadata? v = some metadata := by
      rw [Codec.loads, if_neg empty]
      dsimp only [codec]
      cases decodeUtf8 raw with
      | none => simp
      | some t =>
        cases read : jsonLoads format t with
        | error fault => simp [Except.toOption, read]
        | ok v =>
          cases value : numerals.value? v with
          | none => simp [Except.toOption, read, metadata?, value]
          | some value' => cases value' <;> simp [Except.toOption, read, metadata?, value]
    rw [parsed]
    constructor
    · rintro ⟨t, v, decoded, read, found⟩
      exact ⟨v, (loadsJson_ok empty).mpr ⟨metadata?_dict found, t, decoded, read⟩, found⟩
    · rintro ⟨v, loaded, found⟩
      obtain ⟨_, t, decoded, read⟩ := (loadsJson_ok empty).mp loaded
      exact ⟨t, v, decoded, read, found⟩

end Numerals
end OneOpenBroker.Protocol

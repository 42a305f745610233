import OneOpenBroker.Library.Dict
import OneOpenBroker.Protocol.Utf8

/-! The metadata codec on all JSON texts: `json.loads` after the decoder of UTF-8,
and `json.dumps` with `ensure_ascii=False` before its encoder. Floats are of any
type that is read from literals and written as literals. The depth to which the
interpreter can nest calls is not limited. -/
namespace OneOpenBroker.Protocol
open Collections OneOpenBroker.Untyped

/-- What `json.loads` returns. -/
inductive JsonValue (φ : Type*) where
  | null
  | bool (b : Bool)
  | int (n : ℤ)
  | float (x : φ)
  | text (t : Text)
  | list (items : List (JsonValue φ))
  | dict (entries : List (Text × JsonValue φ))

/-! ## Numbers -/

def isDigit (c : Nat) : Bool := 0x30 ≤ c && c ≤ 0x39

/-- A minus, or nothing, and what follows. -/
def scanMinus : Text → Text × Text
  | 0x2D :: rest => ([0x2D], rest)
  | t => ([], t)

/-- A zero, or digits that begin with another one. -/
def scanInt : Text → Option (Text × Text)
  | [] => none
  | c :: rest =>
    if c = 0x30 then some ([c], rest)
    else if isDigit c then some (c :: rest.takeWhile isDigit, rest.dropWhile isDigit)
    else none

/-- A point and digits, or nothing. -/
def scanFrac (t : Text) : Text × Text :=
  match t with
  | 0x2E :: rest =>
    if rest.takeWhile isDigit = [] then ([], t)
    else (0x2E :: rest.takeWhile isDigit, rest.dropWhile isDigit)
  | _ => ([], t)

/-- The sign of an exponent, or nothing. -/
def scanSign : Text → Text × Text
  | 0x2B :: rest => ([0x2B], rest)
  | 0x2D :: rest => ([0x2D], rest)
  | t => ([], t)

/-- An exponent, or nothing. -/
def scanExp (t : Text) : Text × Text :=
  match t with
  | [] => ([], t)
  | c :: rest =>
    let (sign, rest) := scanSign rest
    if (c = 0x65 ∨ c = 0x45) ∧ rest.takeWhile isDigit ≠ [] then
      (c :: sign ++ rest.takeWhile isDigit, rest.dropWhile isDigit)
    else ([], t)

/-- The parts of a number: whether it is negative, its digits, and the fraction
with the exponent, which make it a float. -/
structure NumberParts where
  minus : Text
  digits : Text
  tail : Text

def NumberParts.literal (parts : NumberParts) : Text := parts.minus ++ parts.digits ++ parts.tail

def scanNumber (t : Text) : Option (NumberParts × Text) := do
  let (minus, t) := scanMinus t
  let (digits, t) ← scanInt t
  let (frac, t) := scanFrac t
  let (exp, t) := scanExp t
  return ({ minus, digits, tail := frac ++ exp }, t)

/-- A literal that is read as a float. -/
def IsFloatLiteral (t : Text) : Prop :=
  ∃ parts, scanNumber t = some (parts, []) ∧ parts.literal = t ∧ parts.tail ≠ []

/-- The floats of Python: `float` of a literal and the three that have words, and
what `json.dumps` writes. A finite float is written as a literal that is read as
this float. -/
structure FloatFormat (φ : Type*) where
  read : Text → φ
  nan : φ
  infinity : φ
  minusInfinity : φ
  floatstr : φ → Text
  finite : φ → Bool
  written : ∀ x, finite x = true → IsFloatLiteral (floatstr x) ∧ read (floatstr x) = x

/-- `sys.get_int_max_str_digits()`. -/
def maxStrDigits : Nat := 4300

/-- `int` of digits with a sign. -/
def NumberParts.int (parts : NumberParts) : ℤ :=
  let n : ℤ := Nat.ofDigitChars 10 (parts.digits.map Char.ofNat) 0
  if parts.minus = [] then n else -n

/-! ## Strings -/

def hexValue (c : Nat) : Option Nat :=
  if 0x30 ≤ c ∧ c ≤ 0x39 then some (c - 0x30)
  else if 0x61 ≤ c ∧ c ≤ 0x66 then some (c - 0x57)
  else if 0x41 ≤ c ∧ c ≤ 0x46 then some (c - 0x37)
  else none

def hex4 (a b c d : Nat) : Option Nat := do
  return ((((← hexValue a) * 16 + (← hexValue b)) * 16 + (← hexValue c)) * 16 + (← hexValue d))

/-- The characters after a backslash, with what they stand for. -/
def backslash : List (Nat × Nat) := [
  (0x22, 0x22), (0x5C, 0x5C), (0x2F, 0x2F), (0x62, 0x08), (0x66, 0x0C), (0x6E, 0x0A), (0x72, 0x0D),
  (0x74, 0x09)]

/-- A character before those that were scanned. -/
def push (unit : Nat) (scanned : Text × Text) : Text × Text := (unit :: scanned.1, scanned.2)

/-- The characters of a string up to its quote. Each `\u` makes one. -/
def scanUnits : Text → Option (Text × Text)
  | [] => none
  | c :: rest =>
    if c = 0x22 then some ([], rest)
    else if c = 0x5C then
      match rest with
      | [] => none
      | e :: rest =>
        if e = 0x75 then
          match rest with
          | a :: b :: c :: d :: rest => do
            let unit ← hex4 a b c d
            (scanUnits rest).map (push unit)
          | _ => none
        else do
          let unit ← backslash.lookup e
          (scanUnits rest).map (push unit)
    else if c < 0x20 then none
    else (scanUnits rest).map (push c)

/-- Two surrogates that follow each other stand for one character. Only escapes
make surrogates, as a decoded text has none. -/
def joinPairs : Text → Text
  | high :: low :: rest =>
    if (0xD800 ≤ high ∧ high ≤ 0xDBFF) ∧ 0xDC00 ≤ low ∧ low ≤ 0xDFFF then
      (0x10000 + (high - 0xD800) * 0x400 + (low - 0xDC00)) :: joinPairs rest
    else high :: joinPairs (low :: rest)
  | t => t

def scanString (t : Text) : Option (Text × Text) := (scanUnits t).map fun (units, rest) => (joinPairs units, rest)

/-! ## Values -/

/-- The error of the decoder, and that of an integer with too many digits. -/
inductive ScanFault where
  | jsonDecodeError | valueError
  deriving DecidableEq

abbrev Scanned (α : Type*) := Except ScanFault (α × Text)

def isSpace (c : Nat) : Bool := c = 0x20 || c = 0x09 || c = 0x0A || c = 0x0D

def skip (t : Text) : Text := t.dropWhile isSpace

variable {φ : Type*} (format : FloatFormat φ)

def jsonWords : List (Text × JsonValue φ) := [
  (text "null", .null), (text "true", .bool true), (text "false", .bool false),
  (text "NaN", .float format.nan), (text "Infinity", .float format.infinity),
  (text "-Infinity", .float format.minusInfinity)]

/-- A word or a number. -/
def scanAtom (t : Text) : Scanned (JsonValue φ) :=
  match (jsonWords format).find? (·.1.isPrefixOf t) with
  | some (word, v) => .ok (v, t.drop word.length)
  | none =>
    match scanNumber t with
    | none => .error .jsonDecodeError
    | some (parts, rest) =>
      if parts.tail ≠ [] then .ok (.float (format.read parts.literal), rest)
      else if maxStrDigits < parts.digits.length then .error .valueError
      else .ok (.int parts.int, rest)

mutual

/-- `scan_once`. -/
def scanValue : Nat → Text → Scanned (JsonValue φ)
  | 0, _ => .error .jsonDecodeError
  | _ + 1, [] => .error .jsonDecodeError
  | fuel + 1, c :: rest =>
    if c = 0x22 then
      match scanString rest with
      | none => .error .jsonDecodeError
      | some (t, rest) => .ok (.text t, rest)
    else if c = 0x7B then
      match skip rest with
      | 0x7D :: rest => .ok (.dict [], rest)
      | rest => scanEntries fuel ∅ rest
    else if c = 0x5B then
      match skip rest with
      | 0x5D :: rest => .ok (.list [], rest)
      | rest => (scanItems fuel rest).map fun (items, rest) => (.list items, rest)
    else scanAtom format (c :: rest)

/-- The items of a list and its bracket. -/
def scanItems : Nat → Text → Scanned (List (JsonValue φ))
  | 0, _ => .error .jsonDecodeError
  | fuel + 1, t =>
    match scanValue fuel t with
    | .error fault => .error fault
    | .ok (item, rest) =>
      match skip rest with
      | 0x5D :: rest => .ok ([item], rest)
      | 0x2C :: rest => (scanItems fuel (skip rest)).map fun (items, rest) => (item :: items, rest)
      | _ => .error .jsonDecodeError

/-- The entries of an object and its brace. A key that comes again gets the new value. -/
def scanEntries : Nat → Dict Text (JsonValue φ) → Text → Scanned (JsonValue φ)
  | 0, _, _ => .error .jsonDecodeError
  | fuel + 1, found, t =>
    match t with
    | 0x22 :: rest =>
      match scanString rest with
      | none => .error .jsonDecodeError
      | some (key, rest) =>
        match skip rest with
        | 0x3A :: rest =>
          match scanValue fuel (skip rest) with
          | .error fault => .error fault
          | .ok (v, rest) =>
            match skip rest with
            | 0x7D :: rest => .ok (.dict (found.set key v).entries, rest)
            | 0x2C :: rest => scanEntries fuel (found.set key v) (skip rest)
            | _ => .error .jsonDecodeError
        | _ => .error .jsonDecodeError
    | _ => .error .jsonDecodeError

end

/-- `json.loads` of a string. -/
def jsonLoads (t : Text) : Except ScanFault (JsonValue φ) :=
  if t.head? = some 0xFEFF then .error .jsonDecodeError
  else
    match scanValue format (2 * t.length + 1) (skip t) with
    | .error fault => .error fault
    | .ok (v, rest) => if skip rest = [] then .ok v else .error .jsonDecodeError

/-- What `_loads` raises. -/
inductive LoadsFault where
  | protocolError (e : ProtocolError)
  | valueError

/-- `_loads`. -/
def loadsJson (raw : List UInt8) : Except LoadsFault (JsonValue φ) :=
  if raw = [] then .ok (.dict [])
  else
    match decodeUtf8 raw with
    | none => .error (.protocolError ⟨invalidFrame, "invalid metadata json"⟩)
    | some t =>
      match jsonLoads format t with
      | .error .jsonDecodeError => .error (.protocolError ⟨invalidFrame, "invalid metadata json"⟩)
      | .error .valueError => .error .valueError
      | .ok (.dict entries) => .ok (.dict entries)
      | .ok _ => .error (.protocolError ⟨invalidFrame, "metadata must be an object"⟩)

/-! ## Writing -/

namespace JsonValue

/-- Conditions on what a value has in it: on its integers, floats and texts, and
on the keys of each object. -/
structure Leaves (φ : Type*) where
  int : ℤ → Bool := fun _ => true
  float : φ → Bool := fun _ => true
  text : Text → Bool := fun _ => true
  keys : List Text → Bool := fun _ => true

mutual

def all (p : Leaves φ) : JsonValue φ → Bool
  | .null | .bool _ => true
  | .int n => p.int n
  | .float x => p.float x
  | .text t => p.text t
  | .list items => allItems p items
  | .dict entries => p.keys (entries.map Prod.fst) && allEntries p entries

def allItems (p : Leaves φ) : List (JsonValue φ) → Bool
  | [] => true
  | item :: rest => item.all p && allItems p rest

def allEntries (p : Leaves φ) : List (Text × JsonValue φ) → Bool
  | [] => true
  | (key, v) :: rest => p.text key && v.all p && allEntries p rest

end

/-- No text has a lone surrogate. -/
def encodable (v : JsonValue φ) : Bool := v.all { text := Text.encodable }

/-- No float is a NaN or an infinity. -/
def finite (v : JsonValue φ) : Bool := v.all { float := format.finite }

/-- `str` of the integer does not raise. -/
def isShort (n : ℤ) : Bool := (Nat.toDigits 10 n.natAbs).length ≤ maxStrDigits

mutual

/-- What is written for a value. -/
def written : JsonValue φ → Text
  | .null => Untyped.text "null"
  | .bool b => Untyped.text (if b then "true" else "false")
  | .int n => decimal n
  | .float x => format.floatstr x
  | .text t => quote t
  | .list items => [0x5B] ++ writtenItems items ++ [0x5D]
  | .dict entries => [0x7B] ++ writtenEntries entries ++ [0x7D]

def writtenItems : List (JsonValue φ) → Text
  | [] => []
  | [item] => item.written
  | item :: next :: rest => item.written ++ [0x2C] ++ writtenItems (next :: rest)

def writtenEntries : List (Text × JsonValue φ) → Text
  | [] => []
  | [(key, v)] => quote key ++ [0x3A] ++ v.written
  | (key, v) :: next :: rest =>
    quote key ++ [0x3A] ++ v.written ++ [0x2C] ++ writtenEntries (next :: rest)

end

/-- `json.dumps`, where `int.__repr__` may raise. -/
def dumps (v : JsonValue φ) : Except Raised Text :=
  if v.all { int := isShort } then .ok (v.written format) else .error .valueError

/-- `_dumps`. -/
def dumpsMeta (v : JsonValue φ) : Except Raised (List UInt8) :=
  match v.dumps format with
  | .error raised => .error raised
  | .ok t =>
    match encodeUtf8 t with
    | none => .error .unicodeEncodeError
    | some raw => .ok raw

end JsonValue
end OneOpenBroker.Protocol

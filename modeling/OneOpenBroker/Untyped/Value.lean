import OneOpenBroker.Library.Programs
import Mathlib.Algebra.Order.Ring.Rat
import Mathlib.Data.Rat.Floor
import Mathlib.Order.WithBot

/-! What `json.loads` makes of a request's metadata, and what Python's
operators do with it. A text is its code points, since an escape in JSON can
spell a lone surrogate, which no encoder writes. The numbers are those JSON
can spell: a literal past the largest float is an infinity. The word NaN, which
`json.loads` takes too, is left out: metadata with it has no value here. -/
namespace OneOpenBroker.Untyped
open Programs

abbrev Text := List Nat

/-- The code points of a literal. -/
def text (literal : String) : Text := literal.toList.map Char.toNat

/-- `.encode("utf-8")` writes the text: no code point is a surrogate. -/
def Text.encodable (t : Text) : Bool := t.all fun c => !(0xD800 ≤ c && c ≤ 0xDFFF)

theorem text_encodable (literal : String) : Text.encodable (text literal) = true := by
  unfold Text.encodable text
  rw [List.all_map, List.all_eq_true]
  intro c _
  have valid := c.valid
  simp only [Function.comp_apply, Bool.not_eq_true', Bool.and_eq_false_iff, decide_eq_false_iff_not]
  rcases valid with below | ⟨above, _⟩
  · exact .inl (by change ¬ 0xD800 ≤ c.val.toNat; omega)
  · exact .inr (by change ¬ c.val.toNat ≤ 0xDFFF; omega)

/-- The order of texts, by code points. -/
def Text.le : Text → Text → Bool
  | [], _ => true
  | _ :: _, [] => false
  | c :: s, d :: t => c < d || (c = d && Text.le s t)

/-- A number that `json.loads` reads, NaN left out. -/
inductive Number where
  | int (n : ℤ)
  | float (q : ℚ)
  | inf (negative : Bool)

/-- A point in time or another float, the infinities included. -/
abbrev Moment := WithBot (WithTop ℚ)

def Moment.of (q : ℚ) : Moment := ((q : WithTop ℚ) : WithBot (WithTop ℚ))

namespace Number

/-- The number as comparisons see it. -/
def value : Number → Moment
  | int n => Moment.of n
  | float q => Moment.of q
  | inf true => ⊥
  | inf false => ((⊤ : WithTop ℚ) : WithBot (WithTop ℚ))

end Number

/-- A value of JSON. -/
inductive Value where
  | null
  | bool (b : Bool)
  | number (n : Number)
  | text (t : Text)
  | list (items : List Value)
  | dict (entries : List (Text × Value))

/-- The exceptions that the broker's code can raise. The last one stands for a
loop that goes on after the rounds its model allows it. -/
inductive Raised where
  | typeError | attributeError | valueError | overflowError | runtimeError | unicodeEncodeError
  | unfinished
  deriving DecidableEq

/-- A key as dictionaries and sets compare it: `True`, `1` and `1.0` are one. -/
inductive Key where
  | null
  | number (m : Moment)
  | text (t : Text)
  deriving DecidableEq

/-- Python's truth of a key. -/
def Key.truthy : Key → Bool
  | .null => false
  | .number m => m ≠ Moment.of 0
  | .text t => t ≠ []

namespace Value

/-- Python's truth of a value. -/
def truthy : Value → Bool
  | null => false
  | bool b => b
  | number n => n.value ≠ Moment.of 0
  | text t => t ≠ []
  | list items => !items.isEmpty
  | dict entries => !entries.isEmpty

/-- Python's `a or b`. -/
def or (a b : Value) : Value := if a.truthy then a else b

/-- A boolean is a number. -/
def numeric? : Value → Option Number
  | bool b => some (.int b.toNat)
  | number n => some n
  | _ => none

mutual

/-- No text in the value has a lone surrogate. -/
def encodable : Value → Bool
  | text t => Text.encodable t
  | list items => encodableAll items
  | dict entries => encodableEntries entries
  | _ => true

def encodableAll : List Value → Bool
  | [] => true
  | item :: rest => item.encodable && encodableAll rest

def encodableEntries : List (Text × Value) → Bool
  | [] => true
  | (key, value) :: rest => Text.encodable key && value.encodable && encodableEntries rest

end

/-- `hash(value)`, which a list or a dictionary does not have. -/
def hash : Value → Except Raised Key
  | null => .ok .null
  | bool b => .ok (.number (Number.int b.toNat).value)
  | number n => .ok (.number n.value)
  | text t => .ok (.text t)
  | list _ => .error .typeError
  | dict _ => .error .typeError

/-- What `for item in value` runs over. -/
def iterate : Value → Except Raised (List Value)
  | text t => .ok (t.map fun c => text [c])
  | list items => .ok items
  | dict entries => .ok (entries.map fun entry => text entry.1)
  | _ => .error .typeError

/-- `count >= limit`. -/
def reachedBy (limit : Value) (count : Nat) : Except Raised Bool :=
  match limit.numeric? with
  | none => .error .typeError
  | some n => .ok (n.value ≤ Moment.of count)

/-- `value if value is not None else default`. -/
def default (value fallback : Value) : Value :=
  match value with
  | null => fallback
  | value => value

end Value

/-- An integer becomes a float, up to the half step past the largest one. -/
def toFloat (n : ℤ) : Except Raised ℚ :=
  if |n| < 2 ^ 1024 - 2 ^ 970 then .ok n else .error .overflowError

/-- `now + seconds`. -/
def addSeconds (now : ℚ) (seconds : Value) : Except Raised Moment :=
  match seconds.numeric? with
  | none => .error .typeError
  | some (.int n) => (toFloat n).map fun q => Moment.of (now + q)
  | some (.float q) => .ok (Moment.of (now + q))
  | some (.inf negative) => .ok (Number.inf negative).value

end OneOpenBroker.Untyped

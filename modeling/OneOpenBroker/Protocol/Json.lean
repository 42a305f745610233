import Mathlib.Data.Rat.Defs

namespace OneOpenBroker.Protocol

/-- A metadata value as `json.loads` returns it: objects keep their keys in
order. The broker carries headers without looking inside them. -/
inductive Json where
  | null
  | bool (value : Bool)
  | num (value : ℚ)
  | str (value : String)
  | arr (items : List Json)
  | obj (fields : List (String × Json))

end OneOpenBroker.Protocol

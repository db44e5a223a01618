import Mathlib.Data.Rat.Defs

/-!
# JSON values

Parsed JSON with finite numbers.  The fields of an object are listed in the
order in which they are enumerated, and `tokens` is the text that serializing a
value produces, token by token and without the separators it implies.
-/

namespace Obelus.Data

inductive Json
  | null
  | bool (value : Bool)
  | number (value : ℚ)
  | string (value : String)
  | array (elements : List Json)
  | object (fields : List (String × Json))

inductive JsonToken
  | null
  | bool (value : Bool)
  | number (value : ℚ)
  | string (value : String)
  | openArray
  | closeArray
  | openObject
  | closeObject
  deriving DecidableEq

namespace Json

mutual

/-- `JSON.stringify`. -/
def tokens : Json → List JsonToken
  | .null => [.null]
  | .bool value => [.bool value]
  | .number value => [.number value]
  | .string value => [.string value]
  | .array elements => .openArray :: (elementTokens elements ++ [.closeArray])
  | .object fields => .openObject :: (fieldTokens fields ++ [.closeObject])

def elementTokens : List Json → List JsonToken
  | [] => []
  | element :: rest => tokens element ++ elementTokens rest

def fieldTokens : List (String × Json) → List JsonToken
  | [] => []
  | (name, value) :: rest => .string name :: (tokens value ++ fieldTokens rest)

end

/-- The fields of a value whose type is `object` and that is not `null`.  The
named fields of an array are none. -/
def fields? : Json → Option (List (String × Json))
  | .object fields => some fields
  | .array _ => some []
  | _ => none

end Json

/-- A property access; `none` is `undefined`. -/
def field (fields : List (String × Json)) (name : String) : Option Json :=
  fields.lookup name

/-- The operator `??`. -/
def orNullish (value fallback : Option Json) : Option Json :=
  match value with
  | none => fallback
  | some .null => fallback
  | some value => some value

end Obelus.Data

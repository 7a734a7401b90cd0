import Mio.Library.Text

/-!
# JSON values

A parsed JSON text (`serde_json::Value`). A number is given by its text. The fields of an object are
those of a map, so that a name stands there once; of a name that stands there more often, the first
field is the one that is found.
-/

namespace Mio.Library

/-- A JSON value; a number is kept as it was written. -/
inductive Value where
  | null
  | bool (value : Bool)
  | number (text : String)
  | string (value : String)
  | array (items : List Value)
  | object (fields : List (String × Value))

namespace Value

/-- The text of a string. -/
def asStr : Value → Option String
  | .string value => some value
  | _ => none

/-- The value of a Boolean. -/
def asBool : Value → Option Bool
  | .bool value => some value
  | _ => none

/-- The items of an array. -/
def asArray : Value → Option (List Value)
  | .array items => some items
  | _ => none

/-- The fields of an object. -/
def asObject : Value → Option (List (String × Value))
  | .object fields => some fields
  | _ => none

/-- A whole number of 64 bits. -/
def asU64 : Value → Option ℕ
  | .number text =>
    let digits := text.toList
    if digits.isEmpty || !digits.all Char.isDigit then none
    else
      let n := Nat.ofDigitChars 10 digits 0
      if n < 2 ^ 64 then some n else none
  | _ => none

/-- Whether the value is null. -/
def isNull : Value → Bool
  | .null => true
  | _ => false

/-- The field of an object's fields. -/
def field (fields : List (String × Value)) (name : String) : Option Value :=
  (fields.find? fun entry => entry.1 == name).map (·.2)

/-- The field of an object. -/
def get (value : Value) (name : String) : Option Value :=
  match value with
  | .object fields => field fields name
  | _ => none

/-- The value under the names, one inside the other. -/
def pointer (value : Value) (names : List String) : Option Value :=
  names.foldl (fun inner name => inner.bind fun inner => inner.get name) (some value)

/-- The text of a field, if it is one. -/
def str (value : Value) (name : String) : Option String := (value.get name).bind asStr

/-- The text under the names, if it is one. -/
def strAt (value : Value) (names : List String) : Option String := (value.pointer names).bind asStr

end Value

end Mio.Library

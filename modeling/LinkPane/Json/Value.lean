import LinkPane.Json.Cause

/-!
# JSON values

* `Value` -- a value as it is read: an object keeps its members in the order of the text, repeated keys
  included;
* `memberMap` -- the members of an object as a map: in the order of their keys, each key once and with its
  last value.
-/

namespace LinkPane.Json

/-- A JSON value. -/
inductive Value
  | null
  | boolean (b : Bool)
  | number (n : Numeral)
  | text (s : String)
  | list (items : List Value)
  | object (members : List (String × Value))

/-- Puts a member into a map. The value of a key that is there already is replaced. -/
def insertMember (key : String) (value : Value) : List (String × Value) → List (String × Value)
  | [] => [(key, value)]
  | (k, v) :: map =>
    if key < k then (key, value) :: (k, v) :: map
    else if key = k then (key, value) :: map
    else (k, v) :: insertMember key value map

/-- The map of the members of an object. -/
def memberMap (members : List (String × Value)) : List (String × Value) :=
  members.foldl (fun map (key, value) => insertMember key value map) []

/-- The kind of a value in a message. -/
def Value.found : Value → Found
  | .null => .null
  | .boolean b => .boolean b
  | .number n => .number n
  | .text s => .text s
  | .list _ => .list
  | .object _ => .object

end LinkPane.Json

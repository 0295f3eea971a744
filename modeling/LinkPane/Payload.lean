import LinkPane.Link

/-!
# Link payloads

A payload is a text that should be a JSON list of links.

* `parseLinks` -- the links of a payload. Only a text that is no JSON, or JSON that is no list, is refused:
  every item of a list is a link, in the worst case the empty one;
* `Rejection` -- why a payload is refused.
-/

namespace LinkPane

open Json

/-- Kinds of value that are no list. -/
inductive Unlisted
  | null
  | boolean
  | number
  | text
  | object
  deriving DecidableEq, Repr

/-- The name of a kind of value. -/
def Unlisted.name : Unlisted → String
  | .null => "null"
  | .boolean => "a boolean"
  | .number => "a number"
  | .text => "a string"
  | .object => "an object"

/-- Why a payload is refused. -/
inductive Rejection
  /-- It is no JSON. -/
  | unreadable (error : Json.Error)
  /-- It is no list. -/
  | notList (found : Unlisted)

/-- The wording of a refusal. -/
def Rejection.message : Rejection → String
  | .unreadable error => "Parse error: " ++ error.message
  | .notList found => "Parse error: expected an array of links, found " ++ found.name

/-- The items of a list. -/
def Json.Value.items : Value → Except Unlisted (List Value)
  | .list items => .ok items
  | .null => .error .null
  | .boolean _ => .error .boolean
  | .number _ => .error .number
  | .text _ => .error .text
  | .object _ => .error .object

/-- The links of a payload. -/
def parseLinks (payload : String) : Except Rejection (List Link) :=
  match decode (readValue depthLimit) payload with
  | .error error => .error (.unreadable error)
  | .ok value =>
    match value.items with
    | .ok items => .ok (items.map Link.ofValue)
    | .error found => .error (.notList found)

end LinkPane

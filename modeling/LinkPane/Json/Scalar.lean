import LinkPane.Json.Value.Reader

/-!
# Reading what is expected

Readers for the places where only one kind of value will do. A value of another kind is read as far as it
takes to name it: a scalar to its end, a list or an object not beyond its bracket.

* `readScalar` -- a value that is no list and no object;
* `readText`, `readNull` -- a text, `null`;
* `readOption` -- `null` or something else;
* `readColon` -- the colon behind a key;
* `readVariant` -- one of some names, as a text or as the only key of an object.
-/

namespace LinkPane.Json

/-- Refuses the value at the beginning of `text`. -/
def refuse (cause : Cause) (text : List Char) : Except Fault α :=
  .error (.at cause text)

/-- Reads a scalar that `accept` takes; `expected` says what is wanted. -/
def readScalar (expected : String) (accept : Value → Option α) : Reader α := fun text =>
  match dropBlank text with
  | '[' :: rest => .error (.before (.wrongKind .list expected) ('[' :: rest))
  | '{' :: rest => .error (.before (.wrongKind .object expected) ('{' :: rest))
  | text =>
    match readValue depthLimit text with
    | .error fault => .error fault
    | .ok (value, rest) =>
      match accept value with
      | some x => .ok (x, rest)
      | none => .error (.before (.wrongKind value.found expected) rest)

/-- The text that a value is. -/
def Value.text? : Value → Option String
  | .text s => some s
  | _ => none

/-- Whether a value is `null`. -/
def Value.null? : Value → Option Unit
  | .null => some ()
  | _ => none

/-- Reads a text. -/
def readText : Reader String :=
  readScalar "a string" Value.text?

/-- Reads `null`. -/
def readNull : Reader Unit :=
  readScalar "unit" Value.null?

/-- Reads `null`, or else what `read` reads. Whatever begins like `null` has to be it. -/
def readOption (read : Reader α) : Reader (Option α) := fun text =>
  match dropBlank text with
  | 'n' :: rest => (readNull ('n' :: rest)).map fun ((), rest) => (none, rest)
  | text => (read text).map fun (x, rest) => (some x, rest)

/-- Passes the colon behind a key. -/
def readColon : Reader Unit := fun text =>
  match dropBlank text with
  | [] => refuse .endInObject []
  | ':' :: rest => .ok ((), rest)
  | text => refuse .expectedColon text

/-- Reads the name of one of the variants `known`. -/
def readName (known : List (String × α)) : Reader α := fun text => do
  let (name, rest) ← readText text
  match known.lookup name with
  | some x => .ok (x, rest)
  | none => .error (.before (.unknownVariant name (known.map Prod.fst)) rest)

/-- Reads a variant by its name, or as an object with the name for its key and the value `null`. -/
def readVariant (known : List (String × α)) : Reader α := fun text =>
  match dropBlank text with
  | [] => refuse .endInValue []
  | '"' :: rest => readName known ('"' :: rest)
  | '{' :: rest =>
    match dropBlank rest with
    | [] => refuse .endInObject []
    | '"' :: rest => do
      let (x, rest) ← readName known ('"' :: rest)
      let (_, rest) ← readColon rest
      let (_, rest) ← readNull rest
      match dropBlank rest with
      | [] => refuse .endInObject []
      | '}' :: rest => .ok (x, rest)
      | text => .error (.before .expectedValue text)
    | '}' :: rest => refuse .expectedValue ('}' :: rest)
    | text => refuse .keyNotText text
  | text => refuse .expectedValue text

end LinkPane.Json

import LinkPane.Json.Scalar
import LinkPane.Json.Value.Skipper
import LinkPane.Json.Writer

/-!
# Records in JSON

A record is written as an object with a member for each field. It is read from an object, whose members may
be missing, come in any order and have strangers among them, or from a list of its fields, of which the last
may be missing. A missing field has the value of the blank record.

* `Field` -- the name of a field, how its values are read and written, and where they are in a record;
* `Shape` -- a record type by its fields;
* `Shape.read` -- the reader, of either form;
* `Shape.write` -- the object.

The first fault in the text is the one that is told. A field that is given twice is a fault at its second
key, and the reader has then passed the blanks behind the key and a closing bracket, if one follows.
-/

namespace LinkPane.Json

/-! ## 1. Shapes -/

/-- A field of the record type `σ`. -/
structure Field (σ : Type) where
  name : String
  Content : Type
  read : Reader Content
  write : Content → List Char
  get : σ → Content
  set : Content → σ → σ

/-- A record type. -/
structure Shape (σ : Type) where
  name : String
  blank : σ
  fields : List (Field σ)

variable {σ : Type}

/-- Reads the value of a field into a record. -/
def Field.fill (field : Field σ) (record : σ) : Reader σ := fun text =>
  (field.read text).map fun (x, rest) => (field.set x record, rest)

/-- The field of that name. -/
def Shape.field? (shape : Shape σ) (name : String) : Option (Field σ) :=
  shape.fields.find? (·.name == name)

/-! ## 2. Lists -/

/-- Passes what stands before an item of a list; says whether there is one. -/
def readItemStart (first : Bool) : Reader Bool := fun text =>
  match dropBlank text with
  | [] => refuse .endInList []
  | ']' :: rest => .ok (false, rest)
  | c :: rest =>
    if first then .ok (true, c :: rest)
    else if c = ',' then
      match dropBlank rest with
      | [] => refuse .endInValue []
      | ']' :: rest => refuse .trailingComma (']' :: rest)
      | text => .ok (true, text)
    else refuse .expectedListEnd (c :: rest)

/-- Passes the end of a list that has no room for more items. -/
def readListEnd : Reader Unit := fun text =>
  match dropBlank text with
  | [] => refuse .endInList []
  | ']' :: rest => .ok ((), rest)
  | ',' :: rest =>
    match dropBlank rest with
    | ']' :: rest => refuse .trailingComma (']' :: rest)
    | text => refuse .trailingCharacters text
  | text => refuse .trailingCharacters text

/-- Reads items for fields, in their order, into a record. -/
def readItems (record : σ) (first : Bool) : List (Field σ) → Reader σ
  | [] => fun text => (readListEnd text).map fun ((), rest) => (record, rest)
  | field :: fields => fun text => do
    let (more, rest) ← readItemStart first text
    if more then
      let (record, rest) ← field.fill record rest
      readItems record false fields rest
    else .ok (record, rest)

/-! ## 3. Objects -/

/-- Reads a key. -/
def readKey : Reader String := fun text =>
  match text with
  | '"' :: rest => readText ('"' :: rest)
  | text => refuse .keyNotText text

/-- Passes what stands before a member of an object and reads its key, if there is a member. -/
def readKey? (first : Bool) : Reader (Option String) := fun text =>
  match dropBlank text with
  | [] => refuse .endInObject []
  | '}' :: rest => .ok (none, rest)
  | c :: rest =>
    if first then (readKey (c :: rest)).map fun (name, rest) => (some name, rest)
    else if c = ',' then
      match dropBlank rest with
      | [] => refuse .endInValue []
      | '}' :: rest => refuse .trailingComma ('}' :: rest)
      | text => (readKey text).map fun (name, rest) => (some name, rest)
    else refuse .expectedObjectEnd (c :: rest)

/-- How far the reader looks behind a key that is given twice. -/
def pastKey (text : List Char) : List Char :=
  match dropBlank text with
  | '}' :: rest => rest
  | text => text

/-- Reads the value of the member `key` into a record; `seen` are the fields read before. A member that is no
    field is skipped. -/
def Shape.readMember (shape : Shape σ) (key : String) (seen : List String) (record : σ) :
    Reader (σ × List String) := fun text =>
  match shape.field? key with
  | some field =>
    if key ∈ seen then .error (.before (.duplicateField key) (pastKey text))
    else do
      let (_, rest) ← readColon text
      let (record, rest) ← field.fill record rest
      .ok ((record, key :: seen), rest)
  | none => do
    let (_, rest) ← readColon text
    let (_, rest) ← skipValue rest
    .ok ((record, seen), rest)

/-- Reads at most `count` members into a record. -/
def Shape.readMembers (shape : Shape σ) (count : Nat) (first : Bool) (seen : List String) (record : σ) :
    Reader σ := fun text =>
  match count with
  | 0 => refuse .endInObject []
  | count + 1 => do
    let (key?, rest) ← readKey? first text
    match key? with
    | none => .ok (record, rest)
    | some key =>
      let ((record, seen), rest) ← shape.readMember key seen record rest
      shape.readMembers count false seen record rest

/-! ## 4. Records -/

/-- Reads a record. A text has fewer members than characters, so the bound on their number is no bound. -/
def Shape.read (shape : Shape σ) : Reader σ := fun text =>
  match dropBlank text with
  | '[' :: rest => readItems shape.blank true shape.fields rest
  | '{' :: rest => shape.readMembers (rest.length + 1) true [] shape.blank rest
  | text => readScalar ("struct " ++ shape.name) (fun _ => none) text

/-- Writes a record. -/
def Shape.write (shape : Shape σ) (record : σ) : List Char :=
  writeObject (shape.fields.map fun field => (field.name, field.write (field.get record)))

/-- A field that is a record itself. -/
def Shape.toField {τ : Type} (shape : Shape τ) (name : String) (get : σ → τ) (set : τ → σ → σ) : Field σ where
  name := name
  Content := τ
  read := shape.read
  write := shape.write
  get := get
  set := set

/-- A field that is a text. -/
def Field.text (name : String) (get : σ → String) (set : String → σ → σ) : Field σ where
  name := name
  Content := String
  read := readText
  write := writeText
  get := get
  set := set

end LinkPane.Json

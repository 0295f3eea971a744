import LinkPane.Json.Record

/-!
# Links

A link has a kind, a source and a target; a table shows a list of links under two labels.

* `Link`, `Inputs` -- the data;
* `Link.parts` -- the fields of a link in JSON, where the kind is called `type`. A field accepts any value;
  what is no text is read as the empty text;
* `Link.shape` -- a link in JSON;
* `Link.ofMap` -- the link that the map of an object is; a field that is given twice is a fault;
* `Link.ofValue` -- the link that a JSON value is: what is no object is the empty link, and so is an object
  with a fault.
-/

namespace LinkPane

open Json

/-- A relation between two ends. -/
structure Link where
  kind : String
  source : String
  target : String
  deriving DecidableEq, Repr

/-- The link of empty texts. -/
def Link.empty : Link := ⟨"", "", ""⟩

/-- All that a table is drawn from, but for its theme. -/
structure Inputs where
  sourceLabel : String
  targetLabel : String
  links : List Link
  deriving DecidableEq, Repr

/-! ## 1. Links in JSON -/

/-- The text that a value is, or the empty text. -/
def leniently (value : Value) : String :=
  value.text?.getD ""

/-- Reads any value as a text. The object around it is one of the brackets that may be open. -/
def readLeniently : Reader String := fun text =>
  (readValue (depthLimit - 1) text).map fun (value, rest) => (leniently value, rest)

/-- A field of a link: its name and its place. -/
structure Link.Part where
  name : String
  get : Link → String
  set : String → Link → Link

/-- The fields of a link. -/
def Link.parts : List Link.Part :=
  [⟨"type", Link.kind, fun s link => { link with kind := s }⟩,
    ⟨"source", Link.source, fun s link => { link with source := s }⟩,
    ⟨"target", Link.target, fun s link => { link with target := s }⟩]

/-- A field of a link in JSON. -/
def Link.Part.toField (part : Link.Part) : Json.Field Link where
  name := part.name
  Content := String
  read := readLeniently
  write := writeText
  get := part.get
  set := part.set

/-- A link in JSON. -/
def Link.shape : Shape Link where
  name := "Link"
  blank := .empty
  fields := Link.parts.map Link.Part.toField

/-- A link as JSON. -/
def Link.write (link : Link) : List Char :=
  Link.shape.write link

/-- A list of links as JSON. -/
def writeLinks (links : List Link) : List Char :=
  writeList (links.map Link.write)

/-! ## 2. Links by way of values -/

/-- The field of that name. -/
def Link.part? (name : String) : Option Link.Part :=
  Link.parts.find? (·.name == name)

/-- Puts the members of a map into a link; `seen` are the fields put there before. A member that is no field
    is passed over. -/
def Link.fill (seen : List String) (link : Link) : List (String × Value) → Except Cause Link
  | [] => .ok link
  | (key, value) :: map =>
    match Link.part? key with
    | none => Link.fill seen link map
    | some part =>
      if key ∈ seen then .error (.duplicateField key)
      else Link.fill (key :: seen) (part.set (leniently value) link) map

/-- The link that a map is. -/
def Link.ofMap (map : List (String × Value)) : Except Cause Link :=
  Link.fill [] .empty map

/-- The link that a value is. -/
def Link.ofValue : Value → Link
  | .object members =>
    match Link.ofMap (memberMap members) with
    | .ok link => link
    | .error _ => .empty
  | _ => .empty

end LinkPane

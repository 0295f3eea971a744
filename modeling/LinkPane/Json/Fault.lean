import LinkPane.Json.Cause
import LinkPane.Text.Position

/-!
# Readers and their faults

A reader takes a value from the beginning of a text and leaves the rest. A reader that fails says why, and
how far it has looked:

* `Fault` -- a cause and the number of octets of the text that the reader has not looked at;
* `Reader` -- what is read from a text and what is left of it;
* `Error` -- a cause with its line and column;
* `decode` -- a text read as a whole.

A fault counts from the end of the text, so it says the same of a text and of all it ends; the place is
found once the whole text is at hand (`Fault.position`).
-/

namespace LinkPane.Json

/-! ## 1. Faults -/

/-- Why a reader stopped, and how many octets of its text it has not looked at. -/
structure Fault where
  cause : Cause
  unseen : Nat

/-- A fault with `seen` octets of the text `rest` looked at. -/
def Fault.after (cause : Cause) (seen : Nat) (rest : List Char) : Fault :=
  ⟨cause, Text.size rest - seen⟩

/-- A fault in front of `rest`. -/
def Fault.before (cause : Cause) (rest : List Char) : Fault :=
  .after cause 0 rest

/-- A fault at the first octet of `rest`, or at the end of the text. -/
def Fault.at (cause : Cause) (rest : List Char) : Fault :=
  .after cause 1 rest

/-- The octets of a text that a fault in it has looked at. -/
def Fault.seen (fault : Fault) (text : List Char) : List UInt8 :=
  (Text.octets text).take (Text.size text - fault.unseen)

/-- The place of a fault in a text. -/
def Fault.position (fault : Fault) (text : List Char) : Text.Position :=
  .after (fault.seen text)

/-! ## 2. Readers -/

/-- Reads from the beginning of a text; gives what was read and the rest. -/
abbrev Reader (α : Type) : Type :=
  List Char → Except Fault (α × List Char)

/-- The characters that may stand between the parts of a value. -/
def isBlank (c : Char) : Bool :=
  c == ' ' || c == '\t' || c == '\n' || c == '\r'

/-- A text less the blanks at its beginning. -/
def dropBlank (text : List Char) : List Char :=
  text.dropWhile isBlank

/-! ## 3. Whole texts -/

/-- Why a text was refused, and where. -/
structure Error where
  cause : Cause
  position : Text.Position

/-- The wording of an error. -/
def Error.message (e : Error) : String :=
  e.cause.message ++ " at line " ++ toString e.position.line ++ " column " ++ toString e.position.column

/-- Reads a text that holds one value and blanks. -/
def readAll (read : Reader α) (text : List Char) : Except Fault α :=
  match read text with
  | .error fault => .error fault
  | .ok (value, rest) =>
    match dropBlank rest with
    | [] => .ok value
    | rest => .error (.at .trailingCharacters rest)

/-- Reads a whole text; a fault is told by its place. -/
def decode (read : Reader α) (text : String) : Except Error α :=
  (readAll read text.toList).mapError fun fault => ⟨fault.cause, fault.position text.toList⟩

end LinkPane.Json

/-!
# Writing JSON

Values are written without blanks. A quoted text escapes what it must and nothing else: quotes, backslashes
and the characters below the space.

* `writeText` -- a quoted text;
* `writeList`, `writeObject` -- brackets around parts that are written already;
* `writeOption` -- a value or `null`.
-/

namespace LinkPane.Json

/-- The escapes of two characters that are written: the character and what follows the backslash. -/
def writtenEscapes : List (Char × Char) :=
  [('"', '"'), ('\\', '\\'), ('\x08', 'b'), ('\x0c', 'f'), ('\n', 'n'), ('\r', 'r'), ('\t', 't')]

/-- One character of a quoted text. -/
def writeChar (c : Char) : List Char :=
  match writtenEscapes.lookup c with
  | some short => ['\\', short]
  | none =>
    if c < ' ' then
      ['\\', 'u', '0', '0', Nat.digitChar (c.toNat / 16), Nat.digitChar (c.toNat % 16)]
    else [c]

/-- A quoted text. -/
def writeText (s : String) : List Char :=
  '"' :: s.toList.flatMap writeChar ++ ['"']

/-- A list of written items. -/
def writeList (items : List (List Char)) : List Char :=
  '[' :: [','].intercalate items ++ [']']

/-- An object of keys and written values. -/
def writeObject (members : List (String × List Char)) : List Char :=
  '{' :: [','].intercalate (members.map fun (key, value) => writeText key ++ ':' :: value) ++ ['}']

/-- A value that may be missing. -/
def writeOption (write : α → List Char) : Option α → List Char
  | none => ['n', 'u', 'l', 'l']
  | some x => write x

end LinkPane.Json

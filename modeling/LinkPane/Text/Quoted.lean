import LinkPane.Text.Unprintable
import LinkPane.Text.Combining
import LinkPane.Text.Ignorable

/-!
# Texts quoted for a log

A quoted text stands in double quotes on one line. A quote, a backslash, a tab, a line feed, a carriage
return and a NUL have escapes of two characters; of the others, some set of characters is written as
`\u{…}` with the code point in lower case hexadecimal digits, and the rest stand for themselves.

* `quoteWith` -- the quoted form, for any set of escaped characters;
* `isHidden` -- the set used in a log: what is unprintable, may be drawn as nothing, or combines with the
  character before it;
* `quote` -- the quoted form in a log.
-/

namespace LinkPane.Text

/-- The escapes of two characters: the character and what follows the backslash. -/
def shortEscapes : List (Char × Char) :=
  [('\x00', '0'), ('\t', 't'), ('\n', 'n'), ('\r', 'r'), ('"', '"'), ('\\', '\\')]

/-- A code point in hexadecimal digits. -/
def hexDigits (n : Nat) : List Char :=
  Nat.toDigits 16 n

/-- One character of a quoted text. -/
def quoteChar (escaped : Char → Bool) (c : Char) : List Char :=
  match shortEscapes.lookup c with
  | some short => ['\\', short]
  | none =>
    if escaped c then ['\\', 'u', '\x7b'] ++ hexDigits c.toNat ++ ['\x7d'] else [c]

/-- A quoted text; the characters of the set `escaped` are written by their code points. -/
def quoteWith (escaped : Char → Bool) (text : List Char) : List Char :=
  '"' :: text.flatMap (quoteChar escaped) ++ ['"']

/-- The characters a log does not show as they are. -/
def isHidden (c : Char) : Bool :=
  isCombining c || isIgnorable c || isUnprintable c

/-- A text as a log shows it. -/
def quote (text : String) : String :=
  String.ofList (quoteWith isHidden text.toList)

/-- Control characters are among the hidden ones. -/
theorem isHidden_of_control {c : Char}
    (h : c.toNat < 0x20 ∨ (0x7f ≤ c.toNat ∧ c.toNat < 0xa0)) : isHidden c = true := by
  simp [isHidden, isUnprintable_of_control h]

end LinkPane.Text

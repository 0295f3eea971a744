import LinkPane.Text.Position

/-!
# Escapes in quoted texts

* `shortEscapes` -- the escapes of two characters;
* `hexValue?` -- the value of a hexadecimal digit;
* `Hex.push` -- the four octets behind `\u`, fed one character at a time: they are a code unit when they
  are four digits, and refused otherwise, but not before all four are there;
* `leading`, `trailing`, `pair` -- code units that stand for a character together.
-/

namespace LinkPane.Json

/-- What may follow a backslash, and the character that the two stand for. -/
def shortEscapes : List (Char × Char) :=
  [('"', '"'), ('\\', '\\'), ('/', '/'), ('b', '\x08'), ('f', '\x0c'), ('n', '\n'), ('r', '\r'),
    ('t', '\t')]

/-- The character that a backslash and `c` stand for. -/
def shortEscape? (c : Char) : Option Char :=
  shortEscapes.lookup c

/-- The value of a hexadecimal digit. -/
def hexValue? (c : Char) : Option Nat :=
  if '0' ≤ c ∧ c ≤ '9' then some (c.toNat - '0'.toNat)
  else if 'a' ≤ c ∧ c ≤ 'f' then some (c.toNat - 'a'.toNat + 10)
  else if 'A' ≤ c ∧ c ≤ 'F' then some (c.toNat - 'A'.toNat + 10)
  else none

/-- The value of a row of hexadecimal digits. -/
def hexValues? (digits : List Char) : Option Nat :=
  digits.foldlM (fun n c => (hexValue? c).map (16 * n + ·)) 0

/-- The number of octets that a code unit is written in. -/
def hexWidth : Nat := 4

/-- What a character does to the digits of a code unit. -/
inductive Hex.Push
  /-- There are less than four octets; the characters so far, latest first. -/
  | more (read : List Char)
  /-- The code unit. -/
  | unit (value : Nat)
  /-- The four octets are no digits; the last `seen` of them belong to the character. -/
  | refused (seen : Nat)

/-- Takes one more character to those read so far, which are fewer than four octets. -/
def Hex.push (read : List Char) (c : Char) : Hex.Push :=
  if Text.size (c :: read) < hexWidth then .more (c :: read)
  else match hexValues? (c :: read).reverse with
    | some value => .unit value
    | none => .refused (hexWidth - Text.size read)

/-- A code unit that begins a pair. -/
def leading (unit : Nat) : Bool :=
  0xd800 ≤ unit && unit < 0xdc00

/-- A code unit that ends a pair. -/
def trailing (unit : Nat) : Bool :=
  0xdc00 ≤ unit && unit < 0xe000

/-- The character that a pair of code units stands for. -/
def pair (lead trail : Nat) : Char :=
  Char.ofNat (0x10000 + (lead - 0xd800) * 0x400 + (trail - 0xdc00))

end LinkPane.Json

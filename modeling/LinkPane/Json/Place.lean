/-!
# The form of a number literal

A number literal is read one character at a time. `Place` says which part of it has been read last,
`Place.step` what the next character makes of it:

* a minus sign, or none;
* digits, of which the first is no zero unless it is the only one;
* a point and digits, or neither;
* `e` or `E`, a sign or none, and digits, or nothing of that.
-/

namespace LinkPane.Json

/-- The part of a number literal that was read last. -/
inductive Place
  | minus
  | zero
  | whole
  | point
  | fraction
  | mark
  | markSign
  | exponent
  deriving DecidableEq, Repr

/-- What a character does to a number literal. -/
inductive Place.Move
  /-- It belongs to the literal. -/
  | to (place : Place)
  /-- The literal has ended before it. -/
  | ended
  /-- It cannot stand there. -/
  | refused
  deriving DecidableEq, Repr

/-- A decimal digit. -/
def isDigit (c : Char) : Bool :=
  '0' ≤ c && c ≤ '9'

/-- The mark in front of an exponent. -/
def isMark (c : Char) : Bool :=
  c == 'e' || c == 'E'

/-- The first digit of a number. -/
def Place.ofDigit (c : Char) : Place :=
  if c = '0' then .zero else .whole

/-- What the character `c` does to a literal whose last part is `place`. -/
def Place.step (place : Place) (c : Char) : Place.Move :=
  match place with
  | .minus => if isDigit c then .to (.ofDigit c) else .refused
  | .zero =>
    if isDigit c then .refused
    else if c = '.' then .to .point
    else if isMark c then .to .mark
    else .ended
  | .whole =>
    if isDigit c then .to .whole
    else if c = '.' then .to .point
    else if isMark c then .to .mark
    else .ended
  | .point => if isDigit c then .to .fraction else .refused
  | .fraction =>
    if isDigit c then .to .fraction
    else if isMark c then .to .mark
    else .ended
  | .mark =>
    if isDigit c then .to .exponent
    else if c = '+' ∨ c = '-' then .to .markSign
    else .refused
  | .markSign => if isDigit c then .to .exponent else .refused
  | .exponent => if isDigit c then .to .exponent else .ended

/-- A literal may end there. -/
def Place.isEnd : Place → Bool
  | .zero | .whole | .fraction | .exponent => true
  | .minus | .point | .mark | .markSign => false

/-- A literal ends only where it may. -/
theorem Place.isEnd_of_ended {place : Place} {c : Char} (h : place.step c = .ended) :
    place.isEnd = true := by
  unfold step at h
  repeat' split at h
  all_goals simp_all [isEnd]

end LinkPane.Json

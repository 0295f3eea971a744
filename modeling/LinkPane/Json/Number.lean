import LinkPane.Decimal.Written

/-!
# Numbers in JSON

A number literal is kept as it is written. It stands for an integer of 64 bits where it is written as
one, and for a floating point number otherwise:

* `Literal` -- the parts of a number as written;
* `Literal.significand` -- the digits that count: as many as fit in 64 bits;
* `Literal.numeral?` -- the number, unless it is too large for a floating point number;
* `Literal.overflows` -- the exponent alone says that there is none;
* `Numeral.text` -- the number in a message.
-/

namespace LinkPane.Json

/-! ## 1. Numbers as written -/

/-- An exponent: whether it has a minus sign, and its digits. -/
structure Exponent where
  negative : Bool
  digits : List Char
  deriving DecidableEq, Repr

/-- A number literal by its parts. The digits are those of the text; `fraction` is empty where there is
    no point. -/
structure Literal where
  negative : Bool
  whole : List Char
  fraction : List Char
  exponent : Option Exponent
  deriving DecidableEq, Repr

/-! ## 2. What a literal stands for -/

/-- The value of a decimal digit. -/
def digitValue (c : Char) : Nat :=
  c.toNat - '0'.toNat

/-- The value of a row of digits. -/
def digitsValue (digits : List Char) : Nat :=
  digits.foldl (fun n c => 10 * n + digitValue c) 0

/-- Takes digits behind the number `n` while the result is below `2 ^ 64`; gives the number and how many
    digits were taken. -/
def takeDigits (n : Nat) : List Char → Nat × Nat
  | [] => (n, 0)
  | c :: digits =>
    if 10 * n + digitValue c < Nat.pow 2 64 then
      let (m, taken) := takeDigits (10 * n + digitValue c) digits
      (m, taken + 1)
    else (n, 0)

/-- The significand of a literal and the power of ten it is to be multiplied with, the written exponent
    left aside. A whole digit that no longer fits adds one to the power, a digit of the fraction that is
    taken subtracts one, and a digit of the fraction that does not fit ends the significand. -/
def Literal.significand (l : Literal) : Nat × Int :=
  let (n, taken) := takeDigits 0 l.whole
  let (m, places) := takeDigits n l.fraction
  (m, (l.whole.length - taken : Nat) - (places : Int))

/-- The power of ten that an exponent stands for. -/
def Exponent.power (e : Exponent) : Int :=
  if e.negative then -(digitsValue e.digits : Int) else digitsValue e.digits

/-- The power of ten that a literal multiplies its significand with. -/
def Literal.power (l : Literal) : Int :=
  l.significand.2 + (l.exponent.map Exponent.power).getD 0

/-- A power of ten. -/
def tenTo (n : Nat) : Float :=
  Float.ofScientific 1 false n

/-- The largest power of ten that is a floating point number. -/
def largestPower : Nat := 308

/-- The product `x · 10 ^ n`, if it is finite. -/
def scaleUp (x : Float) (n : Nat) : Option Float :=
  if n ≤ largestPower then
    let y := x * tenTo n
    if y.isInf then none else some y
  else if x == 0.0 then some x else none

/-- The quotient `x / 10 ^ n`, in steps of the largest power. -/
def scaleDown (x : Float) (n : Nat) : Float :=
  if n ≤ largestPower then x / tenTo n
  else if x == 0.0 then x
  else scaleDown (x / tenTo largestPower) (n - largestPower)
termination_by n
decreasing_by simp only [largestPower] at *; omega

/-- The number `n · 10 ^ power` as a floating point number, if that is finite. -/
def scaled (n : Nat) (power : Int) : Option Float :=
  let x := n.toUInt64.toFloat
  if 0 ≤ power then scaleUp x power.toNat else some (scaleDown x (-power).toNat)

/-- The number a literal stands for. -/
inductive Numeral
  | integer (n : Int)
  | real (x : Float)

/-- The literal is written as an integer that has a significand of its own. -/
def Literal.isInteger (l : Literal) : Bool :=
  l.fraction.isEmpty && l.exponent.isNone && (takeDigits 0 l.whole).2 == l.whole.length

/-- The largest exponent that a literal may be written with. -/
def largestExponent : Nat := Nat.pow 2 31 - 1

/-- The exponent is past the largest one and makes the number large. Digits that follow do not change
    that. -/
def Literal.overflows (l : Literal) : Bool :=
  match l.exponent with
  | some e => !e.negative && l.significand.1 != 0 && largestExponent < digitsValue e.digits
  | none => false

/-- An integer that 64 bits can hold, where the literal is written as one; minus zero and all other
    numbers are floating point numbers. There is none for a literal that is too large. -/
def Literal.numeral? (l : Literal) : Option Numeral :=
  let (n, _) := l.significand
  if l.overflows then none
  else if l.isInteger then
    if !l.negative then some (.integer n)
    else if n = 0 ∨ Nat.pow 2 63 < n then some (.real (-n.toUInt64.toFloat))
    else some (.integer (-n))
  else (scaled n l.power).map fun x => .real (if l.negative then -x else x)

/-! ## 3. Numbers in a message -/

/-- Points stand in place from `10 ^ -5` up to, but not with, `10 ^ 16`. -/
def messageStyle : Decimal.Style := ⟨-5, 15⟩

/-- A number in a message. -/
def Numeral.text : Numeral → String
  | .integer n => toString n
  | .real x => messageStyle.writeFloat x

end LinkPane.Json

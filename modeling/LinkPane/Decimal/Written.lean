import LinkPane.Decimal.Shortest

/-!
# Floating point numbers in writing

* `Style` -- how a decimal is set out: where the point stands, or where an exponent takes over;
* `Style.write` -- a decimal in a style;
* `Style.writeFloat` -- a floating point number by its shortest decimal.
-/

namespace LinkPane.Decimal

/-- A number is written with its point in place when the power of ten of its leading digit is between
    `least` and `most`, and with an exponent otherwise. -/
structure Style where
  least : Int
  most : Int
  deriving DecidableEq, Repr

/-- A row of `n` zeros. -/
def zeros (n : Nat) : List Char :=
  List.replicate n '0'

/-- The digits of `n` less the zeros at the end, unless all are zeros. -/
def significantDigits (n : Nat) : List Char :=
  let digits := (Nat.toDigits 10 n).reverse
  match digits.dropWhile (· == '0') with
  | [] => ['0']
  | kept => kept.reverse

/-- The number with leading digit at `10 ^ leading`, its point in place: at least one digit stands on
    either side of it. -/
def pointInPlace (digits : List Char) (leading : Int) : List Char :=
  if leading < 0 then
    ['0', '.'] ++ zeros (-leading - 1).toNat ++ digits
  else
    let before := leading.toNat + 1
    let after := digits.drop before
    digits.take before ++ zeros (before - digits.length) ++ ['.'] ++ (if after = [] then ['0'] else after)

/-- The number with one digit before the point and an exponent with its sign. -/
def withExponent (digits : List Char) (leading : Int) : List Char :=
  let after := digits.drop 1
  digits.take 1 ++ (if after = [] then [] else '.' :: after) ++
    ['e', if leading < 0 then '-' else '+'] ++ Nat.toDigits 10 leading.natAbs

/-- A decimal in a style. -/
def Style.write (style : Style) (d : Scientific) : List Char :=
  let digits := significantDigits d.digits
  let leading := d.exponent + (Nat.toDigits 10 d.digits).length - 1
  if style.least ≤ leading ∧ leading ≤ style.most then pointInPlace digits leading
  else withExponent digits leading

/-- A finite floating point number by its shortest decimal; zero keeps its sign. -/
def Style.writeFloat (style : Style) (x : Float) : String :=
  let sign := if x.toBits >>> 63 = 1 then ['-'] else []
  let magnitude :=
    if x == 0.0 then style.write ⟨0, 0⟩
    else match (Binary.ofFloat x).shortest with
      | some d => style.write d
      | none => []
  String.ofList (sign ++ magnitude)

end LinkPane.Decimal

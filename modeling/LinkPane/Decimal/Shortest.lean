/-!
# The shortest decimal that reads back

A positive binary number stands for all reals that round to it. Among the decimals in that range the
shortest ones are wanted, and of those the one nearest to the number itself.

* `Binary` -- a positive number `mantissa · 2 ^ exponent` with the width of its gaps;
* `Binary.scaled` -- its range, on a common denominator;
* `Scientific` -- `digits · 10 ^ exponent`;
* `Binary.onGrid` -- the decimal of the range on one grid of powers of ten, if there is one: only the two
  neighbours of the number on that grid can be it;
* `Binary.shortest` -- the first grid, from coarse to fine, that has one.

Everything is counted in natural numbers.
-/

namespace LinkPane.Decimal

/-! ## 1. Binary numbers -/

/-- The number `mantissa · 2 ^ exponent` in a format whose numbers lie `2 ^ exponent` apart above it, and
    below it as well unless `narrowBelow`: then half of that. -/
structure Binary where
  mantissa : Nat
  exponent : Int
  narrowBelow : Bool
  deriving DecidableEq, Repr

/-- The absolute value of a floating point number that is finite and not zero. -/
def Binary.ofFloat (x : Float) : Binary :=
  let bits : Nat := x.toBits.toNat
  let scale : Nat := bits / Nat.pow 2 52 % Nat.pow 2 11
  let fraction : Nat := bits % Nat.pow 2 52
  if scale = 0 then ⟨fraction, -1074, false⟩
  else ⟨fraction + Nat.pow 2 52, (scale : Int) - 1075, fraction = 0 ∧ 1 < scale⟩

/-- A number and the range of reals that round to it, as multiples of `1 / unit`. The ends belong to the
    range iff `closed`. -/
structure Scaled where
  low : Nat
  value : Nat
  high : Nat
  unit : Nat
  closed : Bool
  deriving DecidableEq, Repr

/-- The range ends halfway to the neighbours; a number with an even mantissa has both ends. -/
def Binary.scaled (b : Binary) : Scaled :=
  let up := Nat.pow 2 (b.exponent - 2).toNat
  { low := (4 * b.mantissa - if b.narrowBelow then 1 else 2) * up
    value := 4 * b.mantissa * up
    high := (4 * b.mantissa + 2) * up
    unit := Nat.pow 2 (2 - b.exponent).toNat
    closed := b.mantissa % 2 = 0 }

/-- The range holds the multiple `n` of `1 / unit`. -/
def Scaled.Holds (s : Scaled) (n : Nat) : Prop :=
  if s.closed then s.low ≤ n ∧ n ≤ s.high else s.low < n ∧ n < s.high

instance (s : Scaled) (n : Nat) : Decidable (s.Holds n) := by
  unfold Scaled.Holds; infer_instance

/-- The same range in multiples of `10 ^ grid / unit`, the unit chosen so that nothing is lost. -/
def Scaled.inTens (s : Scaled) (grid : Int) : Scaled :=
  let up := Nat.pow 10 (-grid).toNat
  { low := s.low * up
    value := s.value * up
    high := s.high * up
    unit := s.unit * Nat.pow 10 grid.toNat
    closed := s.closed }

/-! ## 2. Decimals -/

/-- The number `digits · 10 ^ exponent`. -/
structure Scientific where
  digits : Nat
  exponent : Int
  deriving DecidableEq, Repr

/-- The multiple of `10 ^ grid` in the range that is nearest to the number, if the range has one; a tie
    goes to the even multiple. -/
def Scaled.onGrid (s : Scaled) (grid : Int) : Option Scientific :=
  let t := s.inTens grid
  let below := t.value / t.unit
  let above := below + 1
  let past := t.value - below * t.unit
  let short := above * t.unit - t.value
  match decide (t.Holds (below * t.unit)), decide (t.Holds (above * t.unit)) with
  | true, true =>
    if past < short ∨ (past = short ∧ below % 2 = 0) then some ⟨below, grid⟩ else some ⟨above, grid⟩
  | true, false => some ⟨below, grid⟩
  | false, true => some ⟨above, grid⟩
  | false, false => none

/-- More than the decimal places that the leading digit of a binary64 number can be behind the point. -/
def deepest : Nat := 340

/-- The power of ten of the leading digit. -/
def Scaled.leading (s : Scaled) : Int :=
  ((Nat.toDigits 10 (s.value * Nat.pow 10 deepest / s.unit)).length : Int) - 1 - deepest

/-- The first of the grids `grid`, `grid - 1`, … that has a decimal of the range; `tries` of them. -/
def Scaled.firstGrid (s : Scaled) : Nat → Int → Option Scientific
  | 0, _ => none
  | tries + 1, grid => (s.onGrid grid).or (s.firstGrid tries (grid - 1))

/-- Seventeen digits tell any two binary64 numbers apart. -/
def mostDigits : Nat := 17

/-- The shortest decimal that rounds to the number, and the nearest of the shortest ones. -/
def Binary.shortest (b : Binary) : Option Scientific :=
  b.scaled.firstGrid mostDigits b.scaled.leading

example : (Binary.mk 4503599627370496 (-52) true).shortest = some ⟨1, 0⟩ := by decide +kernel
example : (Binary.mk 1 (-1074) false).shortest = some ⟨5, -324⟩ := by decide +kernel

end LinkPane.Decimal

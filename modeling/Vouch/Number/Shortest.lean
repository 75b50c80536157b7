import Vouch.Number.Binary64

/-! The shortest decimal that reads back as a given double.

The reals that round to a double form an interval, closed exactly when its mantissa
is even. For one digit, then two, and so on, the two neighbours of the double on the
grid of that many digits are tried: the first grid with a neighbour in the interval
gives the answer, and of two such neighbours the nearer. Seventeen digits always
suffice. -/
namespace Vouch.Number

/-- The decimal `digits * 10 ^ exponent`. -/
structure Scientific where
  digits : Nat
  exponent : Int
deriving DecidableEq, Repr

def digitCount (n : Nat) : Nat :=
  (Nat.toDigits 10 n).length

namespace Magnitude

/-- The place of the leading decimal digit: `10 ^ order ≤ x < 10 ^ (order + 1)`. -/
def order (x : Magnitude) : Int :=
  if x.den ≤ x.num then (digitCount (x.num / x.den) : Int) - 1
  else -(digitCount ((x.den + x.num - 1) / x.num - 1) : Int)

/-- A decimal in units of which a quarter of the double's last place has `quarter`. -/
def decimalUnits (x : Magnitude) (d : Scientific) : Nat :=
  d.digits * 10 ^ d.exponent.toNat * 2 ^ (2 - x.exponent).toNat

/-- A multiple of a quarter of the double's last place, in the same units. -/
def quarters (x : Magnitude) (d : Scientific) (k : Nat) : Nat :=
  k * 2 ^ (x.exponent - 2).toNat * 10 ^ (-d.exponent).toNat

/-- The decimal lies among the reals that round to the double. Below a power of two the
neighbouring doubles are twice as dense. -/
def admits (x : Magnitude) (d : Scientific) : Bool :=
  let below := if x.mantissa = mantissaLimit / 2 ∧ leastExponent < x.exponent then 1 else 2
  let low := x.quarters d (4 * x.mantissa - below)
  let high := x.quarters d (4 * x.mantissa + 2)
  let v := x.decimalUnits d
  if x.mantissa % 2 = 0 then low ≤ v && v ≤ high else low < v && v < high

/-- How far the decimal is from the double. -/
def distance (x : Magnitude) (d : Scientific) : Nat :=
  let v := x.decimalUnits d
  let c := x.quarters d (4 * x.mantissa)
  max v c - min v c

/-- The two neighbours of the double among the decimals of `count` digits. The upper one may
be the next power of ten, which takes one digit. -/
def neighbours (x : Magnitude) (count : Nat) : Scientific × Scientific :=
  let e := x.order - count + 1
  let below := x.num * 10 ^ (-e).toNat / (x.den * 10 ^ e.toNat)
  (⟨below, e⟩, if below + 1 = 10 ^ count then ⟨1, e + count⟩ else ⟨below + 1, e⟩)

def ofLength? (x : Magnitude) (count : Nat) : Option Scientific :=
  let (low, high) := x.neighbours count
  match x.admits low, x.admits high with
  | true, true =>
    let toLow := x.distance low
    let toHigh := x.distance high
    some (if toLow < toHigh ∨ (toLow = toHigh ∧ low.digits % 2 = 0) then low else high)
  | true, false => some low
  | false, true => some high
  | false, false => none

/-- The shortest decimal of a positive double. -/
def shortest (x : Magnitude) : Scientific :=
  ((List.range' 1 17).findSome? x.ofLength?).getD (x.neighbours 17).1

end Magnitude

end Vouch.Number

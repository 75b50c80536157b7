import Vouch.Naturals

/-! Non-negative doubles as exact pairs.

A finite double is an integer of at most 53 bits times a power of two that is at
least `2 ^ (-1074)`. All arithmetic is on integers: an operation forms its exact
result as a quotient and `nearest?` rounds it once, to nearest with ties to the even
mantissa, or finds that it lies above the largest double. -/
namespace Vouch.Number

/-- The double `mantissa * 2 ^ exponent`. -/
structure Magnitude where
  mantissa : Nat
  exponent : Int
deriving DecidableEq, Repr

def leastExponent : Int := -1074

def greatestExponent : Int := 971

def mantissaLimit : Nat := 2 ^ 53

namespace Magnitude

def zero : Magnitude := ⟨0, leastExponent⟩

/-- The two sides of the quotient that the double is. -/
def num (x : Magnitude) : Nat := x.mantissa * 2 ^ x.exponent.toNat

def den (x : Magnitude) : Nat := 2 ^ (-x.exponent).toNat

end Magnitude

/-- The quotient of two integers, rounded to the nearest integer; a half goes to the even
neighbour. -/
def roundHalfEven (num den : Nat) : Nat :=
  let quotient := num / den
  let rest := num % den
  if 2 * rest < den ∨ (2 * rest = den ∧ quotient % 2 = 0) then quotient else quotient + 1

/-- The quotient of `num / den` by `2 ^ e`, again as a pair. -/
def unitsOf (num den : Nat) (e : Int) : Nat × Nat :=
  (num * 2 ^ (-e).toNat, den * 2 ^ e.toNat)

/-- The exponent at which a positive quotient has a mantissa of 53 bits, or the least one. -/
def exponentOf (num den : Nat) : Int :=
  let guess : Int := (num.log2 : Int) - den.log2 - 53
  let (units, unit) := unitsOf num den guess
  max leastExponent (if units / unit < mantissaLimit then guess else guess + 1)

/-- The double nearest to `num / den`, unless that exceeds the largest one. -/
def nearest? (num den : Nat) : Option Magnitude :=
  if num = 0 then some .zero
  else
    let e := exponentOf num den
    let (units, unit) := unitsOf num den e
    let m := roundHalfEven units unit
    let x : Magnitude := if m = mantissaLimit then ⟨mantissaLimit / 2, e + 1⟩ else ⟨m, e⟩
    if x.exponent ≤ greatestExponent then some x else none

namespace Magnitude

def mul? (x y : Magnitude) : Option Magnitude :=
  nearest? (x.num * y.num) (x.den * y.den)

def div? (x y : Magnitude) : Option Magnitude :=
  nearest? (x.num * y.den) (x.den * y.num)

end Magnitude

end Vouch.Number

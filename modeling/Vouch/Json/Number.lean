import Vouch.Number.Shortest

/-! Numbers of JSON.

A number without fraction and exponent stays an integer while it fits 64 bits, signed
if it is negative; every other one becomes a double. A double is read by
accumulating a significand below `2 ^ 64`, rounding it, and then multiplying or
dividing once by a power of ten, so the last bit is the one that those two roundings
give. -/
namespace Vouch.Json

open Vouch.Number

/-- A number as it is written: the sign, the digits before and after the point, and the
exponent. An absent fraction or exponent is not the same as an empty one. -/
structure Literal where
  negative : Bool
  whole : List Char
  fraction : Option (List Char)
  exponent : Option Int
deriving DecidableEq, Repr

/-- The value of a number. -/
inductive Number where
  /-- An integer below `2 ^ 64`. -/
  | natural (n : Nat)
  /-- The integer `-n`, where `0 < n ≤ 2 ^ 63`. -/
  | negative (n : Nat)
  /-- A double with its sign, which zero has too. -/
  | real (isNegative : Bool) (x : Magnitude)
deriving DecidableEq, Repr

/-- Takes digits into the significand while it stays below `2 ^ 64`; gives the significand and
the digits left over. -/
def absorb (significand : Nat) : List Char → Nat × List Char
  | [] => (significand, [])
  | c :: rest =>
    let next := 10 * significand + (c.toNat - '0'.toNat)
    if next < 2 ^ 64 then absorb next rest else (significand, c :: rest)

/-- The greatest power of ten that is a double. -/
def greatestPower : Nat := 308

def powerOfTen? (k : Nat) : Option Magnitude :=
  nearest? (10 ^ k) 1

def raise? (x : Magnitude) (k : Nat) : Option Magnitude :=
  (powerOfTen? k).bind x.mul?

def lower? (x : Magnitude) (k : Nat) : Option Magnitude :=
  (powerOfTen? k).bind x.div?

/-- Divides by a power of ten. Below the smallest power the division is made in steps of the
largest one, each rounded; the steps end once nothing is left. -/
def lowerBy? (x : Magnitude) (k : Nat) : Option Magnitude :=
  if k ≤ greatestPower then lower? x k
  else if x.mantissa = 0 then some x
  else (lower? x greatestPower).bind fun y => lowerBy? y (k - greatestPower)
termination_by k
decreasing_by simp only [greatestPower] at *; omega

/-- Scales by a power of ten, unless the result exceeds the largest double. -/
def scale? (x : Magnitude) (e : Int) : Option Magnitude :=
  if e < 0 then lowerBy? x (-e).toNat
  else if e ≤ greatestPower then raise? x e.toNat
  else if x.mantissa = 0 then some x
  else none

namespace Literal

/-- The value; `none` if it exceeds the largest double. -/
def value? (l : Literal) : Option Number :=
  let fraction := l.fraction.getD []
  let (whole, wholeLeft) := absorb 0 l.whole
  let (significand, fractionLeft) := absorb whole fraction
  let exponent : Int :=
    l.exponent.getD 0 + wholeLeft.length - (fraction.length - fractionLeft.length : Nat)
  let isInteger := l.fraction.isNone && l.exponent.isNone && wholeLeft.isEmpty
  if isInteger && !l.negative then some (.natural whole)
  else if isInteger && 0 < whole && whole ≤ 2 ^ 63 then some (.negative whole)
  else do
    let x ← nearest? significand 1
    return .real l.negative (← scale? x exponent)

end Literal

namespace Number

/-- A double is positional while its decimal point falls within this many places of the first
digit to the right of it, and up to sixteen to the left; beyond that it has an exponent. -/
def leastPoint : Int := -5

def greatestPoint : Int := 16

/-- An exponent always shows its sign. -/
def exponentText (exponent : Int) : List Char :=
  (if 0 ≤ exponent then '+' else '-') :: Nat.toDigits 10 exponent.natAbs

def scientificText (digits : List Char) (exponent : Int) : List Char :=
  let tail := digits.drop 1
  digits.take 1 ++ (if tail.isEmpty then [] else '.' :: tail) ++ 'e' :: exponentText exponent

/-- The text of `digits * 10 ^ exponent`, the digits having no trailing zero. -/
def decimalText (d : Scientific) : List Char :=
  let digits := Nat.toDigits 10 d.digits
  let point : Int := digits.length + d.exponent
  if 0 ≤ d.exponent ∧ point ≤ greatestPoint then
    digits ++ List.replicate d.exponent.toNat '0' ++ ['.', '0']
  else if 0 < point ∧ point ≤ greatestPoint then
    digits.take point.toNat ++ '.' :: digits.drop point.toNat
  else if leastPoint < point ∧ point ≤ 0 then
    '0' :: '.' :: List.replicate (-point).toNat '0' ++ digits
  else scientificText digits (point - 1)

def text : Number → List Char
  | .natural n => Nat.toDigits 10 n
  | .negative n => '-' :: Nat.toDigits 10 n
  | .real isNegative x =>
    (if isNegative then ['-'] else []) ++
      if x.mantissa = 0 then ['0', '.', '0'] else decimalText x.shortest

end Number

end Vouch.Json

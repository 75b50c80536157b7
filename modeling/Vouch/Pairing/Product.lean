import Vouch.Pairing.Group

/-! Products of pairings.

The pairing of `P` and `Q` is the value at `Q` of the function with a zero of order
`fieldOrder` at `P`, raised to a power that makes it a root of unity. The values of
several pairs are built up together, along the binary digits of `fieldOrder`, from lines
through multiples of the `P`s (`functionProduct`). Whatever lies in the subfield of the
even powers of `w` is sent to one by the final power: among it are vertical lines, which
are left out, and the denominators of slopes. -/
namespace Vouch.Pairing

open Weierstrass

/-- One of the pairs, and the multiple of its first point that has been reached. -/
structure Leg where
  px : Base
  py : Base
  qx : Quadratic
  qy : Quadratic
  reached : Projective Base

namespace Leg

/-- A line at the second point, as `c + a x + b y`; in the large field the point is
`(qx w², qy w³)`. -/
def lineAt (leg : Leg) (c a b : Base) : Tower :=
  [.ofBase c, 0, .scale a leg.qx, .scale b leg.qy, 0, 0]

/-- Doubles the multiple; gives the tangent at it. -/
def double (leg : Leg) : Tower × Leg :=
  let ⟨x, y, z⟩ := leg.reached
  let rise := (x + x + x) * x
  let run := (y + y) * z
  (leg.lineAt (rise * x - run * y) (-(rise * z)) (run * z),
    { leg with reached := leg.reached.add b1 leg.reached })

/-- Adds the first point to the multiple; gives the line through both. -/
def step (leg : Leg) : Tower × Leg :=
  let ⟨x, y, z⟩ := leg.reached
  let rise := y - leg.py * z
  let run := x - leg.px * z
  (leg.lineAt (rise * leg.px - run * leg.py) (-rise) run,
    { leg with reached := leg.reached.add b1 ⟨leg.px, leg.py, 1⟩ })

/-- A pair with a point at infinity has the pairing one. -/
def ofPair? : G1 × G2 → Option Leg
  | (.affine px py, .affine qx qy) => some ⟨px, py, qx, qy, ⟨px, py, 1⟩⟩
  | _ => none

end Leg

/-- Moves all legs, and multiplies their lines into the value. -/
def advance (move : Leg → Tower × Leg) (value : Tower) (legs : List Leg) : Tower × List Leg :=
  let moved := legs.map move
  (moved.foldl (fun f m => m.1.mul f) value, moved.map (·.2))

/-- The binary digits of `fieldOrder` behind the first, from the top. -/
def digits : List Bool :=
  (List.range (Nat.log2 fieldOrder)).reverse.map fieldOrder.testBit

/-- The product of the functions, before the final power. -/
def functionProduct (legs : List Leg) : Tower :=
  let (value, _) := digits.foldl (fun (value, legs) digit =>
    let (value, legs) := advance Leg.double (value.mul value) legs
    if digit then advance Leg.step value legs else (value, legs)) (Tower.one, legs)
  value

/-- The part of the final power that no Frobenius power covers. -/
def hardPower : Nat := (baseOrder ^ 4 - baseOrder ^ 2 + 1) / fieldOrder

/-- The product of the pairings of these points is one. The final power is the exponent
`(q⁶ - 1) (q² + 1) (q⁴ - q² + 1) / r`; the first factor makes one of just those elements that
have no odd powers of `w`. -/
def productIsOne (pairs : List (G1 × G2)) : Bool :=
  let value := functionProduct (pairs.filterMap Leg.ofPair?)
  ((value.frobenius.mul value).power hardPower).isEven

end Vouch.Pairing

import Vouch.Field
import Vouch.Pairing.Field

/-! The groups of the pairing.

Both curves are `y² = x³ + b`. All points over the prime field belong to the first
group; the second one is the subgroup whose order is that of the first, `fieldOrder`,
of the points over the quadratic extension. -/
namespace Vouch.Pairing

open Weierstrass

abbrev G1 := Point Base

abbrev G2 := Point Quadratic

def b1 : Base := 3

def b2 : Quadratic := .scale 3 (.inverse .sextic)

/-- The point belongs to the first group. -/
def isInG1 (p : G1) : Bool :=
  p.isOnCurve b1

/-- The point belongs to the second group. -/
def isInG2 (p : G2) : Bool :=
  p.isOnCurve b2 && multiple b2 fieldOrder p == .infinity

/-- The sum of a point and multiples of others. -/
def combination (first : G1) (rest : List (Nat × G1)) : G1 :=
  rest.foldl (fun sum (k, p) => Weierstrass.add b1 sum (multiple b1 k p)) first

end Vouch.Pairing

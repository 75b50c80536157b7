import Vouch.Repeated

/-! Short Weierstrass curves `y² = x³ + b`.

The points are the solutions and one at infinity. Sums and multiples are computed on
projective coordinates by one addition formula, which holds for all points of a curve
without a point of order two. -/
namespace Vouch

/-- What a curve needs of the field that it is over. -/
class CurveField (F : Type) extends Add F, Sub F, Mul F, Neg F, Zero F, One F where
  inverse : F → F

namespace Weierstrass

variable {F : Type} [CurveField F] [DecidableEq F]

inductive Point (F : Type) where
  | infinity
  | affine (x y : F)
deriving DecidableEq

namespace Point

def isOnCurve (b : F) : Point F → Bool
  | .infinity => true
  | .affine x y => y * y == x * x * x + b

def negate : Point F → Point F
  | .infinity => .infinity
  | .affine x y => .affine x (-y)

end Point

/-- The point `(x / z, y / z)`, or the one at infinity if `z` is zero. -/
structure Projective (F : Type) where
  x : F
  y : F
  z : F

namespace Projective

def infinity : Projective F := ⟨0, 1, 0⟩

def ofPoint : Point F → Projective F
  | .infinity => infinity
  | .affine x y => ⟨x, y, 1⟩

def toPoint (p : Projective F) : Point F :=
  if p.z = 0 then .infinity
  else
    let w := CurveField.inverse p.z
    .affine (p.x * w) (p.y * w)

@[specialize] def add (b : F) (p q : Projective F) : Projective F :=
  let thrice (a : F) := a + a + a
  let xx := p.x * q.x
  let yy := p.y * q.y
  let zz := thrice (b * (p.z * q.z))
  let xy := p.x * q.y + p.y * q.x
  let yz := p.y * q.z + p.z * q.y
  let xz := thrice (b * (p.x * q.z + p.z * q.x))
  let sum := yy + zz
  let difference := yy - zz
  let xx := thrice xx
  ⟨xy * difference - yz * xz, xz * xx + difference * sum, sum * yz + xx * xy⟩

end Projective

def add (b : F) (p q : Point F) : Point F :=
  (Projective.add b (.ofPoint p) (.ofPoint q)).toPoint

/-- The sum of `k` copies of a point. -/
@[specialize] def multiple (b : F) (k : Nat) (p : Point F) : Point F :=
  (repeated (Projective.add b) .infinity k (.ofPoint p)).toPoint

end Weierstrass

end Vouch

import Vouch.Modular
import Vouch.Curve.Weierstrass

/-! The fields of the pairing.

Points of the first group have coordinates in a prime field, those of the second in its
quadratic extension by `u` with `u² = -1`. The values of the pairing are polynomials in
`w` over the latter, reduced by `w⁶ = 9 + u`. -/
namespace Vouch.Pairing

/-- The order of the field that the coordinates are from. -/
def baseOrder : Nat :=
  21888242871839275222246405745257275088696311157297823662689037894645226208583

instance : NeZero baseOrder := ⟨by decide⟩

abbrev Base := Fin baseOrder

instance : CurveField Base where
  zero := 0
  one := 1
  inverse := Modular.inverse

/-! ### The quadratic extension -/

/-- The element `re + im u`. -/
structure Quadratic where
  re : Base
  im : Base
deriving DecidableEq

namespace Quadratic

def ofBase (a : Base) : Quadratic := ⟨a, 0⟩

def add (a b : Quadratic) : Quadratic := ⟨a.re + b.re, a.im + b.im⟩

def sub (a b : Quadratic) : Quadratic := ⟨a.re - b.re, a.im - b.im⟩

def neg (a : Quadratic) : Quadratic := ⟨-a.re, -a.im⟩

def mul (a b : Quadratic) : Quadratic :=
  ⟨a.re * b.re - a.im * b.im, a.re * b.im + a.im * b.re⟩

/-- By a factor of the prime field. -/
def scale (k : Base) (a : Quadratic) : Quadratic := ⟨k * a.re, k * a.im⟩

def inverse (a : Quadratic) : Quadratic :=
  let w := Modular.inverse (a.re * a.re + a.im * a.im)
  ⟨a.re * w, -a.im * w⟩

instance : CurveField Quadratic where
  add := add
  sub := sub
  neg := neg
  mul := mul
  zero := ofBase 0
  one := ofBase 1
  inverse := inverse

/-- The element that the twelfth-degree extension takes a sixth root of. -/
def sextic : Quadratic := ⟨9, 1⟩

end Quadratic

/-! ### The extension of degree twelve -/

/-- The six coefficients of a polynomial in `w`, constant first. -/
abbrev Tower := List Quadratic

namespace Tower

def degree : Nat := 6

def one : Tower := 1 :: List.replicate (degree - 1) 0

/-- The product with `w`: the coefficient that leaves at the top comes in at the bottom. -/
def shift (a : Tower) : Tower :=
  match a.getLast? with
  | some top => (Quadratic.sextic * top) :: a.dropLast
  | none => []

/-- Adds up the products of the coefficients with `b`, with `b w`, and so on. A coefficient that
is zero costs nothing. -/
def mulFrom (sum b : Tower) : Tower → Tower
  | [] => sum
  | a :: rest =>
    let sum := if a = 0 then sum else List.zipWith (fun s c => s + a * c) sum b
    mulFrom sum (shift b) rest

def mul (a b : Tower) : Tower :=
  mulFrom (List.replicate degree 0) b a

def power (a : Tower) (k : Nat) : Tower :=
  repeated mul one k a

/-- What `w` is multiplied by when it is raised to the square of `baseOrder`: a sixth root of
one. -/
def twist : Quadratic :=
  repeated Quadratic.mul 1 ((baseOrder ^ 2 - 1) / degree) Quadratic.sextic

/-- The power by the square of `baseOrder`. It leaves the coefficients alone. -/
def frobenius (a : Tower) : Tower :=
  go 1 a
where
  go (k : Quadratic) : Tower → Tower
    | [] => []
    | c :: rest => k * c :: go (k * twist) rest

/-- The coefficients of odd powers of `w` are zero. -/
def isEven : Tower → Bool
  | _ :: odd :: rest => odd == 0 && isEven rest
  | _ => true

end Tower

end Vouch.Pairing

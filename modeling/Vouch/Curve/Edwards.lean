import Vouch.Field

/-! The twisted Edwards curve over the field of the circuits.

The points satisfy `x² + y² = 1 + d x² y²`. The coefficient `d` has no square root, so
that one addition formula holds for all of them. Multiples are computed on projective
coordinates, which need one inversion at the end. A point is written as its `y` with a
bit that tells its `x` from `-x`, and reading takes the points of the subgroup of prime
order only. -/
namespace Vouch.Edwards

structure Point where
  x : Felt
  y : Felt
deriving DecidableEq

def d : Felt :=
  Field.reduce 9706598848417545097372247223557719406784115219466060233080913168975159366771

/-- The neutral element. -/
def zero : Point := ⟨0, 1⟩

def generator : Point where
  x := Field.reduce 19698561148652590122159747500897617769866003486955115824547446575314762165298
  y := Field.reduce 19298250018296453272277890825869354524455968081175474282777126169995084727839

/-- The order of the generator, a prime. -/
def order : Nat :=
  2736030358979909402780800718157159386076813972158567259200215660948447373041

def add (p q : Point) : Point :=
  let cross := d * p.x * q.x * p.y * q.y
  { x := (p.x * q.y + p.y * q.x) * Modular.inverse (1 + cross)
    y := (p.y * q.y - p.x * q.x) * Modular.inverse (1 - cross) }

/-! ### Multiples -/

/-- The point `(x / z, y / z)`. -/
structure Projective where
  x : Felt
  y : Felt
  z : Felt

namespace Projective

def ofPoint (p : Point) : Projective := ⟨p.x, p.y, 1⟩

def toPoint (p : Projective) : Point :=
  let w := Modular.inverse p.z
  ⟨p.x * w, p.y * w⟩

def add (p q : Projective) : Projective :=
  let a := p.z * q.z
  let b := a * a
  let xx := p.x * q.x
  let yy := p.y * q.y
  let e := d * xx * yy
  let f := b - e
  let g := b + e
  ⟨a * f * ((p.x + p.y) * (q.x + q.y) - xx - yy), a * g * (yy - xx), f * g⟩

end Projective

/-- The sum of `k` copies of a point. -/
def multiple (k : Nat) (p : Point) : Point :=
  (repeated Projective.add (.ofPoint zero) k (.ofPoint p)).toPoint

/-! ### Written points -/

/-- Bytes of a written point. -/
def pointLength : Nat := 32

/-- The bit of the last byte that `y` leaves free. -/
def signBit : Nat := 255

/-- The greater of `x` and `-x`. -/
def isGreater (x : Felt) : Bool :=
  decide ((-x).val < x.val)

def encode (p : Point) : List UInt8 :=
  Bytes.toLittleEndian pointLength (p.y.val + (isGreater p.x).toNat * 2 ^ signBit)

/-- A square root in the field. -/
def root? (a : Felt) : Option Felt :=
  Modular.root? 28 ((fieldOrder - 1) / 2 ^ 28) 5 a

/-- A coordinate `x` that goes with `y`. -/
def xOf? (y : Felt) : Option Felt :=
  root? ((1 - y * y) * Modular.inverse (1 - d * y * y))

/-- The point lies in the subgroup of the generator. -/
def isInSubgroup (p : Point) : Bool :=
  multiple order p == zero

def decode? (bytes : List UInt8) : Option Point :=
  if bytes.length = pointLength then
    let n := Bytes.ofLittleEndian bytes
    let greater := n.testBit signBit
    if h : n % 2 ^ signBit < fieldOrder then do
      let y : Felt := ⟨n % 2 ^ signBit, h⟩
      let x ← xOf? y
      let p : Point := ⟨if isGreater x = greater then x else -x, y⟩
      if isInSubgroup p then some p else none
    else none
  else none

end Vouch.Edwards

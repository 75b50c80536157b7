import Vouch.Document
import Vouch.Pairing.Group

/-! Verifying keys and proofs, and their documents.

A point is written by its coordinates as decimal strings, with a third coordinate that
is one; those of the second group have pairs of them. Reading checks that the
coordinates are reduced and that the point belongs to its group. The third coordinate
is not looked at. -/
namespace Vouch.Groth16

open Pairing
open Weierstrass (Point)

structure VerifyingKey where
  alpha : G1
  beta : G2
  gamma : G2
  delta : G2
  /-- A constant point, and one for each public signal. -/
  inputs : List G1
deriving DecidableEq

structure Proof where
  a : G1
  b : G2
  c : G1
deriving DecidableEq

/-- How many public signals the key takes. -/
def VerifyingKey.signalCount (k : VerifyingKey) : Nat :=
  k.inputs.length - 1

/-! ### Coordinates -/

/-- The coordinates; those of the point at infinity are zero. -/
def coordinates {F : Type} [Zero F] : Point F → F × F
  | .infinity => (0, 0)
  | .affine x y => (x, y)

def quadraticJson (a : Quadratic) : Json :=
  .array [.decimal a.re.val, .decimal a.im.val]

def malformed {α : Type} (part : String) : Result α :=
  .error (.document (.part part))

/-- A reduced coordinate. -/
def readBase (part : String) (j : Json) : Result Base :=
  match j.asString? with
  | none => malformed part
  | some s => do
    let n ← readDecimal s
    if h : n < baseOrder then return ⟨n, h⟩ else .error (.document (.coordinate part))

def readQuadratic (part : String) (j : Json) : Result Quadratic :=
  match j.asArray? with
  | some [re, im] => do
    let re ← readBase part re
    let im ← readBase part im
    return ⟨re, im⟩
  | _ => malformed part

/-- The two coordinates of a point, whatever follows them. -/
def readPoint {F : Type} (coordinate : Json → Result F) (part : String) (j : Json) : Result (Point F) :=
  match j.asArray? with
  | some (x :: y :: _) => do
    let x ← coordinate x
    let y ← coordinate y
    return .affine x y
  | _ => malformed part

/-! ### Points -/

/-- A group of the pairing: its coordinates as they are written and read, the points that belong to
it, and what is said of another one. -/
structure PointGroup (F : Type) where
  coordinateJson : F → Json
  readCoordinate : String → Json → Result F
  contains : Point F → Bool
  fault : String → DocumentFault

def firstGroup : PointGroup Base :=
  ⟨fun x => .decimal x.val, readBase, isInG1, .notInG1⟩

def secondGroup : PointGroup Quadratic :=
  ⟨quadraticJson, readQuadratic, isInG2, .notInG2⟩

namespace PointGroup

variable {F : Type}

def json [Zero F] [One F] (g : PointGroup F) (p : Point F) : Json :=
  let (x, y) := coordinates p
  .array [g.coordinateJson x, g.coordinateJson y, g.coordinateJson 1]

def read (g : PointGroup F) (part : String) (j : Json) : Result (Point F) := do
  let p ← readPoint (g.readCoordinate part) part j
  if g.contains p then return p else .error (.document (g.fault part))

end PointGroup

/-! ### Keys and proofs -/

def VerifyingKey.toJson (k : VerifyingKey) : Json :=
  .object [("protocol", .string "groth16"), ("curve", .string "bn128"),
    ("nPublic", .natural k.signalCount), ("vk_alpha_1", firstGroup.json k.alpha),
    ("vk_beta_2", secondGroup.json k.beta), ("vk_gamma_2", secondGroup.json k.gamma),
    ("vk_delta_2", secondGroup.json k.delta),
    ("IC", .array (k.inputs.map firstGroup.json))]

def Proof.toJson (p : Proof) : Json :=
  .object [("pi_a", firstGroup.json p.a), ("pi_b", secondGroup.json p.b), ("pi_c", firstGroup.json p.c),
    ("protocol", .string "groth16"), ("curve", .string "bn128")]

/-- Reads a key, the points of the public signals first. -/
def VerifyingKey.ofJson (j : Json) : Result VerifyingKey :=
  match (j.member "IC").asArray? with
  | none => malformed "IC"
  | some items => do
    let inputs ← items.mapM (firstGroup.read "IC")
    let alpha ← firstGroup.read "vk_alpha_1" (j.member "vk_alpha_1")
    let beta ← secondGroup.read "vk_beta_2" (j.member "vk_beta_2")
    let gamma ← secondGroup.read "vk_gamma_2" (j.member "vk_gamma_2")
    let delta ← secondGroup.read "vk_delta_2" (j.member "vk_delta_2")
    return { alpha, beta, gamma, delta, inputs }

def Proof.ofJson (j : Json) : Result Proof := do
  let a ← firstGroup.read "pi_a" (j.member "pi_a")
  let b ← secondGroup.read "pi_b" (j.member "pi_b")
  let c ← firstGroup.read "pi_c" (j.member "pi_c")
  return { a, b, c }

/-- Reads the text of a key. -/
def VerifyingKey.ofText (s : String) : Result VerifyingKey := do
  ofJson (← readDocument Json.Place.json? s)

end Vouch.Groth16

import Vouch.Document
import Vouch.Field

/-! Proofs that a signature has not been revoked.

Revoked signatures are leaves of a sparse Merkle tree outside this library, under
their ids. A proof that an id has no leaf is passed on to the circuit, once its shape
is known to fit. -/
namespace Vouch

open Json (Place)

/-- A path to the place where the leaf would be, and the leaf that is there instead. -/
structure NonRevocation where
  root : Nat
  siblings : List Nat
  oldKey : Nat
  oldValue : Nat
  /-- Nothing is there. -/
  isOldZero : Bool
  value : Nat
deriving DecidableEq

namespace NonRevocation

/-- All integers of the proof. -/
def integers (p : NonRevocation) : List Nat :=
  [p.root, p.oldKey, p.oldValue, p.value] ++ p.siblings

/-- The path is as long as the tree is deep, and the circuit can take the integers. -/
def check (p : NonRevocation) (depth : Nat) : Result Unit :=
  if p.siblings.length = depth then
    if p.integers.all (· < fieldOrder) then .ok () else .error (.credential .outsideField)
  else .error (.credential (.siblingCount p.siblings.length depth))

/-! ### Documents -/

def read (p : Place) : Option NonRevocation := do
  let [root, siblings, oldKey, oldValue, isOldZero, value] ←
    p.record? ["root", "siblings", "oldKey", "oldValue", "isOld0", "value"] | none
  return { root := ← (← root).decimal?
           siblings := ← (← siblings).decimals?
           oldKey := ← (← oldKey).decimal?
           oldValue := ← (← oldValue).decimal?
           isOldZero := ← (← isOldZero).bool?
           value := ← (← value).decimal? }

def toJson (p : NonRevocation) : Json :=
  .object [("root", .decimal p.root), ("siblings", .array (p.siblings.map .decimal)),
    ("oldKey", .decimal p.oldKey), ("oldValue", .decimal p.oldValue), ("isOld0", .bool p.isOldZero),
    ("value", .decimal p.value)]

end NonRevocation

end Vouch

import Vouch.Document

/-! The header of a credential: what it is, apart from what it says. -/
namespace Vouch

open Json (Place)

structure Header where
  version : UInt64
  /-- The id of the schema. -/
  type : Nat
  /-- The purpose that it is issued for. -/
  context : Nat
  id : Nat
deriving DecidableEq

namespace Header

def currentVersion : UInt64 := 1

def make (type context id : Nat) : Header :=
  ⟨currentVersion, type, context, id⟩

def read (p : Place) : Option Header := do
  let [version, type, context, id] ← p.record? ["version", "type", "context", "id"] | none
  return { version := .ofNat (← (← version).decimal64?)
           type := ← (← type).decimal?
           context := ← (← context).decimal?
           id := ← (← id).decimal? }

def toJson (h : Header) : Json :=
  .object [("version", .decimal h.version.toNat), ("type", .decimal h.type),
    ("context", .decimal h.context), ("id", .decimal h.id)]

end Header

end Vouch

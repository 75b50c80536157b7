import Vouch.Bytes
import Vouch.Digest.Keccak

/-! The ids that schemas are registered under. -/
namespace Vouch.Schema

/-- Bits of an id. -/
def idBits : Nat := 160

/-- The id of the schema that its creator gives a name: the low bits of the Keccak-256 digest of
both. -/
def idOf (creator : List UInt8) (name : String) : Nat :=
  Digest.Keccak.truncated (creator ++ Bytes.utf8 name) idBits

end Vouch.Schema

import Vouch.Field
import Vouch.Json.Reading

/-! Public signals and the intrinsic ones among them.

A public signal has an exclusive ceiling: a value at or above it would stand for
another value inside the circuit and is refused before it reaches a verifier. Every
circuit discloses the intrinsic signals first, in a fixed order; a revocable one has
one more. -/
namespace Vouch.Circuit

/-- A public output with its exclusive upper bound. -/
structure PublicSignal where
  name : String
  ceiling : Nat
deriving DecidableEq, Repr

namespace PublicSignal

def ofBits (name : String) (bits : Nat) : PublicSignal :=
  ⟨name, 2 ^ bits⟩

/-- A signal that may be any field element. -/
def ofField (name : String) : PublicSignal :=
  ⟨name, fieldOrder⟩

def check (s : PublicSignal) (value : Nat) : Result Unit :=
  if value < s.ceiling then .ok () else .error (.signature (.aboveCeiling s.name value s.ceiling))

end PublicSignal

/-- The signals that every circuit discloses. -/
inductive Intrinsic where
  | type
  | context
  | nullifier
  | externalNullifier
  | revealIdentity
  | expirationLb
  | keyId
  | idEqualsTo
  | revocationRoot
deriving DecidableEq, Repr

namespace Intrinsic

/-- Those of a circuit without revocation, in the order of its outputs. -/
def fixed : List Intrinsic :=
  [.type, .context, .nullifier, .externalNullifier, .revealIdentity, .expirationLb, .keyId, .idEqualsTo]

def all : List Intrinsic := fixed ++ [.revocationRoot]

def ofRevocable (revocable : Bool) : List Intrinsic :=
  if revocable then all else fixed

def tag : Intrinsic → String
  | .type => "Type"
  | .context => "Context"
  | .nullifier => "Nullifier"
  | .externalNullifier => "ExternalNullifier"
  | .revealIdentity => "RevealIdentity"
  | .expirationLb => "ExpirationLb"
  | .keyId => "KeyId"
  | .idEqualsTo => "IdEqualsTo"
  | .revocationRoot => "SigRevocationSmtRoot"

def read (p : Json.Place) : Option Intrinsic :=
  p.oneOf? tag all

def outputName : Intrinsic → String
  | .type => "out_type"
  | .context => "out_context"
  | .nullifier => "out_nullifier"
  | .externalNullifier => "out_external_nullifier"
  | .revealIdentity => "out_reveal_identity"
  | .expirationLb => "out_expiration_lb"
  | .keyId => "out_key_id"
  | .idEqualsTo => "out_id_equals_to"
  | .revocationRoot => "out_sig_revocation_smt_root"

/-- The bits of a signal that is not a whole field element. The id comparison has one bit more
than an id, for its flag. -/
def bits? : Intrinsic → Option Nat
  | .type | .context | .externalNullifier => some 160
  | .revealIdentity => some 248
  | .expirationLb => some 64
  | .idEqualsTo => some 249
  | .nullifier | .keyId | .revocationRoot => none

def signal (i : Intrinsic) : PublicSignal :=
  match i.bits? with
  | some bits => .ofBits i.outputName bits
  | none => .ofField i.outputName

end Intrinsic

end Vouch.Circuit

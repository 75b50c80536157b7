import Vouch.Document

/-! Signatures on credentials, and what is known about each.

A credential can be signed more than once. The issuance of a signature says by which key,
to which holder and until when it was signed, and most of it goes into the digest. -/
namespace Vouch

open Json (Place)

/-- The ways to sign and prove. -/
inductive Scheme where
  | babyzk
deriving DecidableEq, Repr

namespace Scheme

/-- There is one scheme so far. -/
instance : Subsingleton Scheme :=
  ⟨fun | .babyzk, .babyzk => rfl⟩

def name : Scheme → String
  | .babyzk => "babyzk"

def code : Scheme → Nat
  | .babyzk => 1

def ofCode : Nat → Result Scheme
  | 1 => .ok .babyzk
  | other => .error (.credential (.unknownStack other))

def read (p : Place) : Option Scheme :=
  p.decimal64?.bind fun code => (ofCode code).toOption

end Scheme

structure Issuance where
  scheme : Scheme
  /-- The key of the signature in the revocation tree. -/
  signatureId : Nat
  expiredAt : UInt64
  /-- The digest of the holder's secrets. -/
  identityCommitment : Nat
  issuerId : Nat
  chainId : Nat
  publicKey : List UInt8
deriving DecidableEq

structure Signature where
  issuance : Issuance
  bytes : List UInt8
  /-- The signature on the attachments, if there were any. -/
  attachments : Option (List UInt8)
deriving DecidableEq

/-! ### Documents -/

/-- Bytes in base64. -/
def Json.bytes (bytes : List UInt8) : Json :=
  .string (Base64.encode bytes)

namespace Issuance

def read (p : Place) : Option Issuance := do
  let [scheme, id, expiration, identity, issuer, chain, key] ←
    p.record? ["verification_stack", "signature_id", "expired_at", "identity_commitment", "issuer_id",
      "chain_id", "public_key"] | none
  return { scheme := ← Scheme.read (← scheme)
           signatureId := ← (← id).decimal?
           expiredAt := .ofNat (← (← expiration).decimal64?)
           identityCommitment := ← (← identity).decimal?
           issuerId := ← (← issuer).decimal?
           chainId := ← (← chain).decimal?
           publicKey := ← (← key).bytes? }

def toJson (m : Issuance) : Json :=
  .object [("verification_stack", .decimal m.scheme.code), ("signature_id", .decimal m.signatureId),
    ("expired_at", .decimal m.expiredAt.toNat), ("identity_commitment", .decimal m.identityCommitment),
    ("issuer_id", .decimal m.issuerId), ("chain_id", .decimal m.chainId),
    ("public_key", .bytes m.publicKey)]

end Issuance

namespace Signature

def read (p : Place) : Option Signature := do
  let [issuance, bytes, attachments] ←
    p.record? ["metadata", "signature", "attachmentsSignature"] | none
  return { issuance := ← Issuance.read (← issuance)
           bytes := ← (← bytes).bytes?
           attachments := ← Place.optional? Place.bytes? attachments }

/-- An absent signature on attachments is left out. -/
def toJson (s : Signature) : Json :=
  .object ([("metadata", s.issuance.toJson), ("signature", .bytes s.bytes)] ++
    s.attachments.toList.map fun bytes => ("attachmentsSignature", .bytes bytes))

end Signature

end Vouch

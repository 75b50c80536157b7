import Vouch.Curve.Edwards
import Vouch.Digest.Sha512

/-! Signatures with a curve.

A secret is hashed to a scalar `k` and a seed. The key is the point `A = k G`; a
signature on a field element has a point `R = r G`, where `r` is derived from the seed
and the element, and the response `r + h k`, where the challenge `h` is the digest of
both points and the element. It verifies if the response times `G` is `R + h A`.

The scheme is defined for any curve with a generator and a way to write points
(`SigningCurve`). A response is written reduced and read only if it is, so that a
signature has one spelling. -/
namespace Vouch

/-- A group with what the scheme needs of it. -/
structure SigningCurve (P : Type) where
  add : P → P → P
  multiple : Nat → P → P
  generator : P
  /-- The order of the generator. -/
  order : Nat
  x : P → Felt
  y : P → Felt
  encode : P → List UInt8
  decode? : List UInt8 → Option P

def edwardsCurve : SigningCurve Edwards.Point where
  add := Edwards.add
  multiple := Edwards.multiple
  generator := Edwards.generator
  order := Edwards.order
  x := Edwards.Point.x
  y := Edwards.Point.y
  encode := Edwards.encode
  decode? := Edwards.decode?

/-- Bytes of a secret, of a written point and of a written response. -/
def secretLength : Nat := 32

def signatureLength : Nat := 64

/-- What a secret is hashed to. -/
structure ExpandedSecret where
  scalar : Nat
  seed : List UInt8
deriving DecidableEq

/-- A signature with the key that it is for. -/
structure DecodedSignature (P : Type) where
  key : P
  commitment : P
  response : Nat
deriving DecidableEq

namespace SigningCurve

variable {P : Type} (C : SigningCurve P)

/-- Expands a secret of 32 bytes. -/
def expand (secret : List UInt8) : Result ExpandedSecret :=
  if secret.length = secretLength then
    let digest := Digest.Sha512.hash secret
    .ok ⟨Bytes.ofLittleEndian (digest.take secretLength) % C.order, digest.drop secretLength⟩
  else .error (.signature (.privateKeyLength secret.length))

def publicPoint (k : ExpandedSecret) : P :=
  C.multiple k.scalar C.generator

def publicKey (k : ExpandedSecret) : List UInt8 :=
  C.encode (C.publicPoint k)

/-- The scalar that the commitment is made with, a different one for each message. -/
def nonce (k : ExpandedSecret) (message : Felt) : Nat :=
  Bytes.ofLittleEndian
    (Digest.Sha512.hash (k.seed ++ Bytes.toLittleEndian secretLength message.val)) % C.order

def challenge (hash : FieldHash) (commitment key : P) (message : Felt) : Result Nat := do
  let h ← hash [C.x commitment, C.y commitment, C.x key, C.y key, message]
  return h.val % C.order

def sign (hash : FieldHash) (k : ExpandedSecret) (message : Felt) : Result (List UInt8) := do
  let r := C.nonce k message
  let commitment := C.multiple r C.generator
  let h ← C.challenge hash commitment (C.publicPoint k) message
  return C.encode commitment ++ Bytes.toLittleEndian secretLength ((r + h * k.scalar) % C.order)

/-- Reads a signature and a key. -/
def decodeSignature (signature key : List UInt8) : Result (DecodedSignature P) :=
  if signature.length = signatureLength then
    match C.decode? key with
    | none => .error (.signature .malformedKey)
    | some a =>
      match C.decode? (signature.take secretLength) with
      | none => .error (.signature .malformedPoint)
      | some r =>
        let s := Bytes.ofLittleEndian (signature.drop secretLength)
        if s < C.order then .ok ⟨a, r, s⟩ else .error (.signature .unreduced)
  else .error (.signature (.wrongLength signature.length))

/-- The equation between a signature and a message; what does not hash does not hold. -/
def holds [DecidableEq P] (hash : FieldHash) (message : Felt) (s : DecodedSignature P) : Bool :=
  match C.challenge hash s.commitment s.key message with
  | .error _ => false
  | .ok h => C.multiple s.response C.generator == C.add s.commitment (C.multiple h s.key)

/-- A malformed signature or key does not verify. -/
def verify [DecidableEq P] (hash : FieldHash) (message : Felt) (signature key : List UInt8) : Bool :=
  match C.decodeSignature signature key with
  | .error _ => false
  | .ok s => C.holds hash message s

/-- A signature as inputs of a circuit: both points by their coordinates, and the response. -/
def signals (s : DecodedSignature P) : List Nat :=
  [(C.x s.key).val, (C.y s.key).val, (C.x s.commitment).val, (C.y s.commitment).val, s.response]

end SigningCurve

end Vouch

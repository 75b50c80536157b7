import Vouch.Credential

/-! Signing credentials, and verifying their signatures.

Both need a hash and a signature scheme (`SignatureSuite`). A signature is refused
before anything is signed if its id or its key cannot be right. One that does not
verify is no error; asking for one that is not there is. -/
namespace Vouch

/-- What signing and verifying need. A suite that is not ready refuses to hash. -/
structure SignatureSuite where
  scheme : Scheme
  hasher : Result FieldHash
  publicKey : (secret : List UInt8) → Result (List UInt8)
  sign : (secret : List UInt8) → Felt → Result (List UInt8)
  verify : Felt → (signature key : List UInt8) → Result Bool

namespace Credential

/-- The issuance is for the scheme that is signed with. -/
def checkScheme (suite : SignatureSuite) (i : Issuance) : Result Unit :=
  if i.scheme = suite.scheme then .ok ()
  else .error (.signature (.schemeMismatch i.scheme.name suite.scheme.name))

/-- The id is not zero and is the key of a leaf if the schema has a revocation tree. -/
def checkSignatureId (s : Schema) (id : Nat) : Result Unit :=
  if id = 0 then .error (.signature .zeroId)
  else
    match s.depth with
    | some depth =>
      if id < 2 ^ depth then .ok () else .error (.signature (.idTooLarge id depth))
    | none => .ok ()

/-- A new signature: on the digest, and on the attachments if there are any. -/
def signature (c : Credential) (suite : SignatureSuite) (secret : List UInt8)
    (issuance : Issuance) : Result Signature := do
  checkScheme suite issuance
  checkSignatureId c.body.schema issuance.signatureId
  let key ← suite.publicKey secret
  if key ≠ issuance.publicKey then .error (.signature .keyMismatch)
  else
    let hash ← suite.hasher
    let bytes ← suite.sign secret (← c.digest hash issuance)
    if c.attachments.isEmpty then return ⟨issuance, bytes, none⟩
    else
      let attached ← suite.sign secret (← c.attachmentsDigest hash)
      return ⟨issuance, bytes, some attached⟩

/-- The credential with one more signature. -/
def sign (c : Credential) (suite : SignatureSuite) (secret : List UInt8) (issuance : Issuance) :
    Result Credential := do
  let s ← c.signature suite secret issuance
  return { c with signatures := c.signatures ++ [s] }

/-- The signature on the attachments holds, or there are no attachments to sign. -/
def verifyAttachments (c : Credential) (suite : SignatureSuite) (s : Signature) : Result Bool :=
  if c.attachments.isEmpty then .ok true
  else
    match s.attachments with
    | none => .ok false
    | some bytes => do
      let hash ← suite.hasher
      suite.verify (← c.attachmentsDigest hash) bytes s.issuance.publicKey

/-- Verifies the `n`-th signature, and on request that on the attachments. -/
def verify (c : Credential) (suite : SignatureSuite) (n : Nat) (withAttachments : Bool) :
    Result Bool :=
  if c.signatures.isEmpty then .ok false
  else
    match c.signatures[n]? with
    | none => .error (.signature (.indexOutOfRange n c.signatures.length))
    | some s =>
      if s.issuance.scheme ≠ suite.scheme then .ok false
      else do
        let hash ← suite.hasher
        if ← suite.verify (← c.digest hash s.issuance) s.bytes s.issuance.publicKey then
          if withAttachments then c.verifyAttachments suite s else return true
        else return false

end Credential

end Vouch

import Vouch.Credential.Body
import Vouch.Credential.Header
import Vouch.Credential.Signature

/-! Credentials and their digests.

The primary digest covers the header, the body and what the circuit needs to know about
one signature; the digest of the attachments covers their JSON text. Neither reads the
signatures, so that signing again leaves earlier signatures valid. -/
namespace Vouch

structure Credential where
  header : Header
  body : Body
  signatures : List Signature
  /-- Texts that travel with the credential outside its body. -/
  attachments : Keyed String
deriving DecidableEq

namespace Credential

def make (header : Header) (body : Body) : Result Credential :=
  if header.type = body.schema.id then .ok ⟨header, body, [], .empty⟩
  else .error (.credential (.headerType header.type body.schema.id))

def withAttachments (c : Credential) (attachments : Keyed String) : Credential :=
  { c with attachments }

/-! ### Digests -/

/-- The integers of the header and of an issuance that are signed, in order. -/
def signedIntegers (c : Credential) (i : Issuance) : List Nat :=
  [c.header.version.toNat, c.header.type, c.header.context, c.header.id, i.scheme.code, i.signatureId,
    i.expiredAt.toNat, i.identityCommitment]

/-- The digest of the body; an empty one counts as zero. -/
def bodyDigest (hash : FieldHash) (b : Body) : Result Felt :=
  if b.elements.isEmpty then .ok 0 else hash b.elements

/-- The digest that a signature of this issuance is made on. -/
def digest (c : Credential) (hash : FieldHash) (i : Issuance) : Result Felt := do
  let elements ← (c.signedIntegers i).mapM fun n => (Field.ofNat n).reported .invalidCredential
  let head ← hash elements
  let body ← bodyDigest hash c.body
  hash [head, body]

def attachmentsJson (attachments : Keyed String) : Json :=
  .members (attachments.entries.map fun (key, text) => (key, .string text))

def attachmentsDigest (c : Credential) (hash : FieldHash) : Result Felt :=
  hash (Field.pack (Bytes.utf8 (attachmentsJson c.attachments).text))

end Credential

end Vouch

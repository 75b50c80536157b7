import Vouch.Credential

/-! The wire form of credentials.

A credential travels as one JSON document: its header, its body under the names of the
claims, its signatures, and its attachments if there are any. Reading one needs the
schema and checks everything again (`Credential.ofText`), so that what is read could
have been issued. -/
namespace Vouch

open Json (Place)

namespace Credential

/-! ### Writing -/

def bodyJson (b : Body) : Json :=
  .object (b.entries.map fun (claim, value) => (claim.name, value.toJson))

def toJson (c : Credential) : Json :=
  .object ([("header", c.header.toJson), ("body", bodyJson c.body),
      ("signatures", .array (c.signatures.map Signature.toJson))] ++
    if c.attachments.isEmpty then [] else [("attachments", attachmentsJson c.attachments)])

/-- The wire form. -/
def text (c : Credential) : String :=
  c.toJson.text

/-! ### Reading -/

/-- A wire document before it is held against a schema. -/
structure Wire where
  header : Header
  body : Keyed Json
  signatures : List Signature
  attachments : Keyed String

def Wire.read (p : Place) : Option Wire := do
  let [header, body, signatures, attachments] ←
    p.record? ["header", "body", "signatures", "attachments"] | none
  return { header := ← Header.read (← header)
           body := ← (← body).keyed? Place.json?
           signatures := ← (← (← signatures).items?).mapM Signature.read
           attachments := ← match attachments with
             | none => some .empty
             | some q => q.keyed? Place.string? }

/-- The values of claims, in order, out of a table of which every entry is used. -/
def takeValues (table : Keyed Json) : List Claim → Result (List ClaimValue)
  | [] =>
    match table.keys with
    | [] => .ok []
    | name :: _ => .error (.credential (.unknownClaim name))
  | claim :: rest =>
    match table.get? claim.name with
    | none => .error (.credential (.missingClaim claim.name))
    | some j => do
      let value ← (ClaimValue.ofJson claim.type j).within claim.name
      let values ← takeValues (table.erase claim.name) rest
      return value :: values

/-- The credential of a wire document under a schema. -/
def ofWire (s : Schema) (w : Wire) : Result Credential :=
  if w.header.type = s.id then do
    let values ← takeValues w.body s.claims
    let body ← Body.make s values
    let c ← make w.header body
    return { c with signatures := w.signatures, attachments := w.attachments }
  else .error (.credential (.wireType w.header.type s.id))

/-- Reads the wire form of a credential that was issued under a schema. -/
def ofText (s : Schema) (text : String) : Result Credential := do
  let wire ← (readDocument Wire.read text).reported .invalidCredential
  (ofWire s wire).within "unmarshal credential"

end Credential

end Vouch

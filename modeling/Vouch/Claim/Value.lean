import Vouch.Claim.Type
import Vouch.Document
import Vouch.Field
import Vouch.Digest.Keccak

/-! The values of claims.

A value carries its type and fits it: an integer and a property's hash lie below two to
the width, and the hash of a keccak256 property is that of its text. The circuit sees a
value as limbs (`limbs`), people as text (`text`), and the wire form is JSON
(`toJson`, `ofJson`). -/
namespace Vouch

open Digest

/-- An integer that fits its width. -/
@[ext]
structure IntegerValue where
  width : Nat
  n : Nat
  validWidth : ValidWidth greatestIntegerWidth width
  fits : n < 2 ^ width

instance : DecidableEq IntegerValue := fun _ _ =>
  decidable_of_iff' _ IntegerValue.ext_iff

/-- A text with the hash that the circuit sees. -/
structure PropertyValue where
  type : PropertyType
  text : String
  hash : Nat
  fits : hash < 2 ^ type.width
  derived : type.hash = .keccak256 → hash = Keccak.truncated (Bytes.utf8 text) type.width
deriving DecidableEq

inductive ClaimValue where
  | integer (v : IntegerValue)
  | property (v : PropertyValue)
  | boolean (b : Bool)
deriving DecidableEq

namespace ClaimValue

def type : ClaimValue → ClaimType
  | .integer v => .integer v.width v.validWidth
  | .property v => .property v.type
  | .boolean _ => .boolean

/-! ### Making values -/

def makeInteger (t : ClaimType) (n : Nat) : Result ClaimValue :=
  match t with
  | .integer width valid =>
    if h : n < 2 ^ width then .ok (.integer ⟨width, n, valid, h⟩)
    else .error (.value (.tooWide n width))
  | t => .error (.value (.type "uint" t))

/-- The hash of a keccak256 property is computed; one that is supplied has to agree. -/
def ofText (p : PropertyType) (text : String) (supplied : Option Nat) : Result ClaimValue :=
  let hash := Keccak.truncated (Bytes.utf8 text) p.width
  match supplied.filter (· != hash) with
  | some other => .error (.value (.hashMismatch other text))
  | none => .ok (.property ⟨p, text, hash, Keccak.truncated_lt _ _, fun _ => rfl⟩)

/-- The hash of a custom property is the issuer's. -/
def ofHash (p : PropertyType) (h : p.hash = .custom) (text : String) (supplied : Option Nat) :
    Result ClaimValue :=
  match supplied with
  | none => .error (.value .hashMissing)
  | some hash =>
    if hf : hash < 2 ^ p.width then
      .ok (.property ⟨p, text, hash, hf, fun hk => nomatch h.symm.trans hk⟩)
    else .error (.value (.hashTooWide hash p.width))

def makeProperty (t : ClaimType) (text : String) (hash : Option Nat) : Result ClaimValue :=
  match t with
  | .property p =>
    match h : p.hash with
    | .keccak256 => ofText p text hash
    | .custom => ofHash p h text hash
  | t => .error (.value (.type "prop" t))

/-! ### Views -/

/-- Integer limbs in the order of the input signals; the widest integers take two. -/
def limbs : ClaimValue → List Nat
  | .integer v => if v.width = greatestIntegerWidth then [(Field.split v.n).1, (Field.split v.n).2] else [v.n]
  | .property v => [v.hash]
  | .boolean b => [b.toNat]

/-- The limbs as they are hashed. -/
def elements (v : ClaimValue) : List Felt :=
  v.limbs.map Field.reduce

/-- What people read. -/
def text : ClaimValue → String
  | .integer v => toString v.n
  | .property v => v.text
  | .boolean b => toString b

/-! ### Wire form -/

/-- A decimal string, a pair of text and hash, or `"true"` or `"false"`. -/
def toJson : ClaimValue → Json
  | .integer v => .decimal v.n
  | .property v => .object [("str", .string v.text), ("value", .decimal v.hash)]
  | .boolean b => .string (toString b)

def expectString (j : Json) : Result String :=
  match j.asString? with
  | some s => .ok s
  | none => .error (.value (.notString j))

/-- A decimal string in a claim. -/
def expectDecimal (j : Json) : Result Nat := do
  let s ← expectString j
  (readDecimal s).reported .invalidClaimValue

/-- Reads the wire form of a value of type `t`. The hash of a property may be left out, but
what stands in its place otherwise has to be a decimal string. -/
def ofJson (t : ClaimType) (j : Json) : Result ClaimValue :=
  match t with
  | .integer .. => do makeInteger t (← expectDecimal j)
  | .property _ =>
    match (j.member? "str").bind Json.asString? with
    | none => .error (.value .textMissing)
    | some text => do
      let hash ← (j.member? "value").mapM expectDecimal
      makeProperty t text hash
  | .boolean => do
    let s ← expectString j
    match s with
    | "true" => .ok (.boolean true)
    | "false" => .ok (.boolean false)
    | other => .error (.value (.notBoolean other))

end ClaimValue

end Vouch

import Vouch.Claim.Value
import Vouch.Schema

/-! The body of a credential: one value for each claim of its schema, in order. -/
namespace Vouch

structure Body where
  schema : Schema
  values : List ClaimValue
  typed : values.map ClaimValue.type = schema.claims.map Claim.type
deriving DecidableEq

namespace Body

/-- The first claim whose value has another type. -/
def typeFault? : List Claim → List ClaimValue → Option CredentialFault
  | c :: claims, v :: values =>
    if v.type = c.type then typeFault? claims values else some (.valueType c.name c.type v.type)
  | _, _ => none

theorem typed_of_typeFault? {claims : List Claim} {values : List ClaimValue}
    (hlength : values.length = claims.length) (h : typeFault? claims values = none) :
    values.map ClaimValue.type = claims.map Claim.type := by
  induction claims generalizing values with
  | nil => simpa using hlength
  | cons c claims ih =>
    cases values with
    | nil => simp at hlength
    | cons v values =>
      unfold typeFault? at h
      split at h
      · rename_i hv
        simp only [List.map_cons, hv, ih (by simpa using hlength) h]
      · cases h

/-- As many values as there are claims, each of the type of its claim. -/
def make (schema : Schema) (values : List ClaimValue) : Result Body :=
  if hlength : values.length = schema.claims.length then
    match h : typeFault? schema.claims values with
    | some fault => .error (.credential fault)
    | none => .ok ⟨schema, values, typed_of_typeFault? hlength h⟩
  else .error (.credential (.valueCount schema.claims.length values.length))

/-- The claims with their values. -/
def entries (b : Body) : List (Claim × ClaimValue) :=
  b.schema.claims.zip b.values

/-- The value of a claim. -/
def value? (b : Body) (name : String) : Option ClaimValue :=
  (b.entries.find? (·.1.name == name)).map (·.2)

/-- The limbs of all claims as they are hashed. -/
def elements (b : Body) : List Felt :=
  b.values.flatMap ClaimValue.elements

end Body

end Vouch

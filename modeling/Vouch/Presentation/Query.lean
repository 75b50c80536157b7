import Vouch.Presentation

/-! Queries: what a verifier asks for, as a document.

A query has a condition for every claim, in any order, and options. The conditions
become the statements of a presentation (`Query.toPresentation`): a range from decimal
strings, comparisons with texts or with hashes, or whether to reveal a truth value. -/
namespace Vouch

open Json (Place)

inductive Operation where
  | within
  | among
  | reveal
  | hide
deriving DecidableEq, Repr

namespace Operation

def all : List Operation := [.within, .among, .reveal, .hide]

def tag : Operation → String
  | .within => "IN"
  | .among => "IS"
  | .reveal => "REVEAL"
  | .hide => "HIDE"

/-- How messages name the operation. -/
def title : Operation → String
  | .within => "In"
  | .among => "Is"
  | .reveal => "Reveal"
  | .hide => "Hide"

def read (p : Place) : Option Operation :=
  p.oneOf? tag all

end Operation

/-- What is asked of one claim. -/
structure Condition where
  claim : String
  operation : Operation
  value : Option Json

structure Query.Options where
  expirationLb : UInt64
  externalNullifier : Nat
  idEqualsTo : Nat
  pseudonym : Nat
deriving DecidableEq

structure Query where
  conditions : List Condition
  options : Query.Options

/-! ### Documents -/

namespace Condition

def read (p : Place) : Option Condition := do
  let [claim, operation, value] ← p.record? ["identifier", "operation", "value"] | none
  return { claim := ← (← claim).string?
           operation := ← Operation.read (← operation)
           value := ← Place.optional? Place.json? value }

/-- An absent value is left out. -/
def toJson (c : Condition) : Json :=
  .object ([("identifier", .string c.claim), ("operation", .string c.operation.tag)] ++
    c.value.toList.map ("value", ·))

end Condition

namespace Query.Options

def read (p : Place) : Option Query.Options := do
  let [expiration, nullifier, id, pseudonym] ←
    p.record? ["expiredAtLowerBound", "externalNullifier", "equalCheckId", "pseudonym"] | none
  return { expirationLb := .ofNat (← (← expiration).decimal64?)
           externalNullifier := ← (← nullifier).decimal?
           idEqualsTo := ← (← id).decimal?
           pseudonym := ← (← pseudonym).decimal? }

def toJson (o : Query.Options) : Json :=
  .object [("expiredAtLowerBound", .decimal o.expirationLb.toNat),
    ("externalNullifier", .decimal o.externalNullifier), ("equalCheckId", .decimal o.idEqualsTo),
    ("pseudonym", .decimal o.pseudonym)]

end Query.Options

namespace Query

def read (p : Place) : Option Query := do
  let [conditions, options] ← p.record? ["conditions", "options"] | none
  return { conditions := ← (← (← conditions).items?).mapM Condition.read
           options := ← Query.Options.read (← options) }

def toJson (q : Query) : Json :=
  .object [("conditions", .array (q.conditions.map Condition.toJson)), ("options", q.options.toJson)]

def ofText (s : String) : Result Query :=
  (readDocument read s).reported .invalidQuery

end Query

/-! ### Statements -/

namespace Condition

def required (c : Condition) : Result Json :=
  match c.value with
  | some j => .ok j
  | none => .error (.query (.valueMissing c.operation.title))

def readConstant (s : String) : Result Nat :=
  (readDecimal s).reported .invalidQuery

/-- A bound of a range. -/
def bound (value : Json) (key : String) : Result Nat :=
  match (value.member? key).bind Json.asString? with
  | some s => readConstant s
  | none => .error (.query (.boundMissing key))

/-- A constant to compare a property with: the hash of a text, or the issuer's hash itself. -/
def constant (p : PropertyType) (item : Json) : Result Nat :=
  match item.asString? with
  | none => .error (.query (.notString item))
  | some s =>
    match p.hash with
    | .keccak256 => .ok (Digest.Keccak.truncated (Bytes.utf8 s) p.width)
    | .custom => readConstant s

/-- The statement about a claim of that type. -/
def toStatement (c : Condition) (t : ClaimType) : Result Statement :=
  match c.operation, t with
  | .within, .integer .. => do
    let value ← c.required
    let lower ← bound value "from"
    let upper ← bound value "to"
    Statement.makeRange t lower upper
  | .among, .property p => do
    let value ← c.required
    match value.asArray? with
    | none => .error (.query .notArray)
    | some items => do
      let constants ← items.mapM (constant p)
      Statement.makeEquality t constants
  | .reveal, .boolean => .ok (.reveal true)
  | .hide, .boolean => .ok (.reveal false)
  | operation, t => .error (.query (.notApplicable operation.title t))

end Condition

namespace Query

/-- Every condition names a claim, and no two of them the same one. -/
def checkNames (s : Schema) (seen : List String) : List Condition → Result Unit
  | [] => .ok ()
  | c :: rest =>
    if (s.claim? c.claim).isNone then .error (.query (.unknownClaim c.claim))
    else if c.claim ∈ seen then .error (.query (.repeatedCondition c.claim))
    else checkNames s (c.claim :: seen) rest

/-- The statement about a claim, from the condition that names it. -/
def statementFor (q : Query) (claim : Claim) : Result Statement :=
  match q.conditions.find? (·.claim == claim.name) with
  | none => .error (.query (.noCondition claim.name))
  | some c => (c.toStatement claim.type).within s!"claim {claim.name}"

def toPresentation (q : Query) (s : Schema) : Result Presentation := do
  checkNames s [] q.conditions
  let statements ← s.claims.mapM q.statementFor
  Presentation.make q.options.expirationLb q.options.idEqualsTo statements

end Query

end Vouch

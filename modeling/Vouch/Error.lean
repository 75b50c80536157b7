import Vouch.Claim.Type
import Vouch.Json.Basic
import Vouch.Text.Quoted

/-! What can go wrong, and how it is said.

Every error names its cause. The causes are grouped by the kind that callers branch
on; `Error.within` says where an error was met and keeps its kind, and
`Error.reported` passes an error on under another kind, its whole text included. -/
namespace Vouch

open Text (quoted)

/-- The stable tag of an error. -/
inductive FaultKind where
  | invalidTypeParameter
  | invalidClaimName
  | duplicateClaimName
  | invalidPragma
  | invalidClaimValue
  | invalidCredential
  | invalidStatementCheck
  | invalidSignature
  | invalidQuery
  | unsupportableType
  | internalError
  | notPrepared
  | serialization
  | io
deriving DecidableEq, Repr

namespace FaultKind

def all : List FaultKind :=
  [.invalidTypeParameter, .invalidClaimName, .duplicateClaimName, .invalidPragma, .invalidClaimValue,
    .invalidCredential, .invalidStatementCheck, .invalidSignature, .invalidQuery, .unsupportableType,
    .internalError, .notPrepared, .serialization, .io]

def tag : FaultKind → String
  | .invalidTypeParameter => "InvalidTypeParameter"
  | .invalidClaimName => "InvalidClaimName"
  | .duplicateClaimName => "DuplicateClaimName"
  | .invalidPragma => "InvalidPragma"
  | .invalidClaimValue => "InvalidClaimValue"
  | .invalidCredential => "InvalidCredential"
  | .invalidStatementCheck => "InvalidStatementCheck"
  | .invalidSignature => "InvalidSignature"
  | .invalidQuery => "InvalidQuery"
  | .unsupportableType => "UnsupportableType"
  | .internalError => "InternalError"
  | .notPrepared => "NotPrepared"
  | .serialization => "Serialization"
  | .io => "Io"

/-- How a message of this kind begins. -/
def opening : FaultKind → String
  | .invalidTypeParameter => "invalid type parameter"
  | .invalidClaimName => "invalid claim name"
  | .duplicateClaimName => "duplicate claim name"
  | .invalidPragma => "invalid pragma"
  | .invalidClaimValue => "invalid claim value"
  | .invalidCredential => "invalid credential"
  | .invalidStatementCheck => "statement check failed"
  | .invalidSignature => "invalid signature"
  | .invalidQuery => "invalid query"
  | .unsupportableType => "unsupportable type"
  | .internalError => "internal error"
  | .notPrepared => "proving stack not prepared"
  | .serialization => "serialization error"
  | .io => "IO error"

end FaultKind

/-! ### Causes -/

/-- A type expression or one of its parameters. -/
inductive TypeFault where
  | width (width greatest : Nat)
  | checkCount (n : Nat)
  | hash (name : String)
  | claimForm (line : String)
  | expression (text : String)
  | arity (name : String) (expected got : Nat)
  | unknown (name : String)
  | notDecimal (text : String)
  | tooLarge (text : String)

def TypeFault.detail : TypeFault → String
  | .width w greatest => s!"width {w} must be a multiple of 8 in [8, {greatest}]"
  | .checkCount n => s!"number of equal checks {n} not in [1, {greatestCheckCount}]"
  | .hash name => s!"unknown hash algorithm {quoted name}"
  | .claimForm line => s!"malformed claim {quoted line}"
  | .expression text => s!"malformed type {quoted text}"
  | .arity name expected got => s!"{name} expects {expected} parameter(s), got {got}"
  | .unknown name => s!"unknown type {quoted name}"
  | .notDecimal text => s!"{quoted text} is not a decimal integer"
  | .tooLarge text => s!"{quoted text}: number too large to fit in target type"

/-- The name of a claim. -/
inductive NameFault where
  | notIdentifier (name : String)
  | forbiddenStart (name start : String)
  | reserved (name : String)

def NameFault.detail : NameFault → String
  | .notIdentifier name => s!"{quoted name} is not a valid identifier"
  | .forbiddenStart name start => s!"{quoted name} uses forbidden prefix {quoted start}"
  | .reserved name => s!"{quoted name} is reserved"

def leastDepth : Nat := 2

def greatestDepth : Nat := 248

/-- A pragma of a type text, or the revocation depth that it sets. -/
inductive PragmaFault where
  | depthTooSmall (depth : Nat)
  | depthTooLarge (depth : Nat)
  | repeatedRevocable
  | form (line : String)
  | depthNotDecimal (text : String)
  | unknown (name : String)

def PragmaFault.detail : PragmaFault → String
  | .depthTooSmall d => s!"revocable depth {d} is too small, minimum is {leastDepth}"
  | .depthTooLarge d => s!"revocable depth {d} is too large, maximum is {greatestDepth}"
  | .repeatedRevocable => "revocable declared more than once"
  | .form line => s!"malformed pragma {quoted line}"
  | .depthNotDecimal text => s!"revocable depth {quoted text} is not a decimal unsigned integer"
  | .unknown name => s!"unknown pragma @{name}"

/-- The value of a claim, or an integer that has to be a field element. -/
inductive ValueFault where
  | notFieldElement (n : Nat)
  | type (expected : String) (got : ClaimType)
  | tooWide (n width : Nat)
  | hashMissing
  | hashMismatch (hash : Nat) (text : String)
  | hashTooWide (hash width : Nat)
  | notString (j : Json)
  | textMissing
  | notBoolean (text : String)

def ValueFault.detail : ValueFault → String
  | .notFieldElement n => s!"{n} is not a field element"
  | .type expected got => s!"expected {expected} type, got {got.text}"
  | .tooWide n width => s!"{n} does not fit in {width} bits"
  | .hashMissing => "custom hash algorithm requires an explicit hash"
  | .hashMismatch hash text => s!"hash {hash} does not match keccak256 of {quoted text}"
  | .hashTooWide hash width => s!"hash {hash} does not fit in {width} bits"
  | .notString j => s!"expected string, got {j.text}"
  | .textMissing => "property missing \"str\""
  | .notBoolean text => s!"expected \"true\" or \"false\", got {quoted text}"

/-- A credential, its wire form, or what accompanies it. -/
inductive CredentialFault where
  | valueCount (claims values : Nat)
  | valueType (claim : String) (expected got : ClaimType)
  | headerType (header schema : Nat)
  | wireType (wire schema : Nat)
  | missingClaim (name : String)
  | unknownClaim (name : String)
  | unknownStack (code : Nat)
  | siblingCount (count depth : Nat)
  | outsideField
  | unrevokedMissing

def CredentialFault.detail : CredentialFault → String
  | .valueCount claims values => s!"type has {claims} claim(s), got {values} value(s)"
  | .valueType claim expected got => s!"claim {claim} expects {expected.text}, got {got.text}"
  | .headerType header schema => s!"header type {header} does not match type id {schema}"
  | .wireType wire schema => s!"type id {wire} does not match expected {schema}"
  | .missingClaim name => s!"missing claim {name}"
  | .unknownClaim name => s!"unknown claim {name}"
  | .unknownStack code => s!"unknown verification stack {code}"
  | .siblingCount count depth => s!"unrevoked proof has {count} siblings, tree depth is {depth}"
  | .outsideField => "unrevoked proof holds a value outside the field"
  | .unrevokedMissing => "revocable credential requires an unrevoked proof"

/-- A statement checked against a value. -/
inductive CheckFault where
  | outOfRange (value lower upper : Nat)
  | mismatch (statement : String) (got : ClaimType)
  | count (statements claims : Nat)

def CheckFault.detail : CheckFault → String
  | .outOfRange value lower upper => s!"value {value} is out of range [{lower}, {upper}]"
  | .mismatch statement got => s!"{statement} statement cannot check a {got.text} value"
  | .count statements claims => s!"{statements} statement(s) for {claims} claim(s)"

/-- A signature, a key, or the public signals of a proof. -/
inductive SignatureFault where
  | aboveCeiling (signal : String) (value ceiling : Nat)
  | signalCount (expected got : Nat)
  | schemeMismatch (named used : String)
  | zeroId
  | idTooLarge (id depth : Nat)
  | keyMismatch
  | indexOutOfRange (index count : Nat)
  | noSignature (index count : Nat)
  | otherScheme (index : Nat) (named : String)
  | privateKeyLength (length : Nat)
  | wrongLength (length : Nat)
  | malformedKey
  | malformedPoint
  | unreduced
  | verifyingKeyArity (key proof : Nat)

def SignatureFault.detail : SignatureFault → String
  | .aboveCeiling signal value ceiling => s!"public signal {signal} = {value} exceeds its ceiling {ceiling}"
  | .signalCount expected got => s!"expected {expected} public signals, got {got}"
  | .schemeMismatch named used => s!"metadata names stack {named}, signing with {used}"
  | .zeroId => "signature id must be nonzero"
  | .idTooLarge id depth => s!"signature id {id} does not fit a revocation tree of depth {depth}"
  | .keyMismatch => "metadata public key does not match the signing key"
  | .indexOutOfRange index count => s!"signature index {index} out of range ({count} signature(s))"
  | .noSignature index count => s!"no signature at index {index} ({count} signature(s))"
  | .otherScheme index named => s!"signature {index} is for stack {named}"
  | .privateKeyLength length => s!"private key must be 32 bytes, got {length}"
  | .wrongLength length => s!"signature must be 64 bytes, got {length}"
  | .malformedKey => "malformed public key"
  | .malformedPoint => "malformed R point"
  | .unreduced => "S is not reduced"
  | .verifyingKeyArity key proof => s!"verifying key takes {key} public signal(s), proof has {proof}"

/-- A query, a statement that cannot be made, or proofs that contradict each other. -/
inductive QueryFault where
  | boundsCrossed (lower upper : Nat)
  | upperTooWide (upper width : Nat)
  | propertyOn (type : ClaimType)
  | rangeOn (type : ClaimType)
  | constantCount (expected got : Nat)
  | constantTooWide (n bits : Nat)
  | conflict (destination : String) (current incoming : Nat)
  | unknownClaim (name : String)
  | repeatedCondition (name : String)
  | noCondition (name : String)
  | boundMissing (key : String)
  | valueMissing (operation : String)
  | notArray
  | notString (j : Json)
  | notApplicable (operation : String) (type : ClaimType)
  | exceedsBound (what : String) (n : Nat) (signal : String)

def QueryFault.detail : QueryFault → String
  | .boundsCrossed lower upper => s!"lower bound {lower} is greater than upper bound {upper}"
  | .upperTooWide upper width => s!"upper bound {upper} does not fit in {width} bits"
  | .propertyOn type => s!"property statement on {type.text} claim"
  | .rangeOn type => s!"range statement on {type.text} claim"
  | .constantCount expected got => s!"expected {expected} equality value(s), got {got}"
  | .constantTooWide n bits => s!"{n} does not fit in {bits} bits"
  | .conflict destination current incoming =>
    s!"aggregation {destination} conflict: {current} != {incoming}"
  | .unknownClaim name => s!"unknown claim {quoted name}"
  | .repeatedCondition name => s!"more than one condition for claim {quoted name}"
  | .noCondition name => s!"no condition for claim {quoted name}"
  | .boundMissing key => s!"IN requires string \"{key}\""
  | .valueMissing operation => s!"{operation} requires a value"
  | .notArray => "IS requires an array"
  | .notString j => s!"expected string, got {j.text}"
  | .notApplicable operation type => s!"operation {operation} is not applicable to {type.text}"
  | .exceedsBound what n signal => s!"{what} {n} exceeds the {signal} bound"

/-- How many public signals a verifier takes at most. -/
def greatestSignalCount : Nat := 256

/-- A type that has no circuit. -/
inductive CircuitFault where
  | repeatedSignal (name : String)
  | repeatedAggregation (destination : String)
  | tooManySignals (count : Nat)
  | aboveConfigured (count limit : Nat)

def CircuitFault.detail : CircuitFault → String
  | .repeatedSignal name => s!"signal {name} is declared more than once"
  | .repeatedAggregation destination => s!"aggregation {destination} is declared more than once"
  | .tooManySignals count => s!"{count} public signals exceed the limit of {greatestSignalCount}"
  | .aboveConfigured count limit => s!"{count} public signals exceed the configured limit of {limit}"

/-- A function called with arguments that no caller of this library passes, or a witness that does
not fit its circuit. -/
inductive InternalFault where
  | sourceCount (destination : String) (expected got : Nat)
  | nothingToHash
  | permutationArity (inputs : Nat)
  | inputMissing (signal : String)
  | inputShape (signal : String) (got expected : Option Nat)
  | claimSignals (claim : String) (inputs operations limbs operands : Nat)
  | inputCount (expected got : Nat)

/-- How many elements a signal has, if it is an array. -/
def lengthText : Option Nat → String
  | none => "None"
  | some n => s!"Some({n})"

def InternalFault.detail : InternalFault → String
  | .sourceCount destination expected got =>
    s!"aggregation {destination} expects {expected} source value(s), got {got}"
  | .nothingToHash => "poseidon over no inputs"
  | .permutationArity inputs => s!"poseidon over {inputs} input(s)"
  | .inputMissing signal => s!"no value for circuit input {signal}"
  | .inputShape signal got expected =>
    s!"signal {signal} has shape {lengthText got}, circuit expects {lengthText expected}"
  | .claimSignals claim inputs operations limbs operands =>
    s!"claim {claim}: {inputs} input / {operations} op signal(s), got {limbs} limb(s) / {operands} op value(s)"
  | .inputCount expected got =>
    s!"circuit declares {expected} input signal(s), witness has {got}"

/-- A stack that is not ready. -/
inductive StackFault where
  | unprepared
  | noProver

def StackFault.detail : StackFault → String
  | .unprepared => "call prepare() before using the babyzk stack"
  | .noProver => "no witness prover attached"

/-- A text or a document that does not have the form it should. -/
inductive DocumentFault where
  | notDecimal (text : String)
  | part (name : String)
  | coordinate (name : String)
  | notInG1 (name : String)
  | notInG2 (name : String)
  | signalLimit (n : Nat)
  | contractArity (key circuit : Nat)
  /-- A JSON text that is malformed or not of the expected shape. -/
  | undecodable

def DocumentFault.detail : DocumentFault → String
  | .notDecimal text => s!"expected decimal integer string, got {quoted text}"
  | .part name => s!"malformed {name}"
  | .coordinate name => s!"{name}: coordinate not in base field"
  | .notInG1 name => s!"{name}: point not in G1"
  | .notInG2 name => s!"{name}: point not in G2"
  | .signalLimit n => s!"max_public_signals must be in [1, {greatestSignalCount}], got {n}"
  | .contractArity key circuit => s!"verifying key has {key} public input(s), circuit has {circuit}"
  | .undecodable => "malformed JSON document"

/-! ### Errors -/

inductive Error where
  | type (f : TypeFault)
  | claimName (f : NameFault)
  | duplicateClaim (name : String)
  | pragma (f : PragmaFault)
  | value (f : ValueFault)
  | credential (f : CredentialFault)
  | check (f : CheckFault)
  | signature (f : SignatureFault)
  | query (f : QueryFault)
  | circuit (f : CircuitFault)
  | internal (f : InternalFault)
  | stack (f : StackFault)
  | document (f : DocumentFault)
  /-- A file that cannot be read. -/
  | unreadable (path : String)
  /-- Met in the named part of a larger whole. -/
  | within (part : String) (e : Error)
  /-- Passed on as an error of this kind. -/
  | reported (kind : FaultKind) (e : Error)

namespace Error

def kind : Error → FaultKind
  | .type _ => .invalidTypeParameter
  | .claimName _ => .invalidClaimName
  | .duplicateClaim _ => .duplicateClaimName
  | .pragma _ => .invalidPragma
  | .value _ => .invalidClaimValue
  | .credential _ => .invalidCredential
  | .check _ => .invalidStatementCheck
  | .signature _ => .invalidSignature
  | .query _ => .invalidQuery
  | .circuit _ => .unsupportableType
  | .internal _ => .internalError
  | .stack _ => .notPrepared
  | .document _ => .serialization
  | .unreadable _ => .io
  | .within _ e => e.kind
  | .reported kind _ => kind

/-- The text behind the opening that the kind gives. -/
def detail : Error → String
  | .type f => f.detail
  | .claimName f => f.detail
  | .duplicateClaim name => name
  | .pragma f => f.detail
  | .value f => f.detail
  | .credential f => f.detail
  | .check f => f.detail
  | .signature f => f.detail
  | .query f => f.detail
  | .circuit f => f.detail
  | .internal f => f.detail
  | .stack f => f.detail
  | .document f => f.detail
  | .unreadable path => path
  | .within part e => s!"{part}: {e.detail}"
  | .reported _ e => s!"{e.kind.opening}: {e.detail}"

def message (e : Error) : String :=
  s!"{e.kind.opening}: {e.detail}"

/-- The error came from a text that is no JSON document of the expected shape. -/
def isUndecodable : Error → Bool
  | .document .undecodable => true
  | .within _ e => e.isUndecodable
  | .reported _ e => e.isUndecodable
  | _ => false

@[simp] theorem kind_within (part : String) (e : Error) : (e.within part).kind = e.kind := rfl

@[simp] theorem kind_reported (kind : FaultKind) (e : Error) : (e.reported kind).kind = kind := rfl

end Error

/-- The outcome of everything that can fail. -/
abbrev Result := Except Error

namespace Result

variable {α β : Type}

/-- Says in which part an error was met. -/
def within (part : String) : Result α → Result α
  | .ok a => .ok a
  | .error e => .error (e.within part)

/-- Passes an error on as one of this kind. -/
def reported (kind : FaultKind) : Result α → Result α
  | .ok a => .ok a
  | .error e => .error (e.reported kind)

@[simp] theorem within_eq_ok_iff {part : String} {r : Result α} {a : α} :
    within part r = .ok a ↔ r = .ok a := by
  cases r with
  | ok b => rfl
  | error e => exact ⟨fun h => (nomatch h), fun h => (nomatch h)⟩

@[simp] theorem reported_eq_ok_iff {kind : FaultKind} {r : Result α} {a : α} :
    reported kind r = .ok a ↔ r = .ok a := by
  cases r with
  | ok b => rfl
  | error e => exact ⟨fun h => (nomatch h), fun h => (nomatch h)⟩

/-- Two steps succeed if the first one does, and the second one on what it gives. -/
theorem bind_eq_ok_iff {r : Result α} {f : α → Result β} {b : β} :
    (r >>= f) = .ok b ↔ ∃ a, r = .ok a ∧ f a = .ok b := by
  cases r with
  | ok a =>
    refine ⟨fun h => ⟨a, rfl, h⟩, ?_⟩
    rintro ⟨a', h, hf⟩
    cases h
    exact hf
  | error e =>
    refine ⟨fun h => (nomatch h), ?_⟩
    rintro ⟨a, h, -⟩
    cases h

end Result

end Vouch

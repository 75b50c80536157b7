import Vouch.Circuit.Layout
import Vouch.Credential
import Vouch.Curve.Signing
import Vouch.Presentation
import Vouch.Revocation

/-! Witnesses: the inputs of a circuit for one credential and one presentation.

A request is checked in full before any input is set (`WitnessRequest.check`). The
inputs that belong to no claim are set first, under names of their own, and then claim
after claim those that the layout names. What is set is held against the layout on the way
(`checkIntrinsics`, `insertClaim`, `checkCount`), so that a witness that does not fit its
circuit is never given away. -/
namespace Vouch

open Circuit (Intrinsic Layout ClaimSignals)

/-- The value of an input: an integer, or as many as the input is long. -/
inductive InputValue where
  | scalar (n : Nat)
  | array (ns : List Nat)
deriving DecidableEq

/-- The inputs of a circuit by name. -/
abbrev Witness := Keyed InputValue

namespace InputValue

/-- How many values there are, if it is an array. -/
def length? : InputValue → Option Nat
  | .scalar _ => none
  | .array ns => some ns.length

def read (p : Json.Place) : Option InputValue :=
  match p.decimal? with
  | some n => some (.scalar n)
  | none => p.decimals?.map .array

def toJson : InputValue → Json
  | .scalar n => .decimal n
  | .array ns => .array (ns.map .decimal)

end InputValue

def Witness.read (p : Json.Place) : Option Witness :=
  p.keyed? InputValue.read

def Witness.toJson (w : Witness) : Json :=
  .members (w.entries.map fun (name, value) => (name, value.toJson))

/-- What a holder brings to a proof. -/
structure WitnessRequest where
  credential : Credential
  presentation : Presentation
  identitySecret : Nat
  internalNullifier : Nat
  externalNullifier : Nat
  pseudonym : Nat
  unrevoked : Option NonRevocation
  /-- The signature that is asked for, if one is. -/
  chosen : Option Nat

namespace WitnessRequest

/-- Which signature is proven: the first one unless another is asked for. -/
def index (r : WitnessRequest) : Nat :=
  r.chosen.getD 0

/-! ### Checks -/

/-- The proof that goes with the schema: one of the right depth, or none if signatures cannot be
revoked. -/
def revocation (r : WitnessRequest) : Result (Option NonRevocation) :=
  match r.credential.body.schema.depth, r.unrevoked with
  | none, _ => .ok none
  | some _, none => .error (.credential .unrevokedMissing)
  | some depth, some proof => do
    proof.check depth
    return some proof

def signature (r : WitnessRequest) : Result Signature :=
  match r.credential.signatures[r.index]? with
  | some s =>
    if s.issuance.scheme = .babyzk then .ok s
    else .error (.signature (.otherScheme r.index s.issuance.scheme.name))
  | none => .error (.signature (.noSignature r.index r.credential.signatures.length))

/-- An integer that becomes an intrinsic signal lies below its ceiling. -/
def checkBound (what : String) (n : Nat) (i : Intrinsic) : Result Unit :=
  if n < i.signal.ceiling then .ok ()
  else .error (.query (.exceedsBound what n i.signal.name))

/-- The pseudonym bound to the secret and the purpose. -/
def pseudonymDigest (r : WitnessRequest) (hash : FieldHash) : Result Felt := do
  let secret ← Field.ofNat r.identitySecret
  let nullifier ← Field.ofNat r.externalNullifier
  let pseudonym ← Field.ofNat r.pseudonym
  hash [secret, nullifier, pseudonym]

/-- What the checks of a request leave to set the inputs from. -/
structure Checked where
  revocation : Option NonRevocation
  issuance : Issuance
  signature : DecodedSignature Edwards.Point
  digest : Felt
  layout : Layout

/-- Everything that can be wrong with a request, in the order in which it is reported. -/
def check (r : WitnessRequest) (hash : FieldHash) : Result Checked := do
  let revocation ← r.revocation
  let s ← r.signature
  let _ ← r.presentation.checkBody r.credential.body
  r.presentation.checkExpiration s.issuance.expiredAt
  checkBound "external nullifier" r.externalNullifier .externalNullifier
  checkBound "pseudonym" r.pseudonym .revealIdentity
  let signature ← edwardsCurve.decodeSignature s.bytes s.issuance.publicKey
  let digest ← r.pseudonymDigest hash
  let layout ← Layout.ofSchema r.credential.body.schema
  return { revocation, issuance := s.issuance, signature, digest, layout }

/-! ### Inputs -/

/-- The values of the inputs that every circuit has. -/
def fixedValues (r : WitnessRequest) (c : Checked) : List Nat :=
  r.credential.signedIntegers c.issuance ++ edwardsCurve.signals c.signature ++
    [r.identitySecret, r.internalNullifier, r.externalNullifier, r.pseudonym, c.digest.val,
      r.presentation.expirationLb.toNat, r.presentation.idEqualsTo]

/-- The values of the inputs of a revocable circuit. -/
def revocationValues (p : NonRevocation) : List InputValue :=
  [.scalar p.root, .array p.siblings, .scalar p.oldKey, .scalar p.oldValue,
    .scalar p.isOldZero.toNat, .scalar p.value]

/-- The values of the inputs that belong to no claim. -/
def intrinsicValues (r : WitnessRequest) (c : Checked) : List InputValue :=
  (r.fixedValues c).map .scalar ++ c.revocation.elim [] revocationValues

/-- The names under which `fixedValues` are set. -/
def fixedNames : List String :=
  ["version", "type", "context", "id", "sig_verification_stack", "sig_id", "sig_expired_at",
    "sig_identity_commitment", "sig_pubkey_Ax", "sig_pubkey_Ay", "sig_R8x", "sig_R8y", "sig_S",
    "identity_secret", "internal_nullifier", "external_nullifier", "revealing_identity",
    "revealing_identity_hmac", "expiration_lb", "id_equals_to"]

/-- The names under which `revocationValues` are set. -/
def revocationNames : List String :=
  ["sig_revocation_smt_root", "sig_revocation_smt_siblings", "sig_revocation_smt_old_key",
    "sig_revocation_smt_old_value", "sig_revocation_smt_is_old0", "sig_revocation_smt_value"]

/-- The names under which `intrinsicValues` are set. -/
def intrinsicNames (c : Checked) : List String :=
  fixedNames ++ c.revocation.elim [] fun _ => revocationNames

/-- The witness before any claim is looked at. -/
def intrinsicWitness (r : WitnessRequest) (c : Checked) : Witness :=
  .ofList ((intrinsicNames c).zip (r.intrinsicValues c))

/-- The inputs and operations of a claim with its limbs and the operands of its statement. -/
def claimEntries (s : ClaimSignals) (v : ClaimValue) (t : Statement) : List (String × InputValue) :=
  (s.inputs ++ s.operations).zip ((v.limbs ++ t.operands).map .scalar)

/-- The signals of every claim beside its value and its statement. -/
def claimParts (r : WitnessRequest) (c : Checked) : List (ClaimSignals × ClaimValue × Statement) :=
  c.layout.claims.zip (r.credential.body.values.zip r.presentation.statements)

/-! ### Holding the witness against the layout -/

/-- An input of the layout has a value, as long as it is declared. -/
def checkInput (w : Witness) (input : Circuit.InputSignal) : Result Unit :=
  match w.get? input.name with
  | none => .error (.internal (.inputMissing input.name))
  | some v =>
    if v.length? = input.length then .ok ()
    else .error (.internal (.inputShape input.name v.length? input.length))

/-- All inputs that belong to no claim are set. -/
def checkIntrinsics (l : Layout) (w : Witness) : Result Unit :=
  l.intrinsicInputs.forM (checkInput w)

/-- The witness with the inputs and operations of one more claim, if there is a value for each. -/
def insertClaim (w : Witness) : ClaimSignals × ClaimValue × Statement → Result Witness
  | (s, v, t) =>
    if v.limbs.length = s.inputs.length ∧ t.operands.length = s.operations.length then
      .ok ((claimEntries s v t).foldl (fun w (name, value) => w.insert name value) w)
    else
      .error (.internal (.claimSignals s.claim.name s.inputs.length s.operations.length v.limbs.length
        t.operands.length))

/-- There are as many inputs as the layout has. -/
def checkCount (l : Layout) (w : Witness) : Result Unit :=
  let expected := l.intrinsicInputs.length + l.inputNames.length + l.operationNames.length
  if w.size = expected then .ok () else .error (.internal (.inputCount expected w.size))

/-- The witness of a request. -/
def witness (r : WitnessRequest) (hash : FieldHash) : Result Witness := do
  let c ← r.check hash
  let intrinsic := r.intrinsicWitness c
  checkIntrinsics c.layout intrinsic
  let w ← (r.claimParts c).foldlM insertClaim intrinsic
  checkCount c.layout w
  return w

end WitnessRequest

end Vouch

import Vouch.Credential.Signing
import Vouch.Groth16.Contract
import Vouch.Groth16.Verification
import Vouch.Poseidon.Sponge
import Vouch.Stack.Config
import Vouch.Stack.Witness

/-! The proving stack.

A stack puts the parts together under one configuration: the hash, the signatures, the
circuits, the witnesses and the proofs. It has to be prepared first; most operations
refuse until then. Witnesses are proven by a program outside, and artifacts are files,
so both the prover and the way to read a file are parts of the stack. -/
namespace Vouch

open Stack (Config)

/-- Makes a proof of a witness with the contents of two artifacts. -/
abbrev Prover := (wasm zkey : String) → Witness → Result ProofDocument

structure Stack where
  config : Config
  prepared : Bool
  prover : Option Prover
  files : Stack.Files

namespace Stack

/-- A stack that is not prepared. -/
def make (config : Config) (prover : Option Prover) (files : Files) : Stack :=
  { config, prepared := false, prover, files }

/-- Checks the configuration; the operations work from then on. -/
def prepare (s : Stack) : Result Stack := do
  s.config.check
  return { s with prepared := true }

/-! ### Hash and signatures -/

def hasher (s : Stack) : Result FieldHash :=
  if s.prepared then .ok Poseidon.hash else .error (.stack .unprepared)

/-- The digest of a holder's secrets, by which an issuer knows the holder. -/
def identityCommitment (s : Stack) (secret nullifier : Nat) : Result Felt := do
  let hash ← s.hasher
  let secret ← Field.ofNat secret
  let nullifier ← Field.ofNat nullifier
  hash [secret, nullifier]

def publicKey (secret : List UInt8) : Result (List UInt8) := do
  return edwardsCurve.publicKey (← edwardsCurve.expand secret)

def sign (s : Stack) (secret : List UInt8) (message : Felt) : Result (List UInt8) := do
  let key ← edwardsCurve.expand secret
  let hash ← s.hasher
  edwardsCurve.sign hash key message

def verify (s : Stack) (message : Felt) (signature key : List UInt8) : Result Bool := do
  let hash ← s.hasher
  return edwardsCurve.verify hash message signature key

/-- The digest of a credential for a signature of this issuance. -/
def digest (s : Stack) (c : Credential) (i : Issuance) : Result Felt := do
  let hash ← s.hasher
  c.digest hash i

/-- The stack as credentials are signed with. -/
def suite (s : Stack) : SignatureSuite :=
  { scheme := .babyzk, hasher := s.hasher, publicKey, sign := s.sign, verify := s.verify }

/-! ### Circuits and witnesses -/

/-- The circuit of a schema, unless it has more public signals than are configured. -/
def circuit (s : Stack) (schema : Schema) : Result Circuit := do
  let c ← Circuit.compile schema
  if c.publicSignals.length ≤ s.config.signalLimit then return c
  else .error (.circuit (.aboveConfigured c.publicSignals.length s.config.signalLimit))

/-- The witness of a request; the signature is that of the configuration unless one is asked for. -/
def witness (s : Stack) (r : WitnessRequest) : Result Witness := do
  let hash ← s.hasher
  let chosen := r.chosen.or (some s.config.signatureIndex)
  { r with chosen }.witness hash

/-! ### Proofs -/

def artifact (s : Stack) (schemaId : Nat) (a : Artifact) : Result String :=
  readFile s.files (s.config.artifactPath schemaId a)

/-- Has a witness proven with the artifacts of a schema. -/
def prove (s : Stack) (schemaId : Nat) (w : Witness) : Result ProofDocument :=
  if s.prepared then
    match s.prover with
    | none => .error (.stack .noProver)
    | some prover => do
      let wasm ← s.artifact schemaId .wasm
      let zkey ← s.artifact schemaId .zkey
      prover wasm zkey w
  else .error (.stack .unprepared)

/-- Verifies a proof of a circuit with the text of a key. -/
def verifyWith (s : Stack) (c : Circuit) (key : String) (d : ProofDocument) : Result Bool :=
  if s.prepared then Groth16.verify c key d else .error (.stack .unprepared)

/-- Verifies a proof of a circuit with the key among the artifacts. -/
def verifyProof (s : Stack) (c : Circuit) (d : ProofDocument) : Result Bool := do
  let key ← s.artifact c.schemaId .verifyingKey
  s.verifyWith c key d

/-- The source text of the verifier contract. -/
def contractCode (c : Circuit) (key : String) : Result String :=
  Groth16.Contract.code c key

end Stack

end Vouch

import Vouch.Circuit
import Vouch.Groth16.Key
import Vouch.Pairing.Product

/-! Verifying proofs of a circuit.

The public signals are held against the circuit before anything else is looked at, so
that none of them stands for another integer inside the proof. A key or a proof that is
malformed is an error; a well-formed proof that does not fit is just not accepted. -/
namespace Vouch

open Json (Place)

/-- A proof as it is exchanged, with its public signals. -/
structure ProofDocument where
  proof : Json
  signals : List Nat

namespace ProofDocument

def read (p : Place) : Option ProofDocument := do
  let [proof, signals] ← p.record? ["proof", "publicSignals"] | none
  return { proof := ← (← proof).json?
           signals := ← (← signals).decimals? }

def toJson (d : ProofDocument) : Json :=
  .object [("proof", d.proof), ("publicSignals", .array (d.signals.map .decimal))]

end ProofDocument

namespace Groth16

open Pairing

/-- The point that the public signals are committed to by. -/
def commitment (k : VerifyingKey) (signals : List Felt) : G1 :=
  match k.inputs with
  | [] => .infinity
  | first :: rest => combination first ((signals.map Fin.val).zip rest)

/-- The points whose pairings multiply to one for a valid proof. -/
def pairs (k : VerifyingKey) (signals : List Felt) (p : Proof) : List (G1 × G2) :=
  [(p.a, p.b), (k.alpha.negate, k.beta), ((commitment k signals).negate, k.gamma),
    (p.c.negate, k.delta)]

def accepts (k : VerifyingKey) (signals : List Felt) (p : Proof) : Bool :=
  productIsOne (pairs k signals p)

/-- Verifies a proof of a circuit with the text of a key. -/
def verify (c : Circuit) (key : String) (d : ProofDocument) : Result Bool := do
  c.checkSignals d.signals
  let k ← VerifyingKey.ofText key
  if k.inputs.length = d.signals.length + 1 then
    let signals ← d.signals.mapM fun n => (Field.ofNat n).reported .invalidSignature
    let p ← Proof.ofJson d.proof
    return accepts k signals p
  else .error (.signature (.verifyingKeyArity k.signalCount d.signals.length))

end Groth16

end Vouch

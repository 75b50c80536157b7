import Vouch.Circuit
import Vouch.Groth16.Key
import Vouch.Listing

/-! Verifier contracts.

A contract holds the key of one circuit and requires of every public signal that it is
below its ceiling, as the circuit does. It is data first (`Contract.make`), and its
source text is written from that. The arithmetic of the pairing comes from a library
that the contract imports. -/
namespace Vouch.Groth16

open Pairing
open Listing (Item)

/-- What a signal has to be below. -/
inductive Bound where
  /-- The order of the field, a constant of the contract. -/
  | scalarField
  | literal (n : Nat)
deriving DecidableEq, Repr

namespace Bound

def ofCeiling (ceiling : Nat) : Bound :=
  if ceiling = fieldOrder then .scalarField else .literal ceiling

def value : Bound → Nat
  | .scalarField => fieldOrder
  | .literal n => n

def text : Bound → String
  | .scalarField => "SNARK_SCALAR_FIELD"
  | .literal n => toString n

end Bound

/-- One public signal has to be below a bound. -/
structure Requirement where
  index : Nat
  bound : Bound
  signal : String
deriving DecidableEq, Repr

structure Contract where
  schemaId : Nat
  signalCount : Nat
  /-- Named places of intrinsic signals. -/
  places : List (String × Nat)
  key : VerifyingKey
  requirements : List Requirement
deriving DecidableEq

namespace Contract

def requirementsOf (c : Circuit) : List Requirement :=
  c.publicSignals.zipIdx.map fun (s, index) => ⟨index, .ofCeiling s.ceiling, s.name⟩

def placeName (i : Circuit.Intrinsic) : String :=
  s!"{i.outputName.toUpper}_INDEX"

/-- The contract of a circuit and a key that takes as many signals. -/
def make (c : Circuit) (k : VerifyingKey) : Result Contract :=
  if k.inputs.length = c.publicSignals.length + 1 then
    .ok { schemaId := c.schemaId
          signalCount := c.publicSignals.length
          places := c.intrinsics.map fun (i, index) => (placeName i, index)
          key := k
          requirements := requirementsOf c }
  else .error (.document (.contractArity k.signalCount c.publicSignals.length))

/-! ### Source text -/

def languageVersion : String := "^0.8.0"

def pairingLibrary : String := "./Pairing.sol"

def g1Text (p : G1) : String :=
  let (x, y) := coordinates p
  s!"Pairing.G1Point({x.val}, {y.val})"

/-- On chain the coefficient of `u` comes first. -/
def quadraticText (a : Quadratic) : String :=
  s!"[{a.im.val}, {a.re.val}]"

def g2Text (p : G2) : String :=
  let (x, y) := coordinates p
  s!"Pairing.G2Point({quadraticText x}, {quadraticText y})"

/-- What contracts may be used under. -/
def terms : String := "MIT"

def preamble : List Item :=
  [.line s!"// SPDX-License-Identifier: {terms}", .line s!"pragma solidity {languageVersion};", .blank,
    .line s!"import \x7bPairing\x7d from \"{pairingLibrary}\";", .blank]

def constants (c : Contract) : List Item :=
  [.line s!"uint256 public constant TYPE_ID = {c.schemaId};",
    .line s!"uint256 public constant NUM_PUBLIC_SIGNALS = {c.signalCount};",
    .line s!"uint256 constant SNARK_SCALAR_FIELD = {fieldOrder};"] ++
  c.places.map fun (name, index) => .line s!"uint256 public constant {name} = {index};"

def keyItems (k : VerifyingKey) : List Item :=
  [.line s!"vk.alfa1 = {g1Text k.alpha};", .line s!"vk.beta2 = {g2Text k.beta};",
    .line s!"vk.gamma2 = {g2Text k.gamma};", .line s!"vk.delta2 = {g2Text k.delta};",
    .line s!"vk.IC = new Pairing.G1Point[]({k.inputs.length});"] ++
  k.inputs.zipIdx.map fun (p, i) => .line s!"vk.IC[{i}] = {g1Text p};"

def requirementItem (r : Requirement) : Item :=
  .line s!"require(signals[{r.index}] < {r.bound.text}, \"{r.signal} out of range\");"

def checkItems (c : Contract) : List Item :=
  .line "require(signals.length == NUM_PUBLIC_SIGNALS, \"bad signal count\");" ::
    c.requirements.map requirementItem

def verifyItems : List Item :=
  [.line "checkPublicSignals(signals);",
    .line "return Pairing.verifyGroth16(verifyingKey(), proof, signals);"]

def items (c : Contract) : List Item :=
  preamble ++ Listing.block s!"contract CredentialVerifier_{c.schemaId}"
    (c.constants ++
      .blank :: Listing.block
        "function verifyingKey() internal pure returns (Pairing.VerifyingKey memory vk)"
        (keyItems c.key) ++
      .blank :: Listing.block
        "function checkPublicSignals(uint256[] calldata signals) internal pure" c.checkItems ++
      .blank :: Listing.block
        "function verifyProof(uint256[8] calldata proof, uint256[] calldata signals) external view returns (bool)"
        verifyItems)

def text (c : Contract) : String :=
  Listing.text c.items

/-- The source text of the contract for a circuit and the text of a key. -/
def code (c : Circuit) (key : String) : Result String := do
  let k ← VerifyingKey.ofText key
  let contract ← make c k
  return contract.text

end Contract

end Vouch.Groth16

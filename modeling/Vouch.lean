import Vouch.Bytes
import Vouch.Circuit
import Vouch.Circuit.Aggregation
import Vouch.Circuit.Body
import Vouch.Circuit.ClaimSignals
import Vouch.Circuit.Layout
import Vouch.Circuit.Signal
import Vouch.Circuit.Template
import Vouch.Circuit.Valuation
import Vouch.Claim.Expression
import Vouch.Claim.Name
import Vouch.Claim.Type
import Vouch.Claim.Value
import Vouch.Credential
import Vouch.Credential.Body
import Vouch.Credential.Header
import Vouch.Credential.Signature
import Vouch.Credential.Signing
import Vouch.Credential.Wire
import Vouch.Curve.Edwards
import Vouch.Curve.Signing
import Vouch.Curve.Weierstrass
import Vouch.Digest.Keccak
import Vouch.Digest.Sha512
import Vouch.Document
import Vouch.Error
import Vouch.Field
import Vouch.Groth16.Contract
import Vouch.Groth16.Key
import Vouch.Groth16.Verification
import Vouch.Json.Basic
import Vouch.Json.Number
import Vouch.Json.Reading
import Vouch.Json.Written
import Vouch.Keyed
import Vouch.Listing
import Vouch.Modular
import Vouch.Naturals
import Vouch.Number.Binary64
import Vouch.Number.Shortest
import Vouch.Pairing.Field
import Vouch.Pairing.Group
import Vouch.Pairing.Product
import Vouch.Pieces
import Vouch.Poseidon.Grain
import Vouch.Poseidon.Parameters
import Vouch.Poseidon.Permutation
import Vouch.Poseidon.Sponge
import Vouch.Presentation
import Vouch.Presentation.Query
import Vouch.Repeated
import Vouch.Revocation
import Vouch.Schema
import Vouch.Schema.Id
import Vouch.Schema.Text
import Vouch.Stack
import Vouch.Stack.Config
import Vouch.Stack.Witness
import Vouch.Statement
import Vouch.Text.Base64
import Vouch.Text.Blank
import Vouch.Text.Combining
import Vouch.Text.Decimal
import Vouch.Text.Hex
import Vouch.Text.Quoted
import Vouch.Text.Unprintable
import Vouch.Proofs.Keyed
import Vouch.Proofs.Result
import Vouch.Proofs.Field
import Vouch.Proofs.Aligned
import Vouch.Proofs.Presentation
import Vouch.Proofs.Statement
import Vouch.Proofs.Text.Parts
import Vouch.Proofs.Circuit.Source
import Vouch.Proofs.Circuit.Spelling
import Vouch.Proofs.Circuit.Written
import Vouch.Proofs.Circuit.Meaning
import Vouch.Proofs.Circuit.Evaluation
import Vouch.Proofs.Circuit.Names
import Vouch.Proofs.Circuit.Compiled
import Vouch.Proofs.Circuit.Signals
import Vouch.Proofs.Circuit.Endings
import Vouch.Proofs.Circuit.Identifiers
import Vouch.Proofs.Circuit.Slots
import Vouch.Proofs.Witness.Entries
import Vouch.Proofs.Witness.Inputs
import Vouch.Proofs.Witness.Digest
import Vouch.Proofs.Circuit.Constraints
import Vouch.Proofs.Circuit.Assignment
import Vouch.Proofs.Circuit.Solutions
import Vouch.Proofs.Circuit.Agreement
import Vouch.Proofs.Circuit.Secrecy
import Vouch.Proofs.Circuit.Folding
import Vouch.Proofs.Witness.Record
import Vouch.Proofs.Witness.Elements
import Vouch.Proofs.Witness.Disclosure
import Vouch.Proofs.Witness.Outcome
import Vouch.Proofs.Circuit.Table
import Vouch.Proofs.Json.Grammar
import Vouch.Proofs.Json.Places
import Vouch.Proofs.Credential.RoundTrip
import Vouch.Proofs.Poseidon.Chain
import Vouch.Proofs.Credential.Binding
import Vouch.Proofs.Credential.Signatures
import Vouch.Proofs.Credential.Verifying
import Vouch.Proofs.Credential.Checked
import Vouch.Proofs.Schema.Grammar
import Vouch.Proofs.Schema.Expression
import Vouch.Proofs.Schema.Reading
import Vouch.Proofs.Schema.RoundTrip
import Vouch.Proofs.Presentation.Condition
import Vouch.Proofs.Presentation.Query
import Vouch.Proofs.Listing
import Vouch.Proofs.Repeated
import Vouch.Proofs.Groth16.Source
import Vouch.Proofs.Groth16.Statements
import Vouch.Proofs.Groth16.Written
import Vouch.Proofs.Groth16.Key
import Vouch.Proofs.Groth16.Agreement
import Vouch.Proofs.Groth16.Verification
import Vouch.Proofs.Modular.Residue
import Vouch.Proofs.Modular.Primality
import Vouch.Proofs.Curve.Group
import Vouch.Proofs.Curve.Points
import Vouch.Proofs.Curve.Encoding
import Vouch.Proofs.Curve.Signing
import Vouch.Proofs.Curve.Signatures
import Vouch.Proofs.Curve.Messages
import Vouch.Proofs.Presentation.Coverage
import Vouch.Proofs.Circuit.Merging
import Vouch.Proofs.Circuit.Storage
import Vouch.Proofs.Circuit.Wiring
import Vouch.Proofs.Circuit.Lone
import Vouch.Proofs.Groth16.RoundTrip
import Vouch.Proofs.Stack.Lowering
import Vouch.Proofs.Poseidon.Absorption
import Vouch.Proofs.Groth16.Outcome
import Vouch.Proofs.Stack.Preparation
import Vouch.Proofs.Json.Order
import Vouch.Proofs.Json.Values
import Vouch.Proofs.Presentation.Documents

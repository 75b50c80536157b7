import Vouch.Schema
import Vouch.Circuit.Signal
import Vouch.Circuit.Aggregation

/-! The signals of one claim.

A claim has private inputs, the limbs of its value; operations, the parameters of the
statement made about it; and outputs, the public signals that a proof discloses. Names
are derived from that of the claim, and the circuit and the witness both take them from
here. -/
namespace Vouch.Circuit

structure ClaimSignals where
  claim : Claim
  inputs : List String
  operations : List String
  outputs : List PublicSignal
  aggregations : List Aggregation
deriving DecidableEq

namespace ClaimSignals

/-- The name of a signal derived from a claim's. -/
def derived (claim ending : String) : String :=
  s!"{claim}_{ending}"

/-- The name of the output that goes with an input or an operation. -/
def outputName (signal : String) : String :=
  s!"out_{signal}"

def slotName (signal : String) : String :=
  s!"agg_{signal}"

/-- Two limbs, and two for each bound. -/
def ofWide (c : Claim) : ClaimSignals :=
  let n := c.name
  let output (ending : String) : PublicSignal := .ofBits (outputName (derived n ending)) Field.limbBits
  { claim := c
    inputs := [derived n "msb", derived n "lsb"]
    operations := [derived n "lb_msb", derived n "lb_lsb", derived n "ub_msb", derived n "ub_lsb"]
    outputs := [output "lb_msb", output "lb_lsb", output "ub_msb", output "ub_lsb"]
    aggregations :=
      [.ofBits (slotName (derived n "lb")) greatestIntegerWidth
          [(output "lb_msb").name, (output "lb_lsb").name] .greatestWide,
        .ofBits (slotName (derived n "ub")) greatestIntegerWidth
          [(output "ub_msb").name, (output "ub_lsb").name] .leastWide] }

/-- The value and its two bounds. -/
def ofNarrow (c : Claim) (width : Nat) : ClaimSignals :=
  let n := c.name
  let output (ending : String) : PublicSignal := .ofBits (outputName (derived n ending)) width
  { claim := c
    inputs := [n]
    operations := [derived n "lb", derived n "ub"]
    outputs := [output "lb", output "ub"]
    aggregations :=
      [.ofBits (slotName (derived n "lb")) width [(output "lb").name] .greatest,
        .ofBits (slotName (derived n "ub")) width [(output "ub").name] .least] }

/-- The hash and the constants that it is compared with. An output has one bit more than the
hash, for the outcome. -/
def ofProperty (c : Claim) (p : PropertyType) : ClaimSignals :=
  let operations := (List.range p.checks).map fun i => derived c.name s!"eq_check{i}"
  { claim := c
    inputs := [c.name]
    operations
    outputs := operations.map fun op => .ofBits (outputName op) (p.width + 1)
    aggregations := operations.map fun op =>
      .ofBits (slotName op) (p.width + 1) [outputName op] .unchanged }

/-- The value and whether to hide it; the output is twice the value, plus one if revealed. -/
def ofBoolean (c : Claim) : ClaimSignals :=
  { claim := c
    inputs := [c.name]
    operations := [derived c.name "hide"]
    outputs := [.ofBits (outputName c.name) 2]
    aggregations := [.ofBits (slotName c.name) 2 [outputName c.name] .revealed] }

def ofClaim (c : Claim) : ClaimSignals :=
  match c.type with
  | .integer width _ => if width = greatestIntegerWidth then ofWide c else ofNarrow c width
  | .property p => ofProperty c p
  | .boolean => ofBoolean c

end ClaimSignals

end Vouch.Circuit

import Vouch.Circuit.Layout
import Vouch.Circuit.Template

/-! The lines of a schema's template.

Everything of the layout is declared first. The limbs of the claims go into the body
digest, which goes with the intrinsic inputs into the core, and the core yields the
intrinsic outputs. Then each claim is constrained by its own lines, which name no
signal of another claim. -/
namespace Vouch.Circuit

/-! ### Claims -/

namespace ClaimSignals

/-- Both bounds of a wide integer, limb by limb; the outputs are the bounds. -/
def wideLines (s : ClaimSignals) : List Line :=
  let range := derived s.claim.name "range"
  .component range .wideRange ::
    (s.inputs.zipIdx.map fun (input, i) => .assign (.pinAt range "value" i) (.signal input)) ++
    (s.operations.zipIdx.map fun (op, i) => .assign (.pinAt range "bounds" i) (.signal op)) ++
    ((s.operations.zip s.outputs).map fun (op, out) => .assign (.signal out.name) (.signal op))

/-- Both bounds of an integer of one limb; the outputs are the bounds. -/
def narrowLines (s : ClaimSignals) (width : Nat) : List Line :=
  let range := derived s.claim.name "range"
  .component range (.range width) ::
    (((["value"].zip s.inputs) ++ (["lb", "ub"].zip s.operations)).map fun (pin, name) =>
      .assign (.pin range pin) (.signal name)) ++
    ((s.operations.zip s.outputs).map fun (op, out) => .assign (.signal out.name) (.signal op))

/-- The comparison with one constant; the output is twice the constant plus the outcome. -/
def checkLines (claim input op : String) (out : PublicSignal) (i : Nat) : List Line :=
  let eq := derived claim s!"eq{i}"
  [.component eq .isEqual,
    .assign (.pinAt eq "in" 0) (.signal input),
    .assign (.pinAt eq "in" 1) (.signal op),
    .assign (.signal out.name) (.add (.mul (.signal op) (.const 2)) (.wire (.pin eq "out")))]

def propertyLines (s : ClaimSignals) : List Line :=
  s.inputs.flatMap fun input =>
    (s.operations.zip s.outputs).zipIdx.flatMap fun ((op, out), i) =>
      checkLines s.claim.name input op out i

/-- The signal is zero or one. -/
def isBit (name : String) : Line :=
  .equate (.mul (.signal name) (.sub (.signal name) (.const 1))) (.const 0)

/-- The output is twice the value plus one, or zero if the value is hidden. -/
def booleanLines (s : ClaimSignals) : List Line :=
  (s.inputs.zip (s.operations.zip s.outputs)).flatMap fun (input, hide, out) =>
    [isBit input, isBit hide,
      .assign (.signal out.name)
        (.mul (.sub (.const 1) (.signal hide)) (.add (.mul (.signal input) (.const 2)) (.const 1)))]

/-- The constraints of the claim. -/
def constraints (s : ClaimSignals) : List Line :=
  match s.claim.type with
  | .integer width _ => if width = greatestIntegerWidth then s.wideLines else s.narrowLines width
  | .property _ => s.propertyLines
  | .boolean => s.booleanLines

def lines (s : ClaimSignals) : List Line :=
  .comment s!"{s.claim.name}: {s.claim.type.text}" :: s.constraints

end ClaimSignals

/-! ### The whole body -/

namespace Layout

/-- The public signals that belong to no claim. -/
def intrinsicOutputs (l : Layout) : List PublicSignal :=
  l.publicSignals.take (l.publicSignals.length - l.outputs.length)

def declarations (l : Layout) : List Line :=
  (l.intrinsicInputs.map fun input => .input input.name input.length) ++
    .blank :: (l.inputNames.map (.input · none)) ++ (l.operationNames.map (.input · none)) ++
    .blank :: (l.publicSignals.map fun signal => .output signal.name)

/-- The digest of the body limbs. -/
def digestLines (l : Layout) : List Line :=
  .component "body" (.bodyHash l.inputNames.length) ::
    (l.inputNames.zipIdx.map fun (name, i) => .assign (.pinAt "body" "in" i) (.signal name))

/-- Signature, identity and expiration. -/
def coreLines (l : Layout) : List Line :=
  .component "core" (.core (l.depth.getD 0)) ::
    (l.intrinsicInputs.map fun input => .assign (.pin "core" input.name) (.signal input.name)) ++
    .assign (.pin "core" "body_hash") (.wire (.pin "body" "out")) ::
    (l.intrinsicOutputs.map fun signal => .assign (.signal signal.name) (.wire (.pin "core" signal.name)))

def body (l : Layout) : List Line :=
  l.declarations ++ .blank :: l.digestLines ++ .blank :: l.coreLines ++
    l.claims.flatMap fun s => .blank :: s.lines

def template (l : Layout) : Template :=
  { schemaId := l.schemaId
    claimCount := l.claims.length
    depth := l.depth
    body := l.body }

end Layout

end Vouch.Circuit

import Vouch.Listing

/-! Circuit templates as data, and their source text.

The body of a template declares inputs, outputs and components, assigns expressions to
wires and equates them. What it says is in the lines themselves; `Template.text` only
writes them down, with brackets where a sum is an operand of a product. -/
namespace Vouch.Circuit

/-- A component that the template instantiates, with its parameter. -/
inductive Gadget where
  /-- The digest of that many limbs. -/
  | bodyHash (limbs : Nat)
  /-- Signature, identity, expiration and, for a depth above zero, revocation. -/
  | core (depth : Nat)
  | range (width : Nat)
  | wideRange
  | isEqual
deriving DecidableEq, Repr

def Gadget.text : Gadget → String
  | .bodyHash limbs => s!"BodyHash({limbs})"
  | .core depth => s!"CredentialCore({depth})"
  | .range width => s!"RangeCheck({width})"
  | .wideRange => "Uint256RangeCheck()"
  | .isEqual => "IsEqual()"

/-- What carries a value: a signal of the template, or a pin of one of its components. -/
inductive Wire where
  | signal (name : String)
  | pin (component name : String)
  | pinAt (component name : String) (index : Nat)
deriving DecidableEq, Repr

def Wire.text : Wire → String
  | .signal name => name
  | .pin component name => s!"{component}.{name}"
  | .pinAt component name index => s!"{component}.{name}[{index}]"

inductive Expr where
  | wire (w : Wire)
  | const (n : Nat)
  | add (a b : Expr)
  | sub (a b : Expr)
  | mul (a b : Expr)
deriving DecidableEq, Repr

namespace Expr

def signal (name : String) : Expr := .wire (.signal name)

def brackets (needed : Bool) (text : String) : String :=
  if needed then s!"({text})" else text

/-- The text as an operand of a product (`inProduct`) or on its own. -/
def textIn (inProduct : Bool) : Expr → String
  | .wire w => w.text
  | .const n => toString n
  | .add a b => brackets inProduct s!"{a.textIn false} + {b.textIn true}"
  | .sub a b => brackets inProduct s!"{a.textIn false} - {b.textIn true}"
  | .mul a b => s!"{a.textIn true} * {b.textIn true}"

def text (e : Expr) : String := e.textIn false

end Expr

/-- A line of a template's body. -/
inductive Line where
  | blank
  | comment (text : String)
  | input (name : String) (length : Option Nat)
  | output (name : String)
  | component (name : String) (gadget : Gadget)
  | assign (target : Wire) (value : Expr)
  | equate (left right : Expr)
deriving DecidableEq, Repr

open Listing (Item)

def Line.item : Line → Item
  | .blank => .blank
  | .comment text => .line s!"// {text}"
  | .input name none => .line s!"signal input {name};"
  | .input name (some length) => .line s!"signal input {name}[{length}];"
  | .output name => .line s!"signal output {name};"
  | .component name gadget => .line s!"component {name} = {gadget.text};"
  | .assign target value => .line s!"{target.text} <== {value.text};"
  | .equate left right => .line s!"{left.text} === {right.text};"

/-- The main template of a schema's circuit. -/
structure Template where
  schemaId : Nat
  claimCount : Nat
  depth : Option Nat
  body : List Line
deriving DecidableEq, Repr

namespace Template

def languageVersion : String := "2.1.5"

/-- Where the gadgets are defined. -/
def library : String := "babyzk/credential.circom"

def heading (t : Template) : String :=
  s!"// type {t.schemaId}: {t.claimCount} claim(s)" ++
    match t.depth with
    | none => ""
    | some depth => s!", revocable({depth})"

def items (t : Template) : List Item :=
  [.line s!"pragma circom {languageVersion};", .blank, .line s!"include \"{library}\";", .blank,
    .line t.heading] ++
    Listing.block "template Main()" (t.body.map Line.item) ++
    [.blank, .line "component main = Main();"]

def text (t : Template) : String :=
  Listing.text t.items

end Template

end Vouch.Circuit

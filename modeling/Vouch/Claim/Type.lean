/-! The types of claims.

A claim is an unsigned integer proven by ranges, a text proven by the equality of its
hash, or a truth value that is revealed or hidden. The bounds on the parameters are
part of the types: a width is a whole number of bytes, and one proof compares a hash
with at most eight constants. -/
namespace Vouch

/-- How a property's text becomes the hash that the circuit sees. -/
inductive PropertyHash where
  /-- Keccak-256 of the UTF-8 bytes, truncated to the width. -/
  | keccak256
  /-- Chosen by the issuer. -/
  | custom
deriving DecidableEq, Repr

def PropertyHash.name : PropertyHash → String
  | .keccak256 => "keccak256"
  | .custom => "custom"

def PropertyHash.all : List PropertyHash := [.keccak256, .custom]

def greatestIntegerWidth : Nat := 256

/-- A hash has to be a field element with a bit to spare for the equality flag. -/
def greatestPropertyWidth : Nat := 248

def greatestCheckCount : Nat := 8

/-- A whole number of bytes, at least one. -/
def ValidWidth (greatest width : Nat) : Prop :=
  8 ≤ width ∧ width ≤ greatest ∧ width % 8 = 0

instance (greatest width : Nat) : Decidable (ValidWidth greatest width) :=
  inferInstanceAs (Decidable (_ ∧ _ ∧ _))

def ValidCheckCount (n : Nat) : Prop :=
  1 ≤ n ∧ n ≤ greatestCheckCount

instance (n : Nat) : Decidable (ValidCheckCount n) :=
  inferInstanceAs (Decidable (_ ∧ _))

/-- The parameters of a property. -/
structure PropertyType where
  width : Nat
  hash : PropertyHash
  /-- How many constants one proof compares the hash with. -/
  checks : Nat
  validWidth : ValidWidth greatestPropertyWidth width
  validChecks : ValidCheckCount checks
deriving DecidableEq

inductive ClaimType where
  | integer (width : Nat) (valid : ValidWidth greatestIntegerWidth width)
  | property (p : PropertyType)
  | boolean
deriving DecidableEq

namespace ClaimType

/-- The short name, as it opens a type expression. -/
def name : ClaimType → String
  | .integer .. => "uint"
  | .property _ => "prop"
  | .boolean => "bool"

/-- Bits of the value or of its hash. -/
def width : ClaimType → Nat
  | .integer w _ => w
  | .property p => p.width
  | .boolean => 8

/-- The type expression. -/
def text : ClaimType → String
  | .integer w _ => s!"uint<{w}>"
  | .property p => s!"prop<{p.width},{p.hash.name},{p.checks}>"
  | .boolean => "bool"

end ClaimType

end Vouch

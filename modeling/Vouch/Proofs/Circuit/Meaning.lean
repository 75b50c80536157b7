import Vouch.Circuit.Valuation
import Vouch.Proofs.Circuit.Source

/-! What circuit source says of values.

An expression is read from left to right: products are complete before sums, sums go from the left,
and what is in brackets is complete where they close. Its operands are numbers and wires, and so it
has a value under a valuation (`value?`). A component is of the template that is called behind its
name (`gadget?`). A clause holds if both of its sides have the same value, or if the pins of its
component are related as that template asks (`Clause.Holds`). Nothing here knows how sources are
written. -/
namespace Vouch.Circuit

open Text (cut?)

namespace Source

/-! ### Tokens -/

inductive Token where
  | opening
  | closing
  | plus
  | minus
  | times
  | operand (word : String)
deriving DecidableEq, Repr

def Token.ofWord (word : String) : Token :=
  if word = "(" then .opening
  else if word = ")" then .closing
  else if word = "+" then .plus
  else if word = "-" then .minus
  else if word = "*" then .times
  else .operand word

/-- Brackets and signs need no blanks around them. -/
def isMark (c : Char) : Bool :=
  ['(', ')', '+', '-', '*'].contains c

def spaced (cs : List Char) : List Char :=
  cs.flatMap fun c => if isMark c then [' ', c, ' '] else [c]

/-- The tokens of a text. -/
def tokensOf (cs : List Char) : List Token :=
  (wordsOf (spaced cs)).map Token.ofWord

def tokens (ws : List String) : List Token :=
  ws.flatMap fun word => tokensOf word.toList

def Token.word? : Token → Option String
  | .operand word => some word
  | _ => none

/-! ### Values of expressions -/

/-- `name`, `component.name` or `component.name[index]`. -/
def wireOf (word : String) : Wire :=
  match cut? '.' word.toList with
  | none => .signal word
  | some (component, pin) =>
    match declared (String.ofList pin) with
    | (name, none) => .pin (String.ofList component) name
    | (name, some index) => .pinAt (String.ofList component) name index

def operandValue (ρ : Valuation) (word : String) : Felt :=
  match Decimal.read? word with
  | some n => Field.reduce n
  | none => ρ (wireOf word)

/-- A sum of which the last term is not complete. -/
structure OpenSum where
  /-- The terms that are. -/
  before : Felt
  /-- Whether the last one is to be subtracted. -/
  negative : Bool
  /-- The factors of the last one. -/
  product : Felt

namespace OpenSum

def empty : OpenSum := ⟨0, false, 1⟩

def value (s : OpenSum) : Felt :=
  if s.negative then s.before - s.product else s.before + s.product

def times (s : OpenSum) (factor : Felt) : OpenSum :=
  { s with product := s.product * factor }

/-- Another term begins. -/
def next (s : OpenSum) (negative : Bool) : OpenSum :=
  ⟨s.value, negative, 1⟩

end OpenSum

/-- How far an expression has been read: whether an operand comes next, the sum inside the innermost
bracket that is open, and the sums around it. -/
structure Reading where
  due : Bool
  inner : OpenSum
  outer : List OpenSum

namespace Reading

def start : Reading := ⟨true, .empty, []⟩

/-- A token where it may stand. -/
def step (ρ : Valuation) (r : Reading) (token : Token) : Option Reading :=
  match r.due, token, r.outer with
  | true, .operand word, _ => some { r with due := false, inner := r.inner.times (operandValue ρ word) }
  | true, .opening, _ => some ⟨true, .empty, r.inner :: r.outer⟩
  | false, .closing, sum :: outer => some ⟨false, sum.times r.inner.value, outer⟩
  | false, .times, _ => some { r with due := true }
  | false, .plus, _ => some { r with due := true, inner := r.inner.next false }
  | false, .minus, _ => some { r with due := true, inner := r.inner.next true }
  | _, _, _ => none

/-- The value of what has been read, if it is complete. -/
def value? (r : Reading) : Option Felt :=
  if r.due = false ∧ r.outer = [] then some r.inner.value else none

end Reading

/-- The value of an expression. -/
def value? (ρ : Valuation) (ws : List String) : Option Felt :=
  ((tokens ws).foldlM (Reading.step ρ) .start).bind Reading.value?

/-! ### Clauses -/

/-- `Name(parameter)` or `Name()`. -/
def call? (text : String) : Option (String × Option Nat) :=
  (cut? '(' text.toList).map fun cut =>
    (String.ofList cut.1, Decimal.read? (String.ofList (cut.2.takeWhile (· != ')'))))

/-- The gadget of a component. -/
def gadget? (text : String) : Option Gadget :=
  match call? text with
  | some ("BodyHash", some limbs) => some (.bodyHash limbs)
  | some ("CredentialCore", some depth) => some (.core depth)
  | some ("RangeCheck", some width) => some (.range width)
  | some ("Uint256RangeCheck", none) => some .wideRange
  | some ("IsEqual", none) => some .isEqual
  | _ => none

/-- Both sides are expressions of one value. -/
def Balanced (ρ : Valuation) (left right : List String) : Prop :=
  ∃ v, value? ρ left = some v ∧ value? ρ right = some v

/-- What a clause asks of the values: nothing if it only declares a signal. -/
def Clause.Holds (ρ : Valuation) : Clause → Prop
  | .component name gadget => ∃ g, gadget? gadget = some g ∧ g.Holds ρ name
  | .assign target value => Balanced ρ target value
  | .equate left right => Balanced ρ left right
  | .input _ _ | .output _ | .other => True

end Source

/-- What the clauses ask holds. -/
def Valuation.Satisfies (ρ : Valuation) (clauses : List Source.Clause) : Prop :=
  ∀ clause ∈ clauses, clause.Holds ρ

end Vouch.Circuit

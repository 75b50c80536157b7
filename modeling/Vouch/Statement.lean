import Vouch.Claim.Value

/-! Statements about single claims.

A statement says that an integer lies in a range, compares a property with constants,
or reveals or hides a truth value. It is checked against the value before a proof is
made (`Statement.check`), and it sets the operations of the claim in the circuit
(`Statement.operands`). -/
namespace Vouch

/-- Inclusive bounds on an integer. -/
@[ext]
structure RangeStatement where
  width : Nat
  lower : Nat
  upper : Nat
  ordered : lower ≤ upper
  fits : upper < 2 ^ width

instance : DecidableEq RangeStatement := fun _ _ =>
  decidable_of_iff' _ RangeStatement.ext_iff

/-- The constants that the hash of a property is compared with. -/
structure EqualityStatement where
  type : PropertyType
  constants : List Nat
  complete : constants.length = type.checks
  fit : ∀ c ∈ constants, c < 2 ^ type.width
deriving DecidableEq

inductive Statement where
  | range (r : RangeStatement)
  | equality (e : EqualityStatement)
  | reveal (shown : Bool)
deriving DecidableEq

namespace RangeStatement

def make (width lower upper : Nat) : Result RangeStatement :=
  if ordered : lower ≤ upper then
    if fits : upper < 2 ^ width then .ok ⟨width, lower, upper, ordered, fits⟩
    else .error (.query (.upperTooWide upper width))
  else .error (.query (.boundsCrossed lower upper))

def check (r : RangeStatement) (n : Nat) : Result Unit :=
  if r.lower ≤ n ∧ n ≤ r.upper then .ok () else .error (.check (.outOfRange n r.lower r.upper))

theorem check_eq_ok_iff (r : RangeStatement) (n : Nat) :
    r.check n = .ok () ↔ r.lower ≤ n ∧ n ≤ r.upper := by
  unfold check
  split
  · rename_i h
    exact ⟨fun _ => h, fun _ => rfl⟩
  · rename_i h
    exact ⟨fun he => (nomatch he), fun hb => absurd hb h⟩

end RangeStatement

namespace EqualityStatement

/-- As many constants as the type compares, each as wide as a hash may be. -/
def make (p : PropertyType) (constants : List Nat) : Result EqualityStatement :=
  if complete : constants.length = p.checks then
    match h : constants.find? (2 ^ p.width ≤ ·) with
    | some c => .error (.query (.constantTooWide c p.width))
    | none =>
      .ok ⟨p, constants, complete, fun c hc => by
        simpa using List.find?_eq_none.1 h c hc⟩
  else .error (.query (.constantCount p.checks constants.length))

def holds (e : EqualityStatement) (hash : Nat) : Bool :=
  e.constants.contains hash

theorem holds_iff (e : EqualityStatement) (hash : Nat) : e.holds hash = true ↔ hash ∈ e.constants :=
  List.contains_iff_mem

end EqualityStatement

namespace Statement

def makeRange (t : ClaimType) (lower upper : Nat) : Result Statement :=
  match t with
  | .integer width _ => do
    let r ← RangeStatement.make width lower upper
    return .range r
  | t => .error (.query (.rangeOn t))

def makeEquality (t : ClaimType) (constants : List Nat) : Result Statement :=
  match t with
  | .property p => do
    let e ← EqualityStatement.make p constants
    return .equality e
  | t => .error (.query (.propertyOn t))

def word : Statement → String
  | .range _ => "range"
  | .equality _ => "equality"
  | .reveal _ => "reveal"

def mismatch (s : Statement) (v : ClaimValue) : Result (List Nat) :=
  .error (.check (.mismatch s.word v.type))

/-- Checks a value of the type that the statement was made for. What is disclosed beside the
operations is the outcome of a comparison, or the truth value if it is revealed. -/
def check (s : Statement) (v : ClaimValue) : Result (List Nat) :=
  match s, v with
  | .range r, .integer i =>
    if i.width = r.width then do
      r.check i.n
      return []
    else s.mismatch v
  | .equality e, .property p =>
    if p.type = e.type then .ok [(e.holds p.hash).toNat] else s.mismatch v
  | .reveal shown, .boolean b => .ok (if shown then [b.toNat] else [])
  | _, _ => s.mismatch v

/-- The values of the operations, in the order of their signals. -/
def operands : Statement → List Nat
  | .range r =>
    if r.width = greatestIntegerWidth then
      [(Field.split r.lower).1, (Field.split r.lower).2, (Field.split r.upper).1, (Field.split r.upper).2]
    else [r.lower, r.upper]
  | .equality e => e.constants
  | .reveal shown => [(!shown).toNat]

end Statement

end Vouch

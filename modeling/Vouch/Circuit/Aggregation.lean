import Vouch.Field
import Vouch.Json.Reading

/-! Merging the public signals of several proofs into one record.

Proofs of one type and context add up to a record with one slot for each aggregation.
A rule says how an incoming value changes the slot, which is empty until the first one
arrives; the wide rules take two signals, the high and the low limb of one integer. -/
namespace Vouch.Circuit

inductive MergeRule where
  | greatest
  | greatestWide
  | least
  | leastWide
  /-- The signal is twice the value, plus one if it is revealed; only then it is kept. -/
  | revealed
  /-- The first value stays; a different one is a conflict. -/
  | unchanged
  | latest
deriving DecidableEq, Repr

namespace MergeRule

def all : List MergeRule := [.greatest, .greatestWide, .least, .leastWide, .revealed, .unchanged, .latest]

def tag : MergeRule → String
  | .greatest => "TakeGreater"
  | .greatestWide => "TakeGreaterUint256"
  | .least => "TakeLess"
  | .leastWide => "TakeLessUint256"
  | .revealed => "SetIfRevealed"
  | .unchanged => "MergeUnlessEq"
  | .latest => "SetToNewValue"

def read (p : Json.Place) : Option MergeRule :=
  p.oneOf? tag all

def isWide : MergeRule → Bool
  | .greatestWide | .leastWide => true
  | _ => false

/-- How many signals the rule reads. -/
def arity (rule : MergeRule) : Nat :=
  if rule.isWide then 2 else 1

/-- The integer that the signals carry, if there are as many as the rule reads. -/
def incoming? (rule : MergeRule) (sources : List Nat) : Option Nat :=
  match rule.isWide, sources with
  | true, [high, low] => some (Field.join high low)
  | false, [value] => some value
  | _, _ => none

theorem isSome_incoming?_iff (rule : MergeRule) (sources : List Nat) :
    (rule.incoming? sources).isSome = true ↔ sources.length = rule.arity := by
  unfold incoming? arity
  cases rule.isWide <;> rcases sources with _ | ⟨a, _ | ⟨b, _ | ⟨c, rest⟩⟩⟩ <;> simp

/-- The slot after a value has arrived; `none` is a conflict. -/
def combine (rule : MergeRule) (current : Option Nat) (value : Nat) : Option (Option Nat) :=
  match rule, current with
  | .latest, _ => some (some value)
  | .revealed, _ => some (if value % 2 = 1 then some (value / 2) else current)
  | _, none => some (some value)
  | .greatest, some c | .greatestWide, some c => some (some (max c value))
  | .least, some c | .leastWide, some c => some (some (min c value))
  | .unchanged, some c => if c = value then some (some c) else none

end MergeRule

/-- One slot of the record and what fills it. -/
structure Aggregation where
  destination : String
  /-- The storage type of the slot on chain. -/
  storage : String
  /-- The public signals that it reads. -/
  sources : List String
  rule : MergeRule
deriving DecidableEq, Repr

namespace Aggregation

/-- The bits of the smallest unsigned storage type of at least that many; there is none
beyond 256. -/
def storageBits (bits : Nat) : Nat :=
  max 1 (min 32 ((bits + 7) / 8)) * 8

def storageType (bits : Nat) : String :=
  s!"uint{storageBits bits}"

def ofBits (destination : String) (bits : Nat) (sources : List String) (rule : MergeRule) :
    Aggregation :=
  ⟨destination, storageType bits, sources, rule⟩

/-- The slot after the signals of one more proof. -/
def merge (a : Aggregation) (current : Option Nat) (sources : List Nat) : Result (Option Nat) :=
  match a.rule.incoming? sources with
  | none => .error (.internal (.sourceCount a.destination a.rule.arity sources.length))
  | some value =>
    match a.rule.combine current value with
    | some slot => .ok slot
    | none => .error (.query (.conflict a.destination (current.getD value) value))

/-- The slot after signals that may be refused: an error leaves it as it was. -/
def mergeOrKeep (a : Aggregation) (current : Option Nat) (sources : List Nat) : Option Nat :=
  match a.merge current sources with
  | .ok slot => slot
  | .error _ => current

/-! ### Documents -/

def read (p : Json.Place) : Option Aggregation := do
  let [destination, storage, sources, rule] ←
    p.record? ["dest_name", "dest_type", "src_names", "mode"] | none
  return { destination := ← (← destination).string?
           storage := ← (← storage).string?
           sources := ← (← (← sources).items?).mapM Json.Place.string?
           rule := ← MergeRule.read (← rule) }

def toJson (a : Aggregation) : Json :=
  .object [("dest_name", .string a.destination), ("dest_type", .string a.storage),
    ("src_names", .array (a.sources.map .string)), ("mode", .string a.rule.tag)]

end Aggregation

end Vouch.Circuit

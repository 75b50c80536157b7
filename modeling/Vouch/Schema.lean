import Vouch.Claim.Name
import Vouch.Claim.Expression

/-! Credential schemas.

A schema is what a credential type declares: named claims in order, the depth of the
revocation tree if its credentials can be revoked, and the id that it is registered
under. The names are valid and distinct and the depth lies within bounds by the type
itself; `Schema.make` says what is wrong with claims that do not make one. -/
namespace Vouch

/-- A named claim. -/
structure Claim where
  name : String
  type : ClaimType
  validName : Claim.ValidName name
deriving DecidableEq

def Claim.make (name : String) (type : ClaimType) : Result Claim :=
  match h : Claim.nameFault? name with
  | some fault => .error (.claimName fault)
  | none => .ok ⟨name, type, (Claim.nameFault?_eq_none_iff name).1 h⟩

/-! ### Repetitions -/

/-- The first entry that also stands before it, or among those seen already. -/
def firstRepeat? (seen : List String) : List String → Option String
  | [] => none
  | x :: rest => if x ∈ seen then some x else firstRepeat? (x :: seen) rest

theorem firstRepeat?_eq_none_iff (seen xs : List String) :
    firstRepeat? seen xs = none ↔ xs.Nodup ∧ ∀ x ∈ xs, x ∉ seen := by
  induction xs generalizing seen with
  | nil => simp [firstRepeat?]
  | cons x rest ih =>
    unfold firstRepeat?
    by_cases h : x ∈ seen
    · simp [h]
    · simp only [h, if_false, ih, List.nodup_cons, List.mem_cons]
      constructor
      · rintro ⟨hnodup, hrest⟩
        refine ⟨⟨fun hx => hrest x hx (.inl rfl), hnodup⟩, fun y hy => ?_⟩
        rcases hy with rfl | hy
        · exact h
        · exact fun hs => hrest y hy (.inr hs)
      · rintro ⟨⟨hx, hnodup⟩, hall⟩
        refine ⟨hnodup, fun y hy hs => ?_⟩
        rcases hs with rfl | hs
        · exact hx hy
        · exact hall y (.inr hy) hs

theorem nodup_of_firstRepeat? {xs : List String} (h : firstRepeat? [] xs = none) : xs.Nodup :=
  ((firstRepeat?_eq_none_iff [] xs).1 h).1

/-! ### Schemas -/

def ValidDepth (depth : Nat) : Prop :=
  leastDepth ≤ depth ∧ depth ≤ greatestDepth

instance (depth : Nat) : Decidable (ValidDepth depth) :=
  inferInstanceAs (Decidable (_ ∧ _))

theorem validDepth_none : ∀ d ∈ (none : Option Nat), ValidDepth d := by
  intro d hd
  cases hd

/-- What is wrong with a depth of the revocation tree. -/
def depthFault (depth : Nat) : PragmaFault :=
  if depth < leastDepth then .depthTooSmall depth else .depthTooLarge depth

structure Schema where
  claims : List Claim
  /-- The depth of the revocation tree of a revocable schema. -/
  depth : Option Nat
  /-- The id it is registered under, zero until then. -/
  id : Nat
  distinct : (claims.map Claim.name).Nodup
  validDepth : ∀ d ∈ depth, ValidDepth d
deriving DecidableEq

namespace Schema

def make (claims : List Claim) (depth : Option Nat) : Result Schema :=
  match h : firstRepeat? [] (claims.map Claim.name) with
  | some name => .error (.duplicateClaim name)
  | none =>
    match depth with
    | none => .ok ⟨claims, none, 0, nodup_of_firstRepeat? h, validDepth_none⟩
    | some d =>
      if hd : ValidDepth d then
        .ok ⟨claims, some d, 0, nodup_of_firstRepeat? h, fun _ h => Option.some.inj h ▸ hd⟩
      else .error (.pragma (depthFault d))

/-- The same schema, registered. -/
def withId (s : Schema) (id : Nat) : Schema :=
  { s with id }

def isRevocable (s : Schema) : Bool :=
  s.depth.isSome

def claim? (s : Schema) (name : String) : Option Claim :=
  s.claims.find? (·.name == name)

end Schema

end Vouch

import Vouch.Error

/-! The names that claims may have.

A name is an ASCII identifier. It shares one namespace with the signals that every
circuit has, so it must not start like one of those that are derived, nor be one of
those that are always there. -/
namespace Vouch.Claim

def isNameStart (c : Char) : Bool :=
  c.isAlpha || c == '_'

def isNameRest (c : Char) : Bool :=
  isNameStart c || c.isDigit

def isIdentifier : List Char → Bool
  | [] => false
  | c :: rest => isNameStart c && rest.all isNameRest

/-- How the names of derived signals start. -/
def forbiddenStarts : List String := ["sig_", "out_", "in_", "agg_"]

/-- Signals of every circuit. -/
def reservedNames : List String :=
  ["version", "type", "context", "id", "identity_secret", "internal_nullifier", "external_nullifier",
    "revealing_identity", "revealing_identity_hmac", "expiration_lb", "id_equals_to", "revocation_root"]

def startsWith (name start : String) : Bool :=
  start.toList.isPrefixOf name.toList

/-- What is wrong with a name. -/
def nameFault? (name : String) : Option NameFault :=
  if isIdentifier name.toList then
    match forbiddenStarts.find? (startsWith name) with
    | some start => some (.forbiddenStart name start)
    | none => if name ∈ reservedNames then some (.reserved name) else none
  else some (.notIdentifier name)

def ValidName (name : String) : Prop :=
  isIdentifier name.toList = true ∧ (∀ start ∈ forbiddenStarts, startsWith name start = false) ∧
    name ∉ reservedNames

theorem nameFault?_eq_none_iff (name : String) : nameFault? name = none ↔ ValidName name := by
  unfold nameFault? ValidName
  by_cases hid : isIdentifier name.toList = true
  · simp only [hid, if_true, true_and]
    cases hfind : forbiddenStarts.find? (startsWith name) with
    | some start =>
      have hstart : startsWith name start = true := by simpa using List.find?_some hfind
      have hmem := List.mem_of_find?_eq_some hfind
      constructor
      · intro h
        cases h
      · rintro ⟨hall, -⟩
        rw [hall start hmem] at hstart
        cases hstart
    | none =>
      have hall : ∀ start ∈ forbiddenStarts, startsWith name start = false := by
        simpa using hfind
      by_cases hres : name ∈ reservedNames
      · simp [hres]
      · simp only [hres, if_false, not_false_eq_true, and_true, true_iff]
        exact hall
  · simp [hid]

end Vouch.Claim

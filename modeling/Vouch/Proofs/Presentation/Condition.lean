import Vouch.Presentation.Query
import Vouch.Proofs.Aligned
import Vouch.Proofs.Credential.Checked
import Vouch.Proofs.Statement

/-! What a condition asks for, and the statement that is made from it.

A condition is read without a statement: the bounds and the texts that it gives, the values
that it admits (`Condition.Admits`) and the answers that it gets (`Condition.Answer`). The
statement made from it (`Condition.Makes`) admits the same values and returns these answers,
which for a property takes that both sides hash and read alike. -/
namespace Vouch

open Digest

namespace Condition

/-! ### Readings -/

/-- The condition gives this number under a key of its value. -/
def Bound (c : Condition) (key : String) (n : Nat) : Prop :=
  ∃ value s, c.value = some value ∧ value.member? key = some (.string s) ∧ Decimal.read? s = some n

/-- The condition lists this text. -/
def Lists (c : Condition) (s : String) : Prop :=
  ∃ items, c.value = some (.array items) ∧ Json.string s ∈ items

/-- A listed text has the digest of the value's own, or is the hash that the issuer chose. -/
def Matches (c : Condition) (v : PropertyValue) : Prop :=
  match v.type.hash with
  | .keccak256 => ∃ s, c.Lists s ∧
      Keccak.truncated (Bytes.utf8 s) v.type.width = Keccak.truncated (Bytes.utf8 v.text) v.type.width
  | .custom => ∃ s, c.Lists s ∧ Decimal.read? s = some v.hash

/-- An integer lies between the bounds; every other value is admitted. -/
def Admits (c : Condition) : ClaimValue → Prop
  | .integer i => ∃ lower upper, c.Bound "from" lower ∧ c.Bound "to" upper ∧ lower ≤ i.n ∧ i.n ≤ upper
  | .property _ | .boolean _ => True

/-- What is told about a value that is admitted. -/
inductive Answer (c : Condition) : ClaimValue → List Nat → Prop
  | within {i : IntegerValue} (operation : c.operation = .within) : Answer c (.integer i) []
  | matched {v : PropertyValue} (operation : c.operation = .among) (h : c.Matches v) :
    Answer c (.property v) [1]
  | unmatched {v : PropertyValue} (operation : c.operation = .among) (h : ¬ c.Matches v) :
    Answer c (.property v) [0]
  | revealed {b : Bool} (operation : c.operation = .reveal) : Answer c (.boolean b) [b.toNat]
  | hidden {b : Bool} (operation : c.operation = .hide) : Answer c (.boolean b) []

theorem Bound.unique {c : Condition} {key : String} {m n : Nat} (hm : c.Bound key m) (hn : c.Bound key n) :
    m = n := by
  obtain ⟨value, s, hvalue, hmember, hread⟩ := hm
  obtain ⟨value', s', hvalue', hmember', hread'⟩ := hn
  obtain rfl := Option.some.inj (hvalue.symm.trans hvalue')
  cases hmember.symm.trans hmember'
  exact Option.some.inj (hread.symm.trans hread')

/-- The text of a value matches itself. -/
theorem matches_of_lists {c : Condition} {v : PropertyValue} (hhash : v.type.hash = .keccak256)
    (h : c.Lists v.text) : c.Matches v := by
  simp only [Matches, hhash]
  exact ⟨v.text, h, rfl⟩

/-! ### Constants -/

/-- The item is a text that stands for the hash in comparisons. -/
def StandsFor (p : PropertyType) (item : Json) (hash : Nat) : Prop :=
  ∃ s, item = .string s ∧
    match p.hash with
    | .keccak256 => Keccak.truncated (Bytes.utf8 s) p.width = hash
    | .custom => Decimal.read? s = some hash

theorem readConstant_eq_ok_iff {s : String} {n : Nat} : readConstant s = .ok n ↔ Decimal.read? s = some n := by
  rw [readConstant, Result.reported_eq_ok_iff, readDecimal_eq_ok_iff]

theorem constant_eq_ok_iff {p : PropertyType} {item : Json} {hash : Nat} :
    constant p item = .ok hash ↔ StandsFor p item hash := by
  unfold constant StandsFor
  constructor
  · intro h
    split at h
    · cases h
    · next s hs =>
      refine ⟨s, ClaimValue.asString?_eq_some_iff.1 hs, ?_⟩
      cases hhash : p.hash with
      | keccak256 =>
        rw [hhash] at h
        exact Except.ok.inj h
      | custom =>
        rw [hhash] at h
        exact readConstant_eq_ok_iff.1 h
  · rintro ⟨s, rfl, h⟩
    simp only [Json.asString?]
    cases hhash : p.hash with
    | keccak256 =>
      rw [hhash] at h
      exact congrArg Except.ok h
    | custom =>
      rw [hhash] at h
      exact readConstant_eq_ok_iff.2 h

theorem StandsFor.unique {p : PropertyType} {item : Json} {m n : Nat} (hm : StandsFor p item m)
    (hn : StandsFor p item n) : m = n :=
  Except.ok.inj ((constant_eq_ok_iff.2 hm).symm.trans (constant_eq_ok_iff.2 hn))

theorem bound_eq_ok_iff {value : Json} {key : String} {n : Nat} :
    bound value key = .ok n ↔ ∃ s, value.member? key = some (.string s) ∧ Decimal.read? s = some n := by
  unfold bound
  constructor
  · intro h
    split at h
    · next s hs =>
      obtain ⟨j, hj, hs⟩ := Option.bind_eq_some_iff.1 hs
      obtain rfl := ClaimValue.asString?_eq_some_iff.1 hs
      exact ⟨s, hj, readConstant_eq_ok_iff.1 h⟩
    · cases h
  · rintro ⟨s, hmember, hread⟩
    rw [hmember]
    exact readConstant_eq_ok_iff.2 hread

theorem matches_iff {c : Condition} {v : PropertyValue} :
    c.Matches v ↔ ∃ items, c.value = some (.array items) ∧ ∃ item ∈ items, StandsFor v.type item v.hash := by
  unfold Matches StandsFor Lists
  cases hhash : v.type.hash with
  | keccak256 =>
    rw [v.derived hhash]
    constructor
    · rintro ⟨s, ⟨items, hitems, hs⟩, h⟩
      exact ⟨items, hitems, _, hs, s, rfl, h⟩
    · rintro ⟨items, hitems, _, hs, s, rfl, h⟩
      exact ⟨s, ⟨items, hitems, hs⟩, h⟩
  | custom =>
    constructor
    · rintro ⟨s, ⟨items, hitems, hs⟩, h⟩
      exact ⟨items, hitems, _, hs, s, rfl, h⟩
    · rintro ⟨items, hitems, _, hs, s, rfl, h⟩
      exact ⟨s, ⟨items, hitems, hs⟩, h⟩

/-! ### Statements -/

theorem asArray?_eq_some_iff {j : Json} {items : List Json} : j.asArray? = some items ↔ j = .array items := by
  cases j <;> simp [Json.asArray?]

theorem required_eq_ok_iff {c : Condition} {value : Json} : c.required = .ok value ↔ c.value = some value := by
  rw [required]
  cases c.value <;> simp

/-- The statement about claims of a type that a condition makes. -/
inductive Makes (c : Condition) : ClaimType → Statement → Prop
  | range {r : RangeStatement} (valid : ValidWidth greatestIntegerWidth r.width)
      (operation : c.operation = .within) (lower : c.Bound "from" r.lower) (upper : c.Bound "to" r.upper) :
    Makes c (.integer r.width valid) (.range r)
  | equality {e : EqualityStatement} {items : List Json} (operation : c.operation = .among)
      (listed : c.value = some (.array items)) (constants : List.Forall₂ (StandsFor e.type) items e.constants) :
    Makes c (.property e.type) (.equality e)
  | reveal (operation : c.operation = .reveal) : Makes c .boolean (.reveal true)
  | hide (operation : c.operation = .hide) : Makes c .boolean (.reveal false)

theorem toStatement_eq_ok_iff {c : Condition} {t : ClaimType} {statement : Statement} :
    c.toStatement t = .ok statement ↔ c.Makes t statement := by
  constructor
  · intro h
    unfold toStatement at h
    split at h
    · next width valid operation =>
      obtain ⟨value, hvalue, h⟩ := Result.bind_eq_ok_iff.1 h
      obtain ⟨lower, hlower, h⟩ := Result.bind_eq_ok_iff.1 h
      obtain ⟨upper, hupper, h⟩ := Result.bind_eq_ok_iff.1 h
      obtain ⟨r, hr, h⟩ := Result.bind_eq_ok_iff.1 h
      cases h
      obtain ⟨rfl, rfl, rfl⟩ := RangeStatement.make_eq_ok_iff.1 hr
      obtain ⟨least, hleast⟩ := bound_eq_ok_iff.1 hlower
      obtain ⟨greatest, hgreatest⟩ := bound_eq_ok_iff.1 hupper
      have hrequired := required_eq_ok_iff.1 hvalue
      exact .range valid operation ⟨value, least, hrequired, hleast⟩ ⟨value, greatest, hrequired, hgreatest⟩
    · next p operation =>
      obtain ⟨value, hvalue, h⟩ := Result.bind_eq_ok_iff.1 h
      split at h
      · cases h
      · next items hitems =>
        obtain ⟨constants, hconstants, h⟩ := Result.bind_eq_ok_iff.1 h
        obtain ⟨e, he, h⟩ := Result.bind_eq_ok_iff.1 h
        cases h
        obtain ⟨rfl, rfl⟩ := EqualityStatement.make_eq_ok_iff.1 he
        obtain rfl := asArray?_eq_some_iff.1 hitems
        have hlisted := (Result.mapM_eq_ok_iff.1 hconstants).imp fun _ _ => constant_eq_ok_iff.1
        exact .equality operation (required_eq_ok_iff.1 hvalue) hlisted
    · next operation =>
      cases h
      exact .reveal operation
    · next operation =>
      cases h
      exact .hide operation
    · cases h
  · intro h
    cases h with
    | @range r valid operation lower upper =>
      obtain ⟨value, least, hvalue, hleast⟩ := lower
      obtain ⟨value', greatest, hvalue', hgreatest⟩ := upper
      obtain rfl := Option.some.inj (hvalue.symm.trans hvalue')
      simp only [toStatement, operation]
      refine Result.bind_eq_ok_iff.2 ⟨value, required_eq_ok_iff.2 hvalue, ?_⟩
      refine Result.bind_eq_ok_iff.2 ⟨r.lower, bound_eq_ok_iff.2 ⟨least, hleast⟩, ?_⟩
      refine Result.bind_eq_ok_iff.2 ⟨r.upper, bound_eq_ok_iff.2 ⟨greatest, hgreatest⟩, ?_⟩
      exact Result.bind_eq_ok_iff.2 ⟨r, r.make_self, rfl⟩
    | @equality e items operation listed constants =>
      have hconstants := Result.mapM_eq_ok_iff.2 (constants.imp fun _ _ => constant_eq_ok_iff.2)
      simp only [toStatement, operation]
      refine Result.bind_eq_ok_iff.2 ⟨.array items, required_eq_ok_iff.2 listed, ?_⟩
      refine Result.bind_eq_ok_iff.2 ⟨e.constants, hconstants, ?_⟩
      exact Result.bind_eq_ok_iff.2 ⟨e, e.make_self, rfl⟩
    | reveal operation => simp only [toStatement, operation]
    | hide operation => simp only [toStatement, operation]

/-- A constant is the hash exactly if the condition matches the value. -/
theorem holds_iff {c : Condition} {e : EqualityStatement} {items : List Json} {p : PropertyValue}
    (listed : c.value = some (.array items)) (constants : List.Forall₂ (StandsFor e.type) items e.constants)
    (type : p.type = e.type) : e.holds p.hash = true ↔ c.Matches p := by
  rw [EqualityStatement.holds_iff, matches_iff, type]
  constructor
  · intro h
    obtain ⟨item, hitem, hstands⟩ := Aligned.exists_of_mem constants.flip h
    exact ⟨items, listed, item, hitem, hstands⟩
  · rintro ⟨items', listed', item, hitem, hstands⟩
    cases listed.symm.trans listed'
    obtain ⟨k, hk, hstands'⟩ := Aligned.exists_of_mem constants hitem
    rwa [hstands.unique hstands']

namespace Makes

theorem madeFor {c : Condition} {t : ClaimType} {statement : Statement} (h : c.Makes t statement) :
    statement.MadeFor t := by
  cases h with
  | @range r => exact .inl ⟨r.lower, r.upper, Result.bind_eq_ok_iff.2 ⟨r, r.make_self, rfl⟩⟩
  | @equality e => exact .inr (.inl ⟨e.constants, Result.bind_eq_ok_iff.2 ⟨e, e.make_self, rfl⟩⟩)
  | reveal => exact .inr (.inr ⟨rfl, true, rfl⟩)
  | hide => exact .inr (.inr ⟨rfl, false, rfl⟩)

variable {c : Condition} {t : ClaimType} {v : ClaimValue} {statement : Statement}

theorem bounds {r : RangeStatement} (h : c.Makes t (.range r)) :
    c.Bound "from" r.lower ∧ c.Bound "to" r.upper := by
  cases h with
  | range _ _ lower upper => exact ⟨lower, upper⟩

/-- The statement excludes what the condition does. -/
theorem admits_iff (h : c.Makes t statement) (hv : v.type = t) : statement.Admits v ↔ c.Admits v := by
  have hconcerns := h.madeFor.concerns hv
  cases h with
  | @range r valid operation lower upper =>
    cases hconcerns with
    | @range _ i width =>
      constructor
      · exact fun hbounds => ⟨_, _, lower, upper, hbounds⟩
      · rintro ⟨_, _, hlower, hupper, hbounds⟩
        rw [Statement.Admits, lower.unique hlower, upper.unique hupper]
        exact hbounds
  | equality =>
    cases hconcerns with
    | equality => exact Iff.rfl
  | reveal | hide =>
    cases hconcerns with
    | reveal => exact Iff.rfl

/-- What the check of the statement returns is what the condition is answered. -/
theorem answer (h : c.Makes t statement) (hv : v.type = t) : c.Answer v (statement.aside v) := by
  have hconcerns := h.madeFor.concerns hv
  cases h with
  | range valid operation =>
    cases hconcerns with
    | range => exact .within operation
  | @equality e items operation listed constants =>
    cases hconcerns with
    | @equality _ p type =>
      have hmatches := holds_iff listed constants type
      rw [Statement.aside_equality]
      cases hholds : e.holds p.hash with
      | true => exact .matched operation (hmatches.1 hholds)
      | false => exact .unmatched operation fun h => Bool.false_ne_true (hholds.symm.trans (hmatches.2 h))
  | reveal operation =>
    cases hconcerns with
    | reveal => exact .revealed operation
  | hide operation =>
    cases hconcerns with
    | reveal => exact .hidden operation

end Makes

end Condition

end Vouch

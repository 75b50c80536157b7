import Vouch.Proofs.Presentation.Query

/-! Queries that cover a schema.

A query becomes a presentation exactly if its conditions name the claims of the schema, each one once,
and each of them fits its claim (`Covers`). The statement about a claim is then the one that its
condition makes, so that the order of the conditions does not matter, and whatever fails is reported as
a query that is not valid (`toPresentation_covers`). -/
namespace Vouch

open Result (FailsWith)

/-! ### Conditions that fit -/

namespace Condition

/-- A text, and where hashes are chosen by the issuer one of a width that the type has. -/
def Comparable (p : PropertyType) (item : Json) : Prop :=
  ∃ s, item = .string s ∧ (p.hash = .custom → ∃ n, Decimal.read? s = some n ∧ n < 2 ^ p.width)

/-- The condition is one that can be asked of claims of the type. -/
inductive Fits (c : Condition) : ClaimType → Prop
  | range {width lower upper : Nat} {valid : ValidWidth greatestIntegerWidth width}
      (operation : c.operation = .within) (least : c.Bound "from" lower) (greatest : c.Bound "to" upper)
      (ordered : lower ≤ upper) (fits : upper < 2 ^ width) : Fits c (.integer width valid)
  | equality {p : PropertyType} {items : List Json} (operation : c.operation = .among)
      (listed : c.value = some (.array items)) (complete : items.length = p.checks)
      (comparable : ∀ item ∈ items, Comparable p item) : Fits c (.property p)
  | reveal (operation : c.operation = .reveal) : Fits c .boolean
  | hide (operation : c.operation = .hide) : Fits c .boolean

/-- A digest is as wide as the type says, so that only hashes of an issuer can be too wide. -/
theorem comparable_iff {p : PropertyType} {item : Json} :
    Comparable p item ↔ ∃ hash, StandsFor p item hash ∧ hash < 2 ^ p.width := by
  unfold Comparable StandsFor
  cases p.hash with
  | keccak256 =>
    constructor
    · rintro ⟨s, rfl, -⟩
      exact ⟨_, ⟨s, rfl, rfl⟩, Digest.Keccak.truncated_lt _ _⟩
    · rintro ⟨_, ⟨s, rfl, -⟩, -⟩
      exact ⟨s, rfl, nofun⟩
  | custom =>
    constructor
    · rintro ⟨s, rfl, h⟩
      obtain ⟨n, hread, hlt⟩ := h rfl
      exact ⟨n, ⟨s, rfl, hread⟩, hlt⟩
    · rintro ⟨n, ⟨s, rfl, hread⟩, hlt⟩
      exact ⟨s, rfl, fun _ => ⟨n, hread, hlt⟩⟩

/-- Items that can be compared with have constants, one for each. -/
theorem exists_constants_iff {p : PropertyType} {items : List Json} :
    (∀ item ∈ items, Comparable p item) ↔
      ∃ constants, List.Forall₂ (StandsFor p) items constants ∧ ∀ k ∈ constants, k < 2 ^ p.width := by
  constructor
  · intro h
    obtain ⟨constants, hboth⟩ := Aligned.exists_forall₂_iff.2 fun item hitem => comparable_iff.1 (h item hitem)
    refine ⟨constants, hboth.imp fun _ _ => And.left, fun k hk => ?_⟩
    obtain ⟨_, -, -, hlt⟩ := Aligned.exists_of_mem hboth.flip hk
    exact hlt
  · rintro ⟨constants, hstands, hlt⟩ item hitem
    obtain ⟨k, hk, hstand⟩ := Aligned.exists_of_mem hstands hitem
    exact comparable_iff.2 ⟨k, hstand, hlt k hk⟩

/-- **A condition fits if a statement is made from it.** -/
theorem fits_iff {c : Condition} {t : ClaimType} : c.Fits t ↔ ∃ statement, c.Makes t statement := by
  constructor
  · intro h
    cases h with
    | @range width lower upper valid operation least greatest ordered fits =>
      exact ⟨_, .range (r := ⟨width, lower, upper, ordered, fits⟩) valid operation least greatest⟩
    | @equality p items operation listed complete comparable =>
      obtain ⟨constants, hstands, hlt⟩ := exists_constants_iff.1 comparable
      have hlength : constants.length = p.checks := hstands.length_eq.symm.trans complete
      exact ⟨_, .equality (e := ⟨p, constants, hlength, hlt⟩) operation listed hstands⟩
    | reveal operation => exact ⟨_, .reveal operation⟩
    | hide operation => exact ⟨_, .hide operation⟩
  · rintro ⟨statement, h⟩
    cases h with
    | @range r valid operation least greatest => exact .range operation least greatest r.ordered r.fits
    | @equality e items operation listed constants =>
      exact .equality operation listed (constants.length_eq.trans e.complete)
        (exists_constants_iff.2 ⟨_, constants, e.fit⟩)
    | reveal operation => exact .reveal operation
    | hide operation => exact .hide operation

theorem Makes.unique {c : Condition} {t : ClaimType} {first second : Statement} (h : c.Makes t first)
    (h' : c.Makes t second) : first = second :=
  Except.ok.inj ((toStatement_eq_ok_iff.2 h).symm.trans (toStatement_eq_ok_iff.2 h'))

end Condition

/-! ### Kinds of error -/

theorem RangeStatement.make_failsWith (width lower upper : Nat) :
    FailsWith [.invalidQuery] (RangeStatement.make width lower upper) := by
  unfold make
  split
  · split
    · exact .ok _
    · exact .own _
  · exact .own _

theorem EqualityStatement.make_failsWith (p : PropertyType) (constants : List Nat) :
    FailsWith [.invalidQuery] (EqualityStatement.make p constants) := by
  unfold make
  split
  · split
    · exact .own _
    · exact .ok _
  · exact .own _

namespace Statement

theorem makeRange_failsWith (t : ClaimType) (lower upper : Nat) :
    FailsWith [.invalidQuery] (makeRange t lower upper) := by
  unfold makeRange
  split
  · exact .bind (RangeStatement.make_failsWith _ _ _) fun _ => .ok _
  · exact .own _

theorem makeEquality_failsWith (t : ClaimType) (constants : List Nat) :
    FailsWith [.invalidQuery] (makeEquality t constants) := by
  unfold makeEquality
  split
  · exact .bind (EqualityStatement.make_failsWith _ _) fun _ => .ok _
  · exact .own _

end Statement

theorem Presentation.make_failsWith (expirationLb : UInt64) (idEqualsTo : Nat) (statements : List Statement) :
    FailsWith [.invalidQuery] (Presentation.make expirationLb idEqualsTo statements) := by
  unfold make
  split
  · exact .ok _
  · exact .own _

namespace Condition

theorem required_failsWith (c : Condition) : FailsWith [.invalidQuery] c.required := by
  unfold required
  split
  · exact .ok _
  · exact .own _

theorem readConstant_failsWith (s : String) : FailsWith [.invalidQuery] (readConstant s) :=
  .reported (List.mem_singleton_self _) _

theorem bound_failsWith (value : Json) (key : String) : FailsWith [.invalidQuery] (bound value key) := by
  unfold bound
  split
  · exact readConstant_failsWith _
  · exact .own _

theorem constant_failsWith (p : PropertyType) (item : Json) : FailsWith [.invalidQuery] (constant p item) := by
  unfold constant
  split
  · exact .own _
  · split
    · exact .ok _
    · exact readConstant_failsWith _

theorem toStatement_failsWith (c : Condition) (t : ClaimType) : FailsWith [.invalidQuery] (c.toStatement t) := by
  unfold toStatement
  split
  · refine .bind c.required_failsWith fun value => .bind (bound_failsWith _ _) fun _ => ?_
    exact .bind (bound_failsWith _ _) fun _ => Statement.makeRange_failsWith _ _ _
  · refine .bind c.required_failsWith fun value => ?_
    split
    · exact .own _
    · exact .bind (.mapM (constant_failsWith _) _) fun _ => Statement.makeEquality_failsWith _ _
  · exact .ok _
  · exact .ok _
  · exact .own _

end Condition

namespace Query

theorem checkNames_failsWith (s : Schema) (seen : List String) (conditions : List Condition) :
    FailsWith [.invalidQuery] (checkNames s seen conditions) := by
  induction conditions generalizing seen with
  | nil => exact .ok _
  | cons c rest ih =>
    unfold checkNames
    split
    · exact .own _
    · split
      · exact .own _
      · exact ih _

theorem statementFor_failsWith (q : Query) (claim : Claim) : FailsWith [.invalidQuery] (q.statementFor claim) := by
  unfold statementFor
  split
  · exact .own _
  · exact .within _ (Condition.toStatement_failsWith _ _)

theorem toPresentation_failsWith (q : Query) (s : Schema) : FailsWith [.invalidQuery] (q.toPresentation s) := by
  unfold toPresentation
  refine .bind (checkNames_failsWith _ _ _) fun _ => ?_
  exact .bind (.mapM q.statementFor_failsWith _) fun _ => Presentation.make_failsWith _ _ _

/-! ### Coverage -/

/-- The conditions are those of the claims. -/
structure Covers (q : Query) (s : Schema) : Prop where
  names : (q.conditions.map Condition.claim).Perm (s.claims.map Claim.name)
  fits : ∀ claim ∈ s.claims, ∀ c, q.Asks claim c → c.Fits claim.type
  idFits : q.options.idEqualsTo < 2 ^ idWidth

/-- The claim has one condition, and one statement is made from it. -/
def Determines (q : Query) (claim : Claim) (statement : Statement) : Prop :=
  ∃ c, (∀ d, q.Asks claim d ↔ d = c) ∧ ∀ made, c.Makes claim.type made ↔ made = statement

variable {q : Query} {s : Schema} {p : Presentation}

/-- Conditions name the claims in some order if they have distinct names, all of them names of claims,
and no claim is left out. -/
theorem names_perm_iff : (q.conditions.map Condition.claim).Perm (s.claims.map Claim.name) ↔
    ((∀ c ∈ q.conditions, (s.claim? c.claim).isSome = true) ∧ (q.conditions.map Condition.claim).Nodup) ∧
      ∀ claim ∈ s.claims, ∃ c, q.Asks claim c := by
  have hknown (name : String) : (s.claim? name).isSome = true ↔ name ∈ s.claims.map Claim.name := by
    simp [Schema.claim?, List.find?_isSome]
  have hasked (claim : Claim) : (∃ c, q.Asks claim c) ↔ claim.name ∈ q.conditions.map Condition.claim :=
    List.mem_map.symm
  simp only [hknown, hasked]
  constructor
  · intro h
    refine ⟨⟨fun c hc => ?_, h.nodup_iff.2 s.distinct⟩, fun claim hclaim => ?_⟩
    · exact h.mem_iff.1 (List.mem_map_of_mem hc)
    · exact h.mem_iff.2 (List.mem_map_of_mem hclaim)
  · rintro ⟨⟨hnamed, hnodup⟩, hall⟩
    refine (List.perm_ext_iff_of_nodup hnodup s.distinct).2 fun name => ?_
    rw [List.mem_map (f := Condition.claim), List.mem_map (f := Claim.name)]
    constructor
    · rintro ⟨c, hc, rfl⟩
      exact List.mem_map.1 (hnamed c hc)
    · rintro ⟨claim, hclaim, rfl⟩
      exact List.mem_map.1 (hall claim hclaim)

/-- **A query becomes a presentation exactly if it covers the schema.** -/
theorem exists_toPresentation_iff : (∃ p, q.toPresentation s = .ok p) ↔ q.Covers s := by
  constructor
  · rintro ⟨p, h⟩
    obtain ⟨hnames, hstatements, -, hid⟩ := toPresentation_eq_ok_iff.1 h
    refine ⟨names_perm_iff.2 ⟨hnames, fun claim hclaim => ?_⟩, fun claim hclaim c hc => ?_, hid ▸ p.idFits⟩
    · obtain ⟨_, -, c, hc, -⟩ := Aligned.exists_of_mem hstatements hclaim
      exact ⟨c, hc⟩
    · obtain ⟨statement, -, d, hd, hmakes⟩ := Aligned.exists_of_mem hstatements hclaim
      rw [hc.unique hnames.2 hd]
      exact Condition.fits_iff.2 ⟨statement, hmakes⟩
  · intro h
    -- Every claim is asked for, and what is asked of it makes a statement.
    obtain ⟨hnames, hasked⟩ := names_perm_iff.1 h.names
    obtain ⟨statements, hstatements⟩ : ∃ statements, List.Forall₂
        (fun claim statement => ∃ c, q.Asks claim c ∧ c.Makes claim.type statement) s.claims statements := by
      refine Aligned.exists_forall₂_iff.2 fun claim hclaim => ?_
      obtain ⟨c, hc⟩ := hasked claim hclaim
      obtain ⟨statement, hmakes⟩ := Condition.fits_iff.1 (h.fits claim hclaim c hc)
      exact ⟨statement, c, hc, hmakes⟩
    let p : Presentation := ⟨q.options.expirationLb, q.options.idEqualsTo, statements, h.idFits⟩
    exact ⟨p, toPresentation_eq_ok_iff.2 ⟨hnames, hstatements, rfl, rfl⟩⟩

theorem determines_of_toPresentation (h : q.toPresentation s = .ok p) :
    List.Forall₂ q.Determines s.claims p.statements := by
  obtain ⟨⟨-, hnodup⟩, hstatements, -⟩ := toPresentation_eq_ok_iff.1 h
  refine hstatements.imp fun claim statement => ?_
  rintro ⟨c, hc, hmakes⟩
  refine ⟨c, fun d => ⟨fun hd => hd.unique hnodup hc, ?_⟩, fun made => ⟨fun h => h.unique hmakes, ?_⟩⟩
  · rintro rfl
    exact hc
  · rintro rfl
    exact hmakes

/-- What a query becomes does not depend on the order of its conditions. -/
theorem toPresentation_eq_ok_iff_of_perm {r : Query} (hconditions : r.conditions.Perm q.conditions)
    (hoptions : r.options = q.options) : r.toPresentation s = .ok p ↔ q.toPresentation s = .ok p := by
  have hasks (claim : Claim) (c : Condition) : r.Asks claim c ↔ q.Asks claim c :=
    and_congr_left fun _ => hconditions.mem_iff
  simp only [toPresentation_eq_ok_iff, hasks, hconditions.mem_iff, hoptions,
    (hconditions.map Condition.claim).nodup_iff]

/-- **Queries cover the claims exactly, in any order.** -/
theorem toPresentation_covers (q : Query) (s : Schema) :
    ((∃ p, q.toPresentation s = .ok p) ↔ q.Covers s) ∧
    (∀ p, q.toPresentation s = .ok p → List.Forall₂ q.Determines s.claims p.statements ∧
      p.expirationLb = q.options.expirationLb ∧ p.idEqualsTo = q.options.idEqualsTo) ∧
    (∀ r : Query, r.conditions.Perm q.conditions → r.options = q.options →
      ∀ p, r.toPresentation s = .ok p ↔ q.toPresentation s = .ok p) ∧
    FailsWith [.invalidQuery] (q.toPresentation s) :=
  ⟨exists_toPresentation_iff,
    fun _ h => ⟨determines_of_toPresentation h, (toPresentation_eq_ok_iff.1 h).2.2⟩,
    fun _ hconditions hoptions _ => toPresentation_eq_ok_iff_of_perm hconditions hoptions,
    q.toPresentation_failsWith s⟩

end Query

/-- The conditions about the club may be turned around, and none of them can be left out. -/
theorem toPresentation_covers_club :
    clubQuery.Covers clubSchema ∧
    { clubQuery with conditions := clubQuery.conditions.reverse }.toPresentation clubSchema =
      .ok clubPresentation ∧
    ∃ e, { clubQuery with conditions := clubQuery.conditions.tail }.toPresentation clubSchema = .error e ∧
      e.kind = .invalidQuery := by
  obtain ⟨hcovers, -, hperm, -⟩ := Query.toPresentation_covers clubQuery clubSchema
  refine ⟨hcovers.1 ⟨_, toPresentation_clubQuery⟩, ?_, ?_⟩
  · exact (hperm { clubQuery with conditions := clubQuery.conditions.reverse } (List.reverse_perm _) rfl _).2
      toPresentation_clubQuery
  · obtain ⟨hcovers, -, -, hfails⟩ :=
      Query.toPresentation_covers { clubQuery with conditions := clubQuery.conditions.tail } clubSchema
    cases h : Query.toPresentation { clubQuery with conditions := clubQuery.conditions.tail } clubSchema with
    | ok p => exact absurd (hcovers.1 ⟨p, h⟩).names.length_eq (by decide)
    | error e => exact ⟨e, rfl, List.mem_singleton.1 (hfails e h)⟩

end Vouch

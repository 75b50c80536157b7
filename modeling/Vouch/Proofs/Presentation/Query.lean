import Vouch.Proofs.Circuit.Agreement
import Vouch.Proofs.Presentation.Condition

/-! What a query asks of a credential.

A query that becomes a presentation has one condition for every claim, wherever it stands
(`toPresentation_eq_ok_iff`). The check of the presentation then says what the conditions say
of the values, read without the presentation (`answeredBy_of_toPresentation`). -/
namespace Vouch

namespace Query

/-- The condition of a claim. -/
def Asks (q : Query) (claim : Claim) (c : Condition) : Prop :=
  c ∈ q.conditions ∧ c.claim = claim.name

/-- Checking the presentation against the body answers the query. -/
structure AnsweredBy (q : Query) (p : Presentation) (b : Body) : Prop where
  asked : ∀ claim ∈ b.schema.claims, ∃! c, q.Asks claim c
  /-- The check succeeds if the conditions admit all values, and then only. -/
  succeeds : (∃ told, p.checkBody b = .ok told) ↔
    ∀ claim value, (claim, value) ∈ b.entries → ∀ c, q.Asks claim c → c.Admits value
  /-- It tells something about each claim once, and about nothing else. -/
  keys : ∀ told, p.checkBody b = .ok told → told.keys.Perm (b.schema.claims.map Claim.name)
  answers : ∀ told, p.checkBody b = .ok told → ∀ claim value, (claim, value) ∈ b.entries →
    ∀ c, q.Asks claim c → ∃ answer, told.get? claim.name = some answer ∧ c.Answer value answer
  /-- A text that is listed itself is found. -/
  listed : ∀ told, p.checkBody b = .ok told → ∀ claim v, (claim, .property v) ∈ b.entries →
    v.type.hash = .keccak256 → ∀ c, q.Asks claim c → c.Lists v.text → told.get? claim.name = some [1]
  /-- A failure names the first claim whose integer does not lie between its bounds. -/
  fails : ∀ e, p.checkBody b = .error e → ∃ before claim i after c lower upper,
    b.entries = before ++ (claim, .integer i) :: after ∧
    (∀ entry ∈ before, ∀ d, q.Asks entry.1 d → d.Admits entry.2) ∧
    q.Asks claim c ∧ c.Bound "from" lower ∧ c.Bound "to" upper ∧ ¬ (lower ≤ i.n ∧ i.n ≤ upper) ∧
    e = (Error.check (.outOfRange i.n lower upper)).within s!"claim {claim.name}"

/-! ### Conditions and claims -/

theorem checkNames_eq_ok_iff {s : Schema} {seen : List String} {conditions : List Condition} :
    checkNames s seen conditions = .ok () ↔
      (∀ c ∈ conditions, (s.claim? c.claim).isSome = true) ∧ (conditions.map Condition.claim).Nodup ∧
        ∀ c ∈ conditions, c.claim ∉ seen := by
  induction conditions generalizing seen with
  | nil => simp [checkNames]
  | cons c rest ih =>
    rw [checkNames, List.forall_mem_cons, List.map_cons, List.nodup_cons, List.forall_mem_cons]
    cases hknown : s.claim? c.claim with
    | none => simp
    | some claim =>
      by_cases hseen : c.claim ∈ seen
      · simp [hseen]
      · simp only [Option.isNone_some, Bool.false_eq_true, if_false, hseen, ih, List.mem_cons, not_or,
          Option.isSome_some, true_and, not_false_eq_true]
        constructor
        · rintro ⟨hrest, hnodup, hnew⟩
          refine ⟨hrest, ⟨fun hmem => ?_, hnodup⟩, fun d hd => (hnew d hd).2⟩
          obtain ⟨d, hd, hname⟩ := List.mem_map.1 hmem
          exact (hnew d hd).1 hname
        · rintro ⟨hrest, ⟨hfirst, hnodup⟩, hnew⟩
          refine ⟨hrest, hnodup, fun d hd => ⟨fun hname => hfirst ?_, hnew d hd⟩⟩
          exact List.mem_map.2 ⟨d, hd, hname⟩

section

variable {q : Query}

/-- Conditions of distinct names are told apart by them. -/
theorem Asks.unique (h : (q.conditions.map Condition.claim).Nodup) {claim : Claim} {c d : Condition}
    (hc : q.Asks claim c) (hd : q.Asks claim d) : c = d :=
  List.inj_on_of_nodup_map h hc.1 hd.1 (hc.2.trans hd.2.symm)

theorem statementFor_eq_ok_iff (h : (q.conditions.map Condition.claim).Nodup) {claim : Claim}
    {statement : Statement} : q.statementFor claim = .ok statement ↔
      ∃ c, q.Asks claim c ∧ c.Makes claim.type statement := by
  simp only [Asks, ← Keyed.find?_eq_some_iff h, ← Condition.toStatement_eq_ok_iff]
  rw [statementFor]
  cases q.conditions.find? (·.claim == claim.name) with
  | none => simp
  | some c => simp

theorem toPresentation_eq_ok_iff {s : Schema} {p : Presentation} :
    q.toPresentation s = .ok p ↔
      ((∀ c ∈ q.conditions, (s.claim? c.claim).isSome = true) ∧ (q.conditions.map Condition.claim).Nodup) ∧
      List.Forall₂ (fun claim statement => ∃ c, q.Asks claim c ∧ c.Makes claim.type statement)
        s.claims p.statements ∧
      p.expirationLb = q.options.expirationLb ∧ p.idEqualsTo = q.options.idEqualsTo := by
  unfold toPresentation
  simp only [Result.bind_eq_ok_iff, Result.mapM_eq_ok_iff, Presentation.make_eq_ok_iff]
  constructor
  · rintro ⟨⟨⟩, hnames, _, hstatements, hexpiration, hid, rfl⟩
    obtain ⟨hknown, hnodup, -⟩ := checkNames_eq_ok_iff.1 hnames
    exact ⟨⟨hknown, hnodup⟩, hstatements.imp fun _ _ => (statementFor_eq_ok_iff hnodup).1, hexpiration, hid⟩
  · rintro ⟨⟨hknown, hnodup⟩, hstatements, hexpiration, hid⟩
    exact ⟨(), checkNames_eq_ok_iff.2 ⟨hknown, hnodup, by simp⟩, _,
      hstatements.imp fun _ _ => (statementFor_eq_ok_iff hnodup).2, hexpiration, hid, rfl⟩

end

end Query

/-! ### Checks that fail -/

namespace Presentation

variable {p : Presentation} {b : Body}

/-- The first statement that does not admit its value is a range. -/
theorem exists_of_checkBody_eq_error (hmade : p.MadeFor b.schema) {e : Error} (h : p.checkBody b = .error e) :
    ∃ before claim i r after, p.parts b = before ++ ((claim, .integer i), .range r) :: after ∧
      (∀ part ∈ before, part.2.Admits part.1.2) ∧ ¬ (r.lower ≤ i.n ∧ i.n ≤ r.upper) ∧
      e = (Error.check (.outOfRange i.n r.lower r.upper)).within s!"claim {claim.name}" := by
  rw [checkBody, if_pos hmade.length_statements] at h
  rcases Result.bind_eq_error_iff.1 h with hstep | ⟨_, -, hreturn⟩
  · obtain ⟨before, ⟨⟨claim, value⟩, statement⟩, after, hparts, hbefore, hfirst⟩ :=
      Result.exists_of_mapM_eq_error hstep
    have hmem : ((claim, value), statement) ∈ p.parts b := by
      rw [parts, hparts]
      exact List.mem_append_right _ List.mem_cons_self
    rcases Result.bind_eq_error_iff.1 hfirst with hwithin | ⟨_, -, hreturn⟩
    · obtain ⟨e', hcheck, rfl⟩ := Result.within_eq_error_iff.1 hwithin
      have hconcerns := (wellTyped_of_mem_parts hmade hmem).2
      obtain ⟨r, i, rfl, rfl, hout, rfl⟩ := (Statement.check_eq_error_iff hconcerns).1 hcheck
      refine ⟨before, claim, i, r, after, hparts, fun part hpart => ?_, hout, rfl⟩
      obtain ⟨_, hok⟩ := hbefore part hpart
      obtain ⟨_, hok, -⟩ := Result.bind_eq_ok_iff.1 hok
      exact (Statement.check_eq_ok_iff_admits.1 (Result.within_eq_ok_iff.1 hok)).2.1
    · cases hreturn
  · cases hreturn

end Presentation

/-! ### Answers -/

namespace Query

variable {q : Query} {p : Presentation} {b : Body}

theorem exists_asks (h : q.toPresentation b.schema = .ok p) {part : (Claim × ClaimValue) × Statement}
    (hpart : part ∈ p.parts b) : ∃ c, q.Asks part.1.1 c ∧ c.Makes part.1.1.type part.2 := by
  obtain ⟨-, hstatements, -⟩ := toPresentation_eq_ok_iff.1 h
  exact List.forall₂_zip hstatements (Aligned.mem_zip_of_mem_zip_zip hpart)

theorem madeFor_of_toPresentation {s : Schema} (h : q.toPresentation s = .ok p) : p.MadeFor s := by
  obtain ⟨-, hstatements, -⟩ := toPresentation_eq_ok_iff.1 h
  exact hstatements.imp fun _ _ ⟨_, _, hmakes⟩ => hmakes.madeFor

/-- The statement about a claim is made from the condition of the claim. -/
theorem makes_of_asks (h : q.toPresentation b.schema = .ok p) {part : (Claim × ClaimValue) × Statement}
    (hpart : part ∈ p.parts b) {c : Condition} (hc : q.Asks part.1.1 c) :
    c.Makes part.1.1.type part.2 := by
  obtain ⟨⟨-, hnodup⟩, -⟩ := toPresentation_eq_ok_iff.1 h
  obtain ⟨d, hd, hmakes⟩ := exists_asks h hpart
  rwa [hc.unique hnodup hd]

theorem admits_iff_of_asks (h : q.toPresentation b.schema = .ok p) {part : (Claim × ClaimValue) × Statement}
    (hpart : part ∈ p.parts b) {c : Condition} (hc : q.Asks part.1.1 c) :
    part.2.Admits part.1.2 ↔ c.Admits part.1.2 :=
  (makes_of_asks h hpart hc).admits_iff
    (Presentation.wellTyped_of_mem_parts (madeFor_of_toPresentation h) hpart).1

/-- What is told about a claim is what its condition is answered. -/
theorem exists_answer_of_asks (h : q.toPresentation b.schema = .ok p) {told : Keyed (List Nat)}
    (hcheck : p.checkBody b = .ok told) {entry : Claim × ClaimValue} (hentry : entry ∈ b.entries)
    {c : Condition} (hc : q.Asks entry.1 c) :
    ∃ answer, told.get? entry.1.name = some answer ∧ c.Answer entry.2 answer := by
  have hmade := madeFor_of_toPresentation h
  rw [← Presentation.map_fst_parts hmade.length_statements] at hentry
  obtain ⟨part, hpart, rfl⟩ := List.mem_map.1 hentry
  obtain ⟨aux, haux, hget⟩ := Presentation.get?_of_checkBody hcheck hpart
  obtain ⟨-, -, rfl⟩ := Statement.check_eq_ok_iff_admits.1 haux
  have htype := (Presentation.wellTyped_of_mem_parts hmade hpart).1
  exact ⟨_, hget, (makes_of_asks h hpart hc).answer htype⟩

theorem exists_checkBody_iff_of_toPresentation (h : q.toPresentation b.schema = .ok p) :
    (∃ told, p.checkBody b = .ok told) ↔
      ∀ entry ∈ b.entries, ∀ c, q.Asks entry.1 c → c.Admits entry.2 := by
  have hmade := madeFor_of_toPresentation h
  rw [Presentation.exists_checkBody_iff_admits hmade, ← Presentation.map_fst_parts hmade.length_statements,
    List.forall_mem_map]
  refine forall₂_congr fun part hpart => ?_
  obtain ⟨c, hc, -⟩ := exists_asks h hpart
  exact ⟨fun hadmits d hd => (admits_iff_of_asks h hpart hd).1 hadmits,
    fun hall => (admits_iff_of_asks h hpart hc).2 (hall c hc)⟩

theorem existsUnique_asks {s : Schema} (h : q.toPresentation s = .ok p) {claim : Claim}
    (hclaim : claim ∈ s.claims) : ∃! c, q.Asks claim c := by
  obtain ⟨⟨-, hnodup⟩, hstatements, -⟩ := toPresentation_eq_ok_iff.1 h
  obtain ⟨_, -, c, hc, -⟩ := Aligned.exists_of_mem hstatements hclaim
  exact ⟨c, hc, fun d hd => hd.unique hnodup hc⟩

/-- A check stops at the first claim that is out of bounds. -/
theorem exists_of_checkBody_eq_error (h : q.toPresentation b.schema = .ok p) {e : Error}
    (hcheck : p.checkBody b = .error e) :
    ∃ before claim i after c lower upper, b.entries = before ++ (claim, .integer i) :: after ∧
      (∀ entry ∈ before, ∀ d, q.Asks entry.1 d → d.Admits entry.2) ∧
      q.Asks claim c ∧ c.Bound "from" lower ∧ c.Bound "to" upper ∧ ¬ (lower ≤ i.n ∧ i.n ≤ upper) ∧
      e = (Error.check (.outOfRange i.n lower upper)).within s!"claim {claim.name}" := by
  have hmade := madeFor_of_toPresentation h
  obtain ⟨before, claim, i, r, after, hparts, hbefore, hout, rfl⟩ :=
    Presentation.exists_of_checkBody_eq_error hmade hcheck
  have hmem : ((claim, .integer i), .range r) ∈ p.parts b :=
    hparts ▸ List.mem_append_right _ List.mem_cons_self
  obtain ⟨c, hc, hmakes⟩ := exists_asks h hmem
  obtain ⟨lower, upper⟩ := hmakes.bounds
  refine ⟨before.map Prod.fst, claim, i, after.map Prod.fst, c, r.lower, r.upper, ?_, ?_, hc, lower, upper,
    hout, rfl⟩
  · rw [← Presentation.map_fst_parts hmade.length_statements, hparts, List.map_append, List.map_cons]
  · rw [List.forall_mem_map]
    intro part hpart d hd
    have hmem : part ∈ p.parts b := hparts ▸ List.mem_append_left _ hpart
    exact (admits_iff_of_asks h hmem hd).1 (hbefore part hpart)

/-- **The check of a presentation answers the query that it was made from.** -/
theorem answeredBy_of_toPresentation (h : q.toPresentation b.schema = .ok p) : q.AnsweredBy p b where
  asked _ := existsUnique_asks h
  succeeds := by
    rw [exists_checkBody_iff_of_toPresentation h, Prod.forall]
  keys _ hcheck := Presentation.keys_of_checkBody hcheck
  answers _ hcheck _ _ hentry _ hc := exists_answer_of_asks h hcheck hentry hc
  listed _ hcheck _ v hentry hhash c hc hlists := by
    obtain ⟨answer, hget, hanswer⟩ := exists_answer_of_asks h hcheck hentry hc
    cases hanswer with
    | matched => exact hget
    | unmatched _ hnone => exact absurd (Condition.matches_of_lists hhash hlists) hnone
  fails _ := exists_of_checkBody_eq_error h

end Query

/-! ### A query about the club -/

/-- The conditions of a query may come in any order. -/
def clubQuery : Query where
  conditions :=
    [⟨"paid", .reveal, none⟩,
      ⟨"name", .among, some (.array [.string "3", .string "05"])⟩,
      ⟨"balance", .within, some (.object [("from", .string "0"), ("to", .decimal (2 ^ 200))])⟩,
      ⟨"age", .within, some (.object [("to", .string "255"), ("from", .string "18")])⟩]
  options :=
    { expirationLb := 10
      externalNullifier := 0
      idEqualsTo := 8
      pseudonym := 0 }

theorem toPresentation_clubQuery : clubQuery.toPresentation clubSchema = .ok clubPresentation :=
  Result.eq_ok_of_toOption (by decide +kernel)

/-- It is answered for somebody of 42 years, who is called by the second code. -/
theorem answeredBy_of_toPresentation_club :
    ∃ b : Body, clubQuery.toPresentation b.schema = .ok clubPresentation ∧
      (∃ told, clubPresentation.checkBody b = .ok told ∧ told.get? "name" = some [1]) ∧
      clubQuery.AnsweredBy clubPresentation b :=
  let b := clubBody 42 (2 ^ 130) 5 (by decide) (by decide) (by decide)
  ⟨b, toPresentation_clubQuery, ⟨_, rfl, rfl⟩, Query.answeredBy_of_toPresentation toPresentation_clubQuery⟩

end Vouch

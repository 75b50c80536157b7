import Vouch.Claim.Expression
import Vouch.Proofs.Result
import Vouch.Proofs.Schema.Grammar

/-! Type expressions read from text.

The reader goes from an expression to its word and what is in brackets, from there to the
parameters, and from the word and the parameters to a type. Each step is inverted by itself,
and together they take exactly what the grammar has (`ClaimType.parse_eq_ok_iff_written`). Blanks
behind a bare word are read too, so the expression has to be trimmed. -/
namespace Vouch

open Text (Blank Tight Padded trim trimLeft splitOn isBlank span_eq_iff trimLeft_eq_cons_iff)
open Decimal (Numeral)

/-! ### Brackets -/

theorem forall_bne_iff {opening closing : Char} {cs : List Char} :
    (∀ c ∈ cs, (c != opening && c != closing) = true) ↔ opening ∉ cs ∧ closing ∉ cs := by
  simp only [Bool.and_eq_true, bne_iff_ne]
  constructor
  · exact fun h => ⟨fun hc => (h _ hc).1 rfl, fun hc => (h _ hc).2 rfl⟩
  · rintro ⟨hopening, hclosing⟩ c hc
    exact ⟨fun he => hopening (he ▸ hc), fun he => hclosing (he ▸ hc)⟩

/-- What stands in brackets behind a word: blanks may come first, and no bracket is inside. -/
theorem brackets_iff {opening closing : Char} (hopening : isBlank opening = false) {rest inner : List Char} :
    (∃ rest', trimLeft rest = opening :: rest' ∧
      rest'.span (fun c => c != opening && c != closing) = (inner, [closing])) ↔
    (opening ∉ inner ∧ closing ∉ inner) ∧
      ∃ gap, Blank gap ∧ rest = gap ++ opening :: inner ++ [closing] := by
  simp only [trimLeft_eq_cons_iff, span_eq_iff, forall_bne_iff]
  constructor
  · rintro ⟨_, ⟨-, gap, hgap, rfl⟩, hinner, -, rfl⟩
    exact ⟨hinner, gap, hgap, by simp⟩
  · rintro ⟨hinner, gap, hgap, rfl⟩
    exact ⟨inner ++ [closing], ⟨hopening, gap, hgap, by simp⟩, hinner, by simp, rfl⟩

/-- A word ends where a blank comes. -/
theorem span_word {p : Char → Bool} (hp : ∀ c, isBlank c = true → p c = false) {word gap : List Char}
    (hword : ∀ c ∈ word, p c = true) (hgap : Blank gap) (rest : List Char)
    (hrest : ∀ c ∈ rest.head?, p c = false) :
    (word ++ (gap ++ rest)).span p = (word, gap ++ rest) := by
  refine span_eq_iff.2 ⟨hword, ?_, rfl⟩
  cases gap with
  | nil => exact hrest
  | cons first gap =>
    rintro c hc
    cases hc
    exact hp _ (hgap _ List.mem_cons_self)

/-! ### Parameters -/

theorem PropertyHash.ofName_eq_ok_iff {name : String} {hash : PropertyHash} :
    ofName name = .ok hash ↔ name = hash.name := by
  unfold ofName
  constructor
  · intro h
    split at h
    · next found hfound =>
      cases h
      exact (beq_iff_eq.1 (List.find?_some hfound :)).symm
    · cases h
  · rintro rfl
    cases hash with
    | keccak256 => rfl
    | custom => rfl

namespace ClaimType

theorem makeInteger_eq_ok_iff {width : Nat} {t : ClaimType} :
    makeInteger width = .ok t ↔ ∃ valid, t = .integer width valid := by
  unfold makeInteger
  constructor
  · intro h
    split at h
    · next valid => exact ⟨valid, (Except.ok.inj h).symm⟩
    · cases h
  · rintro ⟨valid, rfl⟩
    rw [dif_pos valid]

theorem makeProperty_eq_ok_iff {width checks : Nat} {hash : PropertyHash} {t : ClaimType} :
    makeProperty width hash checks = .ok t ↔
      ∃ p : PropertyType, p.width = width ∧ p.hash = hash ∧ p.checks = checks ∧ t = .property p := by
  unfold makeProperty
  constructor
  · intro h
    split at h
    · split at h
      · exact ⟨_, rfl, rfl, rfl, (Except.ok.inj h).symm⟩
      · cases h
    · cases h
  · rintro ⟨p, rfl, rfl, rfl, rfl⟩
    rw [dif_pos p.validWidth, dif_pos p.validChecks]

theorem readParameter_eq_ok_iff {cs : List Char} {n : Nat} :
    readParameter cs = .ok n ↔ Numeral n cs ∧ n < 2 ^ 32 := by
  rw [Decimal.numeral_iff]
  unfold readParameter
  constructor
  · intro h
    split at h
    · next hdigits =>
      split at h
      · next hlt =>
        cases h
        exact ⟨⟨hdigits, rfl⟩, hlt⟩
      · cases h
    · cases h
  · rintro ⟨⟨hdigits, rfl⟩, hlt⟩
    rw [if_pos hdigits, if_pos hlt]

/-! ### Expressions -/

/-- A word that opens a type expression. -/
def IsWord (cs : List Char) : Prop :=
  cs ≠ [] ∧ ∀ c ∈ cs, c.isLower = true

theorem isWord_of_all {cs : List Char} (h : (!cs.isEmpty && cs.all Char.isLower) = true) : IsWord cs := by
  simpa [IsWord] using h

theorem isNameRest_of_isLower {c : Char} (h : c.isLower = true) : Claim.isNameRest c = true := by
  have hletter : c.isAlpha = true := Bool.or_eq_true_iff.2 (.inr h)
  simp [Claim.isNameRest, Claim.isNameStart, hletter]

theorem isLower_of_isBlank {c : Char} (h : isBlank c = true) : c.isLower = false := by
  by_contra hlower
  rw [Bool.not_eq_false] at hlower
  exact Bool.false_ne_true ((isNameRest_of_isBlank h).symm.trans (isNameRest_of_isLower hlower))

/-- The word stands alone, or before this in brackets. -/
def Opens (word cs : List Char) : Option (List Char) → Prop
  | none => ∃ gap, Blank gap ∧ cs = word ++ gap
  | some inner => ('<' ∉ inner ∧ '>' ∉ inner) ∧ Bracketed (String.ofList word) '<' '>' inner cs

theorem opens_of_splitExpression? {cs word : List Char} {inner : Option (List Char)}
    (h : splitExpression? cs = some (word, inner)) : IsWord word ∧ Opens word cs inner := by
  unfold splitExpression? at h
  generalize hspan : cs.span Char.isLower = parts at h
  obtain ⟨start, rest⟩ := parts
  obtain ⟨hlower, -, rfl⟩ := span_eq_iff.1 hspan
  dsimp only at h
  split at h
  · cases h
  · next hne =>
    have hword : IsWord start := ⟨by simpa using hne, hlower⟩
    split at h
    · next hrest =>
      cases h
      exact ⟨hword, rest, List.dropWhile_eq_nil_iff.1 hrest, rfl⟩
    · next rest' hrest =>
      split at h
      · next inner' hinner =>
        cases h
        obtain ⟨hfree, gap, hgap, rfl⟩ := (brackets_iff rfl).1 ⟨rest', hrest, hinner⟩
        exact ⟨hword, hfree, gap, hgap, by simp⟩
      · cases h
    · cases h

theorem splitExpression?_of_opens {cs word : List Char} {inner : Option (List Char)} (hword : IsWord word)
    (h : Opens word cs inner) : splitExpression? cs = some (word, inner) := by
  have hne : word.isEmpty = false := by simpa using hword.1
  unfold splitExpression?
  cases inner with
  | none =>
    obtain ⟨gap, hgap, rfl⟩ := h
    have hspan := span_word (fun _ => isLower_of_isBlank) hword.2 hgap [] nofun
    have hrest : gap.dropWhile isBlank = [] := List.dropWhile_eq_nil_iff.2 hgap
    rw [List.append_nil] at hspan
    simp only [hspan, hne, hrest, Bool.false_eq_true, if_false]
  | some inner =>
    obtain ⟨hfree, gap, hgap, rfl⟩ := h
    have hspan := span_word (fun _ => isLower_of_isBlank) hword.2 hgap ('<' :: inner ++ ['>'])
      (by rintro c hc; cases hc; rfl)
    obtain ⟨rest, hrest, hinner⟩ := (brackets_iff rfl).2 ⟨hfree, gap, hgap, rfl⟩
    rw [trimLeft] at hrest
    simp only [String.toList_ofList, List.append_assoc] at hspan hrest ⊢
    simp only [hspan, hne, hrest, hinner, Bool.false_eq_true, if_false]

theorem parametersOf_eq_nil_iff {inner : Option (List Char)} :
    parametersOf inner = [] ↔ ∀ text ∈ inner, Blank text := by
  cases inner with
  | none => exact iff_of_true rfl nofun
  | some text =>
    have hsplit := Text.splitOn_ne_nil ',' text
    simp [parametersOf, hsplit, Blank]

theorem parametersOf_of_splitOn {text : List Char} {parts : List (List Char)}
    (hsplit : splitOn ',' text = parts) {part : List Char} (hpart : part ∈ parts) (hblank : ¬ Blank part) :
    parametersOf (some text) = parts.map trim := by
  have hnot : ¬ text.all isBlank = true := by
    intro hall
    rw [← hsplit] at hpart
    exact hblank fun c hc => List.all_eq_true.1 hall c (Text.mem_of_mem_splitOn hpart hc)
  rw [parametersOf, if_neg hnot, hsplit]

theorem exists_parts_of_parametersOf {inner : Option (List Char)} {parameters : List (List Char)}
    (h : parametersOf inner = parameters) (hne : parameters ≠ []) :
    ∃ parts, inner = some ([','].intercalate parts) ∧ parts.map trim = parameters := by
  unfold parametersOf at h
  split at h
  · exact absurd h.symm hne
  · next text =>
    split at h
    · exact absurd h.symm hne
    · obtain ⟨-, -, htext⟩ := Text.splitOn_eq_iff.1 (rfl : splitOn ',' text = _)
      exact ⟨_, congrArg some htext, h⟩

/-! ### Types -/

/-- The word of a type and its parameters. -/
inductive Parameters : ClaimType → String → List (List Char) → Prop
  | integer {width : Nat} (valid : ValidWidth greatestIntegerWidth width) {parameter : List Char} :
      Numeral width parameter → Parameters (.integer width valid) "uint" [parameter]
  | property (p : PropertyType) {width hash checks : List Char} :
      Numeral p.width width → String.ofList hash = p.hash.name → Numeral p.checks checks →
        Parameters (.property p) "prop" [width, hash, checks]
  | boolean : Parameters .boolean "bool" []

theorem ValidWidth.lt {greatest width : Nat} (h : ValidWidth greatest width) (hgreatest : greatest ≤ 256) :
    width < 2 ^ 32 :=
  (h.2.1.trans hgreatest).trans_lt (by decide)

theorem parse_eq_ok_iff {expression : String} {t : ClaimType} :
    parse expression = .ok t ↔ ∃ word inner, splitExpression? expression.toList = some (word, inner) ∧
      t.Parameters (String.ofList word) (parametersOf inner) := by
  unfold parse
  constructor
  · intro h
    split at h
    · cases h
    · next word inner hsplit =>
      refine ⟨word, inner, hsplit, ?_⟩
      generalize String.ofList word = name at h ⊢
      generalize parametersOf inner = parameters at h ⊢
      dsimp only at h
      split at h
      · split at h
        · next parameter =>
          obtain ⟨width, hwidth, h⟩ := Result.bind_eq_ok_iff.1 h
          obtain ⟨valid, rfl⟩ := makeInteger_eq_ok_iff.1 h
          exact .integer valid (readParameter_eq_ok_iff.1 hwidth).1
        · cases h
      · split at h
        · obtain ⟨width, hwidth, h⟩ := Result.bind_eq_ok_iff.1 h
          obtain ⟨hash, hhash, h⟩ := Result.bind_eq_ok_iff.1 h
          obtain ⟨checks, hchecks, h⟩ := Result.bind_eq_ok_iff.1 h
          obtain ⟨p, rfl, rfl, rfl, rfl⟩ := makeProperty_eq_ok_iff.1 h
          exact .property p (readParameter_eq_ok_iff.1 hwidth).1 (PropertyHash.ofName_eq_ok_iff.1 hhash)
            (readParameter_eq_ok_iff.1 hchecks).1
        · cases h
      · split at h
        · next hempty =>
          cases h
          rw [List.isEmpty_iff.1 hempty]
          exact .boolean
        · cases h
      · cases h
  · rintro ⟨word, inner, hsplit, h⟩
    rw [hsplit]
    dsimp only
    generalize String.ofList word = name at h ⊢
    generalize parametersOf inner = parameters at h ⊢
    cases h with
    | integer valid hwidth =>
      have hread := readParameter_eq_ok_iff.2 ⟨hwidth, ValidWidth.lt valid (by decide)⟩
      exact Result.bind_eq_ok_iff.2 ⟨_, hread, makeInteger_eq_ok_iff.2 ⟨valid, rfl⟩⟩
    | property p hwidth hhash hchecks =>
      have hreadWidth := readParameter_eq_ok_iff.2 ⟨hwidth, ValidWidth.lt p.validWidth (by decide)⟩
      have hreadChecks := readParameter_eq_ok_iff.2 ⟨hchecks, p.validChecks.2.trans_lt (by decide)⟩
      have hmake := makeProperty_eq_ok_iff.2 ⟨p, rfl, rfl, rfl, rfl⟩
      exact Result.bind_eq_ok_iff.2 ⟨_, hreadWidth, Result.bind_eq_ok_iff.2 ⟨_,
        PropertyHash.ofName_eq_ok_iff.2 hhash, Result.bind_eq_ok_iff.2 ⟨_, hreadChecks, hmake⟩⟩⟩
    | boolean => rfl

theorem padded_numeral_iff {n : Nat} {cs : List Char} : Padded (Numeral n) cs ↔ Numeral n (trim cs) :=
  padded_plain_iff (plain_numeral n)

theorem padded_hash_iff {hash : PropertyHash} {cs : List Char} :
    Padded (· = hash.name.toList) cs ↔ trim cs = hash.name.toList :=
  padded_plain_iff (plain_hashName hash).of_eq

theorem not_blank_of_numeral {n : Nat} {cs : List Char} (h : Padded (Numeral n) cs) : ¬ Blank cs := by
  intro hblank
  have hnumeral := padded_numeral_iff.1 h
  rw [Text.trim_eq_nil_iff.2 hblank, Decimal.numeral_iff] at hnumeral
  exact Bool.false_ne_true hnumeral.1

theorem parse_of_written {t : ClaimType} {cs : List Char} (h : t.Written cs) :
    parse (String.ofList cs) = .ok t := by
  rw [parse_eq_ok_iff, String.toList_ofList]
  cases h with
  | @integer width valid parameter _ hparameter h =>
    have hloose : Loose parameter := loose_of_padded (plain_numeral width) hparameter
    have hopens : Opens "uint".toList cs (some parameter) :=
      ⟨⟨hloose.not_mem rfl rfl, hloose.not_mem rfl rfl⟩, h⟩
    have hsplit : splitOn ',' parameter = [parameter] := Text.splitOn_of_not_mem (hloose.not_mem rfl rfl)
    refine ⟨_, _, splitExpression?_of_opens (isWord_of_all rfl) hopens, ?_⟩
    rw [parametersOf_of_splitOn hsplit List.mem_cons_self (not_blank_of_numeral hparameter)]
    exact .integer valid (padded_numeral_iff.1 hparameter)
  | @property p width hash checks _ hwidth hhash hchecks h =>
    have hlooseWidth : Loose width := loose_of_padded (plain_numeral p.width) hwidth
    have hlooseHash : Loose hash := loose_of_padded (plain_hashName p.hash).of_eq hhash
    have hlooseChecks : Loose checks := loose_of_padded (plain_numeral p.checks) hchecks
    have hfree {mark : Char} (hblank : isBlank mark = false) (hname : Claim.isNameRest mark = false)
        (hcomma : mark ≠ ',') : mark ∉ width ++ ',' :: hash ++ ',' :: checks := by
      simp [hlooseWidth.not_mem hblank hname, hlooseHash.not_mem hblank hname,
        hlooseChecks.not_mem hblank hname, hcomma]
    have hopens : Opens "prop".toList cs (some (width ++ ',' :: hash ++ ',' :: checks)) :=
      ⟨⟨hfree rfl rfl (by decide), hfree rfl rfl (by decide)⟩, h⟩
    have hsplit : splitOn ',' (width ++ ',' :: hash ++ ',' :: checks) = [width, hash, checks] := by
      rw [Text.splitOn_append_cons, Text.splitOn_append_cons,
        Text.splitOn_of_not_mem (hlooseWidth.not_mem rfl rfl),
        Text.splitOn_of_not_mem (hlooseHash.not_mem rfl rfl),
        Text.splitOn_of_not_mem (hlooseChecks.not_mem rfl rfl)]
      rfl
    refine ⟨_, _, splitExpression?_of_opens (isWord_of_all rfl) hopens, ?_⟩
    rw [parametersOf_of_splitOn hsplit List.mem_cons_self (not_blank_of_numeral hwidth)]
    exact .property p (padded_numeral_iff.1 hwidth) (by rw [padded_hash_iff.1 hhash, String.ofList_toList])
      (padded_numeral_iff.1 hchecks)
  | boolean => exact ⟨_, none, splitExpression?_of_opens (isWord_of_all rfl) ⟨[], Text.blank_nil, rfl⟩, .boolean⟩
  | @booleanEmpty inner _ hinner h =>
    have hloose : Loose inner := fun c hc => .inl (hinner c hc)
    have hopens : Opens "bool".toList cs (some inner) :=
      ⟨⟨hloose.not_mem rfl rfl, hloose.not_mem rfl rfl⟩, h⟩
    refine ⟨_, _, splitExpression?_of_opens (isWord_of_all rfl) hopens, ?_⟩
    rw [parametersOf_eq_nil_iff.2 (by rintro _ ⟨⟩; exact hinner)]
    exact .boolean

/-- What has parameters has them in brackets. -/
theorem bracketed_of_opens {word cs : List Char} {inner : Option (List Char)} (h : Opens word cs inner)
    {parameters : List (List Char)} (hparameters : parametersOf inner = parameters) (hne : parameters ≠ []) :
    ∃ parts, Bracketed (String.ofList word) '<' '>' ([','].intercalate parts) cs ∧
      parts.map trim = parameters := by
  obtain ⟨parts, rfl, hparts⟩ := exists_parts_of_parametersOf hparameters hne
  exact ⟨parts, h.2, hparts⟩

/-- A bare word is read with blanks behind it too, which a trimmed expression does not have. -/
theorem written_of_parse {t : ClaimType} {cs : List Char} (htight : Tight cs)
    (h : parse (String.ofList cs) = .ok t) : t.Written cs := by
  rw [parse_eq_ok_iff, String.toList_ofList] at h
  obtain ⟨word, inner, hsplit, h⟩ := h
  obtain ⟨-, hopens⟩ := opens_of_splitExpression? hsplit
  generalize hname : String.ofList word = name at h
  generalize hparameters : parametersOf inner = parameters at h
  cases h with
  | integer valid hwidth =>
    obtain ⟨parts, hcs, hparts⟩ := bracketed_of_opens hopens hparameters (List.cons_ne_nil _ _)
    obtain ⟨part, rfl, rfl⟩ := List.map_eq_singleton_iff.1 hparts
    rw [hname, List.intercalate_singleton] at hcs
    exact .integer valid (padded_numeral_iff.2 hwidth) hcs
  | property p hwidth hhash hchecks =>
    obtain ⟨parts, hcs, hparts⟩ := bracketed_of_opens hopens hparameters (List.cons_ne_nil _ _)
    obtain ⟨width, parts, rfl, rfl, hrest⟩ := List.map_eq_cons_iff.1 hparts
    obtain ⟨hash, parts, rfl, rfl, hlast⟩ := List.map_eq_cons_iff.1 hrest
    obtain ⟨checks, rfl, rfl⟩ := List.map_eq_singleton_iff.1 hlast
    rw [hname, List.intercalate_cons_cons, List.intercalate_cons_cons, List.intercalate_singleton] at hcs
    exact .property p (padded_numeral_iff.2 hwidth)
      (padded_hash_iff.2 (by rw [← hhash, String.toList_ofList])) (padded_numeral_iff.2 hchecks) (by simpa using hcs)
  | boolean =>
    cases inner with
    | none =>
      obtain ⟨gap, hgap, rfl⟩ := hopens
      have hword : word = "bool".toList := by rw [← hname, String.toList_ofList]
      rw [htight.eq_nil_of_append hgap, List.append_nil, hword]
      exact .boolean
    | some inner =>
      have hblank := parametersOf_eq_nil_iff.1 hparameters inner rfl
      have hcs := hopens.2
      rw [hname] at hcs
      exact .booleanEmpty hblank hcs

theorem parse_eq_ok_iff_written {t : ClaimType} {cs : List Char} (htight : Tight cs) :
    parse (String.ofList cs) = .ok t ↔ t.Written cs :=
  ⟨written_of_parse htight, parse_of_written⟩

end ClaimType

end Vouch

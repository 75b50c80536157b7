import Vouch.Proofs.Schema.Expression
import Vouch.Schema.Text

/-! Schemas read from text.

A text is read in two passes over its lines, first the pragmas and then the claims, while the
grammar goes through the segments once. Both agree on every text (`segmentsWritten_iff`), so
the texts that are read are those of the grammar (`parse_iff_written`). -/
namespace Vouch

open Text (Blank Padded trim trimLeft cut? span_eq_iff padded_iff)
open Decimal (Numeral)

theorem Claim.make_eq_ok_iff {name : String} {t : ClaimType} {c : Claim} :
    make name t = .ok c ↔ c.name = name ∧ c.type = t := by
  unfold make
  constructor
  · intro h
    split at h
    · cases h
    · cases h
      exact ⟨rfl, rfl⟩
  · rintro ⟨rfl, rfl⟩
    have hname := (nameFault?_eq_none_iff c.name).2 c.validName
    split
    · next fault hfault =>
      rw [hname] at hfault
      cases hfault
    · rfl

namespace Schema

/-! ### The pragma -/

theorem readDepth_eq_ok_iff {cs : List Char} {d : Nat} :
    readDepth cs = .ok d ↔ Numeral d cs ∧ ValidDepth d := by
  rw [Decimal.numeral_iff]
  unfold readDepth
  constructor
  · intro h
    split at h
    · next hdigits =>
      dsimp only at h
      split at h
      · next hvalid =>
        cases h
        have hle : Decimal.value cs ≤ 2 ^ 32 - 1 := by
          by_contra hgt
          rw [Nat.min_eq_right (Nat.le_of_not_le hgt)] at hvalid
          exact absurd hvalid (by decide)
        rw [Nat.min_eq_left hle] at hvalid ⊢
        exact ⟨⟨hdigits, rfl⟩, hvalid⟩
      · cases h
    · cases h
  · rintro ⟨⟨hdigits, rfl⟩, hvalid⟩
    have hle : Decimal.value cs ≤ 2 ^ 32 - 1 := hvalid.2.trans (by decide)
    simp only [hdigits, Nat.min_eq_left hle, hvalid, if_true]

theorem splitPragma?_eq_some_iff {line name argument : List Char} :
    splitPragma? line = some (name, argument) ↔ Claim.isIdentifier name = true ∧
      ∃ inner, ('(' ∉ inner ∧ ')' ∉ inner) ∧ Bracketed (String.ofList ('@' :: name)) '(' ')' inner line ∧
        argument = trim inner := by
  constructor
  · intro h
    unfold splitPragma? at h
    split at h
    · next rest =>
      generalize hspan : rest.span Claim.isNameRest = parts at h
      obtain ⟨start, rest'⟩ := parts
      obtain ⟨-, -, rfl⟩ := span_eq_iff.1 hspan
      dsimp only at h
      split at h
      · next hname =>
        split at h
        · next rest hrest =>
          split at h
          · next inner hinner =>
            cases h
            obtain ⟨hfree, gap, hgap, rfl⟩ := (brackets_iff rfl).1 ⟨rest, hrest, hinner⟩
            exact ⟨hname, inner, hfree, ⟨gap, hgap, by simp⟩, rfl⟩
          · cases h
        · cases h
      · cases h
    · cases h
  · rintro ⟨hname, inner, hfree, ⟨gap, hgap, rfl⟩, rfl⟩
    have hspan := span_word (fun _ => isNameRest_of_isBlank) (plain_identifier hname) hgap
      ('(' :: inner ++ [')']) (by rintro c hc; cases hc; rfl)
    obtain ⟨rest, hrest, hinner⟩ := (brackets_iff rfl).2 ⟨hfree, gap, hgap, rfl⟩
    rw [trimLeft] at hrest
    simp only [List.append_assoc, List.cons_append] at hspan hrest
    simp only [splitPragma?, String.toList_ofList, List.append_assoc, List.cons_append, hspan, hname, if_true, hrest,
      hinner]

/-- The depth that a pragma gives. -/
theorem readPragma_iff {line : List Char} {d : Nat} :
    (∃ argument, splitPragma? line = some ("revocable".toList, argument) ∧ readDepth argument = .ok d) ↔
      DepthWritten d line ∧ ValidDepth d := by
  simp only [splitPragma?_eq_some_iff, readDepth_eq_ok_iff]
  constructor
  · rintro ⟨_, ⟨-, inner, -, hline, rfl⟩, hnumeral, hvalid⟩
    exact ⟨⟨inner, ClaimType.padded_numeral_iff.2 hnumeral, hline⟩, hvalid⟩
  · rintro ⟨⟨inner, hnumeral, hline⟩, hvalid⟩
    have hloose : Loose inner := loose_of_padded (plain_numeral d) hnumeral
    exact ⟨_, ⟨rfl, inner, ⟨hloose.not_mem rfl rfl, hloose.not_mem rfl rfl⟩, hline, rfl⟩,
      ClaimType.padded_numeral_iff.1 hnumeral, hvalid⟩

theorem readPragmas_some_eq_ok_iff {d : Nat} {lines : List (List Char)} {depth : Option Nat} :
    readPragmas (some d) lines = .ok depth ↔ lines = [] ∧ depth = some d := by
  cases lines with
  | nil => simp [readPragmas, eq_comm]
  | cons line lines =>
    refine iff_of_false (fun h => ?_) (by simp)
    unfold readPragmas at h
    split at h
    · cases h
    · split at h
      · cases h
      · cases h

theorem readPragmas_cons_eq_ok_iff {line : List Char} {lines : List (List Char)} {depth : Option Nat} :
    readPragmas none (line :: lines) = .ok depth ↔
      ∃ d, (DepthWritten d line ∧ ValidDepth d) ∧ readPragmas (some d) lines = .ok depth := by
  simp only [← readPragma_iff]
  rw [readPragmas]
  constructor
  · intro h
    split at h
    · cases h
    · next name argument hsplit =>
      split at h
      · next hname =>
        obtain ⟨d, hd, h⟩ := Result.bind_eq_ok_iff.1 h
        refine ⟨d, ⟨argument, ?_, hd⟩, h⟩
        rw [hsplit, ← hname, String.toList_ofList]
      · cases h
  · rintro ⟨d, ⟨argument, hsplit, hd⟩, h⟩
    simp only [hsplit, String.ofList_toList, if_true]
    exact Result.bind_eq_ok_iff.2 ⟨d, hd, h⟩

/-- There is at most one pragma. -/
theorem readPragmas_eq_ok_iff {lines : List (List Char)} {depth : Option Nat} :
    readPragmas none lines = .ok depth ↔
      List.Forall₂ (fun line d => DepthWritten d line) lines depth.toList ∧ ∀ d ∈ depth, ValidDepth d := by
  cases lines with
  | nil =>
    cases depth with
    | none => simp [readPragmas]
    | some d => simp [readPragmas]
  | cons line lines =>
    rw [readPragmas_cons_eq_ok_iff]
    simp only [readPragmas_some_eq_ok_iff]
    cases depth with
    | none => simp
    | some d =>
      constructor
      · rintro ⟨_, ⟨hline, hvalid⟩, rfl, h⟩
        cases h
        exact ⟨.cons hline .nil, by rintro _ ⟨⟩; exact hvalid⟩
      · rintro ⟨hline, hvalid⟩
        obtain ⟨hline, hlines⟩ := List.forall₂_cons.1 hline
        exact ⟨d, ⟨hline, hvalid d rfl⟩, List.forall₂_nil_right_iff.1 hlines, rfl⟩

/-! ### Claims -/

theorem readClaim_eq_ok_iff {line : List Char} {c : Claim} : readClaim line = .ok c ↔ c.Written line := by
  have hname (name : List Char) : Padded (· = c.name.toList) name ↔ c.name = String.ofList (trim name) := by
    rw [padded_plain_iff (plain_claimName c).of_eq, ← String.ofList_inj, String.ofList_toList,
      eq_comm]
  have htype (expression : List Char) : Padded c.type.Written expression ↔
      ClaimType.parse (String.ofList (trim expression)) = .ok c.type := by
    rw [padded_iff fun _ h => h.tight, ClaimType.parse_eq_ok_iff_written (Text.tight_trim expression)]
  constructor
  · intro h
    unfold readClaim at h
    split at h
    · cases h
    · next name expression hcut =>
      obtain ⟨-, rfl⟩ := Text.cut?_eq_some_iff.1 hcut
      obtain ⟨t, ht, h⟩ := Result.bind_eq_ok_iff.1 h
      obtain ⟨hc, rfl⟩ := Claim.make_eq_ok_iff.1 h
      exact ⟨name, expression, (hname name).2 hc, (htype expression).2 ht, rfl⟩
  · rintro ⟨name, expression, hpadded, hexpression, rfl⟩
    have hloose : Loose name := loose_of_padded (plain_claimName c).of_eq hpadded
    have hcolon : ':' ∉ name := hloose.not_mem rfl rfl
    simp only [readClaim, Text.cut?_append hcolon]
    exact Result.bind_eq_ok_iff.2 ⟨_, (htype expression).1 hexpression,
      Claim.make_eq_ok_iff.2 ⟨(hname name).1 hpadded, rfl⟩⟩

/-! ### Schemas -/

theorem make_eq_ok_iff {claims : List Claim} {depth : Option Nat} {s : Schema}
    (hdepth : ∀ d ∈ depth, ValidDepth d) :
    make claims depth = .ok s ↔ s.claims = claims ∧ s.depth = depth ∧ s.id = 0 := by
  unfold make
  constructor
  · intro h
    split at h
    · cases h
    · split at h
      · cases h
        exact ⟨rfl, rfl, rfl⟩
      · next d =>
        rw [dif_pos (hdepth d rfl)] at h
        cases h
        exact ⟨rfl, rfl, rfl⟩
  · obtain ⟨claims', depth', id, hdistinct, hvalid⟩ := s
    rintro ⟨rfl, rfl, rfl⟩
    have hrepeat : firstRepeat? [] (claims'.map Claim.name) = none :=
      (firstRepeat?_eq_none_iff _ _).2 ⟨hdistinct, by simp⟩
    split
    · next name hname =>
      rw [hrepeat] at hname
      cases hname
    · cases depth' with
      | none => rfl
      | some d =>
        dsimp only
        rw [dif_pos (hdepth d rfl)]

/-- The lines among some segments. -/
def linesAmong (segments : List (List Char)) : List (List Char) :=
  (segments.map trim).filter (!·.isEmpty)

/-- The pragmas and the claims of a text can be read apart. -/
theorem segmentsWritten_iff {segments : List (List Char)} {claims : List Claim} {depths : List Nat} :
    SegmentsWritten claims depths segments ↔
      List.Forall₂ (fun line d => DepthWritten d line) ((linesAmong segments).filter isPragma) depths ∧
        List.Forall₂ (fun line (c : Claim) => c.Written line)
          ((linesAmong segments).filter (!isPragma ·)) claims := by
  induction segments generalizing claims depths with
  | nil =>
    rw [segmentsWritten_nil_iff, and_comm]
    exact and_congr List.forall₂_nil_left_iff.symm List.forall₂_nil_left_iff.symm
  | cons segment segments ih =>
    by_cases hblank : trim segment = []
    · have hlines : linesAmong (segment :: segments) = linesAmong segments := by simp [linesAmong, hblank]
      rw [segmentsWritten_blank_iff hblank, hlines, ih]
    · have hlines : linesAmong (segment :: segments) = trim segment :: linesAmong segments := by
        simp [linesAmong, hblank]
      by_cases hpragma : (trim segment).head? = some '@'
      · have his : isPragma (trim segment) = true := by simp [isPragma, hpragma]
        rw [segmentsWritten_pragma_iff hpragma, hlines, List.filter_cons_of_pos his,
          List.filter_cons_of_neg (by simp [his]), List.forall₂_cons_left_iff]
        simp only [ih]
        constructor
        · rintro ⟨d, rest, hd, ⟨hrest, hclaims⟩, rfl⟩
          exact ⟨⟨d, rest, hd, hrest, rfl⟩, hclaims⟩
        · rintro ⟨⟨d, rest, hd, hrest, rfl⟩, hclaims⟩
          exact ⟨d, rest, hd, ⟨hrest, hclaims⟩, rfl⟩
      · have his : isPragma (trim segment) = false := by simpa [isPragma] using hpragma
        rw [segmentsWritten_claim_iff hblank hpragma, hlines, List.filter_cons_of_neg (by simp [his]),
          List.filter_cons_of_pos (by simp [his]), List.forall₂_cons_left_iff]
        simp only [ih]
        constructor
        · rintro ⟨c, rest, hc, ⟨hdepths, hrest⟩, rfl⟩
          exact ⟨hdepths, c, rest, hc, hrest, rfl⟩
        · rintro ⟨hdepths, c, rest, hc, hrest, rfl⟩
          exact ⟨c, rest, hc, ⟨hdepths, hrest⟩, rfl⟩

/-- The text is read as this schema. -/
theorem parse_eq_ok_iff {text : String} {s : Schema} :
    parse text = .ok s ↔
      (List.Forall₂ (fun line d => DepthWritten d line) ((linesOf text.toList).filter isPragma)
          s.depth.toList ∧
        List.Forall₂ (fun line (c : Claim) => c.Written line)
          ((linesOf text.toList).filter (!isPragma ·)) s.claims) ∧
      s.id = 0 := by
  unfold parse
  simp only [Result.bind_eq_ok_iff, readPragmas_eq_ok_iff, Result.mapM_eq_ok_iff, readClaim_eq_ok_iff]
  constructor
  · rintro ⟨depth, ⟨hpragmas, hvalid⟩, claims, hlines, hmake⟩
    obtain ⟨rfl, rfl, hid⟩ := (make_eq_ok_iff hvalid).1 hmake
    exact ⟨⟨hpragmas, hlines⟩, hid⟩
  · rintro ⟨⟨hpragmas, hlines⟩, hid⟩
    exact ⟨_, ⟨hpragmas, s.validDepth⟩, _, hlines, (make_eq_ok_iff s.validDepth).2 ⟨rfl, rfl, hid⟩⟩

/-- The texts that read as a schema are those that the grammar gives it. -/
theorem parse_iff_written {text : String} {s : Schema} : parse text = .ok s ↔ s.Written text := by
  rw [parse_eq_ok_iff, linesOf, Text.splitOn_eq]
  constructor
  · rintro ⟨hlines, hid⟩
    exact ⟨segmentsWritten_iff.2 hlines, hid⟩
  · rintro ⟨hsegments, hid⟩
    exact ⟨segmentsWritten_iff.1 hsegments, hid⟩

end Schema

end Vouch

import Vouch.Proofs.Aligned
import Vouch.Proofs.Schema.Reading

/-! Schemas written and read back.

A schema is written in lines, the depth first and then the claims, and no line has a
semicolon inside. So the text falls into these lines and nothing behind the last one, each of
which the grammar has. -/
namespace Vouch

open Text (padded_self blank_nil)

/-! ### Lines -/

theorem Plain.semicolon_not_mem {cs : List Char} (h : Plain cs) : ';' ∉ cs :=
  fun hc => absurd (h ';' hc) (by decide)

theorem semicolon_not_mem_toDigits (n : Nat) : ';' ∉ Nat.toDigits 10 n :=
  (plain_numeral n _ (Decimal.numeral_toDigits n)).semicolon_not_mem

namespace ClaimType

theorem written_text (t : ClaimType) : t.Written t.text.toList := by
  cases t with
  | integer width valid =>
    exact .integer valid (padded_self (Decimal.numeral_toDigits width)) ⟨[], blank_nil, by simp [text, toString]⟩
  | property p =>
    exact .property p (padded_self (Decimal.numeral_toDigits p.width)) (padded_self rfl)
      (padded_self (Decimal.numeral_toDigits p.checks)) ⟨[], blank_nil, by simp [text, toString]⟩
  | boolean => exact .boolean

theorem semicolon_not_mem_text (t : ClaimType) : ';' ∉ t.text.toList := by
  cases t with
  | integer width valid => simp [text, toString, semicolon_not_mem_toDigits]
  | property p =>
    have hhash := (plain_hashName p.hash).semicolon_not_mem
    simp [text, toString, semicolon_not_mem_toDigits, hhash]
  | boolean => decide

end ClaimType

namespace Schema

/-- A claim without its semicolon. -/
def claimLine (c : Claim) : List Char :=
  c.name.toList ++ ':' :: c.type.text.toList

/-- The pragma without its semicolon. -/
def depthLine (depth : Nat) : List Char :=
  s!"@revocable({depth})".toList

def lines (s : Schema) : List (List Char) :=
  s.depth.toList.map depthLine ++ s.claims.map claimLine

theorem written_claimLine (c : Claim) : c.Written (claimLine c) :=
  ⟨_, _, padded_self rfl, padded_self c.type.written_text, rfl⟩

theorem written_depthLine (d : Nat) : DepthWritten d (depthLine d) :=
  ⟨_, padded_self (Decimal.numeral_toDigits d), [], blank_nil, by simp [depthLine, toString]⟩

theorem semicolon_not_mem_depthLine (d : Nat) : ';' ∉ depthLine d := by
  simp [depthLine, toString, semicolon_not_mem_toDigits]

theorem semicolon_not_mem_claimLine (c : Claim) : ';' ∉ claimLine c := by
  have hname := (plain_claimName c).semicolon_not_mem
  simp [claimLine, hname, c.type.semicolon_not_mem_text]

theorem semicolon_not_mem_lines (s : Schema) : ∀ line ∈ s.lines, ';' ∉ line := by
  rw [lines, List.forall_mem_append, List.forall_mem_map, List.forall_mem_map]
  exact ⟨fun d _ => semicolon_not_mem_depthLine d, fun c _ => semicolon_not_mem_claimLine c⟩

theorem toList_depthText (depth : Option Nat) :
    (depthText depth).toList = (depth.toList.map depthLine).flatMap (· ++ [';']) := by
  cases depth with
  | none => rfl
  | some d => simp [depthText, depthLine, toString]

theorem toList_claimText (c : Claim) : (claimText c).toList = claimLine c ++ [';'] := by
  simp [claimText, claimLine, toString]

theorem toList_text (s : Schema) : s.text.toList = s.lines.flatMap (· ++ [';']) := by
  rw [text, lines, String.toList_append, toList_depthText, String.toList_join, List.flatMap_append]
  simp only [List.flatMap_map, toList_claimText]

/-! ### Reading back -/

theorem segmentsWritten_lines (s : Schema) : SegmentsWritten s.claims s.depth.toList (s.lines ++ [[]]) := by
  refine ⟨s.depth.toList.map Entry.depth ++ (s.claims.map Entry.claim ++ [.blank]), ?_, ?_, ?_⟩
  · have hlast : List.Forall₂ (fun segment (e : Entry) => e.Written segment) [[]] [Entry.blank] :=
      .cons blank_nil .nil
    have hclaims : List.Forall₂ (fun segment (e : Entry) => e.Written segment)
        (s.claims.map claimLine ++ [[]]) (s.claims.map Entry.claim ++ [Entry.blank]) :=
      (Aligned.forall₂_map_append_iff hlast s.claims).2 fun c _ => written_claimLine c
    rw [lines, List.append_assoc]
    exact (Aligned.forall₂_map_append_iff hclaims s.depth.toList).2 fun d _ => padded_self (written_depthLine d)
  · have hdepth : Entry.claim? ∘ Entry.depth = fun _ => none := rfl
    have hclaim : Entry.claim? ∘ Entry.claim = some := rfl
    simp [hdepth, hclaim, Entry.claim?]
  · have hdepth : Entry.depth? ∘ Entry.depth = some := rfl
    have hclaim : Entry.depth? ∘ Entry.claim = fun _ => none := rfl
    simp [hdepth, hclaim, Entry.depth?]

/-- The text says everything about the schema but its id. -/
theorem parse_text (s : Schema) : parse s.text = .ok (s.withId 0) := by
  rw [parse_eq_ok_iff, linesOf, toList_text, Text.splitOn_flatMap s.semicolon_not_mem_lines]
  exact ⟨segmentsWritten_iff.1 s.segmentsWritten_lines, rfl⟩

/-- Reading inverts writing, and so schemas under one id are told apart by their texts. -/
theorem parse_inverts_text :
    (∀ s : Schema, ∃ t, parse s.text = .ok t ∧ t.withId s.id = s ∧ t.text = s.text) ∧
      Function.Injective fun s : Schema => (s.id, s.text) := by
  refine ⟨fun s => ⟨s.withId 0, s.parse_text, rfl, rfl⟩, fun s t h => ?_⟩
  obtain ⟨hid, htext⟩ := Prod.mk.inj h
  have hread : s.withId 0 = t.withId 0 := by
    have hs := s.parse_text
    rw [htext, t.parse_text] at hs
    exact (Except.ok.inj hs).symm
  calc s = (s.withId 0).withId s.id := rfl
    _ = (t.withId 0).withId t.id := by rw [hread, hid]
    _ = t := rfl

end Schema

end Vouch

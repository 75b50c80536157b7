import Vouch.Proofs.Circuit.Assignment

/-! Valuations of whole circuits.

The source of a compiled circuit asks what the sources of its claims ask, and that the body digest
and the core are fed. Whatever satisfies the claims can be extended to the pins of these two, since
no claim has a component that is called like them. So a circuit can be satisfied with values and
statements for its claims exactly if the claims can (`exists_solves_iff`). -/
namespace Vouch.Circuit

open ClaimSignals (ofClaim)
open Layout (unchecked)
open Source (mainClauses)

/-- The valuation carries values and statements, and what the source of the circuit says holds. -/
def Valuation.Solves (ρ : Valuation) (c : Circuit) (parts : List ((Claim × ClaimValue) × Statement)) : Prop :=
  (∀ part ∈ parts, (ofClaim part.1.1).Carries part.1.2 part.2 ρ) ∧ ρ.Satisfies (mainClauses c.code)

/-! ### Parts of the source -/

section

variable {s : Schema} {c : Circuit} {ρ : Valuation} (h : compile s = .ok c)

include h

theorem satisfies_code_iff :
    ρ.Satisfies (mainClauses c.code) ↔
      (∀ line ∈ (unchecked s).digestLines, line.Holds ρ) ∧ (∀ line ∈ (unchecked s).coreLines, line.Holds ρ) ∧
        ∀ claim ∈ s.claims, (ofClaim claim).Satisfied ρ := by
  have hdeclarations : ∀ line ∈ (unchecked s).declarations, line.Holds ρ := by
    simp only [Layout.declarations, List.forall_mem_append, List.forall_mem_cons, List.forall_mem_map]
    exact ⟨⟨⟨fun _ _ => trivial, trivial, fun _ _ => trivial⟩, fun _ _ => trivial⟩, trivial, fun _ _ => trivial⟩
  have hclaims : (∀ line ∈ (unchecked s).claims.flatMap fun signals => .blank :: signals.lines, line.Holds ρ) ↔
      ∀ claim ∈ s.claims, (ofClaim claim).Satisfied ρ := by
    simp only [List.forall_mem_flatMap, List.forall_mem_cons, Line.Holds, true_and, unchecked,
      List.forall_mem_map, ClaimSignals.satisfied_iff_lines]
  have hblank : Line.blank.Holds ρ := trivial
  rw [mainClauses_code h, Valuation.satisfies_clauses (Layout.named_body (Layout.named_unchecked s)), Layout.body,
    List.forall_mem_append, List.forall_mem_append, List.forall_mem_append, List.forall_mem_cons,
    List.forall_mem_cons, hclaims, and_iff_right hblank, and_iff_right hblank, and_iff_right hdeclarations,
    and_assoc]

/-- What satisfies a circuit satisfies its claims. -/
theorem Valuation.Solves.realizes {parts : List ((Claim × ClaimValue) × Statement)}
    (hclaims : ∀ part ∈ parts, part.1.1 ∈ s.claims) (hρ : ρ.Solves c parts) : ∀ part ∈ parts, ρ.Realizes part :=
  fun part hpart => ⟨hρ.1 part hpart, ((satisfies_code_iff h).1 hρ.2).2.2 _ (hclaims part hpart)⟩

end

/-! ### The body digest and the core -/

/-- The values that go into the body digest and into the core, and come out of the core. -/
def Valuation.fed (ρ : Valuation) (limbs : List String) : Valuation
  | .signal name => ρ (.signal name)
  | .pin component name =>
    if component = "core" then (if name = "body_hash" then ρ (.pin "body" "out") else ρ.signal name)
    else ρ (.pin component name)
  | .pinAt component name i =>
    if component = "body" then ρ.signal (limbs.getD i "") else ρ (.pinAt component name i)

theorem intrinsicInputs_ne (depth : Option Nat) : ∀ input ∈ intrinsicInputs depth, input.name ≠ "body_hash" := by
  have hfixed : ∀ input ∈ fixedInputs, input.name ≠ "body_hash" := by decide
  cases depth with
  | none => exact hfixed
  | some depth =>
    refine List.forall_mem_append.2 ⟨hfixed, ?_⟩
    simp [revocationInputs, InputSignal.single]

theorem holds_digestLines (ρ : Valuation) (l : Layout) : ∀ line ∈ l.digestLines, line.Holds (ρ.fed l.inputNames) := by
  refine List.forall_mem_cons.2 ⟨trivial, List.forall_mem_map.2 fun entry hentry => ?_⟩
  obtain ⟨name, i⟩ := entry
  have hlimb : l.inputNames.getD i "" = name := by
    rw [List.getD_eq_getElem?_getD, List.mem_zipIdx_iff_getElem?.1 hentry, Option.getD_some]
  show ρ.signal (l.inputNames.getD i "") = ρ.signal name
  rw [hlimb]

theorem holds_coreLines (ρ : Valuation) (s : Schema) (limbs : List String) :
    ∀ line ∈ (unchecked s).coreLines, line.Holds (ρ.fed limbs) := by
  have hpin {name : String} (h : name ≠ "body_hash") : ρ.fed limbs (.pin "core" name) = ρ.signal name := by
    rw [Valuation.fed, if_pos rfl, if_neg h]
  have houtputs : ∀ signal ∈ (unchecked s).intrinsicOutputs, signal.name ≠ "body_hash" := by
    rw [Layout.intrinsicOutputs_unchecked, List.forall_mem_map]
    intro i _
    cases i <;> decide
  simp only [Layout.coreLines, List.cons_append, List.forall_mem_cons, List.forall_mem_append, List.forall_mem_map]
  refine ⟨trivial, fun input hinput => ?_, rfl, fun signal hsignal => ?_⟩
  · exact hpin (intrinsicInputs_ne _ input hinput)
  · exact (hpin (houtputs signal hsignal)).symm

/-- The claims have other components. -/
theorem fed_wire (ρ : Valuation) (limbs : List String) {c : Claim} {w : Wire} (h : w ∈ wires c) :
    ρ.fed limbs w = ρ w := by
  rcases List.mem_append.1 h with h | h
  · obtain ⟨name, -, rfl⟩ := List.mem_map.1 h
    rfl
  · obtain ⟨component, hcomponent, hpin⟩ := exists_of_mem_pins h
    have hmark := underscore_mem_of_mem_componentsOf hcomponent
    have hcore : component ≠ "core" := fun he => absurd (he ▸ hmark) (by decide)
    have hbody : component ≠ "body" := fun he => absurd (he ▸ hmark) (by decide)
    cases w with
    | signal name => exact hpin.elim
    | pin other name =>
      obtain rfl : other = component := hpin
      exact if_neg hcore
    | pinAt other name i =>
      obtain rfl : other = component := hpin
      exact if_neg hbody

/-- **A circuit can be satisfied exactly if its claims can be.** -/
theorem exists_solves_iff {s : Schema} {c : Circuit} (h : compile s = .ok c)
    {parts : List ((Claim × ClaimValue) × Statement)} (htyped : ∀ part ∈ parts, WellTyped part)
    (hclaims : parts.map (·.1.1) = s.claims) :
    (∃ ρ : Valuation, ρ.Solves c parts) ↔ ∃ ρ : Valuation, ∀ part ∈ parts, ρ.Realizes part := by
  constructor
  · rintro ⟨ρ, hρ⟩
    exact ⟨ρ, hρ.realizes h fun part hpart => hclaims ▸ List.mem_map_of_mem hpart⟩
  · rintro ⟨ρ, hρ⟩
    have hrealizes : ∀ part ∈ parts, (ρ.fed (unchecked s).inputNames).Realizes part := fun part hpart =>
      (realizes_congr (htyped part hpart) fun _ hw => fed_wire ρ _ hw).2 (hρ part hpart)
    refine ⟨_, fun part hpart => (hrealizes part hpart).1, (satisfies_code_iff h).2
      ⟨holds_digestLines ρ _, holds_coreLines ρ s _, fun claim hclaim => ?_⟩⟩
    rw [← hclaims] at hclaim
    obtain ⟨part, hpart, rfl⟩ := List.mem_map.1 hclaim
    exact (hrealizes part hpart).2

end Vouch.Circuit

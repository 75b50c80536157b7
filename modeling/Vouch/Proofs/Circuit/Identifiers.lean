import Mathlib.Data.List.Nodup
import Vouch.Proofs.Circuit.Compiled
import Vouch.Proofs.Circuit.Endings

/-! Identifiers that a circuit declares twice.

The signals of a compiled circuit have distinct names, and so have its components. But
nothing holds the two against each other, and a signal that is called like its claim can
be called like a component too. It is the only kind that can: components and derived
signals end differently (`mem_bareSignals_of_ending`). So a circuit declares an identifier
twice exactly if a claim gives its own name, or that of its output, to a component
(`identifiers_nodup_iff`). -/
namespace Vouch.Circuit

open ClaimSignals (derived outputName ofClaim)
open Layout (unchecked)

/-! ### Components -/

theorem underscore_not_mem_numbered (i : Nat) : '_' ∉ (s!"eq{i}").toList := by
  simp [toString]

/-- A component of a claim is its name with an ending that has no underscore. -/
theorem exists_of_mem_componentsOf {c : Claim} {name : String} (h : name ∈ componentsOf c) :
    ∃ ending : String, '_' ∉ ending.toList ∧ name = derived c.name ending := by
  unfold componentsOf at h
  split at h
  · exact ⟨"range", by decide, List.mem_singleton.1 h⟩
  · obtain ⟨i, -, rfl⟩ := List.mem_map.1 h
    exact ⟨_, underscore_not_mem_numbered i, rfl⟩
  · cases h

theorem nodup_componentsOf (c : Claim) : (componentsOf c).Nodup := by
  unfold componentsOf
  split
  · exact List.nodup_singleton _
  · refine List.Nodup.map (fun i j hij => ?_) List.nodup_range
    have he := (derived_inj (underscore_not_mem_numbered i) (underscore_not_mem_numbered j) hij).2
    exact repr_inj ((String.append_right_inj _).1 he)
  · exact List.nodup_nil

theorem nodup_flatMap_componentsOf (s : Schema) : (s.claims.flatMap componentsOf).Nodup := by
  refine List.nodup_flatMap.2 ⟨fun c _ => nodup_componentsOf c, ?_⟩
  refine (List.pairwise_map.1 s.distinct).imp fun {c d} hne => ?_
  intro name hc hd
  obtain ⟨e, he, rfl⟩ := exists_of_mem_componentsOf hc
  obtain ⟨f, hf, hname⟩ := exists_of_mem_componentsOf hd
  exact hne (derived_inj he hf hname).1

theorem underscore_mem_of_mem_componentsOf {c : Claim} {name : String} (h : name ∈ componentsOf c) :
    '_' ∈ name.toList := by
  obtain ⟨e, -, rfl⟩ := exists_of_mem_componentsOf h
  simp [derived_eq]

theorem nodup_componentNames (s : Schema) : (componentNames s).Nodup := by
  have hfixed : ∀ name ∈ ["body", "core"], name ∉ s.claims.flatMap componentsOf := by
    have hmark : ∀ name ∈ ["body", "core"], '_' ∉ name.toList := by decide
    intro name hname hmem
    obtain ⟨c, -, hc⟩ := List.mem_flatMap.1 hmem
    exact hmark name hname (underscore_mem_of_mem_componentsOf hc)
  have hne : "body" ≠ "core" := by decide
  simp only [List.forall_mem_cons] at hfixed
  simp [componentNames, hfixed.1, hfixed.2.1, nodup_flatMap_componentsOf]

/-- How the names of components end. -/
def componentEndings : List (List Char) :=
  ["dy", "re", "ge", "q0", "q1", "q2", "q3", "q4", "q5", "q6", "q7"].map String.toList

theorem ending_componentsOf {c : Claim} {name : String} (h : name ∈ componentsOf c) :
    lastTwo name ∈ componentEndings := by
  unfold componentsOf at h
  split at h
  · rw [List.mem_singleton.1 h, lastTwo_derived _ (by decide)]
    decide
  · rename_i p _
    obtain ⟨i, hi, rfl⟩ := List.mem_map.1 h
    have hchecks := Nat.lt_of_lt_of_le (List.mem_range.1 hi) p.validChecks.2
    have hending : ∀ i < greatestCheckCount, lastTwo s!"eq{i}" ∈ componentEndings := by decide
    rw [lastTwo_derived _ (by simp [toString])]
    exact hending i hchecks
  · cases h

theorem ending_componentNames {s : Schema} {name : String} (h : name ∈ componentNames s) :
    lastTwo name ∈ componentEndings := by
  simp only [componentNames, List.mem_cons, List.mem_flatMap] at h
  rcases h with rfl | rfl | ⟨c, -, hc⟩
  · decide
  · decide
  · exact ending_componentsOf hc

theorem EndsDerived.not_component {name : String} (h : EndsDerived name) :
    lastTwo name ∉ componentEndings := by
  have hendings : ∀ ending ∈ derivedEndings, ending ∉ componentEndings := by decide
  exact hendings _ h.2

/-! ### Signals -/

/-- The signals that are called like the claim, or like its output. -/
def bareSignals (c : Claim) : List String :=
  match c.type with
  | .integer width _ => if width = greatestIntegerWidth then [] else [c.name]
  | .property _ => [c.name]
  | .boolean => [c.name, outputName c.name]

namespace ClaimSignals

theorem names_ofClaim {c : Claim} {name : String} (h : name ∈ (ofClaim c).names) :
    name ∈ bareSignals c ∨ EndsDerived name := by
  unfold ofClaim at h
  unfold bareSignals
  cases htype : c.type with
  | integer width valid =>
    simp only [htype] at h ⊢
    split at h
    · exact .inr (endsDerived_ofWide c name h)
    · rename_i hwidth
      rw [if_neg hwidth, List.mem_singleton]
      exact endsDerived_ofNarrow c width name h
  | property p =>
    simp only [htype] at h ⊢
    rw [List.mem_singleton]
    exact endsDerived_ofProperty c p name h
  | boolean =>
    simp only [htype] at h ⊢
    rcases endsDerived_ofBoolean c name h with rfl | rfl | hends
    · exact .inl (by simp)
    · exact .inl (by simp)
    · exact .inr hends

theorem bareSignals_subset (c : Claim) : bareSignals c ⊆ (ofClaim c).names := by
  unfold bareSignals ofClaim names
  cases c.type with
  | integer width valid =>
    dsimp only
    split
    · exact List.nil_subset _
    · simp [ofNarrow]
  | property p => simp [ofProperty]
  | boolean => simp [ofBoolean, PublicSignal.ofBits]

end ClaimSignals

theorem ending_intrinsicInputs (depth : Option Nat) :
    ∀ name ∈ (intrinsicInputs depth).map (·.name), lastTwo name ∉ componentEndings := by
  have hfixed : ∀ name ∈ fixedInputs.map (·.name), lastTwo name ∉ componentEndings := by decide
  cases depth with
  | none => exact hfixed
  | some depth =>
    have hrevocation : ∀ name ∈ (revocationInputs 0).map (·.name), lastTwo name ∉ componentEndings := by
      decide
    rw [intrinsicInputs, List.map_append]
    exact List.forall_mem_append.2 ⟨hfixed, hrevocation⟩

theorem ending_intrinsic (i : Intrinsic) : lastTwo i.signal.name ∉ componentEndings := by
  cases i <;> decide

/-- **Of all signals only the bare ones of claims can end like a component.** -/
theorem mem_bareSignals_of_ending {s : Schema} {name : String} (h : name ∈ (unchecked s).names)
    (hending : lastTwo name ∈ componentEndings) : ∃ c ∈ s.claims, name ∈ bareSignals c := by
  rcases mem_names_iff.1 h with hinput | hintrinsic | ⟨c, hc, hname⟩
  · exact absurd hending (ending_intrinsicInputs s.depth name hinput)
  · obtain ⟨i, -, rfl⟩ := List.mem_map.1 hintrinsic
    exact absurd hending (ending_intrinsic i)
  · rcases ClaimSignals.names_ofClaim hname with hbare | hends
    · exact ⟨c, hc, hbare⟩
    · exact absurd hending hends.not_component

/-- **A circuit declares an identifier twice exactly if a bare signal is called like a component.** -/
theorem identifiers_nodup_iff {s : Schema} {c : Circuit} (h : compile s = .ok c) :
    (Source.identifiers c.code).Nodup ↔
      ∀ claim ∈ s.claims, ∀ name ∈ bareSignals claim, name ∉ componentNames s := by
  have hnames := ((compile_eq_ok_iff s c).1 h).2.1
  rw [identifiers_code h, List.nodup_append]
  constructor
  · rintro ⟨-, -, hdisjoint⟩ claim hclaim name hname hcomponent
    have hsignal := ClaimSignals.bareSignals_subset claim hname
    have hmem := mem_names_iff.2 (.inr (.inr ⟨claim, hclaim, hsignal⟩))
    exact hdisjoint name hmem name hcomponent rfl
  · intro hbare
    refine ⟨hnames, nodup_componentNames s, ?_⟩
    rintro name hname _ hcomponent rfl
    obtain ⟨claim, hclaim, hmem⟩ := mem_bareSignals_of_ending hname (ending_componentNames hcomponent)
    exact hbare claim hclaim name hmem hcomponent

theorem identifiers_nodup_age :
    ∃ c, compile ageSchema = .ok c ∧ (Source.identifiers c.code).Nodup := by
  have hbare : ∀ claim ∈ ageSchema.claims, ∀ name ∈ bareSignals claim,
      name ∉ componentNames ageSchema := by decide
  exact ⟨_, compile_ageSchema, (identifiers_nodup_iff compile_ageSchema).2 hbare⟩

/-- Whether there is a body. -/
def bodySchema : Schema where
  claims := [⟨"body", .boolean, by unfold Claim.ValidName; decide⟩]
  depth := none
  id := 0
  distinct := by decide
  validDepth := validDepth_none

theorem compile_bodySchema : compile bodySchema = .ok (ofLayout (unchecked bodySchema)) :=
  (compile_eq_ok_iff _ _).2 ⟨rfl, by decide +kernel, by decide +kernel, by decide⟩

/-- The input of the claim is called like the body digest. -/
theorem identifiers_not_nodup_body :
    ∃ c, compile bodySchema = .ok c ∧ ¬ (Source.identifiers c.code).Nodup := by
  refine ⟨_, compile_bodySchema, ?_⟩
  rw [identifiers_code compile_bodySchema, List.nodup_append]
  rintro ⟨-, -, hdisjoint⟩
  exact hdisjoint "body" (by decide) "body" (by decide) rfl

end Vouch.Circuit

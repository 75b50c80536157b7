import Vouch.Proofs.Aligned
import Vouch.Proofs.Keyed
import Vouch.Proofs.Circuit.Signals

/-! The table of public signals and what refers to it.

The places of the intrinsic signals and the names that aggregations read are made apart from
the table. They agree with it because its names are distinct: a name has one place, and an
intrinsic signal stands where it is enumerated (`tabulates_of_compile`). So an aggregation
that is fed from the table always gets as many values as its rule reads. -/
namespace Vouch

open Circuit ClaimSignals

/-- How many signals a claim discloses. -/
def Claim.outputCount (claim : Claim) : Nat :=
  match claim.type with
  | .integer width _ => if width = greatestIntegerWidth then 4 else 2
  | .property p => p.checks
  | .boolean => 1

namespace Circuit

/-- The signal at a place of the table has this name. -/
def HasPlace (c : Circuit) (name : String) (k : Nat) : Prop :=
  (c.publicSignals[k]?).map (·.name) = some name

/-- The table of a schema's public signals, and what refers to it by place or by name. -/
structure Tabulates (c : Circuit) (s : Schema) : Prop where
  /-- The intrinsic signals in their order, then those of the claims. -/
  signals : c.publicSignals =
    (Intrinsic.ofRevocable s.isRevocable).map (·.signal) ++ s.claims.flatMap fun claim => (ofClaim claim).outputs
  count : c.publicSignals.length = 8 + s.isRevocable.toNat + (s.claims.map Claim.outputCount).sum
  bounded : c.publicSignals.length ≤ 256
  distinct : (c.publicSignals.map (·.name)).Nodup
  ceilings : ∀ signal ∈ c.publicSignals, signal.ceiling ≤ fieldOrder
  /-- Each intrinsic signal of the schema has one place, and no other has any. -/
  intrinsics : c.intrinsics.map (·.1) = Intrinsic.ofRevocable s.isRevocable
  /-- It is the place of its name. -/
  places : ∀ i k, c.indexOf? i = some k ↔
    i ∈ Intrinsic.ofRevocable s.isRevocable ∧ c.HasPlace i.outputName k
  arity : ∀ a ∈ c.aggregations, a.sources.length = a.rule.arity
  /-- What an aggregation reads is in the table once. -/
  sources : ∀ a ∈ c.aggregations, ∀ name ∈ a.sources, (c.publicSignals.map (·.name)).count name = 1
  /-- It gets the values at the places of the names. -/
  fed : ∀ a ∈ c.aggregations, ∀ values : List Nat, values.length = c.publicSignals.length →
    List.Forall₂ (fun name value => ∃ k, c.HasPlace name k ∧ values[k]? = some value)
      a.sources (c.sourceValues a values)
  /-- And then it can only meet a conflict. -/
  merges : ∀ a ∈ c.aggregations, ∀ values : List Nat, values.length = c.publicSignals.length →
    ∀ current, Result.FailsWith [.invalidQuery] (a.merge current (c.sourceValues a values))

/-! ### The signals of claims -/

theorem length_outputs_ofClaim (claim : Claim) : (ofClaim claim).outputs.length = claim.outputCount := by
  unfold ofClaim Claim.outputCount
  cases claim.type with
  | integer width valid =>
    dsimp only
    split
    · rfl
    · rfl
  | property p => simp [ofProperty]
  | boolean => rfl

/-- An aggregation of a claim names as many signals as its rule reads. -/
theorem length_sources_ofClaim (claim : Claim) :
    ∀ a ∈ (ofClaim claim).aggregations, a.sources.length = a.rule.arity := by
  unfold ofClaim
  split
  · split
    · simp [ofWide, Aggregation.ofBits, MergeRule.arity, MergeRule.isWide]
    · simp [ofNarrow, Aggregation.ofBits, MergeRule.arity, MergeRule.isWide]
  · exact List.forall_mem_map.2 fun _ _ => rfl
  · exact List.forall_mem_singleton.2 rfl

/-! ### Intrinsic signals -/

namespace Intrinsic

theorem name_signal (i : Intrinsic) : i.signal.name = i.outputName := by
  cases i <;> rfl

theorem ceiling_le_fieldOrder (i : Intrinsic) : i.signal.ceiling ≤ fieldOrder := by
  cases i <;> decide

theorem nodup_ofRevocable (revocable : Bool) : (ofRevocable revocable).Nodup := by
  cases revocable <;> decide

theorem length_ofRevocable (revocable : Bool) : (ofRevocable revocable).length = 8 + revocable.toNat := by
  cases revocable <;> rfl

end Intrinsic

/-! ### Places -/

/-- The number of an entry in an enumeration. -/
theorem find?_zipIdx_eq_some_iff {α : Type} [DecidableEq α] {xs : List α} (h : xs.Nodup) {x : α} {k : Nat} :
    (xs.zipIdx.find? (·.1 == x)).map (·.2) = some k ↔ xs[k]? = some x := by
  have hkeys : (xs.zipIdx.map Prod.fst).Nodup := by rwa [List.zipIdx_map_fst]
  rw [Option.map_eq_some_iff]
  constructor
  · rintro ⟨found, hfind, rfl⟩
    obtain ⟨hmem, rfl⟩ := (Keyed.find?_eq_some_iff hkeys).1 hfind
    exact List.mem_zipIdx_iff_getElem?.1 hmem
  · intro hk
    exact ⟨(x, k), (Keyed.find?_eq_some_iff hkeys).2 ⟨List.mem_zipIdx_iff_getElem?.2 hk, rfl⟩, rfl⟩

section

variable {s : Schema} {c : Circuit}

theorem hasPlace_iff {name : String} {k : Nat} :
    c.HasPlace name k ↔ (c.publicSignals.map (·.name))[k]? = some name := by
  rw [HasPlace, List.getElem?_map]

/-- Distinct names have one place at most. -/
theorem HasPlace.unique (hdistinct : (c.publicSignals.map (·.name)).Nodup) {name : String} {j k : Nat}
    (hj : c.HasPlace name j) (hk : c.HasPlace name k) : j = k := by
  rw [hasPlace_iff] at hj hk
  exact (List.getElem?_inj (List.getElem?_eq_some_iff.1 hj).1 hdistinct).1 (hj.trans hk.symm)

theorem signals_of_compile (h : compile s = .ok c) : c.publicSignals =
    (Intrinsic.ofRevocable s.isRevocable).map (·.signal) ++ s.claims.flatMap fun claim => (ofClaim claim).outputs := by
  rw [publicSignals_of_compile h, claimOutputs_of_compile h]

theorem distinct_of_compile (h : compile s = .ok c) : (c.publicSignals.map (·.name)).Nodup := by
  obtain ⟨rfl, hnames, -⟩ := (compile_eq_ok_iff s c).1 h
  exact (List.nodup_append.1 hnames).2.1

theorem intrinsics_of_compile (h : compile s = .ok c) :
    c.intrinsics = (Intrinsic.ofRevocable s.isRevocable).zipIdx := by
  obtain ⟨rfl, -⟩ := (compile_eq_ok_iff s c).1 h
  rfl

theorem hasPlace_intrinsic (h : compile s = .ok c) {i : Intrinsic} {k : Nat}
    (hk : (Intrinsic.ofRevocable s.isRevocable)[k]? = some i) : c.HasPlace i.outputName k := by
  have hlt : k < ((Intrinsic.ofRevocable s.isRevocable).map (·.signal)).length := by
    rw [List.length_map]
    exact (List.getElem?_eq_some_iff.1 hk).1
  rw [HasPlace, signals_of_compile h, List.getElem?_append_left hlt, List.getElem?_map, hk]
  exact congrArg some i.name_signal

theorem indexOf?_eq_some_iff (h : compile s = .ok c) {i : Intrinsic} {k : Nat} :
    c.indexOf? i = some k ↔ i ∈ Intrinsic.ofRevocable s.isRevocable ∧ c.HasPlace i.outputName k := by
  rw [indexOf?, intrinsics_of_compile h, find?_zipIdx_eq_some_iff (Intrinsic.nodup_ofRevocable _)]
  constructor
  · exact fun hk => ⟨List.mem_of_getElem? hk, hasPlace_intrinsic h hk⟩
  · rintro ⟨hi, hk⟩
    obtain ⟨j, hj⟩ := List.mem_iff_getElem?.1 hi
    obtain rfl := (hasPlace_intrinsic h hj).unique (distinct_of_compile h) hk
    exact hj

/-! ### Aggregations -/

/-- An aggregation reads an intrinsic signal, or belongs to a claim. -/
theorem aggregation_cases (h : compile s = .ok c) {a : Aggregation} (ha : a ∈ c.aggregations) :
    (a.rule.arity = 1 ∧ ∃ i ∈ Intrinsic.ofRevocable s.isRevocable, a.sources = [i.outputName]) ∨
      ∃ claim ∈ s.claims, a ∈ (ofClaim claim).aggregations := by
  obtain ⟨rfl, -⟩ := (compile_eq_ok_iff s c).1 h
  simp only [ofLayout, aggregationsOf, List.cons_append, List.mem_cons, List.mem_append] at ha
  rcases ha with rfl | ha | rfl | ha
  · exact .inl ⟨rfl, .idEqualsTo, by cases s.isRevocable <;> decide, rfl⟩
  · obtain ⟨signals, hsignals, ha⟩ := List.mem_flatMap.1 ha
    obtain ⟨claim, hclaim, rfl⟩ := List.mem_map.1 hsignals
    exact .inr ⟨claim, hclaim, ha⟩
  · exact .inl ⟨rfl, .expirationLb, by cases s.isRevocable <;> decide, rfl⟩
  · split at ha
    · next hdepth =>
      have hrevocable : s.isRevocable = true := hdepth
      obtain rfl := List.mem_singleton.1 ha
      exact .inl ⟨rfl, .revocationRoot, by rw [hrevocable]; decide, rfl⟩
    · cases ha

theorem arity_of_compile (h : compile s = .ok c) {a : Aggregation} (ha : a ∈ c.aggregations) :
    a.sources.length = a.rule.arity := by
  rcases aggregation_cases h ha with ⟨harity, i, -, hsources⟩ | ⟨claim, -, ha⟩
  · rw [harity, hsources]
    rfl
  · exact length_sources_ofClaim claim a ha

theorem sources_subset_of_compile (h : compile s = .ok c) {a : Aggregation} (ha : a ∈ c.aggregations) :
    ∀ name ∈ a.sources, name ∈ c.publicSignals.map (·.name) := by
  rw [signals_of_compile h, List.map_append]
  intro name hname
  rcases aggregation_cases h ha with ⟨-, i, hi, hsources⟩ | ⟨claim, hclaim, ha⟩
  · rw [hsources, List.mem_singleton] at hname
    rw [hname, ← i.name_signal]
    exact List.mem_append_left _ (List.mem_map_of_mem (List.mem_map_of_mem hi))
  · obtain ⟨out, hout, rfl⟩ := List.mem_map.1 (sources_subset claim a ha name hname)
    exact List.mem_append_right _ (List.mem_map_of_mem (List.mem_flatMap.2 ⟨claim, hclaim, hout⟩))

/-- Names of the table are fed from their places. -/
theorem sourceValues_places (hdistinct : (c.publicSignals.map (·.name)).Nodup) {a : Aggregation}
    (ha : ∀ name ∈ a.sources, name ∈ c.publicSignals.map (·.name)) {values : List Nat}
    (hlength : values.length = c.publicSignals.length) :
    List.Forall₂ (fun name value => ∃ k, c.HasPlace name k ∧ values[k]? = some value)
      a.sources (c.sourceValues a values) := by
  have hkeys : ((c.publicSignals.zip values).map (·.1.name)).Nodup := by
    have hsignals : (c.publicSignals.zip values).map Prod.fst = c.publicSignals :=
      List.map_fst_zip (Nat.le_of_eq hlength.symm)
    rw [← hsignals, List.map_map] at hdistinct
    exact hdistinct
  refine Aligned.forall₂_filterMap fun name hname => ?_
  obtain ⟨_, hsignal, rfl⟩ := List.mem_map.1 (ha name hname)
  obtain ⟨k, hk, rfl⟩ := List.getElem_of_mem hsignal
  have hk' : k < values.length := hlength ▸ hk
  have hmem : (c.publicSignals[k], values[k]) ∈ c.publicSignals.zip values :=
    List.mem_iff_getElem.2 ⟨k, by simp only [List.length_zip]; omega, by simp only [List.getElem_zip]⟩
  have hfound := (Keyed.find?_eq_some_iff hkeys).2 ⟨hmem, rfl⟩
  refine ⟨values[k], by rw [hfound]; rfl, k, ?_, List.getElem?_eq_getElem hk'⟩
  rw [HasPlace, List.getElem?_eq_getElem hk]
  rfl

theorem merge_failsWith {a : Aggregation} {current : Option Nat} {sources : List Nat}
    (h : sources.length = a.rule.arity) : Result.FailsWith [.invalidQuery] (a.merge current sources) := by
  obtain ⟨value, hvalue⟩ := Option.isSome_iff_exists.1 ((a.rule.isSome_incoming?_iff sources).2 h)
  unfold Aggregation.merge
  rw [hvalue]
  dsimp only
  split
  · exact .ok _
  · exact .own _

/-- **What refers to the table of a compiled circuit agrees with it.** -/
theorem tabulates_of_compile (h : compile s = .ok c) : c.Tabulates s where
  signals := signals_of_compile h
  count := by
    rw [signals_of_compile h, List.length_append, List.length_map, Intrinsic.length_ofRevocable,
      List.length_flatMap]
    simp only [length_outputs_ofClaim]
  bounded := by
    obtain ⟨rfl, -, -, hcount⟩ := (compile_eq_ok_iff s c).1 h
    exact hcount
  distinct := distinct_of_compile h
  ceilings := by
    rw [signals_of_compile h, List.forall_mem_append, List.forall_mem_map, List.forall_mem_flatMap]
    exact ⟨fun i _ => i.ceiling_le_fieldOrder, fun claim _ out hout => (ceiling_lt_fieldOrder claim out hout).le⟩
  intrinsics := by rw [intrinsics_of_compile h, List.zipIdx_map_fst]
  places := fun _ _ => indexOf?_eq_some_iff h
  arity := fun _ => arity_of_compile h
  sources := fun _ ha name hname =>
    List.count_eq_one_of_mem (distinct_of_compile h) (sources_subset_of_compile h ha name hname)
  fed := fun _ ha _ => sourceValues_places (distinct_of_compile h) (sources_subset_of_compile h ha)
  merges := fun a ha values hlength current => by
    have hfed := sourceValues_places (distinct_of_compile h) (sources_subset_of_compile h ha) hlength
    exact merge_failsWith (hfed.length_eq.symm.trans (arity_of_compile h ha))

theorem tabulates_of_compile_club :
    ∃ c, compile clubSchema = .ok c ∧ c.Tabulates clubSchema :=
  ⟨_, compile_clubSchema, tabulates_of_compile compile_clubSchema⟩

end

end Circuit

end Vouch

import Vouch.Proofs.Circuit.Compiled
import Vouch.Proofs.Circuit.Endings

/-! Slots that two aggregations of a circuit fill.

The slots of the claims are distinct, and most of them cannot be those of the intrinsic
signals: no claim is called like one of those, and the lower bound of a narrow claim
`expiration` is a signal that every circuit already has. The bounds of a wide one are not
signals but pairs of them, and so its lower bound goes into the slot of the intrinsic
expiration unnoticed (`slots_nodup_iff`). -/
namespace Vouch.Circuit

open ClaimSignals (derived slotName ofClaim)
open Layout (unchecked)

theorem slotName_eq (name : String) : slotName name = "agg_" ++ name := by
  simp [slotName, toString]

theorem slotName_inj {a b : String} (h : slotName a = slotName b) : a = b := by
  rw [slotName_eq, slotName_eq] at h
  exact (String.append_right_inj _).1 h

/-! ### The slots of a claim -/

/-- What the slots of a claim are called after. -/
def slotStems (c : Claim) : List String :=
  match c.type with
  | .integer .. => [derived c.name "lb", derived c.name "ub"]
  | .property p => (List.range p.checks).map fun i => derived c.name s!"eq_check{i}"
  | .boolean => [c.name]

theorem destinations_ofClaim (c : Claim) :
    (ofClaim c).aggregations.map (·.destination) = (slotStems c).map slotName := by
  unfold ofClaim slotStems
  cases c.type with
  | integer width valid =>
    dsimp only
    split <;> rfl
  | property p => simp [ClaimSignals.ofProperty, Aggregation.ofBits]
  | boolean => rfl

def claimSlots (s : Schema) : List String :=
  s.claims.flatMap fun c => (slotStems c).map slotName

theorem destinations_claims (s : Schema) :
    (unchecked s).claimAggregations.map (·.destination) = claimSlots s := by
  simp only [Layout.claimAggregations, unchecked, List.flatMap_map, List.map_flatMap,
    destinations_ofClaim, claimSlots]

theorem destinations_compile {s : Schema} {c : Circuit} (h : compile s = .ok c) :
    c.aggregations.map (·.destination) =
      slotName "out_id_equals_to" :: claimSlots s ++
        slotName "expiration_lb" :: if s.isRevocable then ["sig_smt_root"] else [] := by
  rw [((compile_eq_ok_iff s c).1 h).1, ← destinations_claims]
  have hdepth : (unchecked s).depth.isSome = s.isRevocable := rfl
  cases hrevocable : s.isRevocable <;>
    simp [ofLayout, aggregationsOf, hdepth, hrevocable, Aggregation.ofBits] <;> decide

theorem mem_claimSlots_iff {s : Schema} {stem : String} :
    slotName stem ∈ claimSlots s ↔ ∃ claim ∈ s.claims, stem ∈ slotStems claim := by
  unfold claimSlots
  constructor
  · intro h
    obtain ⟨claim, hclaim, hmem⟩ := List.mem_flatMap.1 h
    obtain ⟨other, hother, he⟩ := List.mem_map.1 hmem
    exact ⟨claim, hclaim, slotName_inj he ▸ hother⟩
  · intro ⟨claim, hclaim, hmem⟩
    exact List.mem_flatMap.2 ⟨claim, hclaim, List.mem_map_of_mem hmem⟩

/-! ### Slots of claims and of intrinsic signals -/

theorem not_mem_slotStems_idEqualsTo (c : Claim) : "out_id_equals_to" ∉ slotStems c := by
  have hends : ¬ EndsDerived "out_id_equals_to" := by decide
  have hbounds : EndsDerived "lb" ∧ EndsDerived "ub" := by decide
  intro h
  unfold slotStems at h
  split at h
  · rcases List.mem_pair.1 h with h | h
    · exact hends (h ▸ hbounds.1.derived c.name)
    · exact hends (h ▸ hbounds.2.derived c.name)
  · rename_i p _
    exact hends (ClaimSignals.endsDerived_operations c p _ h)
  · have hname : c.name = "out_id_equals_to" := (List.mem_singleton.1 h).symm
    have hstart := c.validName.2.1 "out_" (by decide)
    rw [hname] at hstart
    revert hstart
    decide

/-- Only the lower bound of an integer called `expiration` goes into the slot of the intrinsic one. -/
theorem mem_slotStems_expiration_iff (c : Claim) :
    "expiration_lb" ∈ slotStems c ↔
      c.name = "expiration" ∧ ∃ width valid, c.type = .integer width valid := by
  have hexpiration : "expiration_lb" = derived "expiration" "lb" := by decide
  unfold slotStems
  cases htype : c.type with
  | integer width valid =>
    simp only [List.mem_pair]
    constructor
    · intro h
      rw [hexpiration] at h
      cases h with
      | inl h => exact ⟨(derived_inj (by decide) (by decide) h).1.symm, width, valid, rfl⟩
      | inr h => exact absurd (derived_inj (by decide) (by decide) h).2 (by decide)
    · intro h
      exact .inl (h.1 ▸ hexpiration)
  | property p =>
    constructor
    · intro h
      obtain ⟨i, hi, hname⟩ := List.mem_map.1 h
      have hchecks := Nat.lt_of_lt_of_le (List.mem_range.1 hi) p.validChecks.2
      have hending : ∀ i < greatestCheckCount, lastTwo s!"eq_check{i}" ≠ lastTwo "expiration_lb" := by
        decide
      rw [← hname, lastTwo_derived _ (by simp [toString])] at hending
      exact absurd rfl (hending i hchecks)
    · intro h
      obtain ⟨-, width, valid, hinteger⟩ := h
      cases hinteger
  | boolean =>
    constructor
    · intro h
      have hreserved : "expiration_lb" ∈ Claim.reservedNames := by decide
      exact absurd (List.mem_singleton.1 h ▸ hreserved) c.validName.2.2
    · intro h
      obtain ⟨-, width, valid, hinteger⟩ := h
      cases hinteger

/-- The bound of a narrow integer is a signal, and a circuit has one of that name already. -/
theorem wide_of_expiration {s : Schema} (hnames : (unchecked s).names.Nodup) {claim : Claim}
    (hclaim : claim ∈ s.claims) (hname : claim.name = "expiration") {width : Nat}
    {valid : ValidWidth greatestIntegerWidth width} (htype : claim.type = .integer width valid) :
    width = greatestIntegerWidth := by
  by_contra hwidth
  have hoperation : "expiration_lb" ∈ (unchecked s).operationNames := by
    have hlb : "expiration_lb" ∈ (ofClaim claim).operations := by
      simp only [ofClaim, htype, if_neg hwidth, ClaimSignals.ofNarrow, hname]
      decide
    exact List.mem_flatMap.2 ⟨ofClaim claim, List.mem_map_of_mem hclaim, hlb⟩
  have hinput : "expiration_lb" ∈ (unchecked s).intrinsicInputs.map (·.name) := by
    have hfixed : "expiration_lb" ∈ fixedInputs.map (·.name) := by decide
    show "expiration_lb" ∈ (intrinsicInputs s.depth).map (·.name)
    cases s.depth with
    | none => exact hfixed
    | some depth => rw [intrinsicInputs, List.map_append]; exact List.mem_append_left _ hfixed
  have hprivate := (List.nodup_append.1 hnames).1
  exact (List.nodup_append.1 hprivate).2.2 _ (List.mem_append_left _ hinput) _ hoperation rfl

theorem mem_claimSlots_expiration_iff {s : Schema} (hnames : (unchecked s).names.Nodup) :
    slotName "expiration_lb" ∈ claimSlots s ↔
      ∃ claim ∈ s.claims, claim.name = "expiration" ∧ claim.type.width = greatestIntegerWidth := by
  rw [mem_claimSlots_iff]
  constructor
  · intro ⟨claim, hclaim, hmem⟩
    obtain ⟨hname, width, valid, htype⟩ := (mem_slotStems_expiration_iff claim).1 hmem
    refine ⟨claim, hclaim, hname, ?_⟩
    rw [htype]
    exact wide_of_expiration hnames hclaim hname htype
  · intro ⟨claim, hclaim, hname, hwidth⟩
    refine ⟨claim, hclaim, (mem_slotStems_expiration_iff claim).2 ⟨hname, ?_⟩⟩
    cases htype : claim.type with
    | integer width valid => exact ⟨width, valid, rfl⟩
    | property p =>
      rw [htype] at hwidth
      have hbelow : p.width ≤ greatestPropertyWidth := p.validWidth.2.1
      rw [show p.width = 256 from hwidth] at hbelow
      exact absurd hbelow (by decide)
    | boolean =>
      rw [htype] at hwidth
      exact absurd hwidth (by decide)

theorem not_mem_claimSlots_revocation (s : Schema) : "sig_smt_root" ∉ claimSlots s := by
  intro h
  obtain ⟨claim, -, hmem⟩ := List.mem_flatMap.1 h
  obtain ⟨stem, -, he⟩ := List.mem_map.1 hmem
  rw [slotName_eq] at he
  have hfirst := congrArg (fun name => name.toList.head?) he
  simp at hfirst

/-- **Two aggregations of a circuit fill one slot exactly if it has a wide claim `expiration`.** -/
theorem slots_nodup_iff {s : Schema} {c : Circuit} (h : compile s = .ok c) :
    (c.aggregations.map (·.destination)).Nodup ↔
      ¬ ∃ claim ∈ s.claims, claim.name = "expiration" ∧ claim.type.width = greatestIntegerWidth := by
  obtain ⟨-, hnames, hslots, -⟩ := (compile_eq_ok_iff s c).1 h
  rw [destinations_claims] at hslots
  have hid : slotName "out_id_equals_to" ∉ claimSlots s := by
    rw [mem_claimSlots_iff]
    rintro ⟨claim, -, hmem⟩
    exact not_mem_slotStems_idEqualsTo claim hmem
  have hroot : ∀ slot ∈ (if s.isRevocable then ["sig_smt_root"] else []), slot = "sig_smt_root" := by
    split <;> simp
  have hintrinsic : (slotName "expiration_lb" :: if s.isRevocable then ["sig_smt_root"] else []).Nodup ∧
      slotName "out_id_equals_to" ∉
        slotName "expiration_lb" :: if s.isRevocable then ["sig_smt_root"] else [] := by
    cases s.isRevocable <;> decide
  rw [destinations_compile h, ← mem_claimSlots_expiration_iff hnames, List.cons_append, List.nodup_cons,
    List.nodup_append]
  constructor
  · rintro ⟨-, -, -, hdisjoint⟩ hmem
    exact hdisjoint _ hmem _ List.mem_cons_self rfl
  · intro hexpiration
    refine ⟨?_, hslots, hintrinsic.1, ?_⟩
    · rw [List.mem_append, not_or]
      exact ⟨hid, hintrinsic.2⟩
    · rintro slot hslot other hother rfl
      rcases List.mem_cons.1 hother with rfl | hother
      · exact hexpiration hslot
      · exact not_mem_claimSlots_revocation s (hroot slot hother ▸ hslot)

theorem slots_nodup_age : ∃ c, compile ageSchema = .ok c ∧ (c.aggregations.map (·.destination)).Nodup :=
  ⟨_, compile_ageSchema, (slots_nodup_iff compile_ageSchema).2 (by decide)⟩

/-- A wide expiration. -/
def expirationSchema : Schema where
  claims := [⟨"expiration", .integer 256 (by decide), by unfold Claim.ValidName; decide⟩]
  depth := none
  id := 0
  distinct := by decide
  validDepth := validDepth_none

/-- The claim and the intrinsic signal both fill `agg_expiration_lb`. -/
theorem slots_not_nodup_expiration :
    ∃ c, compile expirationSchema = .ok c ∧ ¬ (c.aggregations.map (·.destination)).Nodup := by
  have h : compile expirationSchema = .ok (ofLayout (unchecked expirationSchema)) :=
    (compile_eq_ok_iff _ _).2 ⟨rfl, by decide +kernel, by decide +kernel, by decide⟩
  exact ⟨_, h, by decide +kernel⟩

end Vouch.Circuit

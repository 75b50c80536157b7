import Mathlib.Data.List.Perm.Basic
import Mathlib.Logic.Function.Basic
import Vouch.Proofs.Circuit.Constraints

/-! Assignments to the wires of claims.

The wires of a claim are distinct (`nodup_wires`), and so the lines of a claim can be
satisfied exactly if its statement admits its value (`exists_realizes_iff`). Components of
different claims are called differently; if their signals are too, one valuation does for
all claims together (`exists_realizes_all`). -/
namespace Vouch.Circuit

open ClaimSignals (derived length_limbs length_operands outputName ofClaim ofWide ofNarrow ofProperty ofBoolean)

/-! ### Signals of one claim -/

/-- A name with the endings of inputs and operations, and outputs with endings of other lengths. -/
theorem nodup_of_endings {name : String} {privates publics : List String} (hprivates : privates.Nodup)
    (hpublics : publics.Nodup) (hlength : ∀ e ∈ privates, ∀ f ∈ publics, e.length ≠ f.length + 4) :
    (privates.map (name ++ ·) ++ publics.map fun f => outputName (name ++ f)).Nodup := by
  simp only [outputName_eq]
  refine List.nodup_append.2 ⟨hprivates.map ?_, hpublics.map ?_, ?_⟩
  · exact fun e f h => (String.append_right_inj _).1 h
  · exact fun e f h => (String.append_right_inj _).1 ((String.append_right_inj _).1 h)
  · rintro _ he _ hf h
    obtain ⟨e, he', rfl⟩ := List.mem_map.1 he
    obtain ⟨f, hf', rfl⟩ := List.mem_map.1 hf
    have hlengths := congrArg String.length h
    simp only [String.length_append] at hlengths
    have hout : "out_".length = 4 := by decide
    exact hlength e he' f hf' (by omega)

/-- How the names of a property's operations go on after that of the claim. -/
def checkEndings (checks : Nat) : List String :=
  (List.range checks).map fun i => "_" ++ s!"eq_check{i}"

theorem names_eq_wide (c : Claim) :
    (ofWide c).names =
      ["_msb", "_lsb", "_lb_msb", "_lb_lsb", "_ub_msb", "_ub_lsb"].map (c.name ++ ·) ++
        ["_lb_msb", "_lb_lsb", "_ub_msb", "_ub_lsb"].map fun f => outputName (c.name ++ f) := by
  simp [ClaimSignals.names, ofWide, derived, toString, PublicSignal.ofBits, String.append_assoc]

theorem names_eq_property (c : Claim) (p : PropertyType) :
    (ofProperty c p).names =
      ("" :: checkEndings p.checks).map (c.name ++ ·) ++
        (checkEndings p.checks).map fun f => outputName (c.name ++ f) := by
  simp [ClaimSignals.names, ofProperty, checkEndings, derived, toString, PublicSignal.ofBits,
    String.append_assoc, Function.comp_def]

theorem nodup_names_ofClaim (c : Claim) : (ofClaim c).names.Nodup := by
  unfold ofClaim
  split
  · split
    · rw [names_eq_wide]
      exact nodup_of_endings (by decide) (by decide) (by decide)
    · have hnames (width : Nat) : (ofNarrow c width).names =
          ["", "_lb", "_ub"].map (c.name ++ ·) ++
            ["_lb", "_ub"].map fun f => outputName (c.name ++ f) := by
        simp [ClaimSignals.names, ofNarrow, derived, toString, PublicSignal.ofBits, String.append_assoc]
      rw [hnames]
      exact nodup_of_endings (by decide) (by decide) (by decide)
  · rename_i p htype
    have hendings : ∀ checks ≤ greatestCheckCount, ("" :: checkEndings checks).Nodup ∧
        (checkEndings checks).Nodup ∧
        ∀ e ∈ "" :: checkEndings checks, ∀ f ∈ checkEndings checks, e.length ≠ f.length + 4 := by
      decide
    obtain ⟨hprivates, hpublics, hlength⟩ := hendings p.checks p.validChecks.2
    rw [names_eq_property]
    exact nodup_of_endings hprivates hpublics hlength
  · have hnames : (ofBoolean c).names =
        ["", "_hide"].map (c.name ++ ·) ++ [""].map fun f => outputName (c.name ++ f) := by
      simp [ClaimSignals.names, ofBoolean, derived, toString, PublicSignal.ofBits, String.append_assoc]
    rw [hnames]
    exact nodup_of_endings (by decide) (by decide) (by decide)

/-! ### Distinct wires -/

theorem Wire.IsPinOf.unique {w : Wire} {a b : String} (ha : w.IsPinOf a) (hb : w.IsPinOf b) : a = b := by
  cases w with
  | signal name => exact ha.elim
  | pin component name => exact ha.symm.trans hb
  | pinAt component name index => exact ha.symm.trans hb

theorem isPinOf_rangePins (width : Nat) (name : String) :
    ∀ w ∈ valuePins width name ++ boundPins width name, w.IsPinOf name := by
  unfold valuePins boundPins
  split
  · rw [List.forall_mem_append, List.forall_mem_map, List.forall_mem_map]
    exact ⟨fun _ _ => rfl, fun _ _ => rfl⟩
  · rw [List.forall_mem_append, List.forall_mem_map, List.forall_mem_singleton]
    exact ⟨rfl, fun _ _ => rfl⟩

theorem isPinOf_equalityPins (name : String) : ∀ w ∈ equalityPins name, w.IsPinOf name := by
  simp only [equalityPins, List.forall_mem_cons]
  exact ⟨rfl, rfl, rfl, List.forall_mem_nil _⟩

theorem exists_of_mem_pins {c : Claim} {w : Wire} (h : w ∈ pins c) :
    ∃ name ∈ componentsOf c, w.IsPinOf name := by
  unfold pins at h
  unfold componentsOf
  cases htype : c.type with
  | integer width valid =>
    rw [htype] at h
    exact ⟨_, List.mem_singleton_self _, isPinOf_rangePins _ _ w h⟩
  | property p =>
    rw [htype] at h
    obtain ⟨i, hi, hw⟩ := List.mem_flatMap.1 h
    exact ⟨_, List.mem_map_of_mem hi, isPinOf_equalityPins _ w hw⟩
  | boolean =>
    rw [htype] at h
    cases h

theorem nodup_pins (c : Claim) : (pins c).Nodup := by
  have hcomponents := nodup_componentsOf c
  unfold pins
  unfold componentsOf at hcomponents
  cases htype : c.type with
  | integer width valid =>
    dsimp only [valuePins, boundPins]
    split
    · simp [List.range_succ]
    · simp
  | property p =>
    rw [htype] at hcomponents
    refine List.nodup_flatMap.2 ⟨fun i _ => by simp [equalityPins], ?_⟩
    refine (List.pairwise_map.1 hcomponents).imp fun {i j} hne w hi hj => hne ?_
    exact (isPinOf_equalityPins _ w hi).unique (isPinOf_equalityPins _ w hj)
  | boolean => exact List.nodup_nil

theorem nodup_wires (c : Claim) : (wires c).Nodup := by
  refine List.nodup_append.2 ⟨(nodup_names_ofClaim c).map fun _ _ h => Wire.signal.inj h, nodup_pins c, ?_⟩
  rintro _ hsignal w hpin rfl
  obtain ⟨name, -, rfl⟩ := List.mem_map.1 hsignal
  obtain ⟨component, -, h⟩ := exists_of_mem_pins hpin
  exact h

/-- Claims whose signals are called differently share no wire. -/
theorem disjoint_wires {c d : Claim} (hname : c.name ≠ d.name)
    (hsignals : (ofClaim c).names.Disjoint (ofClaim d).names) : (wires c).Disjoint (wires d) := by
  intro w hc hd
  rcases List.mem_append.1 hc with hc | hc
  · obtain ⟨name, hname, rfl⟩ := List.mem_map.1 hc
    rcases List.mem_append.1 hd with hd | hd
    · obtain ⟨_, hother, h⟩ := List.mem_map.1 hd
      exact hsignals hname (Wire.signal.inj h ▸ hother)
    · obtain ⟨component, -, h⟩ := exists_of_mem_pins hd
      exact h
  · obtain ⟨component, hcomponent, h⟩ := exists_of_mem_pins hc
    rcases List.mem_append.1 hd with hd | hd
    · obtain ⟨_, -, rfl⟩ := List.mem_map.1 hd
      exact h
    · obtain ⟨_, hother, h'⟩ := exists_of_mem_pins hd
      obtain rfl := h.unique h'
      obtain ⟨e, he, rfl⟩ := exists_of_mem_componentsOf hcomponent
      obtain ⟨f, hf, heq⟩ := exists_of_mem_componentsOf hother
      exact hname (derived_inj he hf heq).1

/-! ### Valuations -/

theorem exists_valuation {ws : List Wire} (h : ws.Nodup) {values : List Felt}
    (hlength : ws.length = values.length) : ∃ ρ : Valuation, ws.map ρ = values := by
  induction ws generalizing values with
  | nil => exact ⟨fun _ => 0, (List.length_eq_zero_iff.1 hlength.symm).symm⟩
  | cons w ws ih =>
    cases values with
    | nil => cases hlength
    | cons value values =>
      obtain ⟨hw, hws⟩ := List.nodup_cons.1 h
      obtain ⟨ρ, rfl⟩ := ih hws (Nat.succ.inj hlength)
      refine ⟨Function.update ρ w value, ?_⟩
      have hrest : ws.map (Function.update ρ w value) = ws.map ρ :=
        List.map_congr_left fun _ hw' => Function.update_of_ne (ne_of_mem_of_not_mem hw' hw) _ _
      rw [List.map_cons, Function.update_self, hrest]

/-- Valuations of disjoint wires have a common extension. -/
theorem exists_extension {α : Type} {wiresOf : α → List Wire} (ρ : α → Valuation) {parts : List α}
    (h : parts.Pairwise fun a b => (wiresOf a).Disjoint (wiresOf b)) :
    ∃ σ : Valuation, ∀ part ∈ parts, ∀ w ∈ wiresOf part, σ w = ρ part w := by
  induction parts with
  | nil => exact ⟨fun _ => 0, nofun⟩
  | cons a parts ih =>
    obtain ⟨ha, hparts⟩ := List.pairwise_cons.1 h
    obtain ⟨σ, hσ⟩ := ih hparts
    refine ⟨fun w => if w ∈ wiresOf a then ρ a w else σ w, List.forall_mem_cons.2 ⟨?_, ?_⟩⟩
    · exact fun w hw => if_pos hw
    · intro part hpart w hw
      exact (if_neg fun hwa => ha part hpart hwa hw).trans (hσ part hpart w hw)

/-! ### Claims with their values and statements -/

/-- The valuation carries the value and the statement of a claim and satisfies its lines. -/
def Valuation.Realizes (ρ : Valuation) (part : (Claim × ClaimValue) × Statement) : Prop :=
  (ofClaim part.1.1).Carries part.1.2 part.2 ρ ∧ (ofClaim part.1.1).Satisfied ρ

/-- Value and statement are of the kind of their claim. -/
def WellTyped (part : (Claim × ClaimValue) × Statement) : Prop :=
  part.1.2.type = part.1.1.type ∧ part.2.Concerns part.1.2

variable {part : (Claim × ClaimValue) × Statement} {ρ : Valuation}

theorem realizes_iff (h : WellTyped part) :
    ρ.Realizes part ↔
      (wires part.1.1).map ρ = (readings part.1.2 part.2).map Field.reduce ∧ part.2.Admits part.1.2 :=
  ClaimSignals.carries_and_satisfied_iff h.1 h.2

theorem length_pins (h : WellTyped part) :
    (pins part.1.1).length = (pinReadings part.1.2 part.2).length := by
  obtain ⟨htype, hconcerns⟩ := h
  generalize part.1.2 = v, part.2 = t at htype hconcerns
  cases hconcerns with
  | @range r i width =>
    simp only [pins, ← htype, ClaimValue.type, valuePins, boundPins, pinReadings, ClaimValue.limbs,
      Statement.operands, ← width]
    split <;> rfl
  | @equality e p type =>
    simp [pins, ← htype, ClaimValue.type, equalityPins, pinReadings, type, e.complete, List.length_flatMap]
  | reveal shown b =>
    rw [pins, ← htype]
    rfl

theorem length_wires (h : WellTyped part) :
    (wires part.1.1).length = (readings part.1.2 part.2).length := by
  have hoperations := length_operands h.1 h.2
  have houtputs := ClaimSignals.length_outputs h.1 h.2
  simp only [wires, readings, ClaimSignals.names, List.length_append, List.length_map, length_limbs h.1,
    hoperations, houtputs, length_pins h]

/-- **The lines of a claim can be satisfied exactly if its statement admits its value.** -/
theorem exists_realizes_iff (h : WellTyped part) :
    (∃ ρ : Valuation, ρ.Realizes part) ↔ part.2.Admits part.1.2 := by
  simp only [realizes_iff h, exists_and_right, and_iff_right_iff_imp]
  intro _
  exact exists_valuation (nodup_wires part.1.1) (by simpa using length_wires h)

/-- What a valuation realizes it does by the wires of the claim. -/
theorem realizes_congr {σ : Valuation} (hpart : WellTyped part) (h : ∀ w ∈ wires part.1.1, σ w = ρ w) :
    σ.Realizes part ↔ ρ.Realizes part := by
  rw [realizes_iff hpart, realizes_iff hpart, List.map_congr_left h]

/-- If no two claims share a signal, they can be realized together. -/
theorem exists_realizes_all {parts : List ((Claim × ClaimValue) × Statement)}
    (htyped : ∀ part ∈ parts, WellTyped part)
    (hdisjoint : parts.Pairwise fun a b => (wires a.1.1).Disjoint (wires b.1.1))
    (h : ∀ part ∈ parts, ∃ ρ : Valuation, ρ.Realizes part) :
    ∃ ρ : Valuation, ∀ part ∈ parts, ρ.Realizes part := by
  choose! ρ hρ using h
  obtain ⟨σ, hσ⟩ := exists_extension ρ hdisjoint
  exact ⟨σ, fun part hpart => (realizes_congr (htyped part hpart) (hσ part hpart)).2 (hρ part hpart)⟩

/-- What the outputs of a realized claim say, as integers. -/
theorem outputs_of_realizes (hpart : WellTyped part) (h : ρ.Realizes part) :
    (ofClaim part.1.1).outputs.map (fun out => (ρ.signal out.name).val) = part.2.outputs part.1.2 := by
  obtain ⟨hout, -⟩ := (ClaimSignals.satisfied_iff hpart.1 hpart.2 h.1).1 h.2
  have hval : (part.2.outputs part.1.2).map (fun n => (Field.reduce n).val) = part.2.outputs part.1.2 :=
    (List.map_congr_left fun n hn =>
      Field.val_reduce (ClaimSignals.outputs_lt hpart.1 hpart.2 n hn)).trans (List.map_id _)
  have hvals := congrArg (List.map Fin.val) hout
  rw [List.map_map, List.map_map] at hvals
  exact hvals.trans hval

/-- If the names of a layout are distinct, no two claims share a signal. -/
theorem nodup_claimNames {s : Schema} (h : (Layout.unchecked s).names.Nodup) :
    (s.claims.flatMap fun c => (ofClaim c).names).Nodup := by
  have hclaims {α : Type} (f : ClaimSignals → List α) :
      (Layout.unchecked s).claims.flatMap f = s.claims.flatMap fun c => f (ofClaim c) :=
    List.flatMap_map ..
  have hpublic : (Layout.unchecked s).publicSignals.map (·.name) =
      ((Intrinsic.ofRevocable s.isRevocable).map (·.signal)).map (·.name) ++
        s.claims.flatMap fun c => (ofClaim c).outputs.map (·.name) := by
    rw [← List.map_flatMap, ← hclaims, ← List.map_append]
    rfl
  have hlisted : ((s.claims.flatMap fun c => (ofClaim c).inputs) ++
      (s.claims.flatMap fun c => (ofClaim c).operations) ++
      s.claims.flatMap fun c => (ofClaim c).outputs.map (·.name)).Nodup := by
    refine h.sublist ?_
    rw [Layout.names, Layout.inputNames, Layout.operationNames, hclaims, hclaims, hpublic]
    refine List.Sublist.append (List.Sublist.append ?_ (List.Sublist.refl _)) ?_
    · exact List.sublist_append_right _ _
    · exact List.sublist_append_right _ _
  refine (List.Perm.nodup_iff ?_).1 hlisted
  exact ((List.flatMap_append_perm _ _ _).append_right _).trans (List.flatMap_append_perm _ _ _)

end Vouch.Circuit

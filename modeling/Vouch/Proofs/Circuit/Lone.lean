import Vouch.Proofs.Circuit.Assignment
import Vouch.Proofs.Circuit.Slots
import Vouch.Proofs.Circuit.Table
import Vouch.Proofs.Schema.Reading

/-! Schemas of one claim.

The names that claims may not have are listed by hand, and a valid name is never that of a
signal that circuits have of themselves (`name_not_injected`). What a claim derives from
its name is checked by nobody. It ends like the lower bound of the expiration, or not like any
such signal at all (`endsDerived_injected`), unless it is the output of a boolean, which has no
ending. So a schema with a single claim has a circuit, but for a narrow integer called
`expiration` and a boolean called like one of three outputs (`compile_lone`). -/
namespace Vouch

open Circuit.ClaimSignals (derived outputName ofClaim ofWide ofNarrow ofProperty ofBoolean)

/-- What outputs of every circuit are called after, and claims may still be. -/
def Claim.unreserved : List String :=
  ["nullifier", "reveal_identity", "key_id"]

/-- The signal of every circuit that a claim declares once more. -/
def Claim.clash? (c : Claim) : Option String :=
  match c.type with
  | .integer width _ =>
    if width ≠ greatestIntegerWidth ∧ c.name = "expiration" then some "expiration_lb" else none
  | .property _ => none
  | .boolean =>
    if c.name ∈ unreserved then some (outputName c.name) else none

namespace Circuit

open Layout (unchecked)

/-! ### Repetitions -/

/-- After distinct names that are new, one of them or one seen before is the first repetition. -/
theorem firstRepeat?_append {seen names : List String} {name : String} (hnodup : names.Nodup)
    (hnew : ∀ n ∈ names, n ∉ seen) (hname : name ∈ seen ∨ name ∈ names) (rest : List String) :
    firstRepeat? seen (names ++ name :: rest) = some name := by
  induction names generalizing seen with
  | nil =>
    have hseen := hname.resolve_right List.not_mem_nil
    exact if_pos hseen
  | cons n names ih =>
    obtain ⟨hn, hnodup⟩ := List.nodup_cons.1 hnodup
    obtain ⟨hseen, hnew⟩ := List.forall_mem_cons.1 hnew
    have hnew' : ∀ m ∈ names, m ∉ n :: seen := by
      intro m hm
      exact List.not_mem_cons_of_ne_of_not_mem (fun he => hn (he ▸ hm)) (hnew m hm)
    have hname' : name ∈ n :: seen ∨ name ∈ names := by
      simp only [List.mem_cons] at hname ⊢
      tauto
    exact (if_neg hseen).trans (ih hnodup hnew' hname')

/-! ### Signals that belong to no claim -/

/-- The signals that circuits have of themselves, those of revocable schemas among them. -/
def injectedNames : List String :=
  (fixedInputs ++ revocationInputs 0).map (·.name) ++ Intrinsic.all.map (·.outputName)

/-- Those of one schema. -/
def injectedInto (revocable : Bool) : List String × List String :=
  ((fixedInputs ++ if revocable then revocationInputs 0 else []).map (·.name),
    (Intrinsic.ofRevocable revocable).map (·.outputName))

/-- The depth of a revocation tree changes the length of an input only. -/
theorem inputs_eq_injectedInto (depth : Option Nat) :
    (intrinsicInputs depth).map (·.name) = (injectedInto depth.isSome).1 := by
  cases depth with
  | none => simp [intrinsicInputs, injectedInto]
  | some depth => rfl

theorem injectedInto_sublist (revocable : Bool) :
    ((injectedInto revocable).1 ++ (injectedInto revocable).2).Sublist injectedNames := by
  cases revocable with
  | false =>
    have hinputs : (injectedInto false).1 = fixedInputs.map (·.name) := by simp [injectedInto]
    rw [hinputs]
    exact ((List.sublist_append_left _ _).map _).append ((List.sublist_append_left _ _).map _)
  | true => exact List.Sublist.refl _

/-- They are among the names of any circuit that can be revoked, and those are distinct. -/
theorem nodup_injectedNames : injectedNames.Nodup := by
  let l := unchecked ageSchema
  have hnames : l.names.Nodup := ((compile_eq_ok_iff _ _).1 compile_ageSchema).2.1
  have hparts : l.names = (fixedInputs ++ revocationInputs 2).map (·.name) ++ l.inputNames ++ l.operationNames ++
      (Intrinsic.all.map (·.outputName) ++ l.outputs.map (·.name)) := rfl
  rw [hparts, List.append_assoc _ l.inputNames] at hnames
  exact hnames.sublist ((List.sublist_append_left _ _).append (List.sublist_append_left _ _))

/-- Each of them starts like a derived signal or is reserved. -/
theorem guarded_injected :
    ∀ name ∈ injectedNames, (∃ start ∈ ["sig_", "out_"], Claim.startsWith name start = true) ∨
      name ∈ Claim.reservedNames := by
  decide +kernel

/-- Only the lower bound of the expiration ends like a derived signal. -/
theorem endsDerived_injected :
    ∀ name ∈ injectedNames, name = "expiration_lb" ∨ name = "out_expiration_lb" ∨
      lastTwo name ∉ derivedEndings := by
  decide +kernel

/-- What the outputs are called after is reserved for the most part. -/
theorem guarded_outputs :
    ∀ name ∈ injectedNames, Claim.startsWith name "out_" = true →
      String.ofList (name.toList.drop 4) ∈ Claim.unreserved ++ Claim.reservedNames ∨
        Claim.startsWith (String.ofList (name.toList.drop 4)) "sig_" = true := by
  decide +kernel

/-! ### Signals of a claim -/

namespace ClaimSignals

/-- No claim is called like a signal of every circuit. -/
theorem name_not_injected (c : Claim) : c.name ∉ injectedNames := by
  obtain ⟨-, hstarts, hreserved⟩ := c.validName
  have hforbidden : ["sig_", "out_"] ⊆ Claim.forbiddenStarts := by decide
  intro hmem
  rcases guarded_injected _ hmem with ⟨start, hstart, hname⟩ | hname
  · rw [hstarts start (hforbidden hstart)] at hname
    cases hname
  · exact hreserved hname

theorem not_injected_of_lastTwo {name : String} (h : EndsDerived name)
    (hbound : lastTwo name ≠ "lb".toList) : name ∉ injectedNames := by
  have hlb : lastTwo "expiration_lb" = "lb".toList ∧ lastTwo "out_expiration_lb" = "lb".toList := by decide
  intro hmem
  rcases endsDerived_injected name hmem with rfl | rfl | hends
  · exact hbound hlb.1
  · exact hbound hlb.2
  · exact hends h.2

/-- What ends otherwise than a lower bound is a new signal, and so is its output. -/
theorem derived_not_injected (claim : String) {ending : String} (h : EndsDerived ending)
    (hbound : lastTwo ending ≠ "lb".toList) :
    derived claim ending ∉ injectedNames ∧ outputName (derived claim ending) ∉ injectedNames := by
  have hderived : lastTwo (derived claim ending) = lastTwo ending := lastTwo_derived claim h.1
  have houtput : lastTwo (outputName (derived claim ending)) = lastTwo ending := by
    rw [outputName_eq, lastTwo_append _ (h.derived claim).1, hderived]
  exact ⟨not_injected_of_lastTwo (h.derived claim) (hderived ▸ hbound),
    not_injected_of_lastTwo (h.derived claim).outputName (houtput ▸ hbound)⟩

/-- A lower bound is a new signal unless it is that of an expiration, and so is its output. -/
theorem bound_not_injected (c : Claim) (h : c.name ≠ "expiration") :
    derived c.name "lb" ∉ injectedNames ∧ outputName (derived c.name "lb") ∉ injectedNames := by
  have hlb : EndsDerived "lb" := by decide
  have hexpiration : "expiration_lb" = derived "expiration" "lb" := by decide
  have hstart : outputName "expiration_lb" = "out_expiration_lb" := by decide
  constructor
  · intro hmem
    -- A claim called `out_expiration` would get the output as its bound, but no claim starts like that.
    rcases endsDerived_injected _ hmem with he | he | hends
    · exact h (derived_inj (by decide) (by decide) (he.trans hexpiration)).1
    · have hclaim : "out_expiration_lb" = derived "out_expiration" "lb" := by decide
      have hname := (derived_inj (by decide) (by decide) (he.trans hclaim)).1
      have hforbidden := c.validName.2.1 "out_" (by decide)
      rw [hname] at hforbidden
      exact absurd hforbidden (by decide)
    · exact hends (hlb.derived _).2
  · intro hmem
    rcases endsDerived_injected _ hmem with he | he | hends
    · rw [outputName_eq] at he
      have hfirst := congrArg (fun name => name.toList.head?) he
      simp at hfirst
    · rw [← hstart, outputName_eq, outputName_eq, String.append_right_inj, hexpiration] at he
      exact h (derived_inj (by decide) (by decide) he).1
    · exact hends (hlb.derived _).outputName.2

theorem output_not_injected (c : Claim) (h : c.name ∉ Claim.unreserved) :
    outputName c.name ∉ injectedNames := by
  have hdrop : String.ofList ((outputName c.name).toList.drop 4) = c.name := by simp [outputName_eq]
  have hstart : Claim.startsWith (outputName c.name) "out_" = true := by
    simp [outputName_eq, Claim.startsWith]
  obtain ⟨-, hstarts, hreserved⟩ := c.validName
  intro hmem
  have hguarded := guarded_outputs _ hmem hstart
  rw [hdrop, List.mem_append, hstarts "sig_" (by decide)] at hguarded
  rcases hguarded with (hlisted | hlisted) | hfalse
  · exact h hlisted
  · exact hreserved hlisted
  · cases hfalse

theorem ofWide_not_injected (c : Claim) : ∀ name ∈ (ofWide c).names, name ∉ injectedNames := by
  have hnames : (ofWide c).names =
      ["msb", "lsb", "lb_msb", "lb_lsb", "ub_msb", "ub_lsb"].map (derived c.name) ++
        ["lb_msb", "lb_lsb", "ub_msb", "ub_lsb"].map fun e => outputName (derived c.name e) := rfl
  have hlimbs : ∀ e ∈ ["msb", "lsb", "lb_msb", "lb_lsb", "ub_msb", "ub_lsb"],
      EndsDerived e ∧ lastTwo e ≠ "lb".toList := by decide
  have hoperations : ["lb_msb", "lb_lsb", "ub_msb", "ub_lsb"] ⊆
      ["msb", "lsb", "lb_msb", "lb_lsb", "ub_msb", "ub_lsb"] := by decide
  rw [hnames, List.forall_mem_append, List.forall_mem_map, List.forall_mem_map]
  exact ⟨fun e he => (derived_not_injected _ (hlimbs e he).1 (hlimbs e he).2).1,
    fun e he => (derived_not_injected _ (hlimbs e (hoperations he)).1 (hlimbs e (hoperations he)).2).2⟩

theorem ofNarrow_not_injected (c : Claim) (width : Nat) (h : c.name ≠ "expiration") :
    ∀ name ∈ (ofNarrow c width).names, name ∉ injectedNames := by
  have hnames : (ofNarrow c width).names =
      [c.name, derived c.name "lb", derived c.name "ub", outputName (derived c.name "lb"),
        outputName (derived c.name "ub")] := rfl
  have hlower := bound_not_injected c h
  have hub : EndsDerived "ub" ∧ lastTwo "ub" ≠ "lb".toList := by decide
  have hupper := derived_not_injected c.name hub.1 hub.2
  simp only [hnames, List.forall_mem_cons]
  exact ⟨name_not_injected c, hlower.1, hupper.1, hlower.2, hupper.2, List.forall_mem_nil _⟩

theorem ofProperty_not_injected (c : Claim) (p : PropertyType) :
    ∀ name ∈ (ofProperty c p).names, name ∉ injectedNames := by
  have hending : ∀ i < greatestCheckCount,
      EndsDerived s!"eq_check{i}" ∧ lastTwo s!"eq_check{i}" ≠ "lb".toList := by decide
  have hchecks : ∀ op ∈ (ofProperty c p).operations, op ∉ injectedNames ∧ outputName op ∉ injectedNames := by
    intro op hop
    obtain ⟨i, hi, rfl⟩ := List.mem_map.1 hop
    have hlt := Nat.lt_of_lt_of_le (List.mem_range.1 hi) p.validChecks.2
    exact derived_not_injected c.name (hending i hlt).1 (hending i hlt).2
  have houtputs : (ofProperty c p).outputs.map (·.name) = (ofProperty c p).operations.map outputName := by
    simp [ofProperty, PublicSignal.ofBits, Function.comp_def]
  rw [names, houtputs, List.forall_mem_append, List.forall_mem_append, List.forall_mem_map]
  exact ⟨⟨List.forall_mem_singleton.2 (name_not_injected c), fun op hop => (hchecks op hop).1⟩,
    fun op hop => (hchecks op hop).2⟩

theorem hide_not_injected (c : Claim) : derived c.name "hide" ∉ injectedNames := by
  have hending : EndsDerived "hide" ∧ lastTwo "hide" ≠ "lb".toList := by decide
  exact (derived_not_injected c.name hending.1 hending.2).1

theorem ofBoolean_not_injected (c : Claim) (h : c.name ∉ Claim.unreserved) :
    ∀ name ∈ (ofBoolean c).names, name ∉ injectedNames := by
  have hnames : (ofBoolean c).names = [c.name, derived c.name "hide", outputName c.name] := rfl
  simp only [hnames, List.forall_mem_cons]
  exact ⟨name_not_injected c, hide_not_injected c, output_not_injected c h, List.forall_mem_nil _⟩

/-- **A claim without a clash has new signals only.** -/
theorem ofClaim_not_injected {c : Claim} (h : c.clash? = none) :
    ∀ name ∈ (ofClaim c).names, name ∉ injectedNames := by
  cases htype : c.type with
  | integer width valid =>
    rw [Claim.clash?, htype] at h
    rw [ofClaim, htype]
    dsimp only at h ⊢
    split
    · exact ofWide_not_injected c
    · next hwidth =>
      have hname : c.name ≠ "expiration" := fun hname => by simp [hwidth, hname] at h
      exact ofNarrow_not_injected c width hname
  | property p =>
    rw [ofClaim, htype]
    exact ofProperty_not_injected c p
  | boolean =>
    rw [Claim.clash?, htype] at h
    rw [ofClaim, htype]
    have hname : c.name ∉ Claim.unreserved := fun hname => by simp [hname] at h
    exact ofBoolean_not_injected c hname

end ClaimSignals

/-! ### The layout of one claim -/

theorem nodup_slotStems (c : Claim) : (slotStems c).Nodup := by
  unfold slotStems
  split
  · refine List.nodup_cons.2 ⟨fun h => ?_, List.nodup_singleton _⟩
    exact absurd (derived_inj (by decide) (by decide) (List.mem_singleton.1 h)).2 (by decide)
  · refine List.Nodup.map (fun i j h => ?_) List.nodup_range
    have hending : s!"eq_check{i}" = s!"eq_check{j}" := by
      rwa [derived_eq, derived_eq, String.append_right_inj] at h
    exact repr_inj ((String.append_right_inj _).1 hending)
  · exact List.nodup_singleton _

/-- New names beside the signals of every circuit, in the order of a layout. -/
theorem nodup_interleaved (revocable : Bool) (inputs operations outputs : List String)
    (hnodup : (inputs ++ operations ++ outputs).Nodup)
    (hnew : ∀ name ∈ inputs ++ operations ++ outputs, name ∉ injectedNames) :
    ((injectedInto revocable).1 ++ inputs ++ operations ++ ((injectedInto revocable).2 ++ outputs)).Nodup := by
  have hinjected := injectedInto_sublist revocable
  have happart : ((injectedInto revocable).1 ++ (injectedInto revocable).2 ++
      (inputs ++ operations ++ outputs)).Nodup := by
    refine List.nodup_append.2 ⟨nodup_injectedNames.sublist hinjected, hnodup, ?_⟩
    rintro name hname _ hown rfl
    exact hnew name hown (hinjected.subset hname)
  refine (List.Perm.nodup_iff ?_).1 happart
  simp only [List.append_assoc]
  refine List.Perm.append_left _ ?_
  simp only [← List.append_assoc]
  refine List.Perm.append_right _ ?_
  rw [List.append_assoc]
  exact List.perm_append_comm

/-- The bound of a narrow expiration comes after the input of that name. -/
theorem firstRepeat?_narrow (revocable : Bool) {c : Claim} (width : Nat) (h : c.name = "expiration") :
    firstRepeat? [] ((injectedInto revocable).1 ++ (ofNarrow c width).inputs ++ (ofNarrow c width).operations ++
      ((injectedInto revocable).2 ++ (ofNarrow c width).outputs.map (·.name))) = some "expiration_lb" := by
  have hlb : derived c.name "lb" = "expiration_lb" := by rw [h]; decide
  have hmem : "expiration_lb" ∈ (injectedInto revocable).1 := by revert revocable; decide
  have hnew : ∀ name ∈ [c.name], name ∉ injectedNames :=
    List.forall_mem_singleton.2 (ClaimSignals.name_not_injected c)
  have hbefore : ((injectedInto revocable).1 ++ [c.name]).Nodup := by
    have hall := nodup_interleaved revocable [c.name] [] [] (List.nodup_singleton _) hnew
    rw [List.append_nil] at hall
    exact hall.sublist (List.sublist_append_left _ _)
  rw [List.append_assoc _ (ofNarrow c width).operations]
  rw [← hlb] at hmem ⊢
  exact firstRepeat?_append hbefore (fun _ _ => List.not_mem_nil) (.inr (List.mem_append_left _ hmem)) _

/-- The output of a boolean comes after the outputs of every circuit. -/
theorem firstRepeat?_boolean (revocable : Bool) {c : Claim} (htype : c.type = .boolean)
    (h : c.name ∈ Claim.unreserved) :
    firstRepeat? [] ((injectedInto revocable).1 ++ (ofBoolean c).inputs ++ (ofBoolean c).operations ++
      ((injectedInto revocable).2 ++ (ofBoolean c).outputs.map (·.name))) = some (outputName c.name) := by
  have hmem : outputName c.name ∈ (injectedInto revocable).2 := by
    have hlisted : ∀ name ∈ Claim.unreserved,
        outputName name ∈ (injectedInto revocable).2 := by revert revocable; decide
    exact hlisted _ h
  have hnew : ∀ name ∈ [c.name, derived c.name "hide"], name ∉ injectedNames := by
    simp only [List.forall_mem_cons]
    exact ⟨ClaimSignals.name_not_injected c, ClaimSignals.hide_not_injected c, List.forall_mem_nil _⟩
  have hdistinct : [c.name, derived c.name "hide"].Nodup := by
    have hnames := nodup_names_ofClaim c
    rw [ofClaim, htype] at hnames
    exact hnames.sublist (List.sublist_append_left _ _)
  have hbefore := nodup_interleaved revocable [c.name] [derived c.name "hide"] [] hdistinct hnew
  rw [List.append_nil] at hbefore
  rw [← List.append_assoc]
  exact firstRepeat?_append hbefore (fun _ _ => List.not_mem_nil) (.inr (List.mem_append_right _ hmem)) []

section

variable {s : Schema} {claim : Claim} (hclaims : s.claims = [claim])

include hclaims

theorem names_lone :
    (unchecked s).names =
      (injectedInto s.isRevocable).1 ++ (ofClaim claim).inputs ++ (ofClaim claim).operations ++
        ((injectedInto s.isRevocable).2 ++ (ofClaim claim).outputs.map (·.name)) := by
  have hinputs : (unchecked s).intrinsicInputs.map (·.name) = (injectedInto s.isRevocable).1 :=
    inputs_eq_injectedInto s.depth
  rw [Layout.names, hinputs]
  simp [unchecked, Layout.inputNames, Layout.operationNames, hclaims, injectedInto, Intrinsic.name_signal]

theorem nodup_names_lone (h : claim.clash? = none) : (unchecked s).names.Nodup := by
  rw [names_lone hclaims]
  exact nodup_interleaved _ _ _ _ (nodup_names_ofClaim claim) (ClaimSignals.ofClaim_not_injected h)

theorem nodup_slots_lone : ((unchecked s).claimAggregations.map (·.destination)).Nodup := by
  rw [destinations_claims, claimSlots, hclaims, List.flatMap_singleton]
  exact (nodup_slotStems claim).map fun _ _ => slotName_inj

/-- Nine intrinsic signals and eight of a property at most. -/
theorem length_publicSignals_lone : (unchecked s).publicSignals.length ≤ greatestSignalCount := by
  have hcount : claim.outputCount ≤ greatestCheckCount := by
    unfold Claim.outputCount
    split
    · split <;> decide
    · next p _ => exact p.validChecks.2
    · decide
  have hlength : (unchecked s).publicSignals.length = 8 + s.isRevocable.toNat + claim.outputCount := by
    simp [unchecked, hclaims, Intrinsic.length_ofRevocable, length_outputs_ofClaim]
  have hrevocable := Bool.toNat_le s.isRevocable
  have hgreatest : greatestCheckCount = 8 ∧ greatestSignalCount = 256 := ⟨rfl, rfl⟩
  omega

/-- A signal that a claim declares once more is the first one to be found twice. -/
theorem firstRepeat?_names_lone {signal : String} (h : claim.clash? = some signal) :
    firstRepeat? [] (unchecked s).names = some signal := by
  rw [names_lone hclaims]
  cases htype : claim.type with
  | integer width valid =>
    rw [Claim.clash?, htype] at h
    rw [ofClaim, htype]
    dsimp only at h ⊢
    split at h
    · next hnarrow =>
      cases h
      rw [if_neg hnarrow.1]
      exact firstRepeat?_narrow _ width hnarrow.2
    · cases h
  | property p =>
    rw [Claim.clash?, htype] at h
    cases h
  | boolean =>
    rw [Claim.clash?, htype] at h
    rw [ofClaim, htype]
    dsimp only at h ⊢
    split at h
    · next hname =>
      cases h
      exact firstRepeat?_boolean _ htype hname
    · cases h

theorem compile_lone_eq_ok (h : claim.clash? = none) : ∃ c, compile s = .ok c :=
  ⟨_, (compile_eq_ok_iff s _).2
    ⟨rfl, nodup_names_lone hclaims h, nodup_slots_lone hclaims, length_publicSignals_lone hclaims⟩⟩

theorem compile_lone_eq_error {signal : String} (h : claim.clash? = some signal) :
    compile s = .error (.circuit (.repeatedSignal signal)) := by
  have hrepeat := firstRepeat?_names_lone hclaims h
  unfold compile Layout.ofSchema
  simp only [hrepeat]
  rfl

end

/-- **A claim alone has a circuit unless it declares a signal of every circuit once more.** -/
theorem compile_lone (claim : Claim) {depth : Option Nat} (hdepth : ∀ d ∈ depth, ValidDepth d) (id : Nat) :
    ∃ s, Schema.make [claim] depth = .ok s ∧
      ((∃ c, compile (s.withId id) = .ok c) ↔ claim.clash? = none) ∧
      ∀ signal, claim.clash? = some signal →
        compile (s.withId id) = .error (.circuit (.repeatedSignal signal)) := by
  have hmake : Schema.make [claim] depth = .ok ⟨[claim], depth, 0, List.nodup_singleton _, hdepth⟩ :=
    (Schema.make_eq_ok_iff hdepth).2 ⟨rfl, rfl, rfl⟩
  refine ⟨_, hmake, ?_, fun signal => compile_lone_eq_error rfl⟩
  constructor
  · rintro ⟨c, hc⟩
    cases hclash : claim.clash? with
    | none => rfl
    | some signal =>
      rw [compile_lone_eq_error rfl hclash] at hc
      cases hc
  · exact compile_lone_eq_ok rfl

theorem compile_lone_age :
    ∃ s, Schema.make [⟨"age", .integer 8 validWidth_byte, validName_age⟩] (some 2) = .ok s ∧
      ∃ c, compile (s.withId 7) = .ok c := by
  have hdepth : ∀ d ∈ some 2, ValidDepth d := by decide
  obtain ⟨s, hs, hcircuit, -⟩ := compile_lone ⟨"age", .integer 8 validWidth_byte, validName_age⟩ hdepth 7
  exact ⟨s, hs, hcircuit.2 (by decide)⟩

theorem validName_expiration : Claim.ValidName "expiration" := by
  unfold Claim.ValidName
  decide

/-- The lower bound of a narrow expiration is called like an input of every circuit. -/
theorem compile_lone_expiration :
    ∃ claim s, Claim.make "expiration" (.integer 8 validWidth_byte) = .ok claim ∧
      Schema.make [claim] none = .ok s ∧ compile s = .error (.circuit (.repeatedSignal "expiration_lb")) := by
  let claim : Claim := ⟨"expiration", .integer 8 validWidth_byte, validName_expiration⟩
  let s : Schema := ⟨[claim], none, 0, List.nodup_singleton _, validDepth_none⟩
  have hclaim : Claim.make claim.name claim.type = .ok claim := Claim.make_eq_ok_iff.2 ⟨rfl, rfl⟩
  have hs : Schema.make [claim] none = .ok s := (Schema.make_eq_ok_iff validDepth_none).2 ⟨rfl, rfl, rfl⟩
  exact ⟨claim, s, hclaim, hs, compile_lone_eq_error rfl (by decide)⟩

end Circuit

end Vouch

import Vouch.Proofs.Circuit.Table
import Vouch.Proofs.Groth16.Key
import Vouch.Proofs.Groth16.Written

/-! Contracts agree with their circuits.

The contract of a circuit is a second check of the public signals, written out as text. Read
back, it requires of each signal what the table of the circuit does, so that it accepts what
the circuit accepts (`mirrors_of_code`). -/
namespace Vouch.Groth16

open Circuit (Intrinsic)
open Source

/-- The source of a contract says what a circuit with a table of public signals checks. -/
structure Mirrors (code : String) (c : Circuit) : Prop where
  /-- The constant is the length of the table. -/
  count : value? (constants code) "NUM_PUBLIC_SIGNALS" = some c.publicSignals.length
  /-- The check requires that many signals, then one limit of each. -/
  conditions : conditions? code = some (.count "NUM_PUBLIC_SIGNALS" :: (limits code).map .below)
  indices : (limits code).map (·.index) = List.range c.publicSignals.length
  /-- The limits are the ceilings, whatever they are written as. -/
  ceilings : (limits code).map (fun l => value? (constants code) l.bound) =
    c.publicSignals.map fun s => some s.ceiling
  signals : (limits code).map (·.signal) = c.publicSignals.map (·.name)
  /-- There is one constant for each intrinsic signal, in their order, and no other place has one. -/
  places : ((constants code).map (·.1)).filter isPlaceName = c.intrinsics.map fun (i, _) => Contract.placeName i
  /-- It is the place of the one limit that names the signal. -/
  placed : ∀ i k, (Contract.placeName i, k) ∈ constants code → ∃ l ∈ limits code,
    l.signal = i.outputName ∧ l.index = k ∧ ∀ l' ∈ limits code, l'.signal = i.outputName → l' = l
  sizes : keySizes code = [c.publicSignals.length + 1]
  entries : keyEntries code = List.range (c.publicSignals.length + 1)
  /-- The contract refuses what the circuit refuses, and nothing else. -/
  accepts : ∀ signals, Accepts code signals ↔ c.checkSignals signals = .ok ()

namespace Contract

/-! ### Names -/

theorem isWord_placeName (i : Intrinsic) : IsWord (placeName i) := by
  cases i <;> decide +kernel

theorem toList_placeName (i : Intrinsic) :
    (placeName i).toList = i.outputName.toList.map Char.toUpper ++ "_INDEX".toList := by
  simp [placeName, String.toUpper, toString]

theorem placeName_inj {i j : Intrinsic} (h : placeName i = placeName j) : i = j := by
  have hall : ∀ i : Intrinsic, i ∈ Intrinsic.all := fun i => by cases i <;> decide
  have hnodup : (Intrinsic.all.map fun i => i.outputName.toList.map Char.toUpper).Nodup := by decide +kernel
  have hlist := congrArg String.toList h
  rw [toList_placeName, toList_placeName] at hlist
  exact List.inj_on_of_nodup_map hnodup (hall i) (hall j) (List.append_cancel_right hlist)

theorem isPlaceName_placeName (i : Intrinsic) : isPlaceName (placeName i) = true := by
  rw [isPlaceName, List.isSuffixOf_iff_suffix, toList_placeName]
  exact List.suffix_append _ _

theorem make_eq_ok_iff {c : Circuit} {k : VerifyingKey} {contract : Contract} :
    make c k = .ok contract ↔ k.inputs.length = c.publicSignals.length + 1 ∧
      contract = { schemaId := c.schemaId
                   signalCount := c.publicSignals.length
                   places := c.intrinsics.map fun (i, index) => (placeName i, index)
                   key := k
                   requirements := requirementsOf c } := by
  unfold make
  split
  · rename_i hlength
    rw [Except.ok.injEq, eq_comm, and_iff_right hlength]
  · rename_i hlength
    exact ⟨nofun, fun h => absurd h.1 hlength⟩

theorem code_eq_ok_iff {c : Circuit} {key code : String} : Contract.code c key = .ok code ↔
    ∃ k contract, VerifyingKey.ofText key = .ok k ∧ make c k = .ok contract ∧ contract.text = code := by
  unfold Contract.code
  simp only [Result.bind_eq_ok_iff]
  constructor
  · rintro ⟨k, hk, contract, hmake, h⟩
    exact ⟨k, contract, hk, hmake, Except.ok.inj h⟩
  · rintro ⟨k, contract, hk, hmake, rfl⟩
    exact ⟨k, hk, contract, hmake, rfl⟩

theorem named_of_make {s : Schema} {c : Circuit} (hc : Circuit.compile s = .ok c) {k : VerifyingKey}
    {contract : Contract} (h : make c k = .ok contract) : contract.Named := by
  obtain ⟨-, rfl⟩ := make_eq_ok_iff.1 h
  have hsignals : ∀ signal ∈ c.publicSignals, Circuit.IsName signal.name := by
    obtain ⟨rfl, -⟩ := (Circuit.compile_eq_ok_iff s c).1 hc
    exact (Circuit.Layout.named_unchecked s).publicSignals
  refine ⟨List.forall_mem_map.2 fun place _ => isWord_placeName place.1, ?_⟩
  refine List.forall_mem_map.2 fun entry hentry => hsignals entry.1 ?_
  exact List.fst_mem_of_mem_zipIdx hentry

/-- The constants of the contract of a circuit. -/
def constantsOf (c : Circuit) : List (String × Nat) :=
  [("TYPE_ID", c.schemaId), ("NUM_PUBLIC_SIGNALS", c.publicSignals.length), ("SNARK_SCALAR_FIELD", fieldOrder)] ++
    c.intrinsics.map fun (i, index) => (placeName i, index)

/-! ### Limits -/

/-- The constants that the check of the signals refers to. -/
theorem value?_constantsOf (c : Circuit) :
    value? (constantsOf c) "NUM_PUBLIC_SIGNALS" = some c.publicSignals.length ∧
      value? (constantsOf c) "SNARK_SCALAR_FIELD" = some fieldOrder := by
  have hcount : Decimal.read? "NUM_PUBLIC_SIGNALS" = none := by decide
  have hfield : Decimal.read? "SNARK_SCALAR_FIELD" = none := by decide
  rw [value?, value?, hcount, hfield, constantsOf]
  simp

/-- A ceiling is written as a number or as the constant that it equals. -/
theorem value?_ofCeiling {constants : List (String × Nat)}
    (hfield : value? constants "SNARK_SCALAR_FIELD" = some fieldOrder) (ceiling : Nat) :
    value? constants (Bound.ofCeiling ceiling).text = some ceiling := by
  unfold Bound.ofCeiling
  split
  · rename_i hceiling
    rw [hceiling]
    exact hfield
  · exact value?_toString constants ceiling

/-- What the limits of a table say of its signals. -/
theorem map_limits {α : Type} (c : Circuit) {f : Limit → α} {g : Circuit.PublicSignal → α}
    (h : ∀ s index, f (limitOf ⟨index, .ofCeiling s.ceiling, s.name⟩) = g s) :
    ((requirementsOf c).map limitOf).map f = c.publicSignals.map g := by
  have hsignals : c.publicSignals.map g = c.publicSignals.zipIdx.map fun entry => g entry.1 :=
    (congrArg (List.map g) (List.zipIdx_map_fst 0 c.publicSignals)).symm.trans List.map_map
  rw [hsignals, requirementsOf, List.map_map, List.map_map]
  exact List.map_congr_left fun entry _ => h entry.1 entry.2

theorem indices_limits (c : Circuit) :
    ((requirementsOf c).map limitOf).map (·.index) = List.range c.publicSignals.length := by
  rw [List.range_eq_range', ← List.zipIdx_map_snd 0 c.publicSignals, requirementsOf, List.map_map, List.map_map]
  rfl

theorem holds_limits_iff {constants : List (String × Nat)} {c : Circuit}
    (hfield : value? constants "SNARK_SCALAR_FIELD" = some fieldOrder) {signals : List Nat}
    (hlength : signals.length = c.publicSignals.length) :
    (∀ l ∈ (requirementsOf c).map limitOf, (Condition.below l).Holds constants signals) ↔
      List.Forall₂ (fun s n => n < s.ceiling) c.publicSignals signals := by
  have hlimit (s : Circuit.PublicSignal) (index : Nat) :
      (Condition.below (limitOf ⟨index, .ofCeiling s.ceiling, s.name⟩)).Holds constants signals ↔
        ∃ n, signals[index]? = some n ∧ n < s.ceiling := by
    simp only [Condition.Holds, limitOf, value?_ofCeiling hfield, Option.some.injEq, exists_and_left, exists_eq_left']
  rw [requirementsOf, List.map_map, List.forall_mem_map, List.forall₂_iff_get, and_iff_right hlength.symm]
  constructor
  · intro h i hi hi'
    obtain ⟨n, hn, hlt⟩ := (hlimit _ i).1 (h (c.publicSignals[i], i) (List.mem_zipIdx_iff_getElem?.2
      (List.getElem?_eq_getElem hi)))
    rw [List.getElem?_eq_getElem hi'] at hn
    cases hn
    exact hlt
  · rintro h ⟨s, i⟩ hs
    obtain ⟨hi, hs⟩ := List.getElem?_eq_some_iff.1 (List.mem_zipIdx_iff_getElem?.1 hs)
    have hi' : i < signals.length := hlength ▸ hi
    have hlt : signals[i] < c.publicSignals[i].ceiling := h i hi hi'
    rw [hs] at hlt
    exact (hlimit s i).2 ⟨signals[i], List.getElem?_eq_getElem hi', hlt⟩

/-! ### Places -/

/-- The constants that every contract has are no places. -/
theorem placeName_ne (i : Intrinsic) {name : String} (h : isPlaceName name = false) : placeName i ≠ name :=
  fun heq => Bool.false_ne_true (h.symm.trans (heq ▸ isPlaceName_placeName i))

theorem mem_intrinsics_of_mem_constantsOf {c : Circuit} {i : Intrinsic} {k : Nat}
    (h : (placeName i, k) ∈ constantsOf c) : (i, k) ∈ c.intrinsics := by
  simp only [constantsOf, List.mem_append, List.mem_cons, Prod.mk.injEq, List.not_mem_nil, or_false] at h
  rcases h with (⟨htype, -⟩ | ⟨hcount, -⟩ | ⟨hfield, -⟩) | hplace
  · exact absurd htype (placeName_ne i (by decide))
  · exact absurd hcount (placeName_ne i (by decide))
  · exact absurd hfield (placeName_ne i (by decide))
  · obtain ⟨⟨j, index⟩, hj, heq⟩ := List.mem_map.1 hplace
    obtain ⟨hname, rfl⟩ := Prod.mk.inj heq
    obtain rfl := placeName_inj hname
    exact hj

theorem filter_constantsOf (c : Circuit) :
    ((constantsOf c).map (·.1)).filter isPlaceName = c.intrinsics.map fun (i, _) => placeName i := by
  have hfixed : ["TYPE_ID", "NUM_PUBLIC_SIGNALS", "SNARK_SCALAR_FIELD"].filter isPlaceName = [] := by decide
  have hnames : (c.intrinsics.map fun (i, index) => (placeName i, index)).map (·.1) =
      c.intrinsics.map fun (i, _) => placeName i := by
    rw [List.map_map]
    rfl
  rw [constantsOf, List.map_append, List.filter_append, hnames]
  refine (congrArg (· ++ _) hfixed).trans (List.filter_eq_self.2 ?_)
  exact List.forall_mem_map.2 fun place _ => isPlaceName_placeName place.1

/-- What stands at a place of a table has its limit there. -/
theorem mem_limits_iff {c : Circuit} {l : Limit} : l ∈ (requirementsOf c).map limitOf ↔
    ∃ signal, c.publicSignals[l.index]? = some signal ∧
      l = limitOf ⟨l.index, .ofCeiling signal.ceiling, signal.name⟩ := by
  rw [requirementsOf, List.map_map, List.mem_map]
  constructor
  · rintro ⟨⟨signal, index⟩, hmem, rfl⟩
    exact ⟨signal, List.mem_zipIdx_iff_getElem?.1 hmem, rfl⟩
  · rintro ⟨signal, hsignal, hl⟩
    exact ⟨(signal, l.index), List.mem_zipIdx_iff_getElem?.2 hsignal, hl.symm⟩

/-- An intrinsic signal has one limit, at its place. -/
theorem exists_limit {s : Schema} {c : Circuit} (hc : Circuit.compile s = .ok c) {i : Intrinsic} {k : Nat}
    (hk : (i, k) ∈ c.intrinsics) : ∃ l ∈ (requirementsOf c).map limitOf,
      l.signal = i.outputName ∧ l.index = k ∧
        ∀ l' ∈ (requirementsOf c).map limitOf, l'.signal = i.outputName → l' = l := by
  rw [Circuit.intrinsics_of_compile hc] at hk
  have hplace := Circuit.hasPlace_intrinsic hc (List.mem_zipIdx_iff_getElem?.1 hk)
  obtain ⟨signal, hsignal, hname⟩ := Option.map_eq_some_iff.1 hplace
  refine ⟨limitOf ⟨k, .ofCeiling signal.ceiling, signal.name⟩, mem_limits_iff.2 ⟨signal, hsignal, rfl⟩, hname, rfl,
    fun l' hl' hname' => ?_⟩
  obtain ⟨signal', hsignal', hl'⟩ := mem_limits_iff.1 hl'
  have hplace' : c.HasPlace i.outputName l'.index := by
    rw [Circuit.HasPlace, hsignal', Option.map_some, ← hname', hl']
    rfl
  have hindex := hplace'.unique (Circuit.distinct_of_compile hc) hplace
  rw [hindex] at hsignal' hl'
  cases hsignal.symm.trans hsignal'
  exact hl'

/-- The conditions of a contract together are what its circuit checks. -/
theorem holds_conditions_iff {constants : List (String × Nat)} {c : Circuit}
    (hcount : value? constants "NUM_PUBLIC_SIGNALS" = some c.publicSignals.length)
    (hfield : value? constants "SNARK_SCALAR_FIELD" = some fieldOrder) (signals : List Nat) :
    (∀ condition ∈ Condition.count "NUM_PUBLIC_SIGNALS" :: ((requirementsOf c).map limitOf).map Condition.below,
      condition.Holds constants signals) ↔ c.checkSignals signals = .ok () := by
  have hlength : (Condition.count "NUM_PUBLIC_SIGNALS").Holds constants signals ↔
      signals.length = c.publicSignals.length := by
    rw [Condition.Holds, hcount, Option.some.injEq, eq_comm]
  rw [Circuit.checkSignals_eq_ok_iff, List.forall_mem_cons, List.forall_mem_map, hlength]
  constructor
  · rintro ⟨h, hlimits⟩
    exact (holds_limits_iff hfield h).1 hlimits
  · intro h
    exact ⟨h.length_eq.symm, (holds_limits_iff hfield h.length_eq.symm).2 h⟩

/-- What the source of a contract says, read back. -/
structure Reads (code : String) (c : Circuit) : Prop where
  constants : Source.constants code = constantsOf c
  conditions : conditions? code =
    some (.count "NUM_PUBLIC_SIGNALS" :: ((requirementsOf c).map limitOf).map .below)
  sizes : keySizes code = [c.publicSignals.length + 1]
  entries : keyEntries code = List.range (c.publicSignals.length + 1)

theorem reads_of_code {s : Schema} {c : Circuit} (hc : Circuit.compile s = .ok c) {key code : String}
    (h : Contract.code c key = .ok code) : Reads code c := by
  obtain ⟨k, contract, -, hmake, rfl⟩ := code_eq_ok_iff.1 h
  have hnamed := named_of_make hc hmake
  obtain ⟨hlength, hcontract⟩ := make_eq_ok_iff.1 hmake
  have hkey : contract.key.inputs.length = c.publicSignals.length + 1 := by rw [hcontract, hlength]
  have hrequirements : contract.requirements = requirementsOf c := by rw [hcontract]
  refine ⟨?_, ?_, ?_, ?_⟩
  · rw [constants_text hnamed, declared, hcontract, constantsOf]
  · rw [conditions?_text hnamed, hrequirements, List.map_map]
    rfl
  · rw [keySizes_text hnamed, hkey]
  · rw [keyEntries_text hnamed, hkey]

theorem Reads.limits_eq {code : String} {c : Circuit} (h : Reads code c) :
    limits code = (requirementsOf c).map limitOf := by
  rw [limits, h.conditions, Option.getD_some, List.filterMap_cons_none rfl, List.filterMap_map]
  exact List.filterMap_some

end Contract

end Vouch.Groth16

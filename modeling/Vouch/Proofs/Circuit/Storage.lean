import Vouch.Proofs.Circuit.Endings
import Vouch.Proofs.Circuit.Merging

/-! Slots and their storage types.

A slot is stored as an unsigned integer of a whole number of bytes, and its width is chosen apart from
the ceilings of the signals that it reads. It has room for all that can arrive (`HasRoom`): a signal
stays below its ceiling, two limbs below the product of theirs, and a slot never holds more than a value
that has arrived (`lt_of_mem_record`). So nothing is cut off when a record is stored, after however many
proofs (`storage_fits`). -/
namespace Vouch

open Circuit ClaimSignals

namespace Circuit

/-! ### Storage types -/

namespace Aggregation

theorem validWidth_storageBits (bits : Nat) : ValidWidth greatestIntegerWidth (storageBits bits) := by
  unfold ValidWidth storageBits greatestIntegerWidth
  omega

/-- Up to the greatest width no bits are lost. -/
theorem le_storageBits {bits : Nat} (h : bits ≤ greatestIntegerWidth) : bits ≤ storageBits bits := by
  unfold storageBits
  unfold greatestIntegerWidth at h
  omega

/-- The text of a storage type says its width. -/
theorem storageType_eq_iff {bits width : Nat} : storageType bits = s!"uint{width}" ↔ storageBits bits = width := by
  constructor
  · intro h
    have hrepr : "uint" ++ (storageBits bits).repr = "uint" ++ width.repr := h
    exact repr_inj ((String.append_right_inj _).1 hrepr)
  · rintro rfl
    rfl

/-! ### Slots -/

/-- A slot holds nothing that is greater than all values that have arrived. -/
theorem lt_of_mem_settled {rule : MergeRule} {values : List Nat} {bound : Nat} (h : ∀ n ∈ values, n < bound)
    {v : Nat} (hv : v ∈ rule.settled values) : v < bound := by
  have hkeeps : rule.Keeps values (some v) := MergeRule.keeps_iff.2 hv
  cases rule with
  | greatest | greatestWide | least | leastWide => exact h v hkeeps.1
  | unchanged =>
    obtain ⟨after, rfl⟩ := hkeeps
    exact h v List.mem_cons_self
  | latest =>
    obtain ⟨before, rfl⟩ := hkeeps
    exact h v (List.mem_append_right _ (List.mem_singleton_self v))
  | revealed =>
    obtain ⟨before, m, after, rfl, -, rfl, -⟩ := hkeeps
    exact Nat.lt_of_le_of_lt (Nat.div_le_self m 2) (h m (List.mem_append_right _ List.mem_cons_self))

theorem lt_of_mem_record {a : Aggregation} {proofs : List (List Nat)} {bound : Nat}
    (h : ∀ sources ∈ proofs, joined sources < bound) {v : Nat} (hv : v ∈ a.record proofs) : v < bound := by
  rw [record_eq_settled_values] at hv
  refine lt_of_mem_settled (fun n hn => ?_) hv
  obtain ⟨sources, hsources, rfl⟩ := List.mem_map.1 hn
  exact h sources (List.mem_of_mem_filter hsources)

end Aggregation

/-! ### What arrives -/

/-- A value that a proof may give for the signal of that name. -/
def Allows (c : Circuit) (name : String) (value : Nat) : Prop :=
  ∀ signal ∈ c.publicSignals, signal.name = name → value < signal.ceiling

/-- Whatever arrives at the slot, it is stored without loss. -/
def HasRoom (c : Circuit) (a : Aggregation) : Prop :=
  ∃ bits ≤ greatestIntegerWidth, a.storage = Aggregation.storageType bits ∧
    ∀ values, List.Forall₂ c.Allows a.sources values → joined values < 2 ^ bits

variable {c : Circuit} {s : Schema}

/-- The signals of a proof that passes are allowed, wherever an aggregation reads them. -/
theorem allows_sourceValues (hdistinct : (c.publicSignals.map (·.name)).Nodup) {a : Aggregation}
    (hsources : ∀ name ∈ a.sources, name ∈ c.publicSignals.map (·.name)) {signals : List Nat}
    (hcheck : c.checkSignals signals = .ok ()) : List.Forall₂ c.Allows a.sources (c.sourceValues a signals) := by
  have hceilings := checkSignals_eq_ok_iff.1 hcheck
  refine (sourceValues_places hdistinct hsources hceilings.length_eq.symm).imp fun name value => ?_
  rintro ⟨k, hplace, hvalue⟩ signal hsignal rfl
  obtain ⟨j, hj, rfl⟩ := List.getElem_of_mem hsignal
  -- The signal of that name stands at the place that the value was taken from.
  have hown : c.HasPlace c.publicSignals[j].name j := by
    rw [HasPlace, List.getElem?_eq_getElem hj]
    rfl
  obtain rfl := hown.unique hdistinct hplace
  obtain ⟨hlt, rfl⟩ := List.getElem?_eq_some_iff.1 hvalue
  exact hceilings.get hj hlt

/-- One signal. -/
theorem hasRoom_single {signal : PublicSignal} (hsignal : signal ∈ c.publicSignals) {bits : Nat}
    (hbits : bits ≤ greatestIntegerWidth) (hceiling : signal.ceiling ≤ 2 ^ bits) (destination : String)
    (rule : MergeRule) : c.HasRoom (.ofBits destination bits [signal.name] rule) := by
  refine ⟨bits, hbits, rfl, fun values h => ?_⟩
  obtain ⟨value, hvalue, rfl⟩ : ∃ value, c.Allows signal.name value ∧ values = [value] := by
    simpa [Aggregation.ofBits, List.forall₂_cons_left_iff] using h
  have hjoined : joined [value] = value := Nat.zero_add value
  rw [hjoined]
  exact Nat.lt_of_lt_of_le (hvalue signal hsignal rfl) hceiling

/-- Two limbs of a wide integer. -/
theorem hasRoom_limbs {first second : PublicSignal} (hfirst : first ∈ c.publicSignals)
    (hsecond : second ∈ c.publicSignals) (hhigh : first.ceiling = 2 ^ Field.limbBits)
    (hlow : second.ceiling = 2 ^ Field.limbBits) (destination : String) (rule : MergeRule) :
    c.HasRoom (.ofBits destination greatestIntegerWidth [first.name, second.name] rule) := by
  refine ⟨greatestIntegerWidth, le_rfl, rfl, fun values h => ?_⟩
  obtain ⟨high, hallowed, low, hallowed', rfl⟩ :
      ∃ high, c.Allows first.name high ∧ ∃ low, c.Allows second.name low ∧ values = [high, low] := by
    simpa [Aggregation.ofBits, List.forall₂_cons_left_iff, and_assoc] using h
  have hjoined : joined [high, low] = high * 2 ^ Field.limbBits + low := by simp [joined]
  have hhigh : high < 2 ^ Field.limbBits := hhigh ▸ hallowed first hfirst rfl
  have hlow : low < 2 ^ Field.limbBits := hlow ▸ hallowed' second hsecond rfl
  have hwidth : 2 ^ greatestIntegerWidth = 2 ^ Field.limbBits * 2 ^ Field.limbBits := by decide
  rw [hjoined, hwidth]
  calc high * 2 ^ Field.limbBits + low
    _ < high * 2 ^ Field.limbBits + 2 ^ Field.limbBits := Nat.add_lt_add_left hlow _
    _ = (high + 1) * 2 ^ Field.limbBits := (Nat.succ_mul _ _).symm
    _ ≤ 2 ^ Field.limbBits * 2 ^ Field.limbBits := Nat.mul_le_mul_right _ hhigh

/-! ### Aggregations of a circuit -/

/-- The slots of a claim have room if its signals are in the table. -/
theorem hasRoom_ofClaim (claim : Claim) (h : ∀ out ∈ (ofClaim claim).outputs, out ∈ c.publicSignals) :
    ∀ a ∈ (ofClaim claim).aggregations, c.HasRoom a := by
  revert h
  unfold ofClaim
  split
  · rename_i width valid _
    split
    · simp only [ofWide, List.forall_mem_cons]
      rintro ⟨hlbHigh, hlbLow, hubHigh, hubLow, -⟩
      exact ⟨hasRoom_limbs hlbHigh hlbLow rfl rfl _ _, hasRoom_limbs hubHigh hubLow rfl rfl _ _,
        List.forall_mem_nil _⟩
    · simp only [ofNarrow, List.forall_mem_cons]
      rintro ⟨hlb, hub, -⟩
      exact ⟨hasRoom_single hlb valid.2.1 le_rfl _ _, hasRoom_single hub valid.2.1 le_rfl _ _,
        List.forall_mem_nil _⟩
  · rename_i p _
    have hwidth : p.width + 1 ≤ greatestIntegerWidth :=
      (Nat.succ_le_succ p.validWidth.2.1).trans (by decide)
    simp only [ofProperty, List.forall_mem_map]
    exact fun h i hi => hasRoom_single (h i hi) hwidth le_rfl _ _
  · simp only [ofBoolean, List.forall_mem_singleton]
    exact fun h => hasRoom_single h (by decide) le_rfl _ _

theorem hasRoom_of_compile (h : compile s = .ok c) : ∀ a ∈ c.aggregations, c.HasRoom a := by
  have hsignals := signals_of_compile h
  have hclaims (claim : Claim) (hclaim : claim ∈ s.claims) :
      ∀ a ∈ (ofClaim claim).aggregations, c.HasRoom a := by
    refine hasRoom_ofClaim claim fun out hout => ?_
    rw [hsignals]
    exact List.mem_append_right _ (List.mem_flatMap.2 ⟨claim, hclaim, hout⟩)
  have hintrinsic (i : Intrinsic) (hi : i ∈ Intrinsic.ofRevocable s.isRevocable) {bits : Nat}
      (hbits : bits ≤ greatestIntegerWidth) (hceiling : i.signal.ceiling ≤ 2 ^ bits) (destination : String)
      (rule : MergeRule) : c.HasRoom (.ofBits destination bits [i.outputName] rule) := by
    rw [← i.name_signal]
    refine hasRoom_single ?_ hbits hceiling destination rule
    rw [hsignals]
    exact List.mem_append_left _ (List.mem_map_of_mem hi)
  have haggregations : c.aggregations = aggregationsOf (Layout.unchecked s) := by
    obtain ⟨rfl, -⟩ := (compile_eq_ok_iff s c).1 h
    rfl
  simp only [haggregations, aggregationsOf, List.cons_append, List.forall_mem_cons, List.forall_mem_append]
  refine ⟨?_, fun a ha => ?_, ?_, ?_⟩
  · exact hintrinsic .idEqualsTo (by cases s.isRevocable <;> decide) (by decide) (by decide) _ _
  · obtain ⟨signals, hsignals, ha⟩ := List.mem_flatMap.1 ha
    obtain ⟨claim, hclaim, rfl⟩ := List.mem_map.1 hsignals
    exact hclaims claim hclaim a ha
  · exact hintrinsic .expirationLb (by cases s.isRevocable <;> decide) (by decide) (by decide) _ _
  · split
    · next hdepth =>
      have hrevocable : s.isRevocable = true := hdepth
      refine List.forall_mem_singleton.2 ?_
      exact hintrinsic .revocationRoot (by rw [hrevocable]; decide) (by decide) (by decide) _ _
    · exact List.forall_mem_nil _

/-- **What is merged fits its storage type.** The slots of a compiled circuit are stored as unsigned
integers of whole bytes, and none ever holds more than its type can. -/
theorem storage_fits (h : compile s = .ok c) {a : Aggregation} (ha : a ∈ c.aggregations) :
    (∃ width, ValidWidth greatestIntegerWidth width ∧ a.storage = s!"uint{width}") ∧
    ∀ width, a.storage = s!"uint{width}" →
      ∀ proofs : List (List Nat), (∀ signals ∈ proofs, c.checkSignals signals = .ok ()) →
        ∀ before, before <+: proofs → ∀ v ∈ a.record (before.map (c.sourceValues a)), v < 2 ^ width := by
  obtain ⟨bits, hbits, hstorage, hroom⟩ := hasRoom_of_compile h a ha
  refine ⟨⟨_, Aggregation.validWidth_storageBits bits, hstorage⟩, ?_⟩
  intro width hwidth proofs hproofs before hbefore v hv
  rw [hstorage, Aggregation.storageType_eq_iff] at hwidth
  have hle : bits ≤ width := hwidth ▸ Aggregation.le_storageBits hbits
  have hlt : v < 2 ^ bits := by
    refine Aggregation.lt_of_mem_record (List.forall_mem_map.2 fun signals hsignals => ?_) hv
    have hcheck := hproofs signals (hbefore.subset hsignals)
    exact hroom _ (allows_sourceValues (distinct_of_compile h) (sources_subset_of_compile h ha) hcheck)
  exact Nat.lt_of_lt_of_le hlt (Nat.pow_le_pow_right (by decide) hle)

/-- The slot for the lower bound of an age. -/
def ageSlot : Aggregation := .ofBits "agg_age_lb" 8 ["out_age_lb"] .greatest

/-- The public signals of somebody who is at least so old. -/
def ageSignals (lower : Nat) : List Nat := [1, 2, 3, 4, 5, 6, 7, 8, 9, lower, 255]

/-- Two proofs about an age, of which the second says less. -/
theorem storage_fits_age :
    ∃ c, compile ageSchema = .ok c ∧ ageSlot ∈ c.aggregations ∧ ageSlot.storage = s!"uint{8}" ∧
      (∀ signals ∈ [ageSignals 21, ageSignals 18], c.checkSignals signals = .ok ()) ∧
      21 ∈ ageSlot.record ([ageSignals 21, ageSignals 18].map (c.sourceValues ageSlot)) ∧ 21 < 2 ^ 8 := by
  have hslot : ageSlot ∈ (ofLayout (Layout.unchecked ageSchema)).aggregations := by decide +kernel
  have hchecked : ∀ signals ∈ [ageSignals 21, ageSignals 18],
      (ofLayout (Layout.unchecked ageSchema)).checkSignals signals = .ok () :=
    List.forall_mem_cons.2 ⟨Result.eq_ok_of_toOption (by decide +kernel),
      List.forall_mem_singleton.2 (Result.eq_ok_of_toOption (by decide +kernel))⟩
  have hrecord : 21 ∈ ageSlot.record ([ageSignals 21, ageSignals 18].map
      ((ofLayout (Layout.unchecked ageSchema)).sourceValues ageSlot)) := by decide +kernel
  have hfits := (storage_fits compile_ageSchema hslot).2 8 rfl _ hchecked _ (List.prefix_refl _) 21 hrecord
  exact ⟨_, compile_ageSchema, hslot, rfl, hchecked, hrecord, hfits⟩

end Circuit

end Vouch

import Mathlib.Data.List.Basic
import Vouch.Proofs.Circuit.Names
import Vouch.Proofs.Circuit.Source

/-! Derived names read back.

A derived name is that of its claim and an ending, and the last underscore tells where
one stops if the ending has none itself (`derived_inj`). The last two characters tell
what kind of name it is (`EndsDerived`). -/
namespace Vouch.Circuit

open ClaimSignals (derived outputName ofClaim)
open Layout (unchecked)

/-! ### The last underscore -/

/-- A derived name is read apart at its last underscore. -/
theorem derived_inj {n m e f : String} (he : '_' ∉ e.toList) (hf : '_' ∉ f.toList)
    (h : derived n e = derived m f) : n = m ∧ e = f := by
  have hcut (n e : String) (he : '_' ∉ e.toList) :
      Text.cut? '_' (derived n e).toList.reverse = some (e.toList.reverse, n.toList.reverse) := by
    have hreverse : (derived n e).toList.reverse = e.toList.reverse ++ '_' :: n.toList.reverse := by
      simp [derived_eq]
    rw [hreverse, Text.cut?_append (by simpa using he)]
  have hsome := hcut n e he
  rw [h, hcut m f hf, Option.some.injEq, Prod.mk.injEq] at hsome
  obtain ⟨hef, hnm⟩ := hsome
  exact ⟨String.toList_inj.1 (List.reverse_inj.1 hnm).symm,
    String.toList_inj.1 (List.reverse_inj.1 hef).symm⟩

theorem repr_inj {i j : Nat} (h : i.repr = j.repr) : i = j := by
  have hvalue (n : Nat) : Decimal.value n.repr.toList = n := by simp [Decimal.value]
  rw [← hvalue i, h, hvalue]

/-! ### The last two characters -/

/-- The last two characters. -/
def lastTwo (name : String) : List Char :=
  (name.toList.reverse.take 2).reverse

theorem lastTwo_append (a : String) {b : String} (h : 2 ≤ b.toList.length) :
    lastTwo (a ++ b) = lastTwo b := by
  rw [lastTwo, String.toList_append, List.reverse_append,
    List.take_append_of_le_length (by simpa using h)]
  rfl

theorem lastTwo_derived (n : String) {e : String} (h : 2 ≤ e.toList.length) :
    lastTwo (derived n e) = lastTwo e := by
  rw [derived_eq, lastTwo_append _ h]

/-- How the names of derived signals end. -/
def derivedEndings : List (List Char) :=
  ["sb", "lb", "ub", "de", "k0", "k1", "k2", "k3", "k4", "k5", "k6", "k7"].map String.toList

def EndsDerived (name : String) : Prop :=
  2 ≤ name.toList.length ∧ lastTwo name ∈ derivedEndings

instance (name : String) : Decidable (EndsDerived name) :=
  inferInstanceAs (Decidable (_ ∧ _))

theorem EndsDerived.append {name : String} (h : EndsDerived name) (start : String) :
    EndsDerived (start ++ name) := by
  refine ⟨?_, by rw [lastTwo_append _ h.1]; exact h.2⟩
  have hlength := h.1
  rw [String.toList_append, List.length_append]
  omega

theorem EndsDerived.derived {ending : String} (h : EndsDerived ending) (claim : String) :
    EndsDerived (derived claim ending) := by
  rw [derived_eq]
  exact h.append _

theorem EndsDerived.outputName {name : String} (h : EndsDerived name) :
    EndsDerived (outputName name) := by
  rw [outputName_eq]
  exact h.append _

/-! ### The signals of a claim -/

namespace ClaimSignals

/-- The signals of a claim. -/
def names (s : ClaimSignals) : List String :=
  s.inputs ++ s.operations ++ s.outputs.map (·.name)

theorem endsDerived_ofWide (c : Claim) : ∀ name ∈ (ofWide c).names, EndsDerived name := by
  have hnames : (ofWide c).names =
      ["msb", "lsb"].map (derived c.name) ++
        ["lb_msb", "lb_lsb", "ub_msb", "ub_lsb"].map (derived c.name) ++
        ["lb_msb", "lb_lsb", "ub_msb", "ub_lsb"].map fun e => outputName (derived c.name e) := rfl
  have hlimbs : ∀ e ∈ ["msb", "lsb"], EndsDerived e := by decide
  have hbounds : ∀ e ∈ ["lb_msb", "lb_lsb", "ub_msb", "ub_lsb"], EndsDerived e := by decide
  rw [hnames, List.forall_mem_append, List.forall_mem_append, List.forall_mem_map, List.forall_mem_map,
    List.forall_mem_map]
  exact ⟨⟨fun e he => (hlimbs e he).derived _, fun e he => (hbounds e he).derived _⟩,
    fun e he => ((hbounds e he).derived _).outputName⟩

theorem endsDerived_ofNarrow (c : Claim) (width : Nat) :
    ∀ name ∈ (ofNarrow c width).names, name = c.name ∨ EndsDerived name := by
  have hnames : (ofNarrow c width).names =
      [c.name] ++ ["lb", "ub"].map (derived c.name) ++
        ["lb", "ub"].map fun e => outputName (derived c.name e) := rfl
  have hbounds : ∀ e ∈ ["lb", "ub"], EndsDerived e := by decide
  rw [hnames, List.forall_mem_append, List.forall_mem_append, List.forall_mem_map, List.forall_mem_map,
    List.forall_mem_singleton]
  exact ⟨⟨.inl rfl, fun e he => .inr ((hbounds e he).derived _)⟩,
    fun e he => .inr ((hbounds e he).derived _).outputName⟩

theorem endsDerived_operations (c : Claim) (p : PropertyType) :
    ∀ op ∈ (ofProperty c p).operations, EndsDerived op := by
  intro op hop
  obtain ⟨i, hi, rfl⟩ := List.mem_map.1 hop
  have hchecks := Nat.lt_of_lt_of_le (List.mem_range.1 hi) p.validChecks.2
  have hending : ∀ i < greatestCheckCount, EndsDerived s!"eq_check{i}" := by decide
  exact (hending i hchecks).derived _

theorem endsDerived_ofProperty (c : Claim) (p : PropertyType) :
    ∀ name ∈ (ofProperty c p).names, name = c.name ∨ EndsDerived name := by
  have hops := endsDerived_operations c p
  have houtputs : (ofProperty c p).outputs.map (·.name) =
      (ofProperty c p).operations.map outputName := by
    simp [ofProperty, PublicSignal.ofBits, Function.comp_def]
  rw [names, houtputs, List.forall_mem_append, List.forall_mem_append, List.forall_mem_map]
  refine ⟨⟨?_, fun op hop => .inr (hops op hop)⟩, fun op hop => .inr (hops op hop).outputName⟩
  exact List.forall_mem_singleton.2 (.inl rfl)

theorem endsDerived_ofBoolean (c : Claim) :
    ∀ name ∈ (ofBoolean c).names, name = c.name ∨ name = outputName c.name ∨ EndsDerived name := by
  have hnames : (ofBoolean c).names = [c.name, derived c.name "hide", outputName c.name] := rfl
  have hhide : EndsDerived "hide" := by decide
  rw [hnames, List.forall_mem_cons, List.forall_mem_cons, List.forall_mem_cons]
  exact ⟨.inl rfl, .inr (.inr (hhide.derived _)), .inr (.inl rfl), nofun⟩

end ClaimSignals

/-- A name of a layout belongs to all circuits or to a claim. -/
theorem mem_names_iff {s : Schema} {name : String} :
    name ∈ (unchecked s).names ↔
      name ∈ (intrinsicInputs s.depth).map (·.name) ∨
        name ∈ (Intrinsic.ofRevocable s.isRevocable).map (·.signal.name) ∨
        ∃ c ∈ s.claims, name ∈ (ofClaim c).names := by
  have hpublic : (unchecked s).publicSignals.map (·.name) =
      (Intrinsic.ofRevocable s.isRevocable).map (·.signal.name) ++
        s.claims.flatMap fun c => (ofClaim c).outputs.map (·.name) := by
    simp [unchecked, List.flatMap_map, List.map_flatMap]
  have hclaims {α : Type} (f : ClaimSignals → List α) :
      (unchecked s).claims.flatMap f = s.claims.flatMap fun c => f (ofClaim c) := List.flatMap_map ..
  have hinputs : (unchecked s).intrinsicInputs = intrinsicInputs s.depth := rfl
  rw [Layout.names, hinputs, hpublic, Layout.inputNames, Layout.operationNames, hclaims, hclaims]
  simp only [ClaimSignals.names, List.mem_append, List.mem_flatMap, and_or_left, exists_or, or_assoc,
    or_left_comm]

end Vouch.Circuit

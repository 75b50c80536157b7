import Mathlib.Data.List.Basic
import Vouch.Circuit.Aggregation

/-! Folding proofs into a slot.

After any number of proofs a slot holds what its rule makes of the values that have arrived:
the greatest or the least, the last that was revealed, the first or the last
(`MergeRule.settled`). One more value keeps this so, or is refused (`combine_settled`), and
therefore it holds of the whole fold, whatever vectors are passed over on the way
(`record_eq_settled`). -/
namespace Vouch.Circuit

namespace MergeRule

/-- A revealed truth value. -/
def revealed? (value : Nat) : Option Nat :=
  if value % 2 = 1 then some (value / 2) else none

/-- What a slot holds after these values. -/
def settled : MergeRule → List Nat → Option Nat
  | .greatest, values | .greatestWide, values => values.max?
  | .least, values | .leastWide, values => values.min?
  | .revealed, values => (values.filterMap revealed?).getLast?
  | .unchanged, values => values.head?
  | .latest, values => values.getLast?

/-- A value that is not the first where only one may come. -/
def Conflicts (rule : MergeRule) (values : List Nat) (value : Nat) : Prop :=
  rule = .unchanged ∧ ∃ first ∈ values.head?, first ≠ value

theorem max?_append_singleton (values : List Nat) (value : Nat) :
    (values ++ [value]).max? = some (values.max?.elim value (max · value)) := by
  cases values with
  | nil => rfl
  | cons first rest =>
    rw [List.cons_append, List.max?_cons', List.max?_cons', List.foldl_append]
    rfl

theorem min?_append_singleton (values : List Nat) (value : Nat) :
    (values ++ [value]).min? = some (values.min?.elim value (min · value)) := by
  cases values with
  | nil => rfl
  | cons first rest =>
    rw [List.cons_append, List.min?_cons', List.min?_cons', List.foldl_append]
    rfl

theorem combine_of_conflicts {rule : MergeRule} {values : List Nat} {value : Nat}
    (h : rule.Conflicts values value) : rule.combine (rule.settled values) value = none := by
  obtain ⟨rfl, first, hfirst, hne⟩ := h
  have hsettled : settled .unchanged values = some first := hfirst
  rw [hsettled]
  exact if_neg hne

/-- **One more value settles the slot anew, unless it conflicts with the first.** -/
theorem combine_settled {rule : MergeRule} {values : List Nat} {value : Nat}
    (h : ¬ rule.Conflicts values value) :
    rule.combine (rule.settled values) value = some (rule.settled (values ++ [value])) := by
  cases rule with
  | greatest =>
    simp only [settled, max?_append_singleton]
    cases values.max? <;> rfl
  | greatestWide =>
    simp only [settled, max?_append_singleton]
    cases values.max? <;> rfl
  | least =>
    simp only [settled, min?_append_singleton]
    cases values.min? <;> rfl
  | leastWide =>
    simp only [settled, min?_append_singleton]
    cases values.min? <;> rfl
  | revealed =>
    rw [combine, settled, settled, List.filterMap_append]
    by_cases hodd : value % 2 = 1
    · simp [revealed?, hodd]
    · simp [revealed?, hodd]
  | unchanged =>
    cases values with
    | nil => rfl
    | cons first rest =>
      by_cases hvalue : first = value
      · exact if_pos hvalue
      · exact absurd ⟨rfl, first, rfl, hvalue⟩ h
  | latest => simp [combine, settled]

/-- A conflict leaves the first value where it was. -/
theorem settled_of_conflicts {rule : MergeRule} {values : List Nat} {value : Nat}
    (h : rule.Conflicts values value) : rule.settled (values ++ [value]) = rule.settled values := by
  obtain ⟨rfl, first, hfirst, -⟩ := h
  have hhead : (values ++ [value]).head? = some first := by
    rw [List.head?_append, hfirst]
    rfl
  exact hhead.trans hfirst.symm

end MergeRule

namespace Aggregation

/-- The slot after all proofs, in order; what is refused leaves it as it was. -/
def record (a : Aggregation) (proofs : List (List Nat)) : Option Nat :=
  proofs.foldl a.mergeOrKeep none

/-- Which proofs are refused on the way. -/
def refusals (a : Aggregation) (slot : Option Nat) : List (List Nat) → List Bool
  | [] => []
  | sources :: rest => (!(a.merge slot sources).isOk) :: a.refusals (a.mergeOrKeep slot sources) rest

/-- The values that arrive, without vectors of a wrong length. -/
def arrived (a : Aggregation) (proofs : List (List Nat)) : List Nat :=
  proofs.filterMap a.rule.incoming?

variable {a : Aggregation}

theorem merge_settled {sources values : List Nat} {value : Nat} (hvalue : a.rule.incoming? sources = some value)
    (h : ¬ a.rule.Conflicts values value) :
    a.merge (a.rule.settled values) sources = .ok (a.rule.settled (values ++ [value])) := by
  simp only [merge, hvalue, MergeRule.combine_settled h]

theorem merge_of_conflicts {sources values : List Nat} {value : Nat}
    (hvalue : a.rule.incoming? sources = some value) (h : a.rule.Conflicts values value) :
    ∃ e, a.merge (a.rule.settled values) sources = .error e := by
  simp only [merge, hvalue, MergeRule.combine_of_conflicts h]
  exact ⟨_, rfl⟩

theorem mergeOrKeep_settled (sources values : List Nat) :
    a.mergeOrKeep (a.rule.settled values) sources =
      a.rule.settled (values ++ (a.rule.incoming? sources).toList) := by
  cases hvalue : a.rule.incoming? sources with
  | none => simp [mergeOrKeep, merge, hvalue]
  | some value =>
    by_cases h : a.rule.Conflicts values value
    · obtain ⟨e, he⟩ := merge_of_conflicts hvalue h
      rw [mergeOrKeep, he]
      exact (MergeRule.settled_of_conflicts h).symm
    · rw [mergeOrKeep, merge_settled hvalue h]
      rfl

theorem settled_nil (rule : MergeRule) : rule.settled [] = none := by
  cases rule <;> rfl

theorem foldl_settled (proofs : List (List Nat)) (before : List Nat) :
    proofs.foldl a.mergeOrKeep (a.rule.settled before) = a.rule.settled (before ++ a.arrived proofs) := by
  induction proofs generalizing before with
  | nil => rw [arrived, List.filterMap_nil, List.append_nil, List.foldl_nil]
  | cons sources proofs ih =>
    have harrived : a.arrived (sources :: proofs) =
        (a.rule.incoming? sources).toList ++ a.arrived proofs := by
      rw [arrived, arrived, List.filterMap_cons]
      cases a.rule.incoming? sources <;> rfl
    rw [List.foldl_cons, mergeOrKeep_settled, ih, harrived, List.append_assoc]

/-- **A slot holds what its rule makes of the values that have arrived.** -/
theorem record_eq_settled (a : Aggregation) (proofs : List (List Nat)) :
    a.record proofs = a.rule.settled (a.arrived proofs) := by
  have h := foldl_settled (a := a) proofs []
  rw [settled_nil] at h
  exact h

/-- What is refused of vectors of the right length differs from the first value, and the rule
admits no other. -/
theorem refusals_settled {proofs : List (List Nat)} {values : List Nat} (before : List Nat)
    (h : proofs.map a.rule.incoming? = values.map some) :
    a.refusals (a.rule.settled before) proofs =
      values.map fun value =>
        decide (a.rule = .unchanged ∧ (before ++ values).head? ≠ some value) := by
  induction proofs generalizing before values with
  | nil =>
    obtain rfl := List.map_eq_nil_iff.1 h.symm
    rfl
  | cons sources proofs ih =>
    cases values with
    | nil => cases h
    | cons value values =>
      obtain ⟨hvalue, hrest⟩ := List.cons.inj h
      have hnext : a.mergeOrKeep (a.rule.settled before) sources = a.rule.settled (before ++ [value]) := by
        rw [mergeOrKeep_settled, hvalue]
        rfl
      have hconflicts : a.rule.Conflicts before value ↔
          a.rule = .unchanged ∧ (before ++ value :: values).head? ≠ some value := by
        cases before <;> simp [MergeRule.Conflicts]
      rw [refusals, hnext, ih _ hrest, List.map_cons, List.append_assoc]
      congr 1
      by_cases hc : a.rule.Conflicts before value
      · obtain ⟨e, he⟩ := merge_of_conflicts hvalue hc
        rw [he, decide_eq_true (hconflicts.1 hc)]
        rfl
      · rw [merge_settled hvalue hc, decide_eq_false (mt hconflicts.2 hc)]
        rfl

theorem arrived_of_incoming {proofs : List (List Nat)} {values : List Nat}
    (h : proofs.map a.rule.incoming? = values.map some) : a.arrived proofs = values := by
  have hsome : (values.map some).filterMap id = values := by
    rw [List.filterMap_map]
    exact List.filterMap_some
  rw [← hsome, ← h, List.filterMap_map]
  rfl

end Aggregation

end Vouch.Circuit

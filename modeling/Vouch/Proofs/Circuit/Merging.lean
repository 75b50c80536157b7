import Vouch.Proofs.Circuit.Folding
import Vouch.Proofs.Circuit.Table

/-! The law of merging.

Vectors of signals arrive one after the other, of any length. A vector of a wrong length is an internal
error; of the others only a value that differs from the first one is refused, where the rule admits no
second value. What is left in the slot at the end is said by the values of all vectors of the right
length (`MergeRule.Keeps`), whatever was refused between them. Where the rule compares, the order and
the number of times that a vector arrives do not count (`merge_law`). -/
namespace Vouch.Circuit

open Result (FailsWith)

/-- The integer with these limbs, the highest first. -/
def joined (limbs : List Nat) : Nat :=
  limbs.foldl (fun n limb => n * 2 ^ Field.limbBits + limb) 0

namespace MergeRule

/-- As many signals as the rule reads. -/
def Reads (rule : MergeRule) (sources : List Nat) : Prop :=
  sources.length = rule.arity

instance (rule : MergeRule) (sources : List Nat) : Decidable (rule.Reads sources) :=
  inferInstanceAs (Decidable (_ = _))

/-- The rule keeps the greatest or the least value. -/
def Compares (rule : MergeRule) : Prop :=
  rule = .greatest ∨ rule = .greatestWide ∨ rule = .least ∨ rule = .leastWide

/-- What the slot holds after these values, if anything. -/
def Keeps : MergeRule → List Nat → Option Nat → Prop
  | .greatest, values, some n | .greatestWide, values, some n => n ∈ values ∧ ∀ m ∈ values, m ≤ n
  | .least, values, some n | .leastWide, values, some n => n ∈ values ∧ ∀ m ∈ values, n ≤ m
  | .unchanged, values, some n => ∃ after, values = n :: after
  | .latest, values, some n => ∃ before, values = before ++ [n]
  | .revealed, values, some n => ∃ before m after, values = before ++ m :: after ∧ m % 2 = 1 ∧ n = m / 2 ∧
      ∀ k ∈ after, k % 2 = 0
  | .revealed, values, none => ∀ k ∈ values, k % 2 = 0
  | _, values, none => values = []

variable {rule : MergeRule} {values : List Nat} {sources : List Nat}

theorem incoming?_eq : rule.incoming? sources = if rule.Reads sources then some (joined sources) else none := by
  rcases sources with _ | ⟨high, _ | ⟨low, _ | ⟨more, rest⟩⟩⟩ <;> cases rule <;>
    simp [incoming?, isWide, Reads, arity, joined, Field.join]

theorem incoming?_of_reads (h : rule.Reads sources) : rule.incoming? sources = some (joined sources) := by
  rw [incoming?_eq, if_pos h]

theorem revealed?_eq_none_iff {k : Nat} : revealed? k = none ↔ k % 2 = 0 := by
  unfold revealed?
  split <;> simp <;> omega

theorem revealed?_eq_some_iff {m n : Nat} : revealed? m = some n ↔ m % 2 = 1 ∧ n = m / 2 := by
  unfold revealed?
  split <;> simp_all [eq_comm]

/-- The last truth value that is revealed, searched from the end. -/
theorem getLast?_filterMap_revealed? :
    (values.filterMap revealed?).getLast? = values.reverse.findSome? revealed? := by
  rw [List.getLast?_eq_head?_reverse, ← List.filterMap_reverse, List.head?_filterMap]

theorem settled_revealed_eq_none_iff : settled .revealed values = none ↔ ∀ k ∈ values, k % 2 = 0 := by
  simp only [settled, getLast?_filterMap_revealed?, List.findSome?_eq_none_iff, List.mem_reverse,
    revealed?_eq_none_iff]

theorem settled_revealed_eq_some_iff {n : Nat} : settled .revealed values = some n ↔
    ∃ before m after, values = before ++ m :: after ∧ m % 2 = 1 ∧ n = m / 2 ∧ ∀ k ∈ after, k % 2 = 0 := by
  simp only [settled, getLast?_filterMap_revealed?, List.findSome?_eq_some_iff, revealed?_eq_none_iff,
    revealed?_eq_some_iff]
  constructor
  · rintro ⟨after, m, before, hvalues, ⟨hodd, hn⟩, heven⟩
    refine ⟨before.reverse, m, after.reverse, ?_, hodd, hn, by simpa using heven⟩
    rw [← values.reverse_reverse, hvalues]
    simp
  · rintro ⟨before, m, after, rfl, hodd, hn, heven⟩
    exact ⟨after.reverse, m, before.reverse, by simp, ⟨hodd, hn⟩, by simpa using heven⟩

/-- **A slot holds one thing, namely what it has settled at.** -/
theorem keeps_iff {slot : Option Nat} : rule.Keeps values slot ↔ rule.settled values = slot := by
  cases slot with
  | none =>
    cases rule with
    | greatest | greatestWide => exact List.max?_eq_none_iff.symm
    | least | leastWide => exact List.min?_eq_none_iff.symm
    | revealed => exact settled_revealed_eq_none_iff.symm
    | unchanged => exact List.head?_eq_none_iff.symm
    | latest => exact List.getLast?_eq_none_iff.symm
  | some n =>
    cases rule with
    | greatest | greatestWide => exact List.max?_eq_some_iff.symm
    | least | leastWide => exact List.min?_eq_some_iff.symm
    | revealed => exact settled_revealed_eq_some_iff.symm
    | unchanged => exact List.head?_eq_some_iff.symm
    | latest => exact List.getLast?_eq_some_iff.symm

/-- What is compared depends on which values there are. -/
theorem settled_congr_mem (h : rule.Compares) {others : List Nat} (hmem : ∀ n, n ∈ others ↔ n ∈ values) :
    rule.settled others = rule.settled values := by
  have hnil : others = [] ↔ values = [] := by
    simp only [List.eq_nil_iff_forall_not_mem, hmem]
  -- What a comparing rule keeps is said by membership alone.
  refine keeps_iff.1 ?_
  have hkeeps : rule.Keeps values (rule.settled values) := keeps_iff.2 rfl
  generalize rule.settled values = slot at hkeeps ⊢
  rcases h with rfl | rfl | rfl | rfl <;> cases slot <;> simpa only [Keeps, hmem, hnil] using hkeeps

end MergeRule

namespace Aggregation

/-- The values of the vectors that the rule reads. -/
def values (a : Aggregation) (proofs : List (List Nat)) : List Nat :=
  (proofs.filter fun sources => a.rule.Reads sources).map joined

/-- The first vector that the rule reads holds another value than this one. -/
def Differs (a : Aggregation) (before : List (List Nat)) (sources : List Nat) : Prop :=
  ∃ first ∈ (a.values before).head?, first ≠ joined sources

variable {a : Aggregation} {before : List (List Nat)} {sources : List Nat}

theorem arrived_eq_values (a : Aggregation) (proofs : List (List Nat)) : a.arrived proofs = a.values proofs := by
  rw [arrived, values, ← List.filterMap_eq_map, ← List.filterMap_eq_filter, List.filterMap_filterMap]
  refine List.filterMap_congr fun sources _ => ?_
  rw [MergeRule.incoming?_eq]
  by_cases h : a.rule.Reads sources <;> simp [h, Option.guard]

theorem record_eq_settled_values (a : Aggregation) (proofs : List (List Nat)) :
    a.record proofs = a.rule.settled (a.values proofs) := by
  rw [record_eq_settled, arrived_eq_values]

theorem merge_of_not_reads (h : ¬ a.rule.Reads sources) (current : Option Nat) :
    ∃ e, a.merge current sources = .error e ∧ e.kind = .internalError := by
  rw [merge, MergeRule.incoming?_eq, if_neg h]
  exact ⟨_, rfl, rfl⟩

theorem merge_of_differs (hreads : a.rule.Reads sources) (hrule : a.rule = .unchanged)
    (h : a.Differs before sources) :
    ∃ e, a.merge (a.record before) sources = .error e ∧ e.kind = .invalidQuery := by
  rw [record_eq_settled_values]
  obtain ⟨e, he⟩ := merge_of_conflicts (MergeRule.incoming?_of_reads hreads) ⟨hrule, h⟩
  exact ⟨e, he, List.mem_singleton.1 (merge_failsWith hreads e he)⟩

theorem merge_of_reads (hreads : a.rule.Reads sources) (h : ¬ (a.rule = .unchanged ∧ a.Differs before sources)) :
    ∃ slot, a.merge (a.record before) sources = .ok slot := by
  rw [record_eq_settled_values]
  exact ⟨_, merge_settled (MergeRule.incoming?_of_reads hreads) h⟩

/-- What is promised of one step, and of all of them. -/
structure MergesBy (a : Aggregation) : Prop where
  /-- A step is an internal error if the vector has a wrong length. -/
  misread : ∀ before sources, (∃ e, a.merge (a.record before) sources = .error e ∧ e.kind = .internalError) ↔
    sources.length ≠ a.rule.arity
  /-- A step is a conflict if only the first value is admitted, and this is another one. -/
  refused : ∀ before sources, (∃ e, a.merge (a.record before) sources = .error e ∧ e.kind = .invalidQuery) ↔
    sources.length = a.rule.arity ∧ a.rule = .unchanged ∧ a.Differs before sources
  fails : ∀ before sources, FailsWith [.internalError, .invalidQuery] (a.merge (a.record before) sources)
  kept : ∀ proofs slot, a.record proofs = slot ↔ a.rule.Keeps (a.values proofs) slot
  /-- Where values are compared, it counts which vectors of the right length arrive. -/
  unordered : a.rule.Compares → ∀ proofs others : List (List Nat),
    (∀ sources, sources.length = a.rule.arity → (sources ∈ others ↔ sources ∈ proofs)) →
    a.record others = a.record proofs

/-- **Every slot merges by its rule.** -/
theorem merge_law (a : Aggregation) : a.MergesBy where
  misread before sources := by
    constructor
    · rintro ⟨e, he, hkind⟩ hreads
      cases hkind.symm.trans (List.mem_singleton.1 (merge_failsWith hreads e he))
    · exact fun hnot => merge_of_not_reads hnot (a.record before)
  refused before sources := by
    constructor
    · rintro ⟨e, he, hkind⟩
      have hreads : a.rule.Reads sources := by
        by_contra hnot
        obtain ⟨e', he', hkind'⟩ := merge_of_not_reads hnot (a.record before)
        cases he.symm.trans he'
        cases hkind.symm.trans hkind'
      refine ⟨hreads, by_contra fun hnot => ?_⟩
      obtain ⟨slot, hok⟩ := merge_of_reads hreads hnot
      cases he.symm.trans hok
    · rintro ⟨hreads, hrule, hdiffers⟩
      exact merge_of_differs hreads hrule hdiffers
  fails before sources := by
    by_cases hreads : a.rule.Reads sources
    · exact (merge_failsWith hreads).mono (by simp)
    · obtain ⟨e, he, hkind⟩ := merge_of_not_reads hreads (a.record before)
      rw [he]
      exact .error (by simp [hkind])
  kept proofs slot := by rw [record_eq_settled_values, MergeRule.keeps_iff]
  unordered hcompares proofs others h := by
    rw [record_eq_settled_values, record_eq_settled_values]
    refine MergeRule.settled_congr_mem hcompares fun n => ?_
    simp only [values, List.mem_map, List.mem_filter, decide_eq_true_eq]
    refine exists_congr fun sources => and_congr_left fun _ => ?_
    exact ⟨fun ⟨hmem, hreads⟩ => ⟨(h sources hreads).1 hmem, hreads⟩,
      fun ⟨hmem, hreads⟩ => ⟨(h sources hreads).2 hmem, hreads⟩⟩

/-- A slot for the greatest of wide integers, and one that admits a single value. -/
def wideSlot : Aggregation := .ofBits "agg_balance" 256 ["out_high", "out_low"] .greatestWide

def fixedSlot : Aggregation := .ofBits "agg_id" 64 ["out_id"] .unchanged

theorem merge_law_slots :
    wideSlot.record [[0, 5], [7], [1, 2]] = some (2 ^ 128 + 2) ∧
    wideSlot.record [[1, 2], [0, 5], [1, 2]] = wideSlot.record [[0, 5], [7], [1, 2]] ∧
    (∃ e, wideSlot.merge (wideSlot.record [[0, 5]]) [7] = .error e ∧ e.kind = .internalError) ∧
    ∃ e, fixedSlot.merge (fixedSlot.record [[9], [9, 9]]) [6] = .error e ∧ e.kind = .invalidQuery := by
  refine ⟨((merge_law _).kept _ _).2 (And.intro (by decide) (by decide)), ?_,
    ((merge_law _).misread _ _).2 (by decide), ((merge_law _).refused _ _).2 ⟨rfl, rfl, 9, rfl, by decide⟩⟩
  refine (merge_law _).unordered (.inr (.inl rfl)) _ _ fun sources hlength => ?_
  have hlone : sources ≠ [7] := by
    rintro rfl
    cases hlength
  simp only [List.mem_cons, List.not_mem_nil, or_false, hlone, false_or]
  tauto

end Aggregation

end Vouch.Circuit

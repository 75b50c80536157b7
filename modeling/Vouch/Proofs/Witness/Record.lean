import Vouch.Proofs.Circuit.Folding
import Vouch.Proofs.Circuit.Secrecy
import Vouch.Proofs.Witness.Inputs

/-! Records of several proofs.

A run is a witness with a valuation that goes with it: the inputs and operations of the
claims have the values of the witness, and the source of the circuit is satisfied. There is
one for every witness (`Run.exists_of_witness`), and its outputs are what the statements say
(`Run.realizes`). So a record of any number of runs holds the combined statements
(`record_of_runs`). -/
namespace Vouch

open Circuit (Valuation WellTyped Layout Aggregation MergeRule PublicSignal compile)
open Circuit.ClaimSignals (length_limbs length_operands ofClaim derived outputName slotName)

/-! ### Runs -/

/-- A witness for a credential of a schema and the values that it gives to the wires of the circuit. -/
structure Run (s : Schema) (c : Circuit) (hash : FieldHash) where
  request : WitnessRequest
  witness : Witness
  valuation : Valuation
  ofSchema : request.credential.body.schema = s
  made : request.witness hash = .ok witness
  carried : ∀ claim ∈ s.claims, ∀ name ∈ (ofClaim claim).inputs ++ (ofClaim claim).operations,
    ∀ n, witness.get? name = some (.scalar n) → valuation.signal name = Field.reduce n
  satisfied : valuation.Satisfies (Circuit.Source.mainClauses c.code)

/-- The private signals of a claim with their values. -/
def privates (part : (Claim × ClaimValue) × Statement) : List (String × Nat) :=
  ((ofClaim part.1.1).inputs ++ (ofClaim part.1.1).operations).zip (part.1.2.limbs ++ part.2.operands)

theorem length_privates {part : (Claim × ClaimValue) × Statement} (h : WellTyped part) :
    ((ofClaim part.1.1).inputs ++ (ofClaim part.1.1).operations).length =
      (part.1.2.limbs ++ part.2.operands).length := by
  rw [List.length_append, List.length_append, length_limbs h.1, length_operands h.1 h.2]

theorem carries_iff_privates {part : (Claim × ClaimValue) × Statement} {ρ : Valuation}
    (h : WellTyped part) :
    (ofClaim part.1.1).Carries part.1.2 part.2 ρ ↔
      ∀ entry ∈ privates part, ρ.signal entry.1 = Field.reduce entry.2 := by
  have hlists : ((ofClaim part.1.1).inputs ++ (ofClaim part.1.1).operations).map ρ.signal =
      (part.1.2.limbs ++ part.2.operands).map Field.reduce ↔
        ∀ entry ∈ privates part, ρ.signal entry.1 = Field.reduce entry.2 := by
    rw [Aligned.map_eq_map_iff, List.forall₂_iff_zip, and_iff_right (length_privates h), privates]
    exact ⟨fun hall entry hentry => hall hentry, fun hall _ _ hmem => hall _ hmem⟩
  rw [← hlists, Circuit.ClaimSignals.carries_iff, List.map_append, List.map_append]
  constructor
  · rintro ⟨hinputs, hoperations⟩
    rw [hinputs, hoperations]
  · exact fun he => List.append_inj he (by simpa using (length_limbs h.1).symm)

namespace WitnessRequest

variable {r : WitnessRequest} {hash : FieldHash} {w : Witness}

theorem wellTyped_of_witness (h : r.witness hash = .ok w) :
    ∀ part ∈ r.parts, WellTyped part := by
  obtain ⟨c, hc, -⟩ := witness_eq_ok_iff.1 h
  obtain ⟨-, s, -, -, hbody, -⟩ := check_eq_ok_iff.1 hc
  exact fun part hpart => (Presentation.wellTyped_of_checkBody hbody part hpart).1

/-- A witness has the private signals of its claims. -/
theorem get?_privates (h : r.witness hash = .ok w) {part : (Claim × ClaimValue) × Statement}
    (hpart : part ∈ r.parts) : ∀ entry ∈ privates part, w.get? entry.1 = some (.scalar entry.2) := by
  obtain ⟨c, hc, rfl⟩ := witness_eq_ok_iff.1 h
  intro entry hentry
  rw [Keyed.get?_ofList (nodup_entries hc), entries_eq hc]
  refine List.mem_append_right _ (List.mem_flatMap.2 ⟨part, hpart, ?_⟩)
  rw [claimEntries, List.zip_map_right]
  exact List.mem_map.2 ⟨entry, hentry, rfl⟩

/-- Every claim of the schema has its part in the request. -/
theorem exists_part (h : r.witness hash = .ok w) {claim : Claim}
    (hclaim : claim ∈ r.credential.body.schema.claims) :
    ∃ about : ClaimValue × Statement, ((claim, about.1), about.2) ∈ r.parts := by
  obtain ⟨c, hc, -⟩ := witness_eq_ok_iff.1 h
  rw [← Body.map_fst_entries, ← map_fst_parts hc, List.map_map] at hclaim
  obtain ⟨⟨⟨_, v⟩, t⟩, hpart, rfl⟩ := List.mem_map.1 hclaim
  exact ⟨(v, t), hpart⟩

theorem claim_mem_of_mem_parts {part : (Claim × ClaimValue) × Statement} (h : part ∈ r.parts) :
    part.1.1 ∈ r.credential.body.schema.claims :=
  (List.of_mem_zip (List.of_mem_zip (b := part.2) h).1).1

end WitnessRequest

namespace Run

variable {s : Schema} {c : Circuit} {hash : FieldHash}

/-- The statements of a run are about values of the types of its claims. -/
theorem concerns (run : Run s c hash) {claim : Claim} {v : ClaimValue} {t : Statement}
    (h : ((claim, v), t) ∈ run.request.parts) : v.type = claim.type ∧ t.Concerns v :=
  WitnessRequest.wellTyped_of_witness run.made _ h

theorem realizes (run : Run s c hash) (hcompile : compile s = .ok c) :
    ∀ part ∈ run.request.parts, run.valuation.Realizes part := by
  intro part hpart
  have hclaim : part.1.1 ∈ s.claims := run.ofSchema ▸ WitnessRequest.claim_mem_of_mem_parts hpart
  have htyped := WitnessRequest.wellTyped_of_witness run.made part hpart
  have hsatisfied := ((Circuit.satisfies_code_iff hcompile).1 run.satisfied).2.2 _ hclaim
  refine ⟨(carries_iff_privates htyped).2 fun entry hentry => ?_, hsatisfied⟩
  exact run.carried _ hclaim entry.1 (List.of_mem_zip (b := entry.2) hentry).1 entry.2
    (WitnessRequest.get?_privates run.made hpart entry hentry)

/-- Every witness has a valuation. -/
theorem exists_of_witness (hcompile : compile s = .ok c) {r : WitnessRequest} {w : Witness}
    (hschema : r.credential.body.schema = s) (h : r.witness hash = .ok w) :
    ∃ run : Run s c hash, run.request = r ∧ run.witness = w := by
  obtain ⟨_, hc, -⟩ := WitnessRequest.witness_eq_ok_iff.1 h
  obtain ⟨-, _, -, -, hbody, -⟩ := WitnessRequest.check_eq_ok_iff.1 hc
  rw [← hschema] at hcompile
  obtain ⟨ρ, hcarries, hsatisfied⟩ := Presentation.exists_solves_of_checkBody hcompile hbody
  refine ⟨⟨r, w, ρ, hschema, h, fun claim hclaim name hname n hn => ?_, hsatisfied⟩, rfl, rfl⟩
  obtain ⟨about, hpart⟩ := WitnessRequest.exists_part h (hschema ▸ hclaim)
  have htyped := WitnessRequest.wellTyped_of_witness h _ hpart
  rw [← List.map_fst_zip (Nat.le_of_eq (length_privates htyped))] at hname
  obtain ⟨entry, hentry, rfl⟩ := List.mem_map.1 hname
  have hvalue := WitnessRequest.get?_privates h hpart entry hentry
  rw [hn, Option.some.injEq, InputValue.scalar.injEq] at hvalue
  rw [hvalue]
  exact (carries_iff_privates htyped).1 (hcarries _ hpart) entry hentry

end Run

/-! ### What a proof tells -/

namespace Statement

/-- The integers that a statement brings to the slots of its claim. -/
def told : Statement → ClaimValue → List Nat
  | .range r, _ => [r.lower, r.upper]
  | t, v => t.outputs v

end Statement

/-- The rules of the slots find in the outputs what the statement tells. -/
theorem incoming_aggregations {part : (Claim × ClaimValue) × Statement} {ρ : Valuation}
    (hpart : WellTyped part) (h : ρ.Realizes part) :
    (ofClaim part.1.1).aggregations.map
        (fun a => a.rule.incoming? (a.sources.map fun name => (ρ.signal name).val)) =
      (part.2.told part.1.2).map some := by
  have hout := Circuit.outputs_of_realizes hpart h
  obtain ⟨htype, hconcerns⟩ := hpart
  obtain ⟨⟨claim, v⟩, t⟩ := part
  dsimp only at htype hconcerns hout ⊢
  cases hconcerns with
  | @range r i width =>
    simp only [ofClaim, ← htype, ClaimValue.type, Statement.outputs, Statement.told, ← width] at hout ⊢
    by_cases hwide : i.width = greatestIntegerWidth
    · simp only [hwide, if_true, Circuit.ClaimSignals.ofWide, Aggregation.ofBits, PublicSignal.ofBits,
        MergeRule.incoming?, MergeRule.isWide, List.map_cons, List.map_nil, List.cons.injEq,
        and_true] at hout ⊢
      obtain ⟨hlowerHigh, hlowerLow, hupperHigh, hupperLow⟩ := hout
      rw [hlowerHigh, hlowerLow, hupperHigh, hupperLow]
      exact ⟨congrArg some (Field.join_split r.lower), congrArg some (Field.join_split r.upper)⟩
    · simp only [hwide, if_false, Circuit.ClaimSignals.ofNarrow, Aggregation.ofBits, PublicSignal.ofBits,
        MergeRule.incoming?, MergeRule.isWide, List.map_cons, List.map_nil, List.cons.injEq,
        and_true] at hout ⊢
      exact ⟨congrArg some hout.1, congrArg some hout.2⟩
  | @equality e p type =>
    have htold : (Statement.equality e).told (.property p) = (Statement.equality e).outputs (.property p) := rfl
    simp only [ofClaim, ← htype, ClaimValue.type, Circuit.ClaimSignals.ofProperty, List.map_map] at hout ⊢
    rw [htold, ← hout, List.map_map]
    rfl
  | reveal shown b =>
    have htold : (Statement.reveal shown).told (.boolean b) = (Statement.reveal shown).outputs (.boolean b) := rfl
    simp only [ofClaim, ← htype, ClaimValue.type, Circuit.ClaimSignals.ofBoolean] at hout ⊢
    rw [htold, ← hout]
    rfl

/-! ### Slots -/

namespace Circuit

/-- What the slots of a claim hold after the public signals of some proofs, and which proofs were
refused. -/
def slotsOf (c : Circuit) (claim : Claim) (proofs : List (List Nat)) :
    List (String × Option Nat × List Bool) :=
  (ofClaim claim).aggregations.map fun a =>
    let sources := proofs.map (c.sourceValues a)
    (a.destination, a.record sources, a.refusals none sources)

end Circuit

/-! ### Combined statements -/

namespace Statement

def lower? : Statement → Option Nat
  | .range r => some r.lower
  | _ => none

def upper? : Statement → Option Nat
  | .range r => some r.upper
  | _ => none

/-- The truth value if it is revealed. -/
def revealed? : Statement → ClaimValue → Option Nat
  | .reveal true, .boolean b => some b.toNat
  | _, _ => none

end Statement

/-- What statements about values of a claim come to: the greatest lower and the least upper bound;
for every constant what the first proof said, others that say something else being refused; the last
truth value that was revealed. -/
def Claim.combined (c : Claim) (about : List (ClaimValue × Statement)) :
    List (String × Option Nat × List Bool) :=
  match c.type with
  | .integer .. =>
    [(slotName (derived c.name "lb"), (about.filterMap (·.2.lower?)).max?, about.map fun _ => false),
      (slotName (derived c.name "ub"), (about.filterMap (·.2.upper?)).min?, about.map fun _ => false)]
  | .property p =>
    (List.range p.checks).map fun i =>
      let said := about.filterMap fun (v, t) => (t.outputs v)[i]?
      (slotName (derived c.name s!"eq_check{i}"), said.head?,
        said.map fun output => decide (said.head? ≠ some output))
  | .boolean =>
    [(slotName c.name, (about.filterMap fun (v, t) => t.revealed? v).getLast?, about.map fun _ => false)]

namespace Run

variable {s : Schema} {c : Circuit} {hash : FieldHash}

/-- The public signals of a run. -/
def signals (run : Run s c hash) : List Nat :=
  c.publicSignals.map fun out => (run.valuation.signal out.name).val

/-- An aggregation of a claim reads the run's values of the signals that it names. -/
theorem sourceValues_signals (run : Run s c hash) (hcompile : compile s = .ok c) {claim : Claim}
    (hclaim : claim ∈ s.claims) {a : Aggregation} (ha : a ∈ (ofClaim claim).aggregations) :
    c.sourceValues a run.signals = a.sources.map fun name => (run.valuation.signal name).val := by
  refine Circuit.sourceValues_eq _ _ (fun _ => rfl) fun name hname => ?_
  obtain ⟨out, hout, rfl⟩ := List.mem_map.1 (Circuit.ClaimSignals.sources_subset claim a ha name hname)
  have hmem : out ∈ c.claimOutputs := by
    rw [Circuit.claimOutputs_of_compile hcompile]
    exact List.mem_flatMap.2 ⟨claim, hclaim, hout⟩
  exact List.mem_map_of_mem (List.mem_of_mem_drop hmem)

/-- The values that arrive in the slots of a claim. -/
theorem incoming_signals (run : Run s c hash) (hcompile : compile s = .ok c)
    {part : (Claim × ClaimValue) × Statement} (hpart : part ∈ run.request.parts) :
    (ofClaim part.1.1).aggregations.map (fun a => a.rule.incoming? (c.sourceValues a run.signals)) =
      (part.2.told part.1.2).map some := by
  have hclaim : part.1.1 ∈ s.claims := run.ofSchema ▸ WitnessRequest.claim_mem_of_mem_parts hpart
  have htyped := WitnessRequest.wellTyped_of_witness run.made part hpart
  rw [← incoming_aggregations htyped (run.realizes hcompile part hpart)]
  exact List.map_congr_left fun a ha => by rw [sourceValues_signals run hcompile hclaim ha]

/-- A slot after runs that bring these values. -/
theorem slot_eq {runs : List (Run s c hash)} {a : Aggregation} {value : Run s c hash → Nat}
    (h : ∀ run ∈ runs, a.rule.incoming? (c.sourceValues a run.signals) = some (value run)) :
    a.record ((runs.map (·.signals)).map (c.sourceValues a)) = a.rule.settled (runs.map value) ∧
      a.refusals none ((runs.map (·.signals)).map (c.sourceValues a)) =
        (runs.map value).map fun n =>
          decide (a.rule = .unchanged ∧ (runs.map value).head? ≠ some n) := by
  have hincoming : ((runs.map (·.signals)).map (c.sourceValues a)).map a.rule.incoming? =
      (runs.map value).map some := by
    rw [List.map_map, List.map_map, List.map_map]
    exact List.map_congr_left h
  have hrefusals := Aggregation.refusals_settled [] hincoming
  rw [Aggregation.settled_nil] at hrefusals
  exact ⟨by rw [Aggregation.record_eq_settled, Aggregation.arrived_of_incoming hincoming], hrefusals⟩

/-- The slot of a rule that admits every value. -/
theorem slot_of_ne_unchanged {runs : List (Run s c hash)} {a : Aggregation} {value : Run s c hash → Nat}
    (h : ∀ run ∈ runs, a.rule.incoming? (c.sourceValues a run.signals) = some (value run))
    (hrule : a.rule ≠ .unchanged) :
    a.record ((runs.map (·.signals)).map (c.sourceValues a)) = a.rule.settled (runs.map value) ∧
      a.refusals none ((runs.map (·.signals)).map (c.sourceValues a)) = runs.map fun _ => false := by
  obtain ⟨hrecord, hrefusals⟩ := slot_eq h
  refine ⟨hrecord, hrefusals.trans ?_⟩
  rw [List.map_map]
  exact List.map_congr_left fun run _ => decide_eq_false fun hc => hrule hc.1

variable {claim : Claim} {f : Run s c hash → ClaimValue × Statement}

/-- The two slots of an integer. -/
theorem aggregations_integer {width : Nat} {valid : ValidWidth greatestIntegerWidth width}
    (htype : claim.type = .integer width valid) :
    ∃ lb ub : Aggregation, (ofClaim claim).aggregations = [lb, ub] ∧
      lb.destination = slotName (derived claim.name "lb") ∧
      ub.destination = slotName (derived claim.name "ub") ∧
      (lb.rule ≠ .unchanged ∧ ∀ values, lb.rule.settled values = values.max?) ∧
      ub.rule ≠ .unchanged ∧ ∀ values, ub.rule.settled values = values.min? := by
  simp only [ofClaim, htype]
  split
  · exact ⟨_, _, rfl, rfl, rfl, ⟨fun h => (by cases h), fun _ => rfl⟩, fun h => (by cases h), fun _ => rfl⟩
  · exact ⟨_, _, rfl, rfl, rfl, ⟨fun h => (by cases h), fun _ => rfl⟩, fun h => (by cases h), fun _ => rfl⟩

theorem slotsOf_integer (hcompile : compile s = .ok c) {runs : List (Run s c hash)}
    (hf : ∀ run ∈ runs, ((claim, (f run).1), (f run).2) ∈ run.request.parts) {width : Nat}
    {valid : ValidWidth greatestIntegerWidth width} (htype : claim.type = .integer width valid) :
    c.slotsOf claim (runs.map (·.signals)) = claim.combined (runs.map f) := by
  have hranges : ∀ run ∈ runs, ∃ r, (f run).2 = .range r := by
    intro run hrun
    obtain ⟨hvalue, hconcerns⟩ := run.concerns (hf run hrun)
    obtain ⟨r, -, hr, -⟩ := hconcerns.exists_range (hvalue.trans htype)
    exact ⟨r, hr⟩
  let lower (run : Run s c hash) : Nat := (f run).2.lower?.getD 0
  let upper (run : Run s c hash) : Nat := (f run).2.upper?.getD 0
  have hlowers : (runs.map f).filterMap (·.2.lower?) = runs.map lower := by
    rw [List.filterMap_map]
    refine List.filterMap_eq_map_iff_forall_eq_some.2 fun run hrun => ?_
    obtain ⟨r, hr⟩ := hranges run hrun
    simp only [lower, Function.comp_apply, hr, Statement.lower?, Option.getD_some]
  have huppers : (runs.map f).filterMap (·.2.upper?) = runs.map upper := by
    rw [List.filterMap_map]
    refine List.filterMap_eq_map_iff_forall_eq_some.2 fun run hrun => ?_
    obtain ⟨r, hr⟩ := hranges run hrun
    simp only [upper, Function.comp_apply, hr, Statement.upper?, Option.getD_some]
  obtain ⟨lb, ub, haggregations, hlb, hub, ⟨hlbRule, hmax⟩, hubRule, hmin⟩ := aggregations_integer htype
  have harrived : ∀ run ∈ runs, lb.rule.incoming? (c.sourceValues lb run.signals) = some (lower run) ∧
      ub.rule.incoming? (c.sourceValues ub run.signals) = some (upper run) := by
    intro run hrun
    obtain ⟨r, hr⟩ := hranges run hrun
    have h := incoming_signals run hcompile (hf run hrun)
    simpa [haggregations, hr, lower, upper, Statement.told, Statement.lower?, Statement.upper?] using h
  obtain ⟨hlbSlot, hlbRefused⟩ := slot_of_ne_unchanged (fun run hrun => (harrived run hrun).1) hlbRule
  obtain ⟨hubSlot, hubRefused⟩ := slot_of_ne_unchanged (fun run hrun => (harrived run hrun).2) hubRule
  simp only [Circuit.slotsOf, haggregations, List.map_cons, List.map_nil, Claim.combined, htype]
  rw [hlb, hub, hlbSlot, hubSlot, hlbRefused, hubRefused, hmax, hmin, hlowers, huppers, List.map_map]
  rfl

theorem slotsOf_property (hcompile : compile s = .ok c) {runs : List (Run s c hash)}
    (hf : ∀ run ∈ runs, ((claim, (f run).1), (f run).2) ∈ run.request.parts) {p : PropertyType}
    (htype : claim.type = .property p) :
    c.slotsOf claim (runs.map (·.signals)) = claim.combined (runs.map f) := by
  have htold : ∀ run ∈ runs, (f run).2.told (f run).1 = (f run).2.outputs (f run).1 ∧
      ((f run).2.outputs (f run).1).length = p.checks := by
    intro run hrun
    obtain ⟨hvalue, hconcerns⟩ := run.concerns (hf run hrun)
    obtain ⟨e, q, ht, hv, hp⟩ := hconcerns.exists_equality (hvalue.trans htype)
    rw [ht, hv, ← hp, ← e.complete]
    exact ⟨rfl, List.length_map _⟩
  have haggregations : (ofClaim claim).aggregations = (List.range p.checks).map fun i =>
      .ofBits (slotName (derived claim.name s!"eq_check{i}")) (p.width + 1)
        [outputName (derived claim.name s!"eq_check{i}")] .unchanged := by
    simp only [ofClaim, htype, Circuit.ClaimSignals.ofProperty, List.map_map]
    rfl
  rw [Circuit.slotsOf, haggregations, List.map_map, Claim.combined, htype]
  refine List.map_congr_left fun i hi => ?_
  have hchecks := List.mem_range.1 hi
  let said (run : Run s c hash) : Nat := ((f run).2.outputs (f run).1)[i]?.getD 0
  have hsaid : ∀ run ∈ runs, ((f run).2.outputs (f run).1)[i]? = some (said run) := by
    intro run hrun
    have hlt : i < ((f run).2.outputs (f run).1).length := (htold run hrun).2 ▸ hchecks
    simp only [said, List.getElem?_eq_getElem hlt, Option.getD_some]
  have hvalues : ((runs.map f).filterMap fun (v, t) => (t.outputs v)[i]?) = runs.map said := by
    rw [List.filterMap_map]
    exact List.filterMap_eq_map_iff_forall_eq_some.2 hsaid
  let slot : Aggregation := .ofBits (slotName (derived claim.name s!"eq_check{i}")) (p.width + 1)
    [outputName (derived claim.name s!"eq_check{i}")] .unchanged
  have harrived : ∀ run ∈ runs,
      slot.rule.incoming? (c.sourceValues slot run.signals) = some (said run) := by
    intro run hrun
    have h := congrArg (·[i]?) (incoming_signals run hcompile (hf run hrun))
    rw [haggregations, (htold run hrun).1] at h
    simp only [List.getElem?_map, List.getElem?_range hchecks, hsaid run hrun, Option.map_some] at h
    exact Option.some.inj h
  obtain ⟨hrecord, hrefusals⟩ := slot_eq harrived
  have hfirst : (fun n => decide (slot.rule = .unchanged ∧ (runs.map said).head? ≠ some n)) =
      fun n => decide ((runs.map said).head? ≠ some n) :=
    funext fun n => decide_eq_decide.2 (and_iff_right rfl)
  rw [hfirst] at hrefusals
  simp only [hvalues]
  exact congrArg₂ (fun record refused => (slot.destination, record, refused)) hrecord hrefusals

theorem slotsOf_boolean (hcompile : compile s = .ok c) {runs : List (Run s c hash)}
    (hf : ∀ run ∈ runs, ((claim, (f run).1), (f run).2) ∈ run.request.parts)
    (htype : claim.type = .boolean) :
    c.slotsOf claim (runs.map (·.signals)) = claim.combined (runs.map f) := by
  let slot : Aggregation := .ofBits (slotName claim.name) 2 [outputName claim.name] .revealed
  have haggregations : (ofClaim claim).aggregations = [slot] := by
    rw [ofClaim, htype]
    rfl
  have htold : ∀ run ∈ runs, ∃ out, (f run).2.told (f run).1 = [out] ∧
      MergeRule.revealed? out = (f run).2.revealed? (f run).1 := by
    intro run hrun
    obtain ⟨hvalue, hconcerns⟩ := run.concerns (hf run hrun)
    obtain ⟨shown, b, ht, hv⟩ := hconcerns.exists_reveal (hvalue.trans htype)
    rw [ht, hv]
    cases shown <;> cases b <;> exact ⟨_, rfl, rfl⟩
  choose! out hout using htold
  have harrived : ∀ run ∈ runs,
      slot.rule.incoming? (c.sourceValues slot run.signals) = some (out run) := by
    intro run hrun
    have h := incoming_signals run hcompile (hf run hrun)
    rw [haggregations, (hout run hrun).1] at h
    exact List.head_eq_of_cons_eq h
  have hrevealed : (runs.map out).filterMap MergeRule.revealed? =
      (runs.map f).filterMap fun (v, t) => t.revealed? v := by
    rw [List.filterMap_map, List.filterMap_map]
    exact List.filterMap_congr fun run hrun => (hout run hrun).2
  obtain ⟨hrecord, hrefused⟩ := slot_of_ne_unchanged harrived fun h => by cases h
  simp only [Circuit.slotsOf, haggregations, List.map_cons, List.map_nil, Claim.combined, htype]
  rw [hrecord, hrefused, List.map_map, ← hrevealed]
  rfl

/-- **The slots of a claim hold what the statements of all runs come to.** -/
theorem slotsOf_eq_combined (hcompile : compile s = .ok c) {runs : List (Run s c hash)}
    (hf : ∀ run ∈ runs, ((claim, (f run).1), (f run).2) ∈ run.request.parts) :
    c.slotsOf claim (runs.map (·.signals)) = claim.combined (runs.map f) := by
  cases htype : claim.type with
  | integer width valid => exact slotsOf_integer hcompile hf htype
  | property p => exact slotsOf_property hcompile hf htype
  | boolean => exact slotsOf_boolean hcompile hf htype

/-- The outputs of claims lie below their ceilings. -/
theorem lt_ceiling (run : Run s c hash) (hcompile : compile s = .ok c) :
    ∀ out ∈ c.claimOutputs, (run.valuation.signal out.name).val < out.ceiling := by
  intro out hout
  rw [Circuit.claimOutputs_of_compile hcompile] at hout
  obtain ⟨claim, hclaim, hout⟩ := List.mem_flatMap.1 hout
  obtain ⟨about, hpart⟩ := WitnessRequest.exists_part run.made (run.ofSchema ▸ hclaim)
  have htyped := WitnessRequest.wellTyped_of_witness run.made _ hpart
  have hceilings := Circuit.ClaimSignals.outputs_lt_ceiling htyped.1 htyped.2
  rw [← Circuit.outputs_of_realizes htyped (run.realizes hcompile _ hpart), List.forall₂_map_left_iff,
    List.forall₂_same] at hceilings
  exact hceilings out hout

/-- **Proofs of a schema add up to the combined statements.** Every witness gives rise to a run;
however the source of the circuit is satisfied, no output of a claim reaches its ceiling, and the slots
that runs leave are those of their statements. -/
theorem record_of_runs (hcompile : compile s = .ok c) (hash : FieldHash) :
    (∀ r w, r.credential.body.schema = s → WitnessRequest.witness r hash = .ok w →
        ∃ run : Run s c hash, run.request = r ∧ run.witness = w) ∧
      ∀ runs : List (Run s c hash),
        (∀ run ∈ runs, ∀ out ∈ c.claimOutputs, (run.valuation.signal out.name).val < out.ceiling) ∧
          ∀ claim ∈ s.claims, (ofClaim claim).aggregations ⊆ c.aggregations ∧
            ∃ about : List (ClaimValue × Statement),
              List.Forall₂ (fun run (v, t) => ((claim, v), t) ∈ run.request.parts) runs about ∧
                c.slotsOf claim (runs.map (·.signals)) = claim.combined about := by
  refine ⟨fun r w => exists_of_witness hcompile, fun runs => ⟨fun run _ => run.lt_ceiling hcompile, ?_⟩⟩
  intro claim hclaim
  refine ⟨?_, ?_⟩
  · intro a ha
    obtain ⟨rfl, -⟩ := (Circuit.compile_eq_ok_iff s c).1 hcompile
    refine List.mem_cons_of_mem _ (List.mem_append_left _ (List.mem_flatMap.2 ⟨_, ?_, ha⟩))
    exact List.mem_map_of_mem hclaim
  · have hparts (run : Run s c hash) :
        ∃ about : ClaimValue × Statement, ((claim, about.1), about.2) ∈ run.request.parts := by
      rw [← run.ofSchema] at hclaim
      exact WitnessRequest.exists_part run.made hclaim
    choose f hf using hparts
    refine ⟨runs.map f, ?_, slotsOf_eq_combined hcompile fun run _ => hf run⟩
    rw [List.forall₂_map_right_iff, List.forall₂_same]
    exact fun run _ => hf run

end Run

/-! ### Two proofs of one age -/

namespace WitnessRequest

/-- The person of `ageRequest` proves to be between 30 and 60. -/
def middleAgeRequest : WitnessRequest :=
  { ageRequest with
    presentation :=
      { ageRequest.presentation with statements := [.range ⟨8, 30, 60, by decide, by decide⟩] } }

theorem exists_check_middleAgeRequest : ∃ c, middleAgeRequest.check lengthHash = .ok c := by
  have hcompile := (Circuit.compile_eq_ok_iff _ _).1 Circuit.compile_ageSchema
  have hrevocation : middleAgeRequest.revocation = .ok middleAgeRequest.unrevoked := rfl
  have hlayout := (Layout.ofSchema_eq_ok_iff _ _).2 ⟨rfl, hcompile.2⟩
  exact ⟨⟨_, _, _, Field.reduce 3, _⟩, check_eq_ok_iff.2 ⟨hrevocation, _, rfl, rfl, ⟨_, rfl⟩, rfl, rfl,
    rfl, decodeSignature_neutral, rfl, hlayout⟩⟩

end WitnessRequest

open WitnessRequest in
/-- The bounds are those of the narrower statement. -/
theorem Run.record_of_runs_age :
    ∃ c, compile Circuit.ageSchema = .ok c ∧ ∃ runs : List (Run Circuit.ageSchema c lengthHash),
      runs.map (·.request) = [ageRequest, middleAgeRequest] ∧
        ∀ claim ∈ Circuit.ageSchema.claims, c.slotsOf claim (runs.map (·.signals)) =
          [("agg_age_lb", some 30, [false, false]), ("agg_age_ub", some 60, [false, false])] := by
  obtain ⟨hexists, hrecord⟩ := record_of_runs Circuit.compile_ageSchema lengthHash
  obtain ⟨first, hfirst⟩ := exists_check_ageRequest
  obtain ⟨second, hsecond⟩ := exists_check_middleAgeRequest
  obtain ⟨run, hrun, -⟩ := hexists ageRequest _ rfl (witness_eq_ok_iff.2 ⟨first, hfirst, rfl⟩)
  obtain ⟨run', hrun', -⟩ := hexists middleAgeRequest _ rfl (witness_eq_ok_iff.2 ⟨second, hsecond, rfl⟩)
  refine ⟨_, Circuit.compile_ageSchema, [run, run'], by rw [← hrun, ← hrun']; rfl, fun claim hclaim => ?_⟩
  obtain ⟨-, about, habout, hslots⟩ := (hrecord [run, run']).2 claim hclaim
  cases habout with
  | @cons _ said _ _ hpart hrest =>
    cases hrest with
    | @cons _ said' _ _ hpart' hnil =>
      cases hnil
      rw [hrun] at hpart
      rw [hrun'] at hpart'
      obtain ⟨hclaim, ht⟩ := Prod.mk.inj (List.mem_singleton.1 hpart)
      obtain ⟨rfl, hv⟩ := Prod.mk.inj hclaim
      obtain ⟨hclaim', ht'⟩ := Prod.mk.inj (List.mem_singleton.1 hpart')
      have hsaid : said = (_, _) := Prod.ext hv ht
      have hsaid' : said' = (_, _) := Prod.ext (Prod.mk.inj hclaim').2 ht'
      rw [hslots, hsaid, hsaid']
      rfl

end Vouch

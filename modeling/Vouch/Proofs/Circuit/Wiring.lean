import Mathlib.Data.List.Count
import Vouch.Proofs.Circuit.Evaluation
import Vouch.Proofs.Circuit.Table

/-! How the signals of a circuit are wired.

A circuit is of use only if no output is left open or assigned twice, and only sound if no
input is left out. The main template declares the public signals as its outputs, in order,
and assigns them in that order, each once: the intrinsic ones from the core, those of a claim
by its own lines (`assigned_code`). The inputs of every circuit go into the core, those of the
claims into the body digest, and the parameters of a statement into outputs of the claim that
it is about (`wellWired_of_compile`). -/
namespace Vouch.Circuit

open ClaimSignals (derived outputName ofClaim)
open Layout (unchecked)
open Source

namespace Source

/-! ### Operands -/

namespace Clause

/-- The output that a clause declares. -/
def output? : Clause → Option String
  | .output name => some name
  | _ => none

/-- The words left of `<==`. -/
def target? : Clause → Option (List String)
  | .assign target _ => some target
  | _ => none

/-- The signal that a clause assigns; the pin of a component has a dot. -/
def assigned? : Clause → Option String
  | .assign [target] _ => if '.' ∈ target.toList then none else some target
  | _ => none

/-- What is computed with right of `<==`, or on both sides of `===`. -/
def operands : Clause → List String
  | .assign _ value => (tokens value).filterMap Token.word?
  | .equate left right => (tokens (left ++ right)).filterMap Token.word?
  | _ => []

end Clause

end Source

/-- The operands of an expression, from left to right. -/
def Expr.operands : Expr → List String
  | .wire w => [w.text]
  | .const n => [toString n]
  | .add a b | .sub a b | .mul a b => a.operands ++ b.operands

namespace Source

theorem operands_bracketed (needed : Bool) (ts : List Token) :
    (bracketed needed ts).filterMap Token.word? = ts.filterMap Token.word? := by
  cases needed with
  | false => rfl
  | true =>
    show (ts ++ [Token.closing]).filterMap Token.word? = ts.filterMap Token.word?
    rw [List.filterMap_append]
    exact List.append_nil _

/-- The operands of an expression are those of its tokens, with or without brackets. -/
theorem operands_tokensIn (e : Expr) (inProduct : Bool) :
    (e.tokensIn inProduct).filterMap Token.word? = e.operands := by
  induction e generalizing inProduct with
  | wire w => rfl
  | const n => rfl
  | add a b iha ihb =>
    rw [Expr.tokensIn, operands_bracketed, List.filterMap_append, List.filterMap_cons, iha, ihb]
    rfl
  | sub a b iha ihb =>
    rw [Expr.tokensIn, operands_bracketed, List.filterMap_append, List.filterMap_cons, iha, ihb]
    rfl
  | mul a b iha ihb =>
    rw [Expr.tokensIn, List.filterMap_append, List.filterMap_cons, iha, ihb]
    rfl

/-- What an expression computes with is read from its text. -/
theorem operands_text {e : Expr} (h : e.Named) :
    (tokens (wordsOf e.text.toList)).filterMap Token.word? = e.operands := by
  rw [tokens_wordsOf, Expr.text, tokensOf_textIn h, operands_tokensIn]

end Source

/-! ### What a circuit's source owes -/

/-- The signals that the main template declares are put to use. -/
structure WellWired (c : Circuit) (s : Schema) : Prop where
  /-- Its outputs are the public signals, in order. -/
  outputs : (mainClauses c.code).filterMap Clause.output? = c.publicSignals.map (·.name)
  /-- Each of them is assigned once. -/
  assigned : ∀ signal ∈ c.publicSignals, ((mainClauses c.code).filterMap Clause.target?).count [signal.name] = 1
  /-- Every input is an operand. -/
  used : ∀ input ∈ inputs c.code, ∃ clause ∈ mainClauses c.code, input.1 ∈ clause.operands
  /-- What a statement about a claim brings goes into an output of that claim. -/
  directed : ∀ claim ∈ s.claims, ∀ operation ∈ (ofClaim claim).operations, ∃ out ∈ (ofClaim claim).outputs,
    ∃ clause ∈ mainClauses c.code, clause.target? = some [out.name] ∧ operation ∈ clause.operands

/-! ### Outputs -/

theorem outputs_code {s : Schema} {c : Circuit} (h : compile s = .ok c) :
    (mainClauses c.code).filterMap Clause.output? = c.publicSignals.map (·.name) := by
  have hclaims := flatMap_claims_eq_nil (f := Clause.output?) (Layout.named_unchecked s)
    fun claim line _ hof => by cases line <;> first | rfl | exact hof.elim
  have hsignals : c.publicSignals = (unchecked s).publicSignals := by
    rw [((compile_eq_ok_iff s c).1 h).1]
    rfl
  rw [filterMap_mainClauses _ h, filterMap_body rfl, hclaims, hsignals]
  simp [Layout.declarations, Layout.digestLines, Layout.coreLines, Line.reads, Line.clause,
    Clause.output?, List.filterMap_map, List.filterMap_cons, Function.comp_def]

/-! ### Assignments -/

theorem assigned?_signal {name : String} (h : IsName name) (value : Expr) :
    Line.reads Clause.assigned? (.assign (.signal name) value) = some name :=
  if_neg (h.spelled.not_mem (by decide))

theorem assigned?_component (name : String) (g : Gadget) :
    Line.reads Clause.assigned? (.component name g) = none :=
  rfl

theorem assigned?_pin (component name : String) (value : Expr) :
    Line.reads Clause.assigned? (.assign (.pin component name) value) = none :=
  if_pos (by simp [Wire.text, toString])

theorem assigned?_pinAt (component name : String) (i : Nat) (value : Expr) :
    Line.reads Clause.assigned? (.assign (.pinAt component name i) value) = none :=
  if_pos (by simp [Wire.text, toString])

/-- Lines that assign outputs, each to what goes with it. -/
theorem assigned_outputs {α : Type} {entries : List (α × PublicSignal)} (value : α × PublicSignal → Expr)
    (h : ∀ entry ∈ entries, IsName entry.2.name) :
    (entries.map fun entry => Line.assign (.signal entry.2.name) (value entry)).filterMap
        (Line.reads Clause.assigned?) = entries.map (·.2.name) := by
  rw [List.filterMap_map, ← List.filterMap_eq_map]
  exact List.filterMap_congr fun entry hentry => assigned?_signal (h entry hentry) _

namespace ClaimSignals

theorem ofClaim_property {c : Claim} {p : PropertyType} (h : c.type = .property p) : ofClaim c = ofProperty c p := by
  rw [ofClaim, h]

theorem ofClaim_boolean {c : Claim} (h : c.type = .boolean) : ofClaim c = ofBoolean c := by
  rw [ofClaim, h]

theorem length_operations (c : Claim) : (ofClaim c).operations.length = (ofClaim c).outputs.length := by
  unfold ofClaim
  split
  · split <;> rfl
  · simp [ofProperty]
  · rfl

theorem map_outputs_zip {s : ClaimSignals} (h : s.operations.length = s.outputs.length) :
    (s.operations.zip s.outputs).map (·.2.name) = s.outputs.map (·.name) := by
  conv_rhs => rw [← List.map_snd_zip (Nat.le_of_eq h.symm), List.map_map]
  rfl

theorem isName_zip {s : ClaimSignals} (h : s.Named) :
    ∀ entry ∈ s.operations.zip s.outputs, IsName entry.2.name :=
  fun _ hentry => h.outputs _ (List.of_mem_zip hentry).2

section

variable {s : ClaimSignals} (hnamed : s.Named) (hlength : s.operations.length = s.outputs.length)

include hnamed hlength

/-- The lines that pass the bounds of an integer on. -/
theorem assigned_bounds :
    ((s.operations.zip s.outputs).map fun (op, out) =>
      Line.assign (.signal out.name) (.signal op)).filterMap (Line.reads Clause.assigned?) =
        s.outputs.map (·.name) := by
  rw [← map_outputs_zip hlength]
  exact assigned_outputs (fun entry => Expr.signal entry.1) (isName_zip hnamed)

theorem assigned_wideLines : s.wideLines.filterMap (Line.reads Clause.assigned?) = s.outputs.map (·.name) := by
  rw [wideLines, List.filterMap_append, List.cons_append, List.filterMap_cons, assigned?_component,
    List.filterMap_append, assigned_bounds hnamed hlength]
  simp [List.filterMap_map, assigned?_pinAt]

theorem assigned_narrowLines (width : Nat) :
    (s.narrowLines width).filterMap (Line.reads Clause.assigned?) = s.outputs.map (·.name) := by
  rw [narrowLines, List.cons_append, List.filterMap_cons, assigned?_component, List.filterMap_append,
    assigned_bounds hnamed hlength]
  simp [List.filterMap_map, assigned?_pin]

theorem assigned_propertyLines {input : String} (hinputs : s.inputs = [input]) :
    s.propertyLines.filterMap (Line.reads Clause.assigned?) = s.outputs.map (·.name) := by
  have hcheck : ∀ entry ∈ (s.operations.zip s.outputs).zipIdx,
      (checkLines s.claim.name input entry.1.1 entry.1.2 entry.2).filterMap (Line.reads Clause.assigned?) =
        [entry.1.2.name] := by
    intro entry hentry
    have hout := isName_zip hnamed _ (List.fst_mem_of_mem_zipIdx hentry)
    simp only [checkLines, List.filterMap_cons, List.filterMap_nil, assigned?_component, assigned?_pinAt,
      assigned?_signal hout]
  have hindices : (s.operations.zip s.outputs).zipIdx.map (·.1.2.name) =
      (s.operations.zip s.outputs).map (·.2.name) := by
    conv_rhs => rw [← List.zipIdx_map_fst 0 (s.operations.zip s.outputs), List.map_map]
    rfl
  rw [propertyLines, hinputs, List.flatMap_singleton, List.filterMap_flatMap, List.flatMap_congr hcheck,
    ← List.map_eq_flatMap, hindices, map_outputs_zip hlength]

end

theorem assigned_booleanLines (c : Claim) :
    (ofBoolean c).booleanLines.filterMap (Line.reads Clause.assigned?) = (ofBoolean c).outputs.map (·.name) := by
  have hequate (left right : Expr) : Line.reads Clause.assigned? (.equate left right) = none := rfl
  have hout : IsName (PublicSignal.ofBits (outputName c.name) 2).name := (isName_claim c).outputName
  simp [booleanLines, ofBoolean, isBit, hequate, assigned?_signal hout]

/-- The lines of a claim assign its outputs. -/
theorem assigned_lines (c : Claim) :
    (ofClaim c).lines.filterMap (Line.reads Clause.assigned?) = (ofClaim c).outputs.map (·.name) := by
  have hcomment (text : String) : Line.reads Clause.assigned? (.comment text) = none := rfl
  have hnamed := named_ofClaim c
  have hlength := length_operations c
  rw [lines, List.filterMap_cons, hcomment, constraints, claim_ofClaim]
  cases htype : c.type with
  | integer width valid =>
    dsimp only
    split
    · exact assigned_wideLines hnamed hlength
    · exact assigned_narrowLines hnamed hlength width
  | property p =>
    have hinputs : (ofClaim c).inputs = [c.name] := by rw [ofClaim_property htype]; rfl
    exact assigned_propertyLines hnamed hlength hinputs
  | boolean =>
    rw [ofClaim_boolean htype]
    exact assigned_booleanLines c

end ClaimSignals

namespace Layout

theorem assigned_declarations (l : Layout) : l.declarations.filterMap (Line.reads Clause.assigned?) = [] := by
  simp [declarations, Line.reads, Line.clause, Clause.assigned?, List.filterMap_map, List.filterMap_cons,
    Function.comp_def]

theorem assigned_digestLines (l : Layout) : l.digestLines.filterMap (Line.reads Clause.assigned?) = [] := by
  rw [digestLines, List.filterMap_cons, assigned?_component]
  simp [List.filterMap_map, assigned?_pinAt]

theorem assigned_coreLines {l : Layout} (h : l.Named) :
    l.coreLines.filterMap (Line.reads Clause.assigned?) = l.intrinsicOutputs.map (·.name) := by
  have houtputs : (l.intrinsicOutputs.map fun signal =>
      Line.assign (.signal signal.name) (.wire (.pin "core" signal.name))).filterMap (Line.reads Clause.assigned?) =
        l.intrinsicOutputs.map (·.name) := by
    rw [List.filterMap_map, ← List.filterMap_eq_map]
    exact List.filterMap_congr fun signal hsignal =>
      assigned?_signal (h.publicSignals signal (List.mem_of_mem_take hsignal)) _
  rw [coreLines, List.cons_append, List.filterMap_cons, assigned?_component, List.filterMap_append, List.filterMap_cons,
    assigned?_pin, houtputs]
  simp [List.filterMap_map, assigned?_pin]

end Layout

/-- **The main template assigns the public signals, in order, and nothing else but pins.** -/
theorem assigned_code {s : Schema} {c : Circuit} (h : compile s = .ok c) :
    (mainClauses c.code).filterMap Clause.assigned? = c.publicSignals.map (·.name) := by
  have hnamed := Layout.named_unchecked s
  have hclaims : ((unchecked s).claims.flatMap fun signals => signals.lines.filterMap (Line.reads Clause.assigned?)) =
      s.claims.flatMap fun claim => (ofClaim claim).outputs.map (·.name) := by
    rw [unchecked, List.flatMap_map]
    simp only [ClaimSignals.assigned_lines]
  rw [filterMap_mainClauses _ h, filterMap_body rfl, hclaims, Layout.assigned_declarations,
    Layout.assigned_digestLines, Layout.assigned_coreLines hnamed, Layout.intrinsicOutputs_unchecked,
    signals_of_compile h, List.map_append, List.map_flatMap]
  rfl

/-- A signal is the target of one assignment for each time that it is assigned. -/
theorem count_targets {name : String} (h : '.' ∉ name.toList) (clauses : List Clause) :
    (clauses.filterMap Clause.target?).count [name] = (clauses.filterMap Clause.assigned?).count name := by
  rw [List.count_filterMap, List.count_filterMap]
  refine List.countP_congr fun clause _ => ?_
  -- They differ only where the target is a single word with a dot, and the name has none.
  rcases clause with _ | _ | _ | ⟨_ | ⟨target, _ | ⟨_, _⟩⟩, value⟩ | _ | _ <;>
    simp [Clause.target?, Clause.assigned?]
  rintro rfl
  exact h

theorem count_target_code {s : Schema} {c : Circuit} (h : compile s = .ok c) {signal : PublicSignal}
    (hsignal : signal ∈ c.publicSignals) :
    ((mainClauses c.code).filterMap Clause.target?).count [signal.name] = 1 := by
  have hname : IsName signal.name := by
    have hpublic := (Layout.named_unchecked s).publicSignals
    rw [((compile_eq_ok_iff s c).1 h).1] at hsignal
    exact hpublic signal hsignal
  rw [count_targets (hname.spelled.not_mem (by decide)), assigned_code h]
  exact List.count_eq_one_of_mem (distinct_of_compile h) (List.mem_map_of_mem hsignal)

/-! ### Operands of assignments -/

/-- What an expression computes with is an operand where it is assigned. -/
theorem mem_operands_assign {value : Expr} (h : value.Named) {word : String} (hword : word ∈ value.operands)
    (target : Wire) : word ∈ (Line.assign target value).clause.operands := by
  rwa [← operands_text h] at hword

/-- A signal that goes somewhere as it is. -/
theorem mem_operands_signal {name : String} (h : IsName name) (target : Wire) :
    name ∈ (Line.assign target (.signal name)).clause.operands := by
  have hnamed : (Expr.signal name).Named := h
  exact mem_operands_assign hnamed (List.mem_singleton_self name) target

theorem clause_mem_code {s : Schema} {c : Circuit} (h : compile s = .ok c) {line : Line}
    (hline : line ∈ (unchecked s).body) : line.clause ∈ mainClauses c.code := by
  rw [mainClauses_code h]
  exact List.mem_map_of_mem hline

namespace ClaimSignals

theorem exists_mem_zip {c : Claim} {operation : String} (h : operation ∈ (ofClaim c).operations) :
    ∃ out, (operation, out) ∈ (ofClaim c).operations.zip (ofClaim c).outputs := by
  rw [← List.map_fst_zip (Nat.le_of_eq (length_operations c))] at h
  obtain ⟨⟨_, out⟩, hmem, rfl⟩ := List.mem_map.1 h
  exact ⟨out, hmem⟩

/-- **A parameter of a statement goes into an output of the claim.** -/
theorem exists_assign_of_operation {c : Claim} {operation : String} (h : operation ∈ (ofClaim c).operations) :
    ∃ out ∈ (ofClaim c).outputs, ∃ value, .assign (.signal out.name) value ∈ (ofClaim c).lines ∧
      operation ∈ value.operands := by
  obtain ⟨out, hzip⟩ := exists_mem_zip h
  refine ⟨out, (List.of_mem_zip hzip).2, ?_⟩
  have hconstraints : (ofClaim c).constraints ⊆ (ofClaim c).lines := List.subset_cons_self ..
  have hself : operation ∈ (Expr.signal operation).operands := List.mem_singleton_self _
  cases htype : c.type with
  | integer width valid =>
    have hbound : Line.assign (.signal out.name) (.signal operation) ∈
        ((ofClaim c).operations.zip (ofClaim c).outputs).map fun (op, out) => .assign (.signal out.name) (.signal op) :=
      List.mem_map.2 ⟨_, hzip, rfl⟩
    refine ⟨.signal operation, hconstraints ?_, hself⟩
    rw [constraints, claim_ofClaim, htype]
    dsimp only
    split
    · exact List.mem_append_right _ hbound
    · exact List.mem_append_right _ hbound
  | property p =>
    have hinputs : (ofClaim c).inputs = [c.name] := by rw [ofClaim_property htype]; rfl
    obtain ⟨i, hi⟩ := List.mem_iff_getElem?.1 hzip
    refine ⟨.add (.mul (.signal operation) (.const 2)) (.wire (.pin (derived c.name s!"eq{i}") "out")),
      hconstraints ?_, List.mem_append_left _ (List.mem_append_left _ hself)⟩
    rw [constraints, claim_ofClaim, htype]
    dsimp only
    rw [propertyLines, hinputs, List.flatMap_singleton, claim_ofClaim]
    refine List.mem_flatMap.2 ⟨((operation, out), i), List.mem_zipIdx_iff_getElem?.2 hi, ?_⟩
    simp [checkLines]
  | boolean =>
    rw [ofClaim_boolean htype] at hzip
    obtain ⟨rfl, rfl⟩ := Prod.mk.inj (List.mem_singleton.1 hzip)
    have hfactor : derived c.name "hide" ∈ (Expr.sub (.const 1) (.signal (derived c.name "hide"))).operands :=
      List.mem_append_right _ hself
    refine ⟨.mul (.sub (.const 1) (.signal (derived c.name "hide")))
      (.add (.mul (.signal c.name) (.const 2)) (.const 1)), hconstraints ?_, List.mem_append_left _ hfactor⟩
    rw [constraints, claim_ofClaim, htype, ofClaim_boolean htype]
    exact List.mem_cons_of_mem _ (List.mem_cons_of_mem _ (List.mem_singleton_self _))

end ClaimSignals

/-! ### Inputs -/

namespace Layout

theorem mem_body_of_core {l : Layout} {line : Line} (h : line ∈ l.coreLines) : line ∈ l.body := by
  simp only [body, List.mem_append, List.mem_cons]
  exact .inl (.inr (.inr h))

theorem mem_body_of_digest {l : Layout} {line : Line} (h : line ∈ l.digestLines) : line ∈ l.body := by
  simp only [body, List.mem_append, List.mem_cons]
  exact .inl (.inl (.inr (.inr h)))

theorem mem_body_of_claim {l : Layout} {signals : ClaimSignals} (hsignals : signals ∈ l.claims) {line : Line}
    (h : line ∈ signals.lines) : line ∈ l.body :=
  List.mem_append_right _ (List.mem_flatMap.2 ⟨signals, hsignals, List.mem_cons_of_mem _ h⟩)

end Layout

section

variable {s : Schema} {c : Circuit} (h : compile s = .ok c)

include h

/-- An input of every circuit goes into the core. -/
theorem used_intrinsic {input : InputSignal} (hinput : input ∈ (unchecked s).intrinsicInputs) :
    ∃ clause ∈ mainClauses c.code, input.name ∈ clause.operands := by
  have hline : .assign (.pin "core" input.name) (.signal input.name) ∈ (unchecked s).coreLines :=
    List.mem_append_left _ (List.mem_cons_of_mem _ (List.mem_map_of_mem hinput))
  have hname := (Layout.named_unchecked s).intrinsicInputs input hinput
  exact ⟨_, clause_mem_code h (Layout.mem_body_of_core hline), mem_operands_signal hname _⟩

/-- A limb of a claim goes into the body digest. -/
theorem used_limb {name : String} (hinput : name ∈ (unchecked s).inputNames) :
    ∃ clause ∈ mainClauses c.code, name ∈ clause.operands := by
  obtain ⟨i, hi⟩ := List.mem_iff_getElem?.1 hinput
  have hline : .assign (.pinAt "body" "in" i) (.signal name) ∈ (unchecked s).digestLines :=
    List.mem_cons_of_mem _ (List.mem_map.2 ⟨(name, i), List.mem_zipIdx_iff_getElem?.2 hi, rfl⟩)
  have hname := Layout.isName_inputNames (Layout.named_unchecked s) name hinput
  exact ⟨_, clause_mem_code h (Layout.mem_body_of_digest hline), mem_operands_signal hname _⟩

theorem directed_code {claim : Claim} (hclaim : claim ∈ s.claims) {operation : String}
    (hoperation : operation ∈ (ofClaim claim).operations) :
    ∃ out ∈ (ofClaim claim).outputs, ∃ clause ∈ mainClauses c.code,
      clause.target? = some [out.name] ∧ operation ∈ clause.operands := by
  obtain ⟨out, hout, value, hline, hoperand⟩ := ClaimSignals.exists_assign_of_operation hoperation
  have hmem : ofClaim claim ∈ (unchecked s).claims := List.mem_map_of_mem hclaim
  have hnamed := ClaimSignals.named_lines (ClaimSignals.named_ofClaim claim) _ hline
  exact ⟨out, hout, _, clause_mem_code h (Layout.mem_body_of_claim hmem hline), rfl,
    mem_operands_assign hnamed.2 hoperand _⟩

theorem used_code {input : String × Option Nat} (hinput : input ∈ inputs c.code) :
    ∃ clause ∈ mainClauses c.code, input.1 ∈ clause.operands := by
  rw [inputs_code h, List.map_append, List.mem_append, List.mem_append] at hinput
  rcases hinput with hintrinsic | hlimb | hoperation
  · obtain ⟨input, hinput, rfl⟩ := List.mem_map.1 hintrinsic
    exact used_intrinsic h hinput
  · obtain ⟨name, hname, rfl⟩ := List.mem_map.1 hlimb
    exact used_limb h hname
  · obtain ⟨name, hname, rfl⟩ := List.mem_map.1 hoperation
    obtain ⟨signals, hsignals, hname⟩ := List.mem_flatMap.1 hname
    obtain ⟨claim, hclaim, rfl⟩ := List.mem_map.1 hsignals
    obtain ⟨_, _, clause, hclause, _, hoperand⟩ := directed_code h hclaim hname
    exact ⟨clause, hclause, hoperand⟩

/-- **Every signal of a compiled circuit is put to use.** -/
theorem wellWired_of_compile : c.WellWired s where
  outputs := outputs_code h
  assigned := fun _ => count_target_code h
  used := fun _ => used_code h
  directed := fun _ hclaim _ => directed_code h hclaim

end

theorem wellWired_of_compile_club : ∃ c, compile clubSchema = .ok c ∧ c.WellWired clubSchema :=
  ⟨_, compile_clubSchema, wellWired_of_compile compile_clubSchema⟩

end Vouch.Circuit

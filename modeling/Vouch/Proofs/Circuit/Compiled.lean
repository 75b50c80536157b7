import Mathlib.Data.List.Basic
import Vouch.Proofs.Circuit.Names
import Vouch.Proofs.Circuit.Written

/-! What the source of a compiled circuit says.

A compiled circuit is that of the layout of its schema, and its main template says what
the lines of that layout say (`mainClauses_code`). From this follow the inputs that it
declares (`inputs_code`), all identifiers that it declares (`identifiers_code`) and what
it feeds into the body digest (`digestInputs_code`). -/
namespace Vouch.Circuit

open ClaimSignals (derived ofClaim)
open Layout (unchecked)
open Source

theorem compile_eq_ok_iff (s : Schema) (c : Circuit) :
    compile s = .ok c ↔
      c = ofLayout (unchecked s) ∧ (unchecked s).names.Nodup ∧
        ((unchecked s).claimAggregations.map (·.destination)).Nodup ∧
        (unchecked s).publicSignals.length ≤ greatestSignalCount := by
  unfold compile
  rw [Result.bind_eq_ok_iff]
  constructor
  · intro ⟨l, hl, hc⟩
    obtain ⟨rfl, hrest⟩ := (Layout.ofSchema_eq_ok_iff s l).1 hl
    exact ⟨(Except.ok.inj hc).symm, hrest⟩
  · rintro ⟨rfl, hrest⟩
    exact ⟨_, (Layout.ofSchema_eq_ok_iff s _).2 ⟨rfl, hrest⟩, rfl⟩

theorem validWidth_byte : ValidWidth greatestIntegerWidth 8 := by decide

theorem validName_age : Claim.ValidName "age" := by
  unfold Claim.ValidName
  decide

/-- An age in years, with signatures that can be revoked. -/
def ageSchema : Schema where
  claims := [⟨"age", .integer 8 validWidth_byte, validName_age⟩]
  depth := some 2
  id := 0
  distinct := by decide
  validDepth := by decide

theorem compile_ageSchema : compile ageSchema = .ok (ofLayout (unchecked ageSchema)) :=
  (compile_eq_ok_iff _ _).2 ⟨rfl, by decide +kernel, by decide +kernel, by decide⟩

theorem code_of_compile {s : Schema} {c : Circuit} (h : compile s = .ok c) :
    c.code = (unchecked s).template.text := by
  rw [((compile_eq_ok_iff s c).1 h).1]
  rfl

theorem mainClauses_code {s : Schema} {c : Circuit} (h : compile s = .ok c) :
    mainClauses c.code = (unchecked s).body.map Line.clause := by
  rw [code_of_compile h]
  exact mainClauses_text (Layout.named_body (Layout.named_unchecked s))

theorem Layout.intrinsicOutputs_unchecked (s : Schema) :
    (unchecked s).intrinsicOutputs = (Intrinsic.ofRevocable s.isRevocable).map (·.signal) := by
  have hcount : (unchecked s).publicSignals.length - (unchecked s).outputs.length =
      ((Intrinsic.ofRevocable s.isRevocable).map (·.signal)).length := by
    rw [unchecked, List.length_append]
    exact Nat.add_sub_cancel ..
  rw [Layout.intrinsicOutputs, hcount]
  exact List.take_left' rfl

/-! ### The lines of a claim -/

def Wire.IsPinOf (component : String) : Wire → Prop
  | .signal _ => False
  | .pin other _ | .pinAt other _ _ => other = component

/-- A line that may stand for a claim: it declares no signal, and its components are the claim's. -/
def Line.IsOf (claim : String) : Line → Prop
  | .comment _ | .equate _ _ => True
  | .component name _ => ∃ ending, name = derived claim ending
  | .assign target _ =>
    ∀ component, target.IsPinOf component → ∃ ending, component = derived claim ending
  | .blank | .input _ _ | .output _ => False

namespace ClaimSignals

theorem isOf_assign_pin {claim ending name : String} {value : Expr} :
    (Line.assign (.pin (derived claim ending) name) value).IsOf claim :=
  fun _ h => ⟨ending, h.symm⟩

theorem isOf_assign_pinAt {claim ending name : String} {index : Nat} {value : Expr} :
    (Line.assign (.pinAt (derived claim ending) name index) value).IsOf claim :=
  fun _ h => ⟨ending, h.symm⟩

theorem isOf_assign_signal {claim name : String} {value : Expr} :
    (Line.assign (.signal name) value).IsOf claim :=
  fun _ h => h.elim

theorem isOf_wideLines (s : ClaimSignals) : ∀ line ∈ s.wideLines, line.IsOf s.claim.name := by
  simp only [wideLines, List.cons_append, List.forall_mem_cons, List.forall_mem_append,
    List.forall_mem_map]
  refine ⟨⟨"range", rfl⟩, ⟨?_, ?_⟩, ?_⟩
  · exact fun _ _ => isOf_assign_pinAt
  · exact fun _ _ => isOf_assign_pinAt
  · exact fun _ _ => isOf_assign_signal

theorem isOf_narrowLines (s : ClaimSignals) (width : Nat) :
    ∀ line ∈ s.narrowLines width, line.IsOf s.claim.name := by
  simp only [narrowLines, List.cons_append, List.forall_mem_cons, List.forall_mem_append,
    List.forall_mem_map]
  refine ⟨⟨"range", rfl⟩, ⟨?_, ?_⟩, ?_⟩
  · exact fun _ _ => isOf_assign_pin
  · exact fun _ _ => isOf_assign_pin
  · exact fun _ _ => isOf_assign_signal

theorem isOf_propertyLines (s : ClaimSignals) : ∀ line ∈ s.propertyLines, line.IsOf s.claim.name := by
  simp only [propertyLines, checkLines, List.forall_mem_flatMap, List.forall_mem_cons]
  intro _ _ _ _
  exact ⟨⟨_, rfl⟩, isOf_assign_pinAt, isOf_assign_pinAt, isOf_assign_signal, List.forall_mem_nil _⟩

theorem isOf_booleanLines (s : ClaimSignals) : ∀ line ∈ s.booleanLines, line.IsOf s.claim.name := by
  simp only [booleanLines, List.forall_mem_flatMap, List.forall_mem_cons]
  intro _ _
  exact ⟨trivial, trivial, isOf_assign_signal, List.forall_mem_nil _⟩

theorem isOf_lines (s : ClaimSignals) : ∀ line ∈ s.lines, line.IsOf s.claim.name := by
  unfold lines constraints
  refine List.forall_mem_cons.2 ⟨trivial, ?_⟩
  split
  · split
    · exact isOf_wideLines s
    · exact isOf_narrowLines s _
  · exact isOf_propertyLines s
  · exact isOf_booleanLines s

end ClaimSignals

/-! ### Readings -/

/-- What a reading of clauses finds in a line. -/
def Line.reads {α : Type} (f : Clause → Option α) (line : Line) : Option α :=
  f line.clause

theorem filterMap_mainClauses {α : Type} (f : Clause → Option α) {s : Schema} {c : Circuit}
    (h : compile s = .ok c) :
    (mainClauses c.code).filterMap f = (unchecked s).body.filterMap (Line.reads f) := by
  rw [mainClauses_code h, List.filterMap_map]
  rfl

/-- A reading of the body, part by part. -/
theorem filterMap_body {α : Type} {f : Clause → Option α} (hother : f .other = none) (l : Layout) :
    l.body.filterMap (Line.reads f) =
      l.declarations.filterMap (Line.reads f) ++ l.digestLines.filterMap (Line.reads f) ++
        l.coreLines.filterMap (Line.reads f) ++
        l.claims.flatMap fun s => s.lines.filterMap (Line.reads f) := by
  have hblank : Line.reads f .blank = none := hother
  simp only [Layout.body, List.filterMap_append, List.filterMap_cons, hblank, List.filterMap_flatMap]

/-- A reading that passes over whatever may stand for a claim finds nothing in the claims. -/
theorem flatMap_claims_eq_nil {α : Type} {f : Clause → Option α} {l : Layout} (hnamed : l.Named)
    (h : ∀ claim, ∀ line : Line, line.Named → line.IsOf claim → Line.reads f line = none) :
    (l.claims.flatMap fun s => s.lines.filterMap (Line.reads f)) = [] := by
  refine List.flatMap_eq_nil_iff.2 fun s hs => List.filterMap_eq_nil_iff.2 fun line hline => ?_
  exact h s.claim.name line (ClaimSignals.named_lines (hnamed.claims s hs) line hline)
    (ClaimSignals.isOf_lines s line hline)

/-! ### Inputs -/

theorem inputs_body {l : Layout} (hnamed : l.Named) :
    l.body.filterMap (Line.reads Clause.input?) =
      l.intrinsicInputs.map (fun input => (input.name, input.length)) ++
        (l.inputNames ++ l.operationNames).map (·, none) := by
  have hclaims := flatMap_claims_eq_nil (f := Clause.input?) hnamed
    fun claim line _ hof => by cases line <;> first | rfl | exact hof.elim
  rw [filterMap_body rfl, hclaims]
  simp [Layout.declarations, Layout.digestLines, Layout.coreLines, Line.reads, Line.clause,
    Clause.input?, List.filterMap_map, List.filterMap_cons, Function.comp_def]

theorem inputs_code {s : Schema} {c : Circuit} (h : compile s = .ok c) :
    inputs c.code =
      (unchecked s).intrinsicInputs.map (fun input => (input.name, input.length)) ++
        ((unchecked s).inputNames ++ (unchecked s).operationNames).map (·, none) := by
  have hnamed := Layout.named_unchecked s
  rw [code_of_compile h, inputs, clauses_text (Layout.named_body hnamed), List.filterMap_append,
    List.filterMap_append, List.filterMap_map, ← inputs_body hnamed]
  exact List.append_nil _

/-! ### Identifiers -/

/-- The components of a claim: a range check, or one comparison for each constant. -/
def componentsOf (c : Claim) : List String :=
  match c.type with
  | .integer .. => [derived c.name "range"]
  | .property p => (List.range p.checks).map fun i => derived c.name s!"eq{i}"
  | .boolean => []

/-- The components of a schema's circuit. -/
def componentNames (s : Schema) : List String :=
  "body" :: "core" :: s.claims.flatMap componentsOf

namespace ClaimSignals

theorem identifiers_wideLines (s : ClaimSignals) :
    s.wideLines.filterMap (Line.reads Clause.identifier?) = [derived s.claim.name "range"] := by
  simp [wideLines, Line.reads, Line.clause, Clause.identifier?, List.filterMap_map, Function.comp_def]

theorem identifiers_narrowLines (s : ClaimSignals) (width : Nat) :
    (s.narrowLines width).filterMap (Line.reads Clause.identifier?) =
      [derived s.claim.name "range"] := by
  simp [narrowLines, Line.reads, Line.clause, Clause.identifier?, List.filterMap_map, Function.comp_def]

theorem identifiers_checkLines (claim input op : String) (out : PublicSignal) (i : Nat) :
    (checkLines claim input op out i).filterMap (Line.reads Clause.identifier?) =
      [derived claim s!"eq{i}"] :=
  rfl

theorem identifiers_ofProperty (c : Claim) (p : PropertyType) :
    (ofProperty c p).propertyLines.filterMap (Line.reads Clause.identifier?) =
      (List.range p.checks).map fun i => derived c.name s!"eq{i}" := by
  have hzip : ((ofProperty c p).operations.zip (ofProperty c p).outputs).length = p.checks := by
    simp [ofProperty]
  have hindices : List.range p.checks =
      ((ofProperty c p).operations.zip (ofProperty c p).outputs).zipIdx.map Prod.snd := by
    rw [List.zipIdx_map_snd, List.range_eq_range', hzip]
  have hinputs : (ofProperty c p).inputs = [c.name] := rfl
  rw [propertyLines, hinputs, List.flatMap_singleton, List.filterMap_flatMap, hindices, List.map_map,
    List.map_eq_flatMap]
  exact List.flatMap_congr fun _ _ => identifiers_checkLines ..

theorem identifiers_booleanLines (s : ClaimSignals) :
    s.booleanLines.filterMap (Line.reads Clause.identifier?) = [] := by
  refine List.filterMap_eq_nil_iff.2 (List.forall_mem_flatMap.2 fun _ _ => ?_)
  simp [isBit, Line.reads, Line.clause, Clause.identifier?]

@[simp] theorem claim_ofClaim (c : Claim) : (ofClaim c).claim = c := by
  unfold ofClaim
  split
  · split <;> rfl
  · rfl
  · rfl

theorem identifiers_lines (c : Claim) :
    (ofClaim c).lines.filterMap (Line.reads Clause.identifier?) = componentsOf c := by
  have hcomment (text : String) : Line.reads Clause.identifier? (.comment text) = none := rfl
  rw [lines, List.filterMap_cons, hcomment, constraints, claim_ofClaim, componentsOf]
  cases htype : c.type with
  | integer width valid =>
    dsimp only
    split
    · rw [identifiers_wideLines, claim_ofClaim]
    · rw [identifiers_narrowLines, claim_ofClaim]
  | property p =>
    dsimp only
    rw [← identifiers_ofProperty, ofClaim, htype]
  | boolean => exact identifiers_booleanLines _

end ClaimSignals

theorem identifiers_code {s : Schema} {c : Circuit} (h : compile s = .ok c) :
    identifiers c.code = (unchecked s).names ++ componentNames s := by
  have hclaims : ((unchecked s).claims.flatMap fun s =>
      s.lines.filterMap (Line.reads Clause.identifier?)) = s.claims.flatMap componentsOf := by
    rw [unchecked, List.flatMap_map]
    simp only [ClaimSignals.identifiers_lines]
  rw [identifiers, filterMap_mainClauses _ h, filterMap_body rfl, hclaims]
  simp [Layout.declarations, Layout.digestLines, Layout.coreLines, Line.reads, Line.clause,
    Clause.identifier?, List.filterMap_map, List.filterMap_cons, List.filterMap_none, Function.comp_def,
    Layout.names, componentNames]

/-! ### The body digest -/

theorem derived_ne_body (n e : String) : derived n e ≠ "body" := by
  intro he
  have hmark : '_' ∈ (derived n e).toList := by simp [derived_eq]
  rw [he] at hmark
  revert hmark
  decide

theorem gadgetOf?_of_isOf {claim : String} {line : Line} (h : line.IsOf claim) :
    Line.reads (Clause.gadgetOf? "body") line = none := by
  cases line with
  | component name gadget =>
    obtain ⟨ending, rfl⟩ := h
    exact if_neg (derived_ne_body claim ending)
  | _ => rfl

theorem gadgets_code {s : Schema} {c : Circuit} (h : compile s = .ok c) :
    (mainClauses c.code).filterMap (Clause.gadgetOf? "body") =
      [s!"BodyHash({(unchecked s).inputNames.length})"] := by
  have hclaims := flatMap_claims_eq_nil (f := Clause.gadgetOf? "body") (Layout.named_unchecked s)
    fun _ _ _ hof => gadgetOf?_of_isOf hof
  have hbody (gadget : String) : Clause.gadgetOf? "body" (.component "body" gadget) = some gadget := by
    rw [Clause.gadgetOf?, if_pos rfl]
  have hcore (gadget : String) : Clause.gadgetOf? "body" (.component "core" gadget) = none := by
    rw [Clause.gadgetOf?, if_neg (by decide)]
  have hassign (target value : List String) :
      Clause.gadgetOf? "body" (.assign target value) = none := rfl
  have hinput (name : String) (length : Option Nat) :
      Clause.gadgetOf? "body" (.input name length) = none := rfl
  have houtput (name : String) : Clause.gadgetOf? "body" (.output name) = none := rfl
  rw [filterMap_mainClauses _ h, filterMap_body rfl, hclaims]
  simp only [Layout.declarations, Layout.digestLines, Layout.coreLines, Line.reads, Line.clause,
    List.filterMap_append, List.filterMap_map, List.filterMap_cons, List.filterMap_none,
    Function.comp_def, hbody, hcore, hassign, hinput, houtput]
  rfl

/-- Before the dot of a pin stands its component. -/
theorem takeWhile_dot {component : String} (h : IsName component) (pin : List Char) :
    (component.toList ++ '.' :: pin).takeWhile (· != '.') = component.toList :=
  takeWhile_bne (h.spelled.not_mem (by decide)) pin

theorem isPinOf_body {w : Wire} (hnamed : w.Named)
    (h : "body.in[".toList.isPrefixOf w.text.toList = true) : w.IsPinOf "body" := by
  obtain ⟨rest, hrest⟩ := List.isPrefixOf_iff_prefix.1 h
  have hdot : '.' ∉ "body".toList := by decide
  have hbody : w.text.toList.takeWhile (· != '.') = "body".toList := by
    rw [← hrest]
    exact takeWhile_bne hdot ("in[".toList ++ rest)
  cases w with
  | signal name =>
    have hnot : '.' ∉ name.toList := IsName.spelled hnamed |>.not_mem (by decide)
    have hmem : '.' ∈ name.toList := by
      rw [show name.toList = _ from hrest.symm]
      simp
    exact hnot hmem
  | pin component name =>
    have htext : (Wire.pin component name).text.toList = component.toList ++ '.' :: name.toList := by
      simp [Wire.text, toString]
    rw [htext, takeWhile_dot hnamed.1] at hbody
    exact String.toList_inj.1 hbody
  | pinAt component name index =>
    have htext : (Wire.pinAt component name index).text.toList =
        component.toList ++ '.' :: (name ++ "[" ++ index.repr ++ "]").toList := by
      simp [Wire.text, toString]
    rw [htext, takeWhile_dot hnamed.1] at hbody
    exact String.toList_inj.1 hbody

theorem assignedUnder?_eq_none {start target : String}
    (h : ¬ start.toList.isPrefixOf target.toList = true) (value : List String) :
    Clause.assignedUnder? start (.assign [target] value) = none := by
  rcases value with _ | ⟨v, _ | ⟨v', vs⟩⟩
  · rfl
  · exact if_neg h
  · rfl

/-- What is assigned to a wire that is no pin of the body digest does not go into it. -/
theorem assignedUnder?_assign {target : Wire} {value : Expr} (hnamed : target.Named)
    (h : ¬ target.IsPinOf "body") :
    Line.reads (Clause.assignedUnder? "body.in[") (.assign target value) = none :=
  assignedUnder?_eq_none (fun hstart => h (isPinOf_body hnamed hstart)) _

theorem assignedUnder?_of_isOf {claim : String} {line : Line} (hnamed : line.Named)
    (h : line.IsOf claim) : Line.reads (Clause.assignedUnder? "body.in[") line = none := by
  cases line with
  | assign target value =>
    refine assignedUnder?_assign hnamed.1 fun hbody => ?_
    obtain ⟨ending, he⟩ := h "body" hbody
    exact derived_ne_body claim ending he.symm
  | _ => rfl

theorem assignedUnder?_limb {name : String} (h : IsName name) (i : Nat) :
    Line.reads (Clause.assignedUnder? "body.in[") (.assign (.pinAt "body" "in" i) (.signal name)) =
      some (s!"body.in[{i}]", name) := by
  have hvalue : wordsOf (Expr.signal name).text.toList = [name] := wordsOf_name h
  have htext : (Wire.pinAt "body" "in" i).text = "body.in[" ++ (i.repr ++ "]") := by
    simp [Wire.text, toString, ← String.toList_inj]
  have hstart : "body.in[".toList.isPrefixOf ("body.in[" ++ (i.repr ++ "]")).toList = true := by
    rw [String.toList_append]
    exact List.isPrefixOf_iff_prefix.2 (List.prefix_append _ _)
  rw [Line.reads, Line.clause, hvalue, htext]
  refine (if_pos hstart).trans ?_
  rw [← String.append_assoc]
  rfl

theorem assignments_declarations (start : String) (l : Layout) :
    l.declarations.filterMap (Line.reads (Clause.assignedUnder? start)) = [] := by
  simp [Layout.declarations, Line.reads, Line.clause, Clause.assignedUnder?, List.filterMap_map,
    List.filterMap_cons, List.filterMap_none, Function.comp_def]

theorem assignments_digestLines {l : Layout} (h : l.Named) :
    l.digestLines.filterMap (Line.reads (Clause.assignedUnder? "body.in[")) =
      l.inputNames.zipIdx.map fun (name, i) => (s!"body.in[{i}]", name) := by
  have hcomponent (g : Gadget) :
      Line.reads (Clause.assignedUnder? "body.in[") (.component "body" g) = none := rfl
  rw [Layout.digestLines, List.filterMap_cons, hcomponent, List.filterMap_map, ← List.filterMap_eq_map]
  apply List.filterMap_congr
  intro entry hentry
  cases entry with
  | mk name i =>
    exact assignedUnder?_limb (Layout.isName_inputNames h name (List.fst_mem_of_mem_zipIdx hentry)) i

theorem assignments_coreLines {l : Layout} (h : l.Named) :
    l.coreLines.filterMap (Line.reads (Clause.assignedUnder? "body.in[")) = [] := by
  have hne : "core" ≠ "body" := by decide
  have hcore : ∀ line ∈ l.coreLines, ∀ target value, line = .assign target value →
      ¬ target.IsPinOf "body" := by
    simp only [Layout.coreLines, List.forall_mem_append, List.forall_mem_cons, List.forall_mem_map]
    refine ⟨⟨?_, ?_⟩, ?_, ?_⟩
    · intro target value h
      cases h
    · intro input _ target value h
      cases h
      exact hne
    · intro target value h
      cases h
      exact hne
    · intro signal _ target value h
      cases h
      exact id
  refine List.filterMap_eq_nil_iff.2 fun line hline => ?_
  cases line with
  | assign target value =>
    exact assignedUnder?_assign (Layout.named_coreLines h _ hline).1 (hcore _ hline target value rfl)
  | _ => rfl

/-- What goes into the body digest: the inputs of the claims, in order. -/
theorem digestInputs_code {s : Schema} {c : Circuit} (h : compile s = .ok c) :
    (mainClauses c.code).filterMap (Clause.assignedUnder? "body.in[") =
      (unchecked s).inputNames.zipIdx.map fun (name, i) => (s!"body.in[{i}]", name) := by
  have hnamed := Layout.named_unchecked s
  have hclaims := flatMap_claims_eq_nil (f := Clause.assignedUnder? "body.in[") hnamed
    fun _ _ hline hof => assignedUnder?_of_isOf hline hof
  rw [filterMap_mainClauses _ h, filterMap_body rfl, hclaims, assignments_declarations,
    assignments_digestLines hnamed, assignments_coreLines hnamed, List.append_nil, List.append_nil,
    List.nil_append]

end Vouch.Circuit

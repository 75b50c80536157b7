import Vouch.Circuit
import Vouch.Proofs.Circuit.Spelling

/-! The names in a schema's template.

Claims have identifiers as names, and what is derived from an identifier is one again.
So the lines of the template of any schema are `Named`, whether or not its layout passes
the checks. -/
namespace Vouch.Circuit

open ClaimSignals (derived outputName)

/-! ### Derived names -/

theorem derived_eq (n e : String) : derived n e = n ++ "_" ++ e := by
  simp [derived, toString]

theorem outputName_eq (n : String) : outputName n = "out_" ++ n := by
  simp [outputName, toString]

theorem IsName.append {name rest : String} (h : IsName name) (hrest : Spelled Claim.isNameRest rest) :
    IsName (name ++ rest) := by
  unfold IsName Claim.isIdentifier at h ⊢
  rw [String.toList_append]
  cases hname : name.toList with
  | nil => simp [hname] at h
  | cons c cs =>
    simp only [hname, Bool.and_eq_true, List.all_eq_true] at h
    simp only [List.cons_append, Bool.and_eq_true, List.all_eq_true, List.mem_append, or_imp,
      forall_and]
    exact ⟨h.1, h.2, hrest⟩

theorem IsName.derived {name ending : String} (h : IsName name)
    (hending : Spelled Claim.isNameRest ending) : IsName (derived name ending) := by
  rw [derived_eq]
  exact (h.append (by decide)).append hending

theorem IsName.outputName {name : String} (h : IsName name) : IsName (outputName name) := by
  have hout : IsName "out_" := by decide
  rw [outputName_eq]
  exact hout.append h.spelled

/-- An ending with a number behind it. -/
theorem spelled_numbered {start : String} (h : Spelled Claim.isNameRest start) (i : Nat) :
    Spelled Claim.isNameRest (start ++ toString i) :=
  spelled_append.2 ⟨h, (spelled_repr i).mono fun c hc => by simp [Claim.isNameRest, hc]⟩

/-! ### Claims -/

theorem isName_claim (c : Claim) : IsName c.name :=
  c.validName.1

namespace ClaimSignals

/-- The names of a claim's signals are identifiers. -/
structure Named (s : ClaimSignals) : Prop where
  claim : IsName s.claim.name
  inputs : ∀ name ∈ s.inputs, IsName name
  operations : ∀ name ∈ s.operations, IsName name
  outputs : ∀ out ∈ s.outputs, IsName out.name

theorem named_ofWide (c : Claim) : (ofWide c).Named := by
  have hname := isName_claim c
  refine ⟨hname, ?_, ?_, ?_⟩
  · simp only [ofWide, List.forall_mem_cons]
    exact ⟨hname.derived (by decide), hname.derived (by decide), nofun⟩
  · simp only [ofWide, List.forall_mem_cons]
    exact ⟨hname.derived (by decide), hname.derived (by decide), hname.derived (by decide),
      hname.derived (by decide), nofun⟩
  · simp only [ofWide, List.forall_mem_cons]
    exact ⟨(hname.derived (by decide)).outputName, (hname.derived (by decide)).outputName,
      (hname.derived (by decide)).outputName, (hname.derived (by decide)).outputName, nofun⟩

theorem named_ofNarrow (c : Claim) (width : Nat) : (ofNarrow c width).Named := by
  have hname := isName_claim c
  refine ⟨hname, ?_, ?_, ?_⟩
  · simpa [ofNarrow] using hname
  · simp only [ofNarrow, List.forall_mem_cons]
    exact ⟨hname.derived (by decide), hname.derived (by decide), nofun⟩
  · simp only [ofNarrow, List.forall_mem_cons]
    exact ⟨(hname.derived (by decide)).outputName, (hname.derived (by decide)).outputName, nofun⟩

theorem named_ofProperty (c : Claim) (p : PropertyType) : (ofProperty c p).Named := by
  have hname := isName_claim c
  have hops : ∀ op ∈ (ofProperty c p).operations, IsName op := by
    intro op hop
    obtain ⟨i, -, rfl⟩ := List.mem_map.1 hop
    exact hname.derived (spelled_numbered (by decide) i)
  refine ⟨hname, by simpa [ofProperty] using hname, hops, ?_⟩
  intro out hout
  obtain ⟨op, hop, rfl⟩ := List.mem_map.1 hout
  exact (hops op hop).outputName

theorem named_ofBoolean (c : Claim) : (ofBoolean c).Named := by
  have hname := isName_claim c
  refine ⟨hname, ?_, ?_, ?_⟩
  · simpa [ofBoolean] using hname
  · simpa [ofBoolean] using hname.derived (by decide)
  · simpa [ofBoolean, PublicSignal.ofBits] using hname.outputName

theorem named_ofClaim (c : Claim) : (ofClaim c).Named := by
  unfold ofClaim
  split
  · split
    · exact named_ofWide c
    · exact named_ofNarrow c _
  · exact named_ofProperty c _
  · exact named_ofBoolean c

/-! ### The lines of a claim -/

theorem named_wideLines {s : ClaimSignals} (h : s.Named) : ∀ line ∈ s.wideLines, line.Named := by
  have hrange : IsName (derived s.claim.name "range") := h.claim.derived (by decide)
  have hvalue : IsName "value" := by decide
  have hbounds : IsName "bounds" := by decide
  simp only [wideLines, List.cons_append, List.forall_mem_cons, List.forall_mem_append,
    List.forall_mem_map]
  refine ⟨hrange, ⟨?_, ?_⟩, ?_⟩
  · intro ⟨input, i⟩ hi
    exact ⟨⟨hrange, hvalue⟩, h.inputs input (List.fst_mem_of_mem_zipIdx hi)⟩
  · intro ⟨op, i⟩ hi
    exact ⟨⟨hrange, hbounds⟩, h.operations op (List.fst_mem_of_mem_zipIdx hi)⟩
  · intro ⟨op, out⟩ hout
    exact ⟨h.outputs out (List.of_mem_zip hout).2, h.operations op (List.of_mem_zip hout).1⟩

theorem named_narrowLines {s : ClaimSignals} (h : s.Named) (width : Nat) :
    ∀ line ∈ s.narrowLines width, line.Named := by
  have hrange : IsName (derived s.claim.name "range") := h.claim.derived (by decide)
  have hpins : ∀ pin ∈ ["value", "lb", "ub"], IsName pin := by decide
  simp only [narrowLines, List.cons_append, List.forall_mem_cons, List.forall_mem_append,
    List.forall_mem_map]
  refine ⟨hrange, ⟨?_, ?_⟩, ?_⟩
  · intro ⟨pin, name⟩ hpin
    have ⟨hp, hn⟩ := List.of_mem_zip hpin
    exact ⟨⟨hrange, hpins pin (by simp_all)⟩, h.inputs name hn⟩
  · intro ⟨pin, name⟩ hpin
    have ⟨hp, hn⟩ := List.of_mem_zip hpin
    exact ⟨⟨hrange, hpins pin (List.mem_cons_of_mem _ hp)⟩, h.operations name hn⟩
  · intro ⟨op, out⟩ hout
    exact ⟨h.outputs out (List.of_mem_zip hout).2, h.operations op (List.of_mem_zip hout).1⟩

theorem named_checkLines {claim input op : String} {out : PublicSignal} (hclaim : IsName claim)
    (hinput : IsName input) (hop : IsName op) (hout : IsName out.name) (i : Nat) :
    ∀ line ∈ checkLines claim input op out i, line.Named := by
  have heq : IsName (derived claim s!"eq{i}") := hclaim.derived (spelled_numbered (by decide) i)
  have hin : IsName "in" := by decide
  have hpin : IsName "out" := by decide
  simp only [checkLines, List.forall_mem_cons]
  exact ⟨heq, ⟨⟨heq, hin⟩, hinput⟩, ⟨⟨heq, hin⟩, hop⟩, ⟨hout, ⟨hop, trivial⟩, heq, hpin⟩, nofun⟩

theorem named_propertyLines {s : ClaimSignals} (h : s.Named) :
    ∀ line ∈ s.propertyLines, line.Named := by
  simp only [propertyLines, List.forall_mem_flatMap]
  intro input hinput ⟨⟨op, out⟩, i⟩ hi
  have ⟨hop, hout⟩ := List.of_mem_zip (List.fst_mem_of_mem_zipIdx hi)
  exact named_checkLines h.claim (h.inputs input hinput) (h.operations op hop) (h.outputs out hout) i

theorem named_isBit {name : String} (h : IsName name) : (isBit name).Named :=
  ⟨⟨h, h, trivial⟩, trivial⟩

theorem named_booleanLines {s : ClaimSignals} (h : s.Named) : ∀ line ∈ s.booleanLines, line.Named := by
  simp only [booleanLines, List.forall_mem_flatMap, List.forall_mem_cons]
  intro ⟨input, hide, out⟩ hzip
  have ⟨hinput, hrest⟩ := List.of_mem_zip hzip
  have ⟨hhide, hout⟩ := List.of_mem_zip hrest
  exact ⟨named_isBit (h.inputs input hinput), named_isBit (h.operations hide hhide),
    ⟨h.outputs out hout, ⟨trivial, h.operations hide hhide⟩, ⟨h.inputs input hinput, trivial⟩, trivial⟩,
    nofun⟩

theorem newline_not_mem_text (t : ClaimType) : '\n' ∉ t.text.toList := by
  cases t with
  | integer width _ => simp [ClaimType.text, toString, newline_not_mem_toDigits]
  | property p =>
    have hhash : '\n' ∉ p.hash.name.toList := by cases p.hash <;> decide
    simp [ClaimType.text, toString, newline_not_mem_toDigits, hhash]
  | boolean => decide

theorem named_lines {s : ClaimSignals} (h : s.Named) : ∀ line ∈ s.lines, line.Named := by
  have hcomment : (Line.comment s!"{s.claim.name}: {s.claim.type.text}").Named := by
    have hname := h.claim.spelled.not_mem (c := '\n') (by decide)
    simp [Line.Named, toString, hname, newline_not_mem_text]
  unfold lines constraints
  refine List.forall_mem_cons.2 ⟨hcomment, ?_⟩
  split
  · split
    · exact named_wideLines h
    · exact named_narrowLines h _
  · exact named_propertyLines h
  · exact named_booleanLines h

end ClaimSignals

/-! ### The whole body -/

theorem isName_fixedInputs : ∀ input ∈ fixedInputs, IsName input.name := by
  decide

theorem isName_intrinsicInputs (depth : Option Nat) :
    ∀ input ∈ intrinsicInputs depth, IsName input.name := by
  cases depth with
  | none => exact isName_fixedInputs
  | some depth =>
    have hrevocation : ∀ input ∈ revocationInputs depth, IsName input.name := by
      simp only [revocationInputs, List.forall_mem_cons]
      exact ⟨by decide, by decide, by decide, by decide, by decide, by decide, nofun⟩
    exact List.forall_mem_append.2 ⟨isName_fixedInputs, hrevocation⟩

theorem isName_intrinsic (i : Intrinsic) : IsName i.signal.name := by
  cases i <;> decide

namespace Layout

/-- All names of the layout are identifiers. -/
structure Named (l : Layout) : Prop where
  intrinsicInputs : ∀ input ∈ l.intrinsicInputs, IsName input.name
  claims : ∀ s ∈ l.claims, s.Named
  publicSignals : ∀ signal ∈ l.publicSignals, IsName signal.name

theorem named_unchecked (s : Schema) : (unchecked s).Named := by
  have hclaims : ∀ c ∈ (unchecked s).claims, c.Named :=
    List.forall_mem_map.2 fun c _ => ClaimSignals.named_ofClaim c
  refine ⟨isName_intrinsicInputs s.depth, hclaims, List.forall_mem_append.2 ⟨?_, ?_⟩⟩
  · exact List.forall_mem_map.2 fun i _ => isName_intrinsic i
  · exact List.forall_mem_flatMap.2 fun c hc => (hclaims c hc).outputs

theorem isName_inputNames {l : Layout} (h : l.Named) : ∀ name ∈ l.inputNames, IsName name :=
  List.forall_mem_flatMap.2 fun s hs => (h.claims s hs).inputs

theorem isName_operationNames {l : Layout} (h : l.Named) : ∀ name ∈ l.operationNames, IsName name :=
  List.forall_mem_flatMap.2 fun s hs => (h.claims s hs).operations

theorem named_declarations {l : Layout} (h : l.Named) : ∀ line ∈ l.declarations, line.Named := by
  simp only [declarations, List.forall_mem_append, List.forall_mem_cons, List.forall_mem_map]
  exact ⟨⟨⟨h.intrinsicInputs, trivial, isName_inputNames h⟩, isName_operationNames h⟩, trivial,
    h.publicSignals⟩

theorem named_digestLines {l : Layout} (h : l.Named) : ∀ line ∈ l.digestLines, line.Named := by
  have hbody : IsName "body" := by decide
  have hin : IsName "in" := by decide
  simp only [digestLines, List.forall_mem_cons, List.forall_mem_map]
  refine ⟨hbody, ?_⟩
  intro ⟨name, i⟩ hi
  exact ⟨⟨hbody, hin⟩, isName_inputNames h name (List.fst_mem_of_mem_zipIdx hi)⟩

theorem named_coreLines {l : Layout} (h : l.Named) : ∀ line ∈ l.coreLines, line.Named := by
  have hcore : IsName "core" := by decide
  simp only [coreLines, List.cons_append, List.forall_mem_cons, List.forall_mem_append,
    List.forall_mem_map]
  refine ⟨hcore, ?_, ?_, ?_⟩
  · exact fun input hinput => ⟨⟨hcore, h.intrinsicInputs input hinput⟩, h.intrinsicInputs input hinput⟩
  · exact ⟨⟨hcore, by decide⟩, by decide, by decide⟩
  · intro signal hsignal
    have hname := h.publicSignals signal (List.mem_of_mem_take hsignal)
    exact ⟨hname, hcore, hname⟩

theorem named_body {l : Layout} (h : l.Named) : ∀ line ∈ l.body, line.Named := by
  simp only [body, List.forall_mem_append, List.forall_mem_cons, List.forall_mem_flatMap]
  refine ⟨⟨⟨named_declarations h, trivial, named_digestLines h⟩, trivial, named_coreLines h⟩, ?_⟩
  exact fun s hs => ⟨trivial, ClaimSignals.named_lines (h.claims s hs)⟩

end Layout

end Vouch.Circuit

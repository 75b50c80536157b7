import Vouch.Proofs.Aligned
import Vouch.Proofs.Circuit.Evaluation
import Vouch.Proofs.Circuit.Identifiers
import Vouch.Proofs.Circuit.Signals

/-! The constraints of one claim.

A valuation carries a value and a statement if the inputs and the operations of the claim
have the limbs and the operands. The lines of the claim then leave no choice: its outputs
and the pins of its components are determined, wire by wire, and apart from that the lines
only say that the statement admits the value (`carries_and_satisfied_iff`). Nothing wraps
on the way, since every integer that is read or disclosed is below the order of the field. -/
namespace Vouch

theorem limbs_lt (v : ClaimValue) : ∀ n ∈ v.limbs, n < fieldOrder := by
  cases v with
  | integer i =>
    by_cases hwidth : i.width = greatestIntegerWidth
    · have ⟨hhigh, hlow⟩ := Field.split_lt (hwidth ▸ i.fits)
      rw [ClaimValue.limbs, if_pos hwidth, List.forall_mem_cons, List.forall_mem_singleton]
      exact ⟨Field.lt_fieldOrder hhigh (by decide), Field.lt_fieldOrder hlow (by decide)⟩
    · have hle := i.validWidth.le_of_ne hwidth
      rw [ClaimValue.limbs, if_neg hwidth, List.forall_mem_singleton]
      exact Field.lt_fieldOrder i.fits (Nat.le_succ_of_le hle)
  | property p =>
    have hle := Nat.le_succ_of_le p.type.validWidth.2.1
    exact List.forall_mem_singleton.2 (Field.lt_fieldOrder p.fits hle)
  | boolean b =>
    have hbit : b.toNat < 2 ^ 1 := b.toNat_lt
    exact List.forall_mem_singleton.2 (Field.lt_fieldOrder hbit (by decide))

theorem operands_lt {t : Statement} {v : ClaimValue} (h : t.Concerns v) :
    ∀ n ∈ t.operands, n < fieldOrder := by
  cases h with
  | @range r i width =>
    have hlower := Nat.lt_of_le_of_lt r.ordered r.fits
    by_cases hwidth : r.width = greatestIntegerWidth
    · obtain ⟨hlowerHigh, hlowerLow⟩ := Field.split_lt (hwidth ▸ hlower)
      obtain ⟨hupperHigh, hupperLow⟩ := Field.split_lt (hwidth ▸ r.fits)
      rw [Statement.operands, if_pos hwidth]
      simp only [List.forall_mem_cons]
      exact ⟨Field.lt_fieldOrder hlowerHigh (by decide), Field.lt_fieldOrder hlowerLow (by decide),
        Field.lt_fieldOrder hupperHigh (by decide), Field.lt_fieldOrder hupperLow (by decide),
        List.forall_mem_nil _⟩
    · have hle := (width ▸ i.validWidth).le_of_ne hwidth
      rw [Statement.operands, if_neg hwidth, List.forall_mem_cons, List.forall_mem_singleton]
      exact ⟨Field.lt_fieldOrder hlower (Nat.le_succ_of_le hle),
        Field.lt_fieldOrder r.fits (Nat.le_succ_of_le hle)⟩
  | @equality e p type =>
    have hle := Nat.le_succ_of_le e.type.validWidth.2.1
    exact fun k hk => Field.lt_fieldOrder (e.fit k hk) hle
  | reveal shown b =>
    have hbit : (!shown).toNat < 2 ^ 1 := (!shown).toNat_lt
    exact List.forall_mem_singleton.2 (Field.lt_fieldOrder hbit (by decide))

namespace Circuit

open ClaimSignals (derived outputName ofClaim ofWide ofNarrow ofProperty ofBoolean)

namespace ClaimSignals

/-- What a statement discloses lies below the ceilings of the outputs. -/
theorem outputs_lt_ceiling {c : Claim} {v : ClaimValue} {t : Statement} (htype : v.type = c.type)
    (hconcerns : t.Concerns v) :
    List.Forall₂ (fun n (out : PublicSignal) => n < out.ceiling) (t.outputs v) (ofClaim c).outputs := by
  cases hconcerns with
  | @range r i width =>
    have hlower := Nat.lt_of_le_of_lt r.ordered r.fits
    simp only [ofClaim, ← htype, ClaimValue.type, Statement.outputs, ← width]
    split
    · rename_i hwide
      rw [width] at hwide
      obtain ⟨hlowerHigh, hlowerLow⟩ := Field.split_lt (hwide ▸ hlower)
      obtain ⟨hupperHigh, hupperLow⟩ := Field.split_lt (hwide ▸ r.fits)
      exact .cons hlowerHigh (.cons hlowerLow (.cons hupperHigh (.cons hupperLow .nil)))
    · exact .cons (width ▸ hlower) (.cons (width ▸ r.fits) .nil)
  | @equality e p type =>
    simp only [ofClaim, ← htype, ClaimValue.type, ofProperty, Statement.outputs, List.map_map]
    rw [List.forall₂_map_left_iff, List.forall₂_map_right_iff, List.forall₂_iff_zip]
    refine ⟨by simp [type, e.complete], fun {k i} hmem => ?_⟩
    have hk := e.fit k (List.of_mem_zip hmem).1
    have hceiling : 2 ^ (p.type.width + 1) = 2 ^ e.type.width * 2 := by rw [type, Nat.pow_succ]
    show (2 * k + if p.hash = k then 1 else 0) < 2 ^ (p.type.width + 1)
    split <;> omega
  | reveal shown b =>
    rw [ofClaim, ← htype]
    cases shown <;> cases b <;> exact .cons (show (_ : Nat) < 2 ^ 2 by decide) .nil

theorem outputs_lt {c : Claim} {v : ClaimValue} {t : Statement} (htype : v.type = c.type)
    (hconcerns : t.Concerns v) : ∀ n ∈ t.outputs v, n < fieldOrder := by
  intro n hn
  have hceilings := outputs_lt_ceiling htype hconcerns
  obtain ⟨out, hout, hlt⟩ := Aligned.exists_of_mem hceilings hn
  exact Nat.lt_trans hlt (ceiling_lt_fieldOrder c out hout)

end ClaimSignals

/-! ### Wires -/

/-- Where the check of an integer takes the integer from. -/
def valuePins (width : Nat) (component : String) : List Wire :=
  if width = greatestIntegerWidth then (List.range 2).map (.pinAt component "value")
  else [.pin component "value"]

/-- Where the check of an integer takes its bounds from. -/
def boundPins (width : Nat) (component : String) : List Wire :=
  if width = greatestIntegerWidth then (List.range 4).map (.pinAt component "bounds")
  else ["lb", "ub"].map (.pin component)

/-- The pins of a comparison. -/
def equalityPins (component : String) : List Wire :=
  [.pinAt component "in" 0, .pinAt component "in" 1, .pin component "out"]

/-- The pins of the components of a claim. -/
def pins (c : Claim) : List Wire :=
  match c.type with
  | .integer width _ =>
    valuePins width (derived c.name "range") ++ boundPins width (derived c.name "range")
  | .property p => (List.range p.checks).flatMap fun i => equalityPins (derived c.name s!"eq{i}")
  | .boolean => []

/-- Everything that the lines of a claim bind. -/
def wires (c : Claim) : List Wire :=
  (ofClaim c).names.map .signal ++ pins c

/-- What arrives at the pins: an integer and its bounds, or for every constant the hash, the
constant and whether they are equal. -/
def pinReadings : ClaimValue → Statement → List Nat
  | .integer i, t => (ClaimValue.integer i).limbs ++ t.operands
  | .property p, .equality e => e.constants.flatMap fun k => [p.hash, k, if p.hash = k then 1 else 0]
  | _, _ => []

/-- The integers on the wires of a claim, in the same order. -/
def readings (v : ClaimValue) (t : Statement) : List Nat :=
  v.limbs ++ t.operands ++ t.outputs v ++ pinReadings v t

namespace ClaimSignals

/-- The inputs have the limbs of the value, and the operations the operands of the statement. -/
@[mk_iff]
structure Carries (s : ClaimSignals) (v : ClaimValue) (t : Statement) (ρ : Valuation) : Prop where
  inputs : s.inputs.map ρ.signal = v.limbs.map Field.reduce
  operations : s.operations.map ρ.signal = t.operands.map Field.reduce

/-- The source of the claim's lines. -/
def source (s : ClaimSignals) : String :=
  Listing.text (s.lines.map Line.item)

/-- What the source of the claim says holds. -/
def Satisfied (s : ClaimSignals) (ρ : Valuation) : Prop :=
  ρ.Satisfies (Source.clauses s.source)

variable {c : Claim} {ρ : Valuation}

theorem satisfied_iff_lines (c : Claim) :
    (ofClaim c).Satisfied ρ ↔ ∀ line ∈ (ofClaim c).lines, line.Holds ρ :=
  Valuation.satisfies_listing (named_lines (named_ofClaim c))

theorem satisfied_iff_constraints (c : Claim) :
    (ofClaim c).Satisfied ρ ↔ ∀ line ∈ (ofClaim c).constraints, line.Holds ρ := by
  rw [satisfied_iff_lines, lines, List.forall_mem_cons]
  exact and_iff_right trivial

/-! ### Integers -/

/-- The component that checks an integer. -/
def rangeGadget (width : Nat) : Gadget :=
  if width = greatestIntegerWidth then .wideRange else .range width

/-- Inputs and operations are copied to the pins, and operations to the outputs. -/
theorem integer_constraints_iff {width : Nat} {valid : ValidWidth greatestIntegerWidth width}
    (htype : c.type = .integer width valid) :
    (∀ line ∈ (ofClaim c).constraints, line.Holds ρ) ↔
      (rangeGadget width).Holds ρ (derived c.name "range") ∧
        (valuePins width (derived c.name "range")).map ρ = (ofClaim c).inputs.map ρ.signal ∧
        (boundPins width (derived c.name "range")).map ρ = (ofClaim c).operations.map ρ.signal ∧
        (ofClaim c).outputs.map (fun out => ρ.signal out.name) =
          (ofClaim c).operations.map ρ.signal := by
  unfold constraints
  rw [claim_ofClaim, ofClaim, htype]
  by_cases hwidth : width = greatestIntegerWidth
  · simp [hwidth, wideLines, ofWide, rangeGadget, valuePins, boundPins, Line.Holds, List.range_succ,
      Expr.signal, Expr.eval, Valuation.signal, and_assoc]
  · simp [hwidth, narrowLines, ofNarrow, rangeGadget, valuePins, boundPins, Line.Holds, Expr.signal,
      Expr.eval, Valuation.signal, and_assoc]

/-- Two pins that carry the limbs of an integer carry the integer. -/
theorem joined_eq {name pin : String} {i n : Nat} (h : n < 2 ^ greatestIntegerWidth)
    (hhigh : ρ (.pinAt name pin i) = Field.reduce (Field.split n).1)
    (hlow : ρ (.pinAt name pin (i + 1)) = Field.reduce (Field.split n).2) : ρ.joined name pin i = n := by
  have hlimb {m : Nat} (hm : m < 2 ^ Field.limbBits) : m < fieldOrder :=
    Field.lt_fieldOrder hm (by decide)
  have ⟨hfirst, hsecond⟩ := Field.split_lt h
  rw [Valuation.joined, hhigh, hlow, Field.val_reduce (hlimb hfirst), Field.val_reduce (hlimb hsecond),
    Field.join_split]

/-- The component accepts an integer on its pins exactly if it lies within the bounds. -/
theorem rangeGadget_holds_iff {i : IntegerValue} {r : RangeStatement} {name : String}
    (hwidth : i.width = r.width)
    (hvalue : (valuePins i.width name).map ρ = (ClaimValue.integer i).limbs.map Field.reduce)
    (hbounds : (boundPins i.width name).map ρ = (Statement.range r).operands.map Field.reduce) :
    (rangeGadget i.width).Holds ρ name ↔ (Statement.range r).Admits (.integer i) := by
  have hlimbs := limbs_lt (.integer i)
  have hoperands := operands_lt (.range hwidth)
  simp only [rangeGadget, valuePins, boundPins, ClaimValue.limbs, Statement.operands, hwidth]
    at hvalue hbounds hlimbs hoperands ⊢
  by_cases hwide : r.width = greatestIntegerWidth
  · have hfits {n : Nat} (h : n < 2 ^ r.width) : n < 2 ^ greatestIntegerWidth := hwide ▸ h
    have hlower := Nat.lt_of_le_of_lt r.ordered r.fits
    simp only [hwide, if_true, List.range_succ, List.range_zero, List.nil_append, List.cons_append,
      List.map_cons, List.map_nil, List.cons.injEq, and_true] at hvalue hbounds ⊢
    obtain ⟨hhigh, hlow⟩ := hvalue
    obtain ⟨hlowerHigh, hlowerLow, hupperHigh, hupperLow⟩ := hbounds
    rw [Gadget.Holds, joined_eq (hfits hlower) hlowerHigh hlowerLow,
      joined_eq (hfits (hwidth ▸ i.fits)) hhigh hlow, joined_eq (hfits r.fits) hupperHigh hupperLow]
    rfl
  · simp only [hwide, if_false, List.map_cons, List.map_nil, List.cons.injEq, and_true,
      List.forall_mem_cons] at hvalue hbounds hlimbs hoperands ⊢
    obtain ⟨hlower, hupper, -⟩ := hoperands
    rw [Gadget.Holds, hvalue, hbounds.1, hbounds.2, Field.val_reduce hlimbs.1, Field.val_reduce hlower,
      Field.val_reduce hupper]
    rfl

/-- What the lines of a claim leave open once its inputs and operations are set: outputs and pins
have their values, and the statement admits the value. -/
def Determined (c : Claim) (v : ClaimValue) (t : Statement) (ρ : Valuation) : Prop :=
  (ofClaim c).outputs.map (fun out => ρ.signal out.name) = (t.outputs v).map Field.reduce ∧
    (pins c).map ρ = (pinReadings v t).map Field.reduce ∧ t.Admits v

theorem satisfied_integer_iff {i : IntegerValue} {r : RangeStatement}
    (htype : c.type = .integer i.width i.validWidth) (hwidth : i.width = r.width)
    (h : (ofClaim c).Carries (.integer i) (.range r) ρ) :
    (ofClaim c).Satisfied ρ ↔ Determined c (.integer i) (.range r) ρ := by
  have houtputs : (Statement.range r).outputs (.integer i) = (Statement.range r).operands := rfl
  have hlength : (valuePins i.width (derived c.name "range")).length =
      (ClaimValue.integer i).limbs.length := by
    simp only [valuePins, ClaimValue.limbs]
    split <;> rfl
  have hpins : pins c =
      valuePins i.width (derived c.name "range") ++ boundPins i.width (derived c.name "range") := by
    rw [pins, htype]
  rw [satisfied_iff_constraints, integer_constraints_iff htype, h.inputs, h.operations, Determined, houtputs,
    hpins, pinReadings, List.map_append, List.map_append]
  constructor
  · rintro ⟨hrange, hvalue, hbounds, hout⟩
    exact ⟨hout, congrArg₂ _ hvalue hbounds, (rangeGadget_holds_iff hwidth hvalue hbounds).1 hrange⟩
  · rintro ⟨hout, hpins, hadmits⟩
    obtain ⟨hvalue, hbounds⟩ := List.append_inj hpins (by simpa using hlength)
    exact ⟨(rangeGadget_holds_iff hwidth hvalue hbounds).2 hadmits, hvalue, hbounds, hout⟩

/-! ### Properties -/

theorem mem_checks_iff {p : PropertyType} {op : String} {out : PublicSignal} {i : Nat} :
    ((op, out), i) ∈ ((ofProperty c p).operations.zip (ofProperty c p).outputs).zipIdx ↔
      i < p.checks ∧ op = derived c.name s!"eq_check{i}" ∧
        out = .ofBits (outputName (derived c.name s!"eq_check{i}")) (p.width + 1) := by
  have hzip : (ofProperty c p).operations.zip (ofProperty c p).outputs =
      (List.range p.checks).map fun i => (derived c.name s!"eq_check{i}",
        PublicSignal.ofBits (outputName (derived c.name s!"eq_check{i}")) (p.width + 1)) := by
    simp only [ofProperty, List.map_map]
    exact List.zip_map' ..
  rw [hzip, List.mem_zipIdx_iff_getElem?, List.getElem?_map]
  by_cases hi : i < p.checks
  · rw [List.getElem?_range hi]
    simp [hi, eq_comm]
  · rw [List.getElem?_eq_none (by simpa using hi)]
    simp [hi]

/-- The lines of the comparison with one constant. -/
def CheckHolds (c : Claim) (ρ : Valuation) (i : Nat) : Prop :=
  Gadget.isEqual.Holds ρ (derived c.name s!"eq{i}") ∧
    ρ (.pinAt (derived c.name s!"eq{i}") "in" 0) = ρ.signal c.name ∧
    ρ (.pinAt (derived c.name s!"eq{i}") "in" 1) = ρ.signal (derived c.name s!"eq_check{i}") ∧
    ρ.signal (outputName (derived c.name s!"eq_check{i}")) =
      ρ.signal (derived c.name s!"eq_check{i}") * Field.reduce 2 +
        ρ (.pin (derived c.name s!"eq{i}") "out")

theorem property_constraints_iff {p : PropertyType} (htype : c.type = .property p) :
    (∀ line ∈ (ofClaim c).constraints, line.Holds ρ) ↔ ∀ i < p.checks, CheckHolds c ρ i := by
  have hinputs : (ofProperty c p).inputs = [c.name] := rfl
  have hclaim : (ofProperty c p).claim = c := rfl
  simp only [constraints, ofClaim, htype, propertyLines, hinputs, hclaim, List.flatMap_singleton,
    List.forall_mem_flatMap, Prod.forall, mem_checks_iff, checkLines, List.forall_mem_cons, Line.Holds]
  constructor
  · intro h i hi
    obtain ⟨hgadget, hleft, hright, hout, -⟩ := h _ _ i ⟨hi, rfl, rfl⟩
    exact ⟨hgadget, hleft, hright, hout⟩
  · rintro h _ _ i ⟨hi, rfl, rfl⟩
    obtain ⟨hgadget, hleft, hright, hout⟩ := h i hi
    exact ⟨hgadget, hleft, hright, hout, List.forall_mem_nil _⟩

/-- One comparison, once the hash and the constant are set. -/
theorem checkHolds_iff {i hash k : Nat} (hhash : hash < fieldOrder) (hk : k < fieldOrder)
    (hinput : ρ.signal c.name = Field.reduce hash)
    (hoperation : ρ.signal (derived c.name s!"eq_check{i}") = Field.reduce k) :
    CheckHolds c ρ i ↔
      ρ.signal (outputName (derived c.name s!"eq_check{i}")) =
          Field.reduce (2 * k + if hash = k then 1 else 0) ∧
        (equalityPins (derived c.name s!"eq{i}")).map ρ =
          [hash, k, if hash = k then 1 else 0].map Field.reduce := by
  have hflag : (if Field.reduce hash = Field.reduce k then (1 : Felt) else 0) =
      Field.reduce (if hash = k then 1 else 0) := by
    simp only [Field.reduce_inj hhash hk]
    split <;> rfl
  have hout (flag : Nat) :
      Field.reduce k * Field.reduce 2 + Field.reduce flag = Field.reduce (2 * k + flag) := by
    rw [Nat.mul_comm, Field.reduce_add, Field.reduce_mul]
  simp only [CheckHolds, Gadget.Holds, equalityPins, List.map_cons, List.map_nil, List.cons.injEq,
    and_true, hinput, hoperation]
  constructor
  · rintro ⟨hequal, hleft, hright, hsum⟩
    rw [hleft, hright, hflag] at hequal
    rw [hequal, hout] at hsum
    exact ⟨hsum, hleft, hright, hequal⟩
  · rintro ⟨hsum, hleft, hright, hequal⟩
    rw [hleft, hright, hflag, hequal, hout]
    exact ⟨rfl, rfl, rfl, hsum⟩

theorem satisfied_property_iff {p : PropertyValue} {e : EqualityStatement}
    (htype : c.type = .property p.type) (heq : p.type = e.type)
    (h : (ofClaim c).Carries (.property p) (.equality e) ρ) :
    (ofClaim c).Satisfied ρ ↔ Determined c (.property p) (.equality e) ρ := by
  have hchecks : p.type.checks = e.constants.length := by
    rw [e.complete, heq]
  have hinput : ρ.signal c.name = Field.reduce p.hash := by
    have hinputs := h.inputs
    simp only [ofClaim, htype, ofProperty] at hinputs
    exact List.head_eq_of_cons_eq hinputs
  have hoperations : List.Forall₂ (fun i k => ρ.signal (derived c.name s!"eq_check{i}") = Field.reduce k)
      (List.range e.constants.length) e.constants := by
    have hoperations := h.operations
    simp only [ofClaim, htype, ofProperty, hchecks] at hoperations
    rw [List.map_map, Aligned.map_eq_map_iff] at hoperations
    exact hoperations
  have hhash : p.hash < fieldOrder := limbs_lt (.property p) _ (List.mem_singleton_self _)
  have hconstants := operands_lt (Statement.Concerns.equality heq)
  rw [satisfied_iff_constraints, property_constraints_iff htype, hchecks, Aligned.forall_lt_iff,
    Determined, pins, htype, pinReadings, Statement.outputs]
  simp only [ofClaim, htype, ofProperty, hchecks]
  rw [List.map_map, List.map_map, List.map_map, Aligned.map_eq_map_iff,
    Aligned.map_flatMap_eq_iff (by simp [equalityPins]) (by simp)]
  refine (Aligned.forall₂_and_iff fun i k hmem => ?_).trans (and_congr_right fun _ => (and_iff_left trivial).symm)
  exact checkHolds_iff hhash (hconstants k (List.of_mem_zip hmem).2) hinput
    ((List.forall₂_iff_zip.1 hoperations).2 hmem)

/-! ### Truth values -/

theorem boolean_constraints_iff (htype : c.type = .boolean) :
    (∀ line ∈ (ofClaim c).constraints, line.Holds ρ) ↔
      ρ.signal c.name * (ρ.signal c.name - 1) = 0 ∧
        ρ.signal (derived c.name "hide") * (ρ.signal (derived c.name "hide") - 1) = 0 ∧
        ρ.signal (outputName c.name) =
          (1 - ρ.signal (derived c.name "hide")) * (ρ.signal c.name * 2 + 1) := by
  simp only [constraints, ofClaim, htype, booleanLines, ofBoolean, List.zip_cons_cons,
    List.zip_nil_right, List.flatMap_singleton, List.forall_mem_cons, Line.Holds]
  constructor
  · rintro ⟨hinput, hhide, hout, -⟩
    exact ⟨hinput, hhide, hout⟩
  · rintro ⟨hinput, hhide, hout⟩
    exact ⟨hinput, hhide, hout, List.forall_mem_nil _⟩

/-- Bits pass, and the output shows the value unless it is hidden. -/
theorem boolean_formula (b hide : Bool) :
    Field.reduce b.toNat * (Field.reduce b.toNat - 1) = 0 ∧
      (1 - Field.reduce hide.toNat) * (Field.reduce b.toNat * 2 + 1) =
        Field.reduce (if hide then 0 else 2 * b.toNat + 1) := by
  cases b <;> cases hide <;> decide

theorem satisfied_boolean_iff {shown b : Bool} (htype : c.type = .boolean)
    (h : (ofClaim c).Carries (.boolean b) (.reveal shown) ρ) :
    (ofClaim c).Satisfied ρ ↔ Determined c (.boolean b) (.reveal shown) ρ := by
  have hinput : ρ.signal c.name = Field.reduce b.toNat := by
    have hinputs := h.inputs
    simp only [ofClaim, htype, ofBoolean] at hinputs
    exact List.head_eq_of_cons_eq hinputs
  have hoperation : ρ.signal (derived c.name "hide") = Field.reduce (!shown).toNat := by
    have hoperations := h.operations
    simp only [ofClaim, htype, ofBoolean] at hoperations
    exact List.head_eq_of_cons_eq hoperations
  have houtputs : (Statement.reveal shown).outputs (.boolean b) =
      [if (!shown) = true then 0 else 2 * b.toNat + 1] := by
    cases shown <;> rfl
  have hpins : pins c = [] := by
    rw [pins, htype]
  have hreadings : pinReadings (.boolean b) (.reveal shown) = [] := rfl
  have hout : (ofClaim c).outputs.map (fun out => ρ.signal out.name) = [ρ.signal (outputName c.name)] := by
    simp only [ofClaim, htype, ofBoolean]
    rfl
  rw [satisfied_iff_constraints, boolean_constraints_iff htype, hinput, hoperation,
    (boolean_formula b (!shown)).2, Determined, hpins, hreadings, houtputs, hout]
  constructor
  · rintro ⟨-, -, hout⟩
    exact ⟨congrArg ([·]) hout, rfl, trivial⟩
  · rintro ⟨hout, -, -⟩
    exact ⟨(boolean_formula b (!shown)).1, (boolean_formula (!shown) false).1,
      List.head_eq_of_cons_eq hout⟩

/-! ### All claims -/

/-- **Once a claim's inputs and operations are set, its lines determine the other wires, and hold
exactly if the statement admits the value.** -/
theorem satisfied_iff {v : ClaimValue} {t : Statement} (htype : v.type = c.type) (hconcerns : t.Concerns v)
    (h : (ofClaim c).Carries v t ρ) : (ofClaim c).Satisfied ρ ↔ Determined c v t ρ := by
  cases hconcerns with
  | range width => exact satisfied_integer_iff htype.symm width h
  | equality type => exact satisfied_property_iff htype.symm type h
  | reveal shown b => exact satisfied_boolean_iff htype.symm h

theorem length_outputs {v : ClaimValue} {t : Statement} (htype : v.type = c.type)
    (hconcerns : t.Concerns v) : (ofClaim c).outputs.length = (t.outputs v).length := by
  cases hconcerns with
  | @range r i width =>
    simp only [ofClaim, ← htype, ClaimValue.type, Statement.outputs, ← width]
    split <;> rfl
  | @equality e p type =>
    simp [ofClaim, ← htype, ClaimValue.type, ofProperty, Statement.outputs, type, e.complete]
  | reveal shown b =>
    rw [ofClaim, ← htype]
    cases shown <;> rfl

/-- **The wires of a claim have one value each, and only a range may refuse the value.** -/
theorem carries_and_satisfied_iff {v : ClaimValue} {t : Statement} (htype : v.type = c.type)
    (hconcerns : t.Concerns v) :
    (ofClaim c).Carries v t ρ ∧ (ofClaim c).Satisfied ρ ↔
      (wires c).map ρ = (readings v t).map Field.reduce ∧ t.Admits v := by
  have hsignals : (wires c).map ρ = (ofClaim c).inputs.map ρ.signal ++ (ofClaim c).operations.map ρ.signal ++
      (ofClaim c).outputs.map (fun out => ρ.signal out.name) ++ (pins c).map ρ := by
    simp only [wires, names, List.map_append, List.map_map]
    rfl
  have hinputs := length_limbs htype
  have hoperations := length_operands htype hconcerns
  have houtputs := length_outputs htype hconcerns
  rw [hsignals, readings, List.map_append, List.map_append, List.map_append]
  constructor
  · rintro ⟨hcarries, hsatisfied⟩
    obtain ⟨hout, hpins, hadmits⟩ := (satisfied_iff htype hconcerns hcarries).1 hsatisfied
    rw [hcarries.inputs, hcarries.operations, hout, hpins]
    exact ⟨rfl, hadmits⟩
  · rintro ⟨hwires, hadmits⟩
    obtain ⟨hsignals, hpins⟩ := List.append_inj hwires (by simp [*])
    obtain ⟨hprivate, hout⟩ := List.append_inj hsignals (by simp [*])
    obtain ⟨hlimbs, hoperands⟩ := List.append_inj hprivate (by simp [*])
    have hcarries : (ofClaim c).Carries v t ρ := ⟨hlimbs, hoperands⟩
    exact ⟨hcarries, (satisfied_iff htype hconcerns hcarries).2 ⟨hout, hpins, hadmits⟩⟩

end ClaimSignals

end Circuit

end Vouch

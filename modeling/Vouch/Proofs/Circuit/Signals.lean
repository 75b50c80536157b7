import Vouch.Proofs.Field
import Vouch.Proofs.Statement
import Vouch.Proofs.Circuit.Compiled

/-! The signals of claims, and the table of public ones.

A claim has as many inputs and operations as its values have limbs and its statements operands. Its
slots are filled from its own outputs (`ClaimSignals.sources_subset`). The table has the intrinsic
signals first and then the outputs of the claims (`publicSignals_of_compile`), and the signals of a
proof pass if each is below its ceiling (`checkSignals_eq_ok_iff`). What a proof gives for the names
that a slot is filled from is what the slot is fed (`sourceValues_eq`). -/
namespace Vouch

namespace Circuit

open ClaimSignals (ofClaim)

/-! ### The signals of a claim -/

namespace ClaimSignals

theorem length_limbs {c : Claim} {v : ClaimValue} (h : v.type = c.type) :
    v.limbs.length = (ofClaim c).inputs.length := by
  unfold ofClaim
  cases v with
  | integer i =>
    rw [← h]
    simp only [ClaimValue.type, ClaimValue.limbs]
    split <;> rfl
  | property p => rw [← h]; rfl
  | boolean b => rw [← h]; rfl

theorem length_operands {c : Claim} {v : ClaimValue} {t : Statement} (h : v.type = c.type)
    (hconcerns : t.Concerns v) : t.operands.length = (ofClaim c).operations.length := by
  unfold ofClaim
  rw [← h]
  cases hconcerns with
  | range hwidth =>
    simp only [ClaimValue.type, Statement.operands, ← hwidth]
    split <;> rfl
  | @equality e p htype =>
    simp [ClaimValue.type, Statement.operands, ofProperty, htype, e.complete]
  | reveal => rfl

theorem ceiling_lt_fieldOrder (c : Claim) : ∀ out ∈ (ofClaim c).outputs, out.ceiling < fieldOrder := by
  have hbits {bits : Nat} (h : bits ≤ greatestPropertyWidth + 1) (name : String) :
      (PublicSignal.ofBits name bits).ceiling < fieldOrder := Field.two_pow_lt_fieldOrder h
  unfold ofClaim
  split
  · rename_i width valid htype
    split
    · simp only [ofWide, List.forall_mem_cons]
      exact ⟨hbits (by decide) _, hbits (by decide) _, hbits (by decide) _, hbits (by decide) _,
        List.forall_mem_nil _⟩
    · rename_i hwidth
      have hle := Nat.le_succ_of_le (valid.le_of_ne hwidth)
      simp only [ofNarrow, List.forall_mem_cons]
      exact ⟨hbits hle _, hbits hle _, List.forall_mem_nil _⟩
  · rename_i p htype
    exact List.forall_mem_map.2 fun _ _ => hbits (Nat.succ_le_succ p.validWidth.2.1) _
  · exact List.forall_mem_singleton.2 (hbits (by decide) _)

/-- The slots of a claim are filled from its outputs. -/
theorem sources_subset (claim : Claim) :
    ∀ a ∈ (ofClaim claim).aggregations, ∀ name ∈ a.sources,
      name ∈ (ofClaim claim).outputs.map (·.name) := by
  unfold ofClaim
  split
  · split
    · simp [ofWide, Aggregation.ofBits, PublicSignal.ofBits]
    · simp [ofNarrow, Aggregation.ofBits, PublicSignal.ofBits]
  · refine List.forall_mem_map.2 fun op hop => List.forall_mem_singleton.2 ?_
    exact List.mem_map.2 ⟨_, List.mem_map_of_mem hop, rfl⟩
  · simp [ofBoolean, Aggregation.ofBits, PublicSignal.ofBits]

end ClaimSignals

/-! ### The table -/

/-- The public signals that come from claims. -/
def claimOutputs (c : Circuit) : List PublicSignal :=
  c.publicSignals.drop c.intrinsics.length

section

variable {s : Schema} {c : Circuit}

theorem claimOutputs_of_compile (h : compile s = .ok c) :
    c.claimOutputs = s.claims.flatMap fun claim => (ofClaim claim).outputs := by
  obtain ⟨rfl, -⟩ := (compile_eq_ok_iff s c).1 h
  have hintrinsics : (ofLayout (Layout.unchecked s)).intrinsics.length =
      ((Intrinsic.ofRevocable s.isRevocable).map (·.signal)).length := by
    rw [List.length_map, ofLayout, List.length_zipIdx]
    rfl
  rw [claimOutputs, hintrinsics]
  refine List.drop_left.trans ?_
  rw [List.flatMap_map]

theorem publicSignals_of_compile (h : compile s = .ok c) :
    c.publicSignals = (Intrinsic.ofRevocable s.isRevocable).map (·.signal) ++ c.claimOutputs := by
  rw [claimOutputs_of_compile h, ← List.flatMap_map ofClaim]
  obtain ⟨rfl, -⟩ := (compile_eq_ok_iff s c).1 h
  rfl

end

/-! ### The signals of a proof -/

theorem PublicSignal.check_eq_ok_iff {s : PublicSignal} {n : Nat} : s.check n = .ok () ↔ n < s.ceiling := by
  unfold check
  split <;> simp [*]

theorem checkSignals_eq_ok_iff {c : Circuit} {signals : List Nat} :
    c.checkSignals signals = .ok () ↔ List.Forall₂ (fun s n => n < s.ceiling) c.publicSignals signals := by
  unfold checkSignals
  rw [List.forall₂_iff_zip]
  split
  · rename_i hlength
    rw [Result.forM_eq_ok_iff, and_iff_right hlength.symm, Prod.forall]
    exact forall₃_congr fun s n _ => PublicSignal.check_eq_ok_iff
  · rename_i hlength
    exact ⟨fun h => (nomatch h), fun h => absurd h.1.symm hlength⟩

/-- Signals that have the values of their names bring them to a slot. -/
theorem sourceValues_eq {c : Circuit} {a : Aggregation} (value : PublicSignal → Nat) (ρ : String → Nat)
    (hvalue : ∀ out, value out = ρ out.name)
    (h : ∀ name ∈ a.sources, name ∈ c.publicSignals.map (·.name)) :
    c.sourceValues a (c.publicSignals.map value) = a.sources.map ρ := by
  have hzip : c.publicSignals.zip (c.publicSignals.map value) =
      c.publicSignals.map fun out => (out, value out) := by
    rw [← List.zip_map', List.map_id']
  rw [sourceValues, hzip, List.filterMap_eq_map_iff_forall_eq_some]
  intro name hname
  obtain ⟨out, hout, rfl⟩ := List.mem_map.1 (h name hname)
  obtain ⟨found, hfound⟩ : ∃ found, c.publicSignals.find? (·.name == out.name) = some found :=
    Option.isSome_iff_exists.1 (List.find?_isSome.2 ⟨out, hout, beq_self_eq_true _⟩)
  have hbeq : (found.name == out.name) = true := by simpa using List.find?_some hfound
  have hsame : found.name = out.name := eq_of_beq hbeq
  have hpair : (c.publicSignals.map fun out => (out, value out)).find? (·.1.name == out.name) =
      some (found, value found) := by
    rw [List.find?_map]
    exact congrArg (Option.map _) hfound
  rw [hpair, Option.map_some, hvalue, hsame]

end Circuit

/-! ### A club -/

theorem validWidth_widest : ValidWidth greatestIntegerWidth 256 := by decide

theorem validWidth_code : ValidWidth greatestPropertyWidth 8 := by decide

/-- Two codes are compared with the hash of a name. -/
def nameType : PropertyType :=
  ⟨8, .custom, 2, validWidth_code, by decide⟩

/-- Members of a club, with a claim of each kind. -/
def clubSchema : Schema where
  claims :=
    [⟨"age", .integer 8 Circuit.validWidth_byte, Circuit.validName_age⟩,
      ⟨"balance", .integer 256 validWidth_widest, by unfold Claim.ValidName; decide⟩,
      ⟨"name", .property nameType, by unfold Claim.ValidName; decide⟩,
      ⟨"paid", .boolean, by unfold Claim.ValidName; decide⟩]
  depth := none
  id := 0
  distinct := by decide
  validDepth := validDepth_none

theorem compile_clubSchema :
    Circuit.compile clubSchema = .ok (Circuit.ofLayout (Circuit.Layout.unchecked clubSchema)) :=
  (Circuit.compile_eq_ok_iff _ _).2 ⟨rfl, by decide +kernel, by decide +kernel, by decide⟩

end Vouch

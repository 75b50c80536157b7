import Mathlib.Data.List.Perm.Basic
import Vouch.Stack.Witness
import Vouch.Proofs.Keyed
import Vouch.Proofs.Circuit.Signals

/-! The entries of a witness.

A request that passes its checks (`WitnessRequest.check_eq_ok_iff`) has as many values as
its layout has inputs. So the entries have the names and the shapes of these inputs, in
another order (`map_shape_entries`), and no name stands before two of them
(`nodup_entries`). What is set is held against the layout in vain: of a request that passes,
the witness is the table of its entries (`witness_of_check`). -/
namespace Vouch

open Circuit (ClaimSignals InputSignal Layout fixedInputs revocationInputs intrinsicInputs)
open Circuit.ClaimSignals (length_limbs length_operands ofClaim)

theorem NonRevocation.check_eq_ok_iff {p : NonRevocation} {depth : Nat} :
    p.check depth = .ok () ↔ p.siblings.length = depth ∧ ∀ n ∈ p.integers, n < fieldOrder := by
  unfold check
  split
  · rename_i hlength
    rw [and_iff_right hlength]
    split
    · rename_i hall
      simpa using hall
    · rename_i hall
      simpa using hall
  · rename_i hlength
    exact ⟨fun h => (nomatch h), fun h => absurd h.1 hlength⟩

namespace WitnessRequest

variable {r : WitnessRequest} {hash : FieldHash} {c : Checked}

/-! ### Checks -/

theorem signature_eq_ok_iff {s : Signature} :
    r.signature = .ok s ↔ r.credential.signatures[r.index]? = some s := by
  unfold signature
  split
  · rename_i s' hs
    rw [if_pos (Subsingleton.elim _ _), hs, Except.ok.injEq, Option.some.injEq]
  · rename_i hs
    rw [hs]
    exact ⟨fun h => (nomatch h), fun h => (nomatch h)⟩

theorem revocation_eq_ok_iff {revocation : Option NonRevocation} :
    r.revocation = .ok revocation ↔
      (r.credential.body.schema.depth = none ∧ revocation = none) ∨
        ∃ depth proof, r.credential.body.schema.depth = some depth ∧ r.unrevoked = some proof ∧
          proof.check depth = .ok () ∧ revocation = some proof := by
  unfold WitnessRequest.revocation
  split
  · rename_i hdepth
    simp [hdepth, eq_comm]
  · rename_i hdepth hunrevoked
    simp [hdepth, hunrevoked]
  · rename_i depth proof hdepth hunrevoked
    simp only [hdepth, hunrevoked, Result.bind_eq_ok_iff, reduceCtorEq, false_and, false_or,
      Option.some.injEq]
    constructor
    · rintro ⟨⟨⟩, hproof, h⟩
      exact ⟨depth, proof, rfl, rfl, hproof, (Except.ok.inj h).symm⟩
    · rintro ⟨_, _, rfl, rfl, hproof, rfl⟩
      exact ⟨(), hproof, rfl⟩

theorem check_eq_ok_iff :
    r.check hash = .ok c ↔
      r.revocation = .ok c.revocation ∧
        ∃ s, r.credential.signatures[r.index]? = some s ∧ c.issuance = s.issuance ∧
          (∃ disclosed, r.presentation.checkBody r.credential.body = .ok disclosed) ∧
          r.presentation.checkExpiration s.issuance.expiredAt = .ok () ∧
          checkBound "external nullifier" r.externalNullifier .externalNullifier = .ok () ∧
          checkBound "pseudonym" r.pseudonym .revealIdentity = .ok () ∧
          edwardsCurve.decodeSignature s.bytes s.issuance.publicKey = .ok c.signature ∧
          r.pseudonymDigest hash = .ok c.digest ∧
          Layout.ofSchema r.credential.body.schema = .ok c.layout := by
  unfold check
  simp only [Result.bind_eq_ok_iff, signature_eq_ok_iff]
  constructor
  · rintro ⟨revocation, hrevocation, s, hs, disclosed, hbody, ⟨⟩, hexpiration, ⟨⟩, hexternal, ⟨⟩,
      hpseudonym, signature, hsignature, digest, hdigest, layout, hlayout, h⟩
    obtain rfl := Except.ok.inj h
    exact ⟨hrevocation, s, hs, rfl, ⟨disclosed, hbody⟩, hexpiration, hexternal, hpseudonym, hsignature,
      hdigest, hlayout⟩
  · rintro ⟨hrevocation, s, hs, hissuance, ⟨disclosed, hbody⟩, hexpiration, hexternal, hpseudonym,
      hsignature, hdigest, hlayout⟩
    refine ⟨_, hrevocation, s, hs, disclosed, hbody, (), hexpiration, (), hexternal, (), hpseudonym, _,
      hsignature, _, hdigest, _, hlayout, ?_⟩
    rw [← hissuance]
    rfl

/-! ### Claims with their values and statements -/

/-- The claims of a request, each with its value and the statement about it. -/
def parts (r : WitnessRequest) : List ((Claim × ClaimValue) × Statement) :=
  r.credential.body.entries.zip r.presentation.statements

theorem map_fst_parts (h : r.check hash = .ok c) :
    r.parts.map Prod.fst = r.credential.body.entries := by
  obtain ⟨-, s, -, -, hbody, -⟩ := check_eq_ok_iff.1 h
  have hlength := (Presentation.exists_checkBody_iff.1 hbody).1
  refine List.map_fst_zip (Nat.le_of_eq ?_)
  rw [hlength, ← Body.map_snd_entries, List.length_map]

theorem passes_of_mem_parts (h : r.check hash = .ok c) {part : (Claim × ClaimValue) × Statement}
    (hpart : part ∈ r.parts) :
    part.1.2.type = part.1.1.type ∧ ∃ disclosed, part.2.check part.1.2 = .ok disclosed := by
  obtain ⟨-, s, -, -, hbody, -⟩ := check_eq_ok_iff.1 h
  have hentry := (List.of_mem_zip (b := part.2) hpart).1
  exact ⟨Body.type_of_mem_entries hentry, (Presentation.exists_checkBody_iff.1 hbody).2 part hpart⟩

theorem layout_of_check (h : r.check hash = .ok c) :
    c.layout = Layout.unchecked r.credential.body.schema := by
  obtain ⟨-, s, -, -, -, -, -, -, -, -, hlayout⟩ := check_eq_ok_iff.1 h
  exact ((Layout.ofSchema_eq_ok_iff _ _).1 hlayout).1

/-- What a layout lists claim by claim, it lists part by part. -/
theorem flatMap_claims {α : Type} (h : r.check hash = .ok c) (f : ClaimSignals → List α) :
    c.layout.claims.flatMap f = r.parts.flatMap fun part => f (ofClaim part.1.1) := by
  have hclaims : r.parts.map (·.1.1) = r.credential.body.schema.claims := by
    rw [← Body.map_fst_entries, ← map_fst_parts h, List.map_map]
    rfl
  rw [layout_of_check h, Layout.unchecked, ← hclaims, List.map_map, List.flatMap_map]
  rfl

theorem zip_map_zip {α β γ δ : Type} (g : α → δ) (as : List α) (bs : List β) (cs : List γ) :
    (as.map g).zip (bs.zip cs) =
      ((as.zip bs).zip cs).map fun part => (g part.1.1, part.1.2, part.2) := by
  induction as generalizing bs cs with
  | nil => rfl
  | cons a as ih =>
    cases bs with
    | nil => rfl
    | cons b bs =>
      cases cs with
      | nil => rfl
      | cons c cs => simp [ih]

theorem claimParts_eq (h : r.check hash = .ok c) :
    r.claimParts c = r.parts.map fun part => (ofClaim part.1.1, part.1.2, part.2) := by
  rw [claimParts, parts, Body.entries, ← zip_map_zip, layout_of_check h]
  rfl

/-- What a witness holds, under the names of the inputs in the order in which it is set. -/
def entries (r : WitnessRequest) (c : Checked) : List (String × InputValue) :=
  (c.layout.intrinsicInputs.map (·.name)).zip (r.intrinsicValues c) ++
    (r.claimParts c).flatMap fun (s, v, t) => claimEntries s v t

theorem entries_eq (h : r.check hash = .ok c) :
    r.entries c =
      (c.layout.intrinsicInputs.map (·.name)).zip (r.intrinsicValues c) ++
        r.parts.flatMap fun part => claimEntries (ofClaim part.1.1) part.1.2 part.2 := by
  rw [entries, claimParts_eq h, List.flatMap_map]

/-- The names of the layout are those under which the inputs are set. -/
theorem intrinsicNames_of_check (h : r.check hash = .ok c) :
    intrinsicNames c = c.layout.intrinsicInputs.map (·.name) := by
  have hinputs : c.layout.intrinsicInputs = intrinsicInputs r.credential.body.schema.depth := by
    rw [layout_of_check h]
    rfl
  rw [intrinsicNames, hinputs]
  rcases revocation_eq_ok_iff.1 (check_eq_ok_iff.1 h).1 with
    ⟨hdepth, hrevocation⟩ | ⟨depth, proof, hdepth, -, -, hrevocation⟩ <;>
  · rw [hdepth, hrevocation]
    rfl

/-- What is set for a proof of non-revocation. -/
def revocationEntries (c : Checked) : List (String × InputValue) :=
  c.revocation.elim [] fun p => revocationNames.zip (revocationValues p)

theorem entries_eq_append (h : r.check hash = .ok c) :
    r.entries c =
      fixedNames.zip ((r.fixedValues c).map .scalar) ++ revocationEntries c ++
        r.parts.flatMap fun part => claimEntries (ofClaim part.1.1) part.1.2 part.2 := by
  have hlength : fixedNames.length = ((r.fixedValues c).map InputValue.scalar).length := rfl
  rw [entries_eq h, ← intrinsicNames_of_check h, intrinsicNames, intrinsicValues, List.zip_append hlength,
    revocationEntries]
  cases c.revocation <;> rfl

/-! ### Shapes -/

/-- The name of an entry, and how long its value is if it is an array. -/
def shape (entry : String × InputValue) : String × Option Nat :=
  (entry.1, entry.2.length?)

theorem map_shape_claimEntries {part : (Claim × ClaimValue) × Statement}
    (h : part.1.2.type = part.1.1.type ∧ ∃ disclosed, part.2.check part.1.2 = .ok disclosed) :
    (claimEntries (ofClaim part.1.1) part.1.2 part.2).map shape =
      ((ofClaim part.1.1).inputs ++ (ofClaim part.1.1).operations).map (·, none) := by
  obtain ⟨htype, disclosed, hcheck⟩ := h
  have hlength : ((ofClaim part.1.1).inputs ++ (ofClaim part.1.1).operations).length =
      (part.1.2.limbs ++ part.2.operands).length := by
    have hconcerns := (Statement.check_eq_ok_iff_admits.1 hcheck).1
    rw [List.length_append, List.length_append, length_limbs htype, length_operands htype hconcerns]
  have hscalar : shape ∘ Prod.map id InputValue.scalar = (·, none) ∘ Prod.fst := rfl
  rw [claimEntries, List.zip_map_right, List.map_map, hscalar, ← List.map_map,
    List.map_fst_zip (Nat.le_of_eq hlength)]

theorem map_length?_intrinsicValues (h : r.check hash = .ok c) :
    (r.intrinsicValues c).map InputValue.length? = c.layout.intrinsicInputs.map (·.length) := by
  have hinputs : c.layout.intrinsicInputs = intrinsicInputs r.credential.body.schema.depth := by
    rw [layout_of_check h]
    rfl
  have hfixed : ((r.fixedValues c).map InputValue.scalar).map InputValue.length? =
      fixedInputs.map (·.length) := rfl
  rw [hinputs, intrinsicValues, List.map_append, hfixed]
  rcases revocation_eq_ok_iff.1 (check_eq_ok_iff.1 h).1 with
    ⟨hdepth, hrevocation⟩ | ⟨depth, proof, hdepth, -, hproof, hrevocation⟩
  · rw [hdepth, hrevocation]
    exact List.append_nil _
  · rw [hdepth, hrevocation, intrinsicInputs, List.map_append,
      ← (NonRevocation.check_eq_ok_iff.1 hproof).1]
    rfl

theorem map_shape_intrinsicValues (h : r.check hash = .ok c) :
    ((c.layout.intrinsicInputs.map (·.name)).zip (r.intrinsicValues c)).map shape =
      c.layout.intrinsicInputs.map fun input => (input.name, input.length) := by
  have hshape : shape = Prod.map id InputValue.length? := rfl
  rw [hshape, ← List.zip_map_right, map_length?_intrinsicValues h, List.zip_map']

theorem map_shape_entries (h : r.check hash = .ok c) :
    ((r.entries c).map shape).Perm
      (c.layout.intrinsicInputs.map (fun input => (input.name, input.length)) ++
        (c.layout.inputNames ++ c.layout.operationNames).map (·, none)) := by
  have hclaims :
      (r.parts.flatMap fun part => claimEntries (ofClaim part.1.1) part.1.2 part.2).map shape =
        (r.parts.flatMap fun part =>
          (ofClaim part.1.1).inputs ++ (ofClaim part.1.1).operations).map (·, none) := by
    rw [List.map_flatMap, List.map_flatMap]
    exact List.flatMap_congr fun part hpart => map_shape_claimEntries (passes_of_mem_parts h hpart)
  rw [entries_eq h, List.map_append, map_shape_intrinsicValues h, hclaims, Layout.inputNames,
    Layout.operationNames, flatMap_claims h, flatMap_claims h]
  exact ((List.flatMap_append_perm _ _ _).symm.map _).append_left _

theorem nodup_names (h : r.check hash = .ok c) : c.layout.names.Nodup := by
  obtain ⟨-, s, -, -, -, -, -, -, -, -, hlayout⟩ := check_eq_ok_iff.1 h
  rw [layout_of_check h]
  exact ((Layout.ofSchema_eq_ok_iff _ _).1 hlayout).2.1

theorem nodup_entries (h : r.check hash = .ok c) :
    ((r.entries c).map Prod.fst).Nodup := by
  have hnames := nodup_names h
  rw [Layout.names] at hnames
  have hshapes := (map_shape_entries h).map Prod.fst
  have hfst : Prod.fst ∘ shape = Prod.fst := rfl
  rw [List.map_map, hfst] at hshapes
  refine hshapes.nodup_iff.2 ?_
  simpa [Function.comp_def] using (List.nodup_append.1 hnames).1

theorem get?_fixed (h : r.check hash = .ok c) : ∀ entry ∈ fixedNames.zip (r.fixedValues c),
    (Keyed.ofList (r.entries c)).get? entry.1 = some (.scalar entry.2) := by
  intro entry hentry
  refine (Keyed.get?_ofList (nodup_entries h)).2 ?_
  rw [entries_eq_append h, List.zip_map_right, List.append_assoc]
  exact List.mem_append_left _ (List.mem_map_of_mem hentry)

/-! ### The witness and its layout -/

theorem intrinsicWitness_of_check (h : r.check hash = .ok c) :
    r.intrinsicWitness c =
      .ofList ((c.layout.intrinsicInputs.map (·.name)).zip (r.intrinsicValues c)) := by
  rw [intrinsicWitness, intrinsicNames_of_check h]

theorem checkIntrinsics_of_check (h : r.check hash = .ok c) :
    checkIntrinsics c.layout (r.intrinsicWitness c) = .ok () := by
  rw [intrinsicWitness_of_check h]
  have hnodup : (((c.layout.intrinsicInputs.map (·.name)).zip
      (r.intrinsicValues c)).map Prod.fst).Nodup := by
    have hentries := nodup_entries h
    rw [entries_eq h, List.map_append] at hentries
    exact (List.nodup_append.1 hentries).1
  refine Result.forM_eq_ok_iff.2 fun input hinput => ?_
  have hshape : (input.name, input.length) ∈ ((c.layout.intrinsicInputs.map (·.name)).zip
      (r.intrinsicValues c)).map shape := by
    rw [map_shape_intrinsicValues h]
    exact List.mem_map_of_mem hinput
  obtain ⟨⟨_, value⟩, hentry, heq⟩ := List.mem_map.1 hshape
  obtain ⟨rfl, hlength⟩ := Prod.mk.inj heq
  rw [checkInput, (Keyed.get?_ofList hnodup).2 hentry]
  exact if_pos hlength

theorem insertClaim_of_passes {part : (Claim × ClaimValue) × Statement} (w : Witness)
    (h : part.1.2.type = part.1.1.type ∧ ∃ disclosed, part.2.check part.1.2 = .ok disclosed) :
    insertClaim w (ofClaim part.1.1, part.1.2, part.2) =
      .ok ((claimEntries (ofClaim part.1.1) part.1.2 part.2).foldl
        (fun w (name, value) => w.insert name value) w) := by
  obtain ⟨htype, disclosed, hcheck⟩ := h
  have hconcerns := (Statement.check_eq_ok_iff_admits.1 hcheck).1
  exact if_pos ⟨length_limbs htype, length_operands htype hconcerns⟩

theorem insertClaims_of_check (h : r.check hash = .ok c) :
    (r.claimParts c).foldlM insertClaim (r.intrinsicWitness c) = .ok (.ofList (r.entries c)) := by
  rw [claimParts_eq h, List.foldlM_map, Result.foldlM_eq_ok fun part hpart w =>
    insertClaim_of_passes w (passes_of_mem_parts h hpart), intrinsicWitness_of_check h, entries_eq h,
    Keyed.ofList, Keyed.ofList, List.foldl_append, List.foldl_flatMap]

theorem checkCount_of_check (h : r.check hash = .ok c) :
    checkCount c.layout (.ofList (r.entries c)) = .ok () := by
  have hlength := (map_shape_entries h).length_eq
  rw [List.length_map, List.length_append, List.length_map, List.length_map, List.length_append,
    ← Nat.add_assoc] at hlength
  exact if_pos ((Keyed.size_ofList (nodup_entries h)).trans hlength)

/-- A witness that is given away fits its circuit before it is held against it. -/
theorem witness_of_check (h : r.check hash = .ok c) :
    r.witness hash = .ok (.ofList (r.entries c)) := by
  simp only [witness, Result.bind_eq_ok_iff]
  exact ⟨c, h, (), checkIntrinsics_of_check h, _, insertClaims_of_check h, (), checkCount_of_check h, rfl⟩

/-! ### Witnesses -/

theorem witness_eq_ok_iff {w : Witness} :
    r.witness hash = .ok w ↔ ∃ c, r.check hash = .ok c ∧ w = .ofList (r.entries c) := by
  constructor
  · intro h
    obtain ⟨c, hc, -⟩ := Result.bind_eq_ok_iff.1 h
    rw [witness_of_check hc] at h
    exact ⟨c, hc, (Except.ok.inj h).symm⟩
  · rintro ⟨c, hc, rfl⟩
    exact witness_of_check hc

end WitnessRequest

end Vouch

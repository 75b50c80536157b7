import Vouch.Proofs.Circuit.Constraints
import Vouch.Proofs.Poseidon.Chain
import Vouch.Proofs.Witness.Digest

/-! The integers of a witness as elements of the field.

A circuit computes in a field, and an integer at or above its order would stand there for
another one. Most integers of a witness come out of a check that keeps them below it: bounded
types, decoded signatures, what is hashed for the pseudonym, the proof of non-revocation, and
the limbs and operands of the claims. Six are set as they come, out of the header, the issuance
and the request (`uncheckedNames`), so that the whole witness is in the field exactly if those
are (`witness_elements`). -/
namespace Vouch

/-- The integers of an input. -/
def InputValue.integers : InputValue → List Nat
  | .scalar n => [n]
  | .array ns => ns

def InputValue.InField (v : InputValue) : Prop :=
  ∀ n ∈ v.integers, n < fieldOrder

theorem InputValue.inField_scalar {n : Nat} : (scalar n).InField ↔ n < fieldOrder :=
  List.forall_mem_singleton

namespace WitnessRequest

open Circuit (Intrinsic)

variable {r : WitnessRequest} {hash : FieldHash} {c : Checked} {w : Witness}

/-! ### What the checks bound -/

theorem checkBound_eq_ok_iff {what : String} {n : Nat} {i : Intrinsic} :
    checkBound what n i = .ok () ↔ n < i.signal.ceiling := by
  unfold checkBound
  split <;> simp [*]

theorem pseudonymDigest_lt {d : Felt} (h : r.pseudonymDigest hash = .ok d) :
    r.identitySecret < fieldOrder ∧ r.externalNullifier < fieldOrder ∧ r.pseudonym < fieldOrder := by
  obtain ⟨secret, hsecret, h⟩ := Result.bind_eq_ok_iff.1 h
  obtain ⟨nullifier, hnullifier, h⟩ := Result.bind_eq_ok_iff.1 h
  obtain ⟨pseudonym, hpseudonym, -⟩ := Result.bind_eq_ok_iff.1 h
  rw [← Field.ofNat_eq_ok_iff.1 hsecret, ← Field.ofNat_eq_ok_iff.1 hnullifier,
    ← Field.ofNat_eq_ok_iff.1 hpseudonym]
  exact ⟨secret.isLt, nullifier.isLt, pseudonym.isLt⟩

/-- In the field, the three have a digest. -/
theorem exists_pseudonymDigest (hsecret : r.identitySecret < fieldOrder)
    (hexternal : r.externalNullifier < fieldOrder) (hpseudonym : r.pseudonym < fieldOrder) :
    ∃ d, r.pseudonymDigest Poseidon.hash = .ok d := by
  have hne : [(⟨_, hsecret⟩ : Felt), ⟨_, hexternal⟩, ⟨_, hpseudonym⟩] ≠ [] := List.cons_ne_nil _ _
  obtain ⟨d, hd⟩ := Poseidon.exists_chain (fun _ => Poseidon.exists_permute) hne
  exact ⟨d, Result.bind_eq_ok_iff.2 ⟨_, Field.ofNat_of_lt hsecret, Result.bind_eq_ok_iff.2 ⟨_,
    Field.ofNat_of_lt hexternal, Result.bind_eq_ok_iff.2 ⟨_, Field.ofNat_of_lt hpseudonym, hd⟩⟩⟩⟩

theorem response_lt {bytes key : List UInt8} {s : DecodedSignature Edwards.Point}
    (h : edwardsCurve.decodeSignature bytes key = .ok s) : s.response < edwardsCurve.order := by
  unfold SigningCurve.decodeSignature at h
  split at h
  · split at h
    · cases h
    · split at h
      · cases h
      · dsimp only at h
        split at h
        · rename_i hresponse
          obtain rfl := Except.ok.inj h
          exact hresponse
        · cases h
  · cases h

/-! ### What nothing bounds -/

/-- The inputs that are set without a check. -/
def uncheckedNames : List String :=
  ["type", "context", "id", "sig_id", "sig_identity_commitment", "internal_nullifier"]

def uncheckedValues (r : WitnessRequest) (i : Issuance) : List Nat :=
  [r.credential.header.type, r.credential.header.context, r.credential.header.id, i.signatureId,
    i.identityCommitment, r.internalNullifier]

theorem unchecked_subset (r : WitnessRequest) (c : Checked) :
    uncheckedNames.zip (r.uncheckedValues c.issuance) ⊆ fixedNames.zip (r.fixedValues c) := by
  simp [uncheckedNames, uncheckedValues, fixedNames, fixedValues, Credential.signedIntegers,
    SigningCurve.signals]

theorem lt_of_mem_fixed (h : r.check hash = .ok c) : ∀ entry ∈ fixedNames.zip (r.fixedValues c),
    entry.1 ∉ uncheckedNames → entry.2 < fieldOrder := by
  obtain ⟨-, s, hs, hissuance, -, -, -, -, hsignature, hdigest, -⟩ := check_eq_ok_iff.1 h
  obtain ⟨hsecret, hexternal, hpseudonym⟩ := pseudonymDigest_lt hdigest
  have hword : ∀ n : UInt64, n.toNat < fieldOrder := fun n =>
    Field.lt_fieldOrder n.toNat_lt (by decide)
  have hscheme : ∀ scheme : Scheme, scheme.code < fieldOrder := fun | .babyzk => by decide
  have hresponse : c.signature.response < fieldOrder :=
    Nat.lt_trans (response_lt hsignature) (by decide)
  have hid : r.presentation.idEqualsTo < fieldOrder :=
    Field.lt_fieldOrder r.presentation.idFits (by decide)
  simp only [fixedNames, fixedValues, Credential.signedIntegers, SigningCurve.signals, List.cons_append,
    List.nil_append, List.zip_cons_cons, List.zip_nil_left, List.forall_mem_cons]
  -- One by one in the order of `fixedNames`; an unchecked name contradicts the assumption.
  exact
    ⟨fun _ => hword _, absurd (by decide), absurd (by decide), absurd (by decide), fun _ => hscheme _,
      absurd (by decide), fun _ => hword _, absurd (by decide), fun _ => Fin.isLt _, fun _ => Fin.isLt _,
      fun _ => Fin.isLt _, fun _ => Fin.isLt _, fun _ => hresponse, fun _ => hsecret, absurd (by decide),
      fun _ => hexternal, fun _ => hpseudonym, fun _ => Fin.isLt _, fun _ => hword _, fun _ => hid, nofun⟩

/-- A proof of non-revocation is in the field once it is checked. -/
theorem inField_revocationEntries (h : r.check hash = .ok c) :
    ∀ entry ∈ revocationEntries c, entry.2.InField := by
  unfold revocationEntries
  rcases revocation_eq_ok_iff.1 (check_eq_ok_iff.1 h).1 with
    ⟨-, hrevocation⟩ | ⟨depth, proof, -, -, hproof, hrevocation⟩
  · rw [hrevocation]
    exact nofun
  · have hlt := (NonRevocation.check_eq_ok_iff.1 hproof).2
    rw [hrevocation]
    simp only [NonRevocation.integers, List.forall_mem_append, List.forall_mem_cons] at hlt
    obtain ⟨⟨hroot, holdKey, holdValue, hvalue, -⟩, hsiblings⟩ := hlt
    have hflag : proof.isOldZero.toNat < 2 ^ 1 := proof.isOldZero.toNat_lt
    simp only [Option.elim_some, revocationNames, revocationValues, List.zip_cons_cons, List.zip_nil_left,
      List.forall_mem_cons, InputValue.inField_scalar]
    exact ⟨hroot, hsiblings, holdKey, holdValue, Field.lt_fieldOrder hflag (by decide), hvalue, nofun⟩

/-- Limbs and operands are in the field. -/
theorem inField_claimEntries {part : (Claim × ClaimValue) × Statement}
    (h : part.1.2.type = part.1.1.type ∧ ∃ disclosed, part.2.check part.1.2 = .ok disclosed) :
    ∀ entry ∈ claimEntries (Circuit.ClaimSignals.ofClaim part.1.1) part.1.2 part.2, entry.2.InField := by
  obtain ⟨-, disclosed, hcheck⟩ := h
  have hconcerns := (Statement.check_eq_ok_iff_admits.1 hcheck).1
  intro entry hentry
  obtain ⟨n, hn, hvalue⟩ := List.mem_map.1 (List.of_mem_zip (a := entry.1) (b := entry.2) hentry).2
  rw [← hvalue, InputValue.inField_scalar]
  exact (List.mem_append.1 hn).elim (limbs_lt _ n) (operands_lt hconcerns n)

/-- An entry is unchecked or in the field. -/
theorem inField_entries (h : r.check hash = .ok c) :
    ∀ entry ∈ r.entries c, entry.1 ∉ uncheckedNames → entry.2.InField := by
  intro entry hentry hname
  rw [entries_eq_append h, List.zip_map_right] at hentry
  rcases List.mem_append.1 hentry with hentry | hentry
  · rcases List.mem_append.1 hentry with hentry | hentry
    · obtain ⟨fixed, hfixed, rfl⟩ := List.mem_map.1 hentry
      exact InputValue.inField_scalar.2 (lt_of_mem_fixed h fixed hfixed hname)
    · exact inField_revocationEntries h entry hentry
  · obtain ⟨part, hpart, hentry⟩ := List.mem_flatMap.1 hentry
    exact inField_claimEntries (passes_of_mem_parts h hpart) entry hentry

/-- **A witness is in the field exactly if the unchecked integers are.** -/
theorem witness_elements (h : r.witness hash = .ok w) :
    ∃ s, r.credential.signatures[r.index]? = some s ∧
      w.Holds uncheckedNames (r.uncheckedValues s.issuance) ∧
      (∀ name value, w.get? name = some value → name ∉ uncheckedNames → value.InField) ∧
      ((∀ name value, w.get? name = some value → value.InField) ↔
        ∀ n ∈ r.uncheckedValues s.issuance, n < fieldOrder) := by
  obtain ⟨c, hc, rfl⟩ := witness_eq_ok_iff.1 h
  obtain ⟨-, s, hs, hissuance, -⟩ := check_eq_ok_iff.1 hc
  have hunchecked := holds_fixed hc rfl (r.unchecked_subset c)
  have hchecked : ∀ name value, (Keyed.ofList (r.entries c)).get? name = some value →
      name ∉ uncheckedNames → value.InField := fun name value hvalue =>
    inField_entries hc (name, value) ((Keyed.get?_ofList (nodup_entries hc)).1 hvalue)
  rw [hissuance] at hunchecked
  refine ⟨s, hs, hunchecked, hchecked, fun hall n hn => ?_, fun hlt name value hvalue => ?_⟩
  · obtain ⟨name, hget⟩ := hunchecked.exists_name hn
    exact InputValue.inField_scalar.1 (hall name _ hget)
  · by_cases hname : name ∈ uncheckedNames
    · obtain ⟨n, hn, hget⟩ := hunchecked.exists_value hname
      obtain rfl := Option.some.inj (hvalue.symm.trans hget)
      exact InputValue.inField_scalar.2 (hlt n hn)
    · exact hchecked name value hvalue hname

theorem witness_elements_age :
    ∃ w, ageRequest.witness lengthHash = .ok w ∧ ∀ name value, w.get? name = some value → value.InField := by
  obtain ⟨c, hc⟩ := exists_check_ageRequest
  have hw := witness_eq_ok_iff.2 ⟨c, hc, rfl⟩
  obtain ⟨s, hs, -, -, hfield⟩ := witness_elements hw
  obtain rfl := Option.some.inj hs
  exact ⟨_, hw, hfield.2 (by decide)⟩

/-! ### A nullifier out of the field -/

/-- The request of `ageRequest` with another purpose and another nullifier. -/
def ageRequestFor (context internalNullifier : Nat) : WitnessRequest :=
  { ageRequest with
    credential := { ageRequest.credential with header := .make 0 context 8 }
    internalNullifier }

/-- No purpose and no nullifier is refused. -/
theorem exists_check_ageRequestFor (context internalNullifier : Nat) :
    ∃ c, (ageRequestFor context internalNullifier).check Poseidon.hash = .ok c := by
  have hcompile := (Circuit.compile_eq_ok_iff _ _).1 Circuit.compile_ageSchema
  have hlayout := (Circuit.Layout.ofSchema_eq_ok_iff _ _).2 ⟨rfl, hcompile.2⟩
  have hsmall : ∀ n < 15, n < fieldOrder := fun n hn => Nat.lt_trans hn (by decide)
  obtain ⟨d, hd⟩ := exists_pseudonymDigest (r := ageRequestFor context internalNullifier)
    (hsmall 11 (by decide)) (hsmall 13 (by decide)) (hsmall 14 (by decide))
  exact ⟨⟨_, _, _, d, _⟩, check_eq_ok_iff.2 ⟨rfl, _, rfl, rfl, ⟨_, rfl⟩, rfl, rfl, rfl,
    decodeSignature_neutral, hd, hlayout⟩⟩

/-- The order of the field, which is zero in the circuit, is taken for a nullifier. -/
theorem witness_not_inField :
    ∃ w, (ageRequestFor 7 fieldOrder).witness Poseidon.hash = .ok w ∧
      w.get? "internal_nullifier" = some (.scalar fieldOrder) ∧
      ¬ (InputValue.scalar fieldOrder).InField := by
  obtain ⟨c, hc⟩ := exists_check_ageRequestFor 7 fieldOrder
  have hget := get?_fixed hc ("internal_nullifier", fieldOrder)
    (by simp [fixedNames, fixedValues, Credential.signedIntegers, SigningCurve.signals, ageRequestFor])
  exact ⟨_, witness_eq_ok_iff.2 ⟨c, hc, rfl⟩, hget, mt InputValue.inField_scalar.1 (Nat.lt_irrefl _)⟩

end WitnessRequest

end Vouch

import Vouch.Proofs.Aligned
import Vouch.Proofs.Witness.Elements

/-! What a proof discloses of a witness.

A circuit copies some inputs to its intrinsic outputs, and a verifier refuses a proof in which
one of them reaches its ceiling. What the holder brings stays below: with too great an external
nullifier or pseudonym there is no witness, and with too great an id there is no presentation.
What comes out of the header is not looked at, so that a proof passes exactly if the type and
the context of its credential fit (`witness_disclosure`). -/
namespace Vouch

open Circuit (Intrinsic compile)

/-! ### Copied inputs -/

def InputValue.scalar? : InputValue → Option Nat
  | .scalar n => some n
  | .array _ => none

def Witness.scalar? (w : Witness) (name : String) : Option Nat :=
  (w.get? name).bind InputValue.scalar?

/-- The intrinsic signals of a proof. The nullifier and the id of the key are digests that the
circuit makes itself; the id to compare with stands over a bit that says whether it is the same. -/
def Witness.disclosed? (w : Witness) (nullifier keyId : Felt) (same : Bool) : Intrinsic → Option Nat
  | .type => w.scalar? "type"
  | .context => w.scalar? "context"
  | .nullifier => some nullifier.val
  | .externalNullifier => w.scalar? "external_nullifier"
  | .revealIdentity => w.scalar? "revealing_identity"
  | .expirationLb => w.scalar? "expiration_lb"
  | .keyId => some keyId.val
  | .idEqualsTo => (w.scalar? "id_equals_to").map fun id => 2 * id + same.toNat
  | .revocationRoot => w.scalar? "sig_revocation_smt_root"

/-- What a signal takes from the header stays below its ceiling. -/
def Header.Fits (h : Header) : Intrinsic → Prop
  | .type => h.type < Intrinsic.type.signal.ceiling
  | .context => h.context < Intrinsic.context.signal.ceiling
  | _ => True

/-- The id over a bit has one bit more. -/
theorem Presentation.disclosed_lt (p : Presentation) :
    2 * p.idEqualsTo + 1 < Intrinsic.idEqualsTo.signal.ceiling := by
  have hceiling : Intrinsic.idEqualsTo.signal.ceiling = 2 * 2 ^ idWidth := by decide
  have hid := p.idFits
  omega

namespace WitnessRequest

variable {r : WitnessRequest} {hash : FieldHash} {c : Checked} {w : Witness}

/-- The inputs that are copied in every circuit. -/
def copiedNames : List String :=
  ["type", "context", "external_nullifier", "revealing_identity", "expiration_lb", "id_equals_to"]

def copiedValues (r : WitnessRequest) : List Nat :=
  [r.credential.header.type, r.credential.header.context, r.externalNullifier, r.pseudonym,
    r.presentation.expirationLb.toNat, r.presentation.idEqualsTo]

theorem copied_subset (r : WitnessRequest) (c : Checked) :
    copiedNames.zip r.copiedValues ⊆ fixedNames.zip (r.fixedValues c) := by
  simp [copiedNames, copiedValues, fixedNames, fixedValues, Credential.signedIntegers,
    SigningCurve.signals]

/-- The root of a revocable schema is set, and is in the field. -/
theorem exists_root (h : r.check hash = .ok c) (hrevocable : r.credential.body.schema.isRevocable = true) :
    ∃ root < fieldOrder,
      (Keyed.ofList (r.entries c)).get? "sig_revocation_smt_root" = some (.scalar root) := by
  rcases revocation_eq_ok_iff.1 (check_eq_ok_iff.1 h).1 with
    ⟨hdepth, -⟩ | ⟨depth, proof, -, -, hproof, hrevocation⟩
  · rw [Schema.isRevocable, hdepth] at hrevocable
    cases hrevocable
  · have hroot : proof.root ∈ proof.integers := List.mem_cons_self ..
    refine ⟨proof.root, (NonRevocation.check_eq_ok_iff.1 hproof).2 _ hroot, ?_⟩
    refine (Keyed.get?_ofList (nodup_entries h)).2 ?_
    rw [entries_eq_append h, revocationEntries, hrevocation]
    exact List.mem_append_left _ (List.mem_append_right _ (List.mem_cons_self ..))

/-! ### Ceilings -/

theorem exists_disclosed (h : r.check hash = .ok c) (nullifier keyId : Felt) (same : Bool) :
    ∀ i ∈ Intrinsic.ofRevocable r.credential.body.schema.isRevocable,
      ∃ n, Witness.disclosed? (.ofList (r.entries c)) nullifier keyId same i = some n ∧
        (n < i.signal.ceiling ↔ r.credential.header.Fits i) := by
  obtain ⟨-, s, -, -, -, -, hexternal, hpseudonym, -⟩ := check_eq_ok_iff.1 h
  have hscalar : ∀ entry ∈ copiedNames.zip r.copiedValues,
      Witness.scalar? (.ofList (r.entries c)) entry.1 = some entry.2 := fun entry hentry =>
    congrArg (Option.bind · InputValue.scalar?) (get?_fixed h entry (r.copied_subset c hentry))
  simp only [copiedNames, copiedValues, List.zip_cons_cons, List.zip_nil_left, List.forall_mem_cons]
    at hscalar
  obtain ⟨htype, hcontext, hexternal', hpseudonym', hexpiration, hid, -⟩ := hscalar
  intro i hi
  cases i with
  | type => exact ⟨_, htype, Iff.rfl⟩
  | context => exact ⟨_, hcontext, Iff.rfl⟩
  | nullifier => exact ⟨_, rfl, iff_of_true nullifier.isLt trivial⟩
  | externalNullifier => exact ⟨_, hexternal', iff_of_true (checkBound_eq_ok_iff.1 hexternal) trivial⟩
  | revealIdentity => exact ⟨_, hpseudonym', iff_of_true (checkBound_eq_ok_iff.1 hpseudonym) trivial⟩
  | expirationLb => exact ⟨_, hexpiration, iff_of_true r.presentation.expirationLb.toNat_lt trivial⟩
  | keyId => exact ⟨_, rfl, iff_of_true keyId.isLt trivial⟩
  | idEqualsTo =>
    refine ⟨2 * r.presentation.idEqualsTo + same.toNat, ?_, iff_of_true ?_ trivial⟩
    · rw [Witness.disclosed?, hid]
      rfl
    · exact Nat.lt_of_le_of_lt (Nat.add_le_add_left same.toNat_le _) r.presentation.disclosed_lt
  | revocationRoot =>
    cases hrevocable : r.credential.body.schema.isRevocable with
    | true =>
      obtain ⟨root, hroot, hget⟩ := exists_root h hrevocable
      exact ⟨root, congrArg (Option.bind · InputValue.scalar?) hget, iff_of_true hroot trivial⟩
    | false =>
      rw [hrevocable] at hi
      exact absurd hi (by decide)

/-- A header fits if its type and its context do. -/
theorem fits_iff (header : Header) (revocable : Bool) :
    (∀ i ∈ Intrinsic.ofRevocable revocable, header.Fits i) ↔
      header.type < Intrinsic.type.signal.ceiling ∧ header.context < Intrinsic.context.signal.ceiling := by
  cases revocable with
  | true => simp [Intrinsic.ofRevocable, Intrinsic.all, Intrinsic.fixed, Header.Fits]
  | false => simp [Intrinsic.ofRevocable, Intrinsic.fixed, Header.Fits]

/-- **Of the intrinsic signals only those of the header can be refused.** The outputs of the claims are
below their ceilings, like those of any run. -/
theorem witness_disclosure (h : r.witness hash = .ok w) :
    ∃ c, compile r.credential.body.schema = .ok c ∧
      w.Holds copiedNames r.copiedValues ∧
      r.externalNullifier < Intrinsic.externalNullifier.signal.ceiling ∧
      r.pseudonym < Intrinsic.revealIdentity.signal.ceiling ∧
      r.presentation.expirationLb.toNat < Intrinsic.expirationLb.signal.ceiling ∧
      2 * r.presentation.idEqualsTo + 1 < Intrinsic.idEqualsTo.signal.ceiling ∧
      ∀ (nullifier keyId : Felt) (same : Bool), ∃ value : Intrinsic → Nat,
        (∀ i ∈ Intrinsic.ofRevocable r.credential.body.schema.isRevocable,
          w.disclosed? nullifier keyId same i = some (value i)) ∧
        ∀ outputs, List.Forall₂ (fun out n => n < out.ceiling) c.claimOutputs outputs →
          (c.checkSignals
              ((Intrinsic.ofRevocable r.credential.body.schema.isRevocable).map value ++ outputs) = .ok () ↔
            r.credential.header.type < Intrinsic.type.signal.ceiling ∧
              r.credential.header.context < Intrinsic.context.signal.ceiling) := by
  obtain ⟨c, hc, rfl⟩ := witness_eq_ok_iff.1 h
  obtain ⟨-, s, -, -, -, -, hexternal, hpseudonym, -⟩ := check_eq_ok_iff.1 hc
  have hcompile := compile_of_check hc
  refine ⟨_, hcompile, holds_fixed hc rfl (r.copied_subset c), checkBound_eq_ok_iff.1 hexternal,
    checkBound_eq_ok_iff.1 hpseudonym, r.presentation.expirationLb.toNat_lt, r.presentation.disclosed_lt,
    fun nullifier keyId same => ?_⟩
  choose! value hvalue using exists_disclosed hc nullifier keyId same
  refine ⟨value, fun i hi => (hvalue i hi).1, fun outputs houtputs => ?_⟩
  rw [Circuit.checkSignals_eq_ok_iff, Circuit.publicSignals_of_compile hcompile,
    Aligned.forall₂_map_append_iff houtputs, ← fits_iff _ r.credential.body.schema.isRevocable]
  exact forall₂_congr fun i hi => (hvalue i hi).2

theorem witness_disclosure_age :
    ∃ w, ageRequest.witness lengthHash = .ok w ∧ ∃ c, compile Circuit.ageSchema = .ok c ∧
      ∃ value : Intrinsic → Nat,
        (∀ i ∈ Intrinsic.all, w.disclosed? 5 6 true i = some (value i)) ∧
        c.checkSignals (Intrinsic.all.map value ++ [18, 255]) = .ok () := by
  obtain ⟨c, hc⟩ := exists_check_ageRequest
  have hw := witness_eq_ok_iff.2 ⟨c, hc, rfl⟩
  obtain ⟨circuit, hcompile, -, -, -, -, -, hdisclosed⟩ := witness_disclosure hw
  obtain ⟨value, hvalue, hsignals⟩ := hdisclosed 5 6 true
  refine ⟨_, hw, circuit, hcompile, value, hvalue, (hsignals [18, 255] ?_).2 (by decide)⟩
  rw [Circuit.claimOutputs_of_compile hcompile]
  exact .cons (by decide) (.cons (by decide) .nil)

/-! ### A purpose above the ceiling -/

/-- Such a purpose is not refused. -/
theorem witness_above_ceiling :
    ∃ w, (ageRequestFor (2 ^ 160) 12).witness Poseidon.hash = .ok w ∧
      w.get? "context" = some (.scalar (2 ^ 160)) ∧ ¬ 2 ^ 160 < Intrinsic.context.signal.ceiling := by
  obtain ⟨c, hc⟩ := exists_check_ageRequestFor (2 ^ 160) 12
  have hget := get?_fixed hc ("context", 2 ^ 160) (copied_subset _ _
    (by simp [copiedNames, copiedValues, ageRequestFor, Header.make]))
  exact ⟨_, witness_eq_ok_iff.2 ⟨c, hc, rfl⟩, hget, by decide⟩

end WitnessRequest

end Vouch

import Vouch.Proofs.Circuit.Compiled
import Vouch.Proofs.Witness.Entries

/-! Witnesses and the inputs of circuits.

A witness holds a value for every input that the circuit of its schema declares, an array
where the source declares one of that length, and no other (`witness_fits_circuit`). -/
namespace Vouch.WitnessRequest

open Circuit (Layout)
open Circuit.Source (inputs)

variable {r : WitnessRequest} {hash : FieldHash} {c : Checked}

/-- The circuit of the schema is that of the layout that the witness is made from. -/
theorem compile_of_check (h : r.check hash = .ok c) :
    Circuit.compile r.credential.body.schema = .ok (Circuit.ofLayout c.layout) := by
  obtain ⟨-, s, -, -, -, -, -, -, -, -, hlayout⟩ := check_eq_ok_iff.1 h
  rw [Circuit.compile, hlayout]
  rfl

/-- The entries of a witness have the names and shapes that the source declares. -/
theorem map_shape_perm_inputs (h : r.check hash = .ok c) :
    ((r.entries c).map shape).Perm (inputs (Circuit.ofLayout c.layout).code) := by
  have hshapes := map_shape_entries h
  rw [layout_of_check h, ← Circuit.inputs_code (compile_of_check h)] at hshapes
  exact hshapes

/-- **A witness has exactly the inputs of its circuit, each as long as it is declared.** -/
theorem witness_fits_circuit {w : Witness} (h : r.witness hash = .ok w) :
    ∃ c, Circuit.compile r.credential.body.schema = .ok c ∧
      (∀ name, name ∈ w.keys ↔ name ∈ (inputs c.code).map Prod.fst) ∧
      ∀ name length, (name, length) ∈ inputs c.code ↔
        ∃ value, w.get? name = some value ∧ value.length? = length := by
  obtain ⟨c, hc, rfl⟩ := witness_eq_ok_iff.1 h
  have hperm := map_shape_perm_inputs hc
  have hnodup := nodup_entries hc
  refine ⟨_, compile_of_check hc, fun name => ?_, fun name length => ?_⟩
  · have hfst : Prod.fst ∘ shape = Prod.fst := rfl
    rw [Keyed.mem_keys_ofList_iff, ← (hperm.map Prod.fst).mem_iff, List.map_map, hfst]
  · rw [← hperm.mem_iff]
    simp only [Keyed.get?_ofList hnodup, List.mem_map, shape, Prod.mk.injEq]
    constructor
    · rintro ⟨⟨_, value⟩, hentry, rfl, hlength⟩
      exact ⟨value, hentry, hlength⟩
    · intro ⟨value, hentry, hlength⟩
      exact ⟨(name, value), hentry, rfl, hlength⟩

/-! ### A request that passes -/

/-- The neutral point of the curve, as it is written. -/
def neutralBytes : List UInt8 :=
  1 :: List.replicate 31 0

theorem age_ordered : 18 ≤ 255 := by decide

theorem age_fits : 255 < 2 ^ 8 := by decide

theorem id_fits : 8 < 2 ^ idWidth := by decide

/-- Somebody of 42 years proves that they are of age, with a signature of zero under the neutral key. -/
def ageRequest : WitnessRequest where
  credential :=
    { header := .make 0 7 8
      body :=
        { schema := Circuit.ageSchema
          values := [.integer ⟨8, 42, Circuit.validWidth_byte, by decide⟩]
          typed := by decide }
      signatures :=
        [{ issuance :=
            { scheme := .babyzk
              signatureId := 3
              expiredAt := 1000
              identityCommitment := 5
              issuerId := 0
              chainId := 0
              publicKey := neutralBytes }
           bytes := neutralBytes ++ List.replicate 32 0
           attachments := none }]
      attachments := .empty }
  presentation :=
    { expirationLb := 10
      idEqualsTo := 8
      statements := [.range ⟨8, 18, 255, age_ordered, age_fits⟩]
      idFits := id_fits }
  identitySecret := 11
  internalNullifier := 12
  externalNullifier := 13
  pseudonym := 14
  unrevoked := some ⟨1, [2, 3], 0, 0, true, 0⟩
  chosen := none

/-- A hash for which only the number of elements counts. -/
def lengthHash : FieldHash := fun elements => .ok (Field.reduce elements.length)

theorem decode_neutralBytes : edwardsCurve.decode? neutralBytes = some Edwards.zero := by
  have h : Edwards.decode? neutralBytes = some Edwards.zero := by decide +kernel
  exact h

theorem decodeSignature_neutral :
    edwardsCurve.decodeSignature (neutralBytes ++ List.replicate 32 0) neutralBytes =
      .ok ⟨Edwards.zero, Edwards.zero, 0⟩ := by
  have hlength : (neutralBytes ++ List.replicate 32 0).length = signatureLength := by decide
  have htake : (neutralBytes ++ List.replicate 32 0).take secretLength = neutralBytes := by decide
  have hresponse :
      Bytes.ofLittleEndian ((neutralBytes ++ List.replicate 32 0).drop secretLength) = 0 := by decide
  have horder : 0 < edwardsCurve.order := by decide
  simp only [SigningCurve.decodeSignature, hlength, if_true, decode_neutralBytes, htake, hresponse,
    horder]

theorem exists_check_ageRequest : ∃ c, ageRequest.check lengthHash = .ok c := by
  have hcompile := (Circuit.compile_eq_ok_iff _ _).1 Circuit.compile_ageSchema
  have hrevocation : ageRequest.revocation = .ok ageRequest.unrevoked := rfl
  have hlayout := (Layout.ofSchema_eq_ok_iff _ _).2 ⟨rfl, hcompile.2⟩
  exact ⟨⟨_, _, _, Field.reduce 3, _⟩, check_eq_ok_iff.2 ⟨hrevocation, _, rfl, rfl, ⟨_, rfl⟩, rfl, rfl,
    rfl, decodeSignature_neutral, rfl, hlayout⟩⟩

theorem witness_fits_circuit_age :
    ∃ w c, ageRequest.witness lengthHash = .ok w ∧ Circuit.compile Circuit.ageSchema = .ok c ∧
      (∀ name, name ∈ w.keys ↔ name ∈ (inputs c.code).map Prod.fst) ∧
      ∀ name length, (name, length) ∈ inputs c.code ↔
        ∃ value, w.get? name = some value ∧ value.length? = length := by
  obtain ⟨c, hc⟩ := exists_check_ageRequest
  have hw := witness_eq_ok_iff.2 ⟨c, hc, rfl⟩
  obtain ⟨circuit, hcompile, hfits⟩ := witness_fits_circuit hw
  exact ⟨_, circuit, hw, hcompile, hfits⟩

end Vouch.WitnessRequest

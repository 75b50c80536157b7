import Vouch.Groth16.Verification
import Vouch.Proofs.Circuit.Signals
import Vouch.Proofs.Groth16.Key

/-! What is checked before a pairing is computed.

A proof is answered only if its signals are below the ceilings of the circuit and below the
order of the field, there are as many as the circuit and the key have, and all points belong
to their groups (`verify_eq_ok_iff`). So of the integers that are one element of the field at
most one is answered for (`verify_guarded`). -/
namespace Vouch.Groth16

open Pairing

/-! ### Points -/

/-- Every point of the key belongs to its group. -/
structure VerifyingKey.InGroups (k : VerifyingKey) : Prop where
  alpha : isInG1 k.alpha = true
  beta : isInG2 k.beta = true
  gamma : isInG2 k.gamma = true
  delta : isInG2 k.delta = true
  inputs : ∀ p ∈ k.inputs, isInG1 p = true

/-- Every point of the proof belongs to its group. -/
structure Proof.InGroups (p : Proof) : Prop where
  a : isInG1 p.a = true
  b : isInG2 p.b = true
  c : isInG1 p.c = true

theorem VerifyingKey.inGroups_of_json {j : Json} {k : VerifyingKey} (h : ofJson j = .ok k) : k.InGroups := by
  unfold ofJson at h
  split at h
  · cases h
  · obtain ⟨inputs, hinputs, h⟩ := Result.bind_eq_ok_iff.1 h
    obtain ⟨alpha, halpha, h⟩ := Result.bind_eq_ok_iff.1 h
    obtain ⟨beta, hbeta, h⟩ := Result.bind_eq_ok_iff.1 h
    obtain ⟨gamma, hgamma, h⟩ := Result.bind_eq_ok_iff.1 h
    obtain ⟨delta, hdelta, h⟩ := Result.bind_eq_ok_iff.1 h
    cases h
    refine ⟨PointGroup.contains_of_read halpha, PointGroup.contains_of_read hbeta,
      PointGroup.contains_of_read hgamma, PointGroup.contains_of_read hdelta, fun p hp => ?_⟩
    obtain ⟨_, _, hread⟩ := Aligned.exists_of_mem (Result.mapM_eq_ok_iff.1 hinputs).flip hp
    exact PointGroup.contains_of_read hread

theorem VerifyingKey.inGroups_of_text {s : String} {k : VerifyingKey} (h : ofText s = .ok k) : k.InGroups :=
  let ⟨_, _, h⟩ := Result.bind_eq_ok_iff.1 h
  inGroups_of_json h

theorem Proof.inGroups_of_json {j : Json} {p : Proof} (h : ofJson j = .ok p) : p.InGroups := by
  obtain ⟨a, ha, h⟩ := Result.bind_eq_ok_iff.1 h
  obtain ⟨b, hb, h⟩ := Result.bind_eq_ok_iff.1 h
  obtain ⟨c, hc, h⟩ := Result.bind_eq_ok_iff.1 h
  cases h
  exact ⟨PointGroup.contains_of_read ha, PointGroup.contains_of_read hb, PointGroup.contains_of_read hc⟩

/-! ### Verification -/

/-- A proof is admitted to the pairing with a key, with the elements that its signals are. -/
structure Admitted (c : Circuit) (key : String) (d : ProofDocument) (k : VerifyingKey) (signals : List Felt)
    (p : Proof) : Prop where
  key : VerifyingKey.ofText key = .ok k
  proof : Proof.ofJson d.proof = .ok p
  /-- The circuit and the key take as many signals as there are. -/
  count : d.signals.length = c.publicSignals.length
  arity : k.inputs.length = d.signals.length + 1
  below : List.Forall₂ (fun s n => n < s.ceiling) c.publicSignals d.signals
  /-- The elements are the signals themselves, not residues of them. -/
  signals : signals.map Fin.val = d.signals
  reduced : ∀ n ∈ d.signals, n < fieldOrder
  keyPoints : k.InGroups
  proofPoints : p.InGroups

theorem mapM_ofNat_eq_ok_iff {ns : List Nat} {signals : List Felt} :
    (ns.mapM fun n => (Field.ofNat n).reported .invalidSignature) = .ok signals ↔ signals.map Fin.val = ns := by
  have hmap : signals.map Fin.val = ns ↔ signals.map Fin.val = ns.map id := by rw [List.map_id]
  rw [hmap, Aligned.map_eq_map_iff, Result.mapM_eq_ok_iff]
  simp only [Result.reported_eq_ok_iff, Field.ofNat_eq_ok_iff]
  exact ⟨List.Forall₂.flip, List.Forall₂.flip⟩

/-- **What a verification answers.** -/
theorem verify_eq_ok_iff {c : Circuit} {key : String} {d : ProofDocument} {b : Bool} :
    verify c key d = .ok b ↔ ∃ k signals p, Admitted c key d k signals p ∧ accepts k signals p = b := by
  unfold verify
  rw [Result.bind_eq_ok_iff]
  constructor
  · rintro ⟨⟨⟩, hcheck, h⟩
    obtain ⟨k, hk, h⟩ := Result.bind_eq_ok_iff.1 h
    split at h
    · rename_i harity
      obtain ⟨signals, hsignals, h⟩ := Result.bind_eq_ok_iff.1 h
      obtain ⟨p, hp, h⟩ := Result.bind_eq_ok_iff.1 h
      have hbelow := Circuit.checkSignals_eq_ok_iff.1 hcheck
      have hvalues := mapM_ofNat_eq_ok_iff.1 hsignals
      have hreduced : ∀ n ∈ d.signals, n < fieldOrder := by
        rw [← hvalues]
        exact List.forall_mem_map.2 fun a _ => a.isLt
      exact ⟨k, signals, p, ⟨hk, hp, hbelow.length_eq.symm, harity, hbelow, hvalues, hreduced,
        VerifyingKey.inGroups_of_text hk, Proof.inGroups_of_json hp⟩, Except.ok.inj h⟩
    · cases h
  · rintro ⟨k, signals, p, h, rfl⟩
    refine ⟨(), Circuit.checkSignals_eq_ok_iff.2 h.below, ?_⟩
    rw [h.key, mapM_ofNat_eq_ok_iff.2 h.signals, h.proof]
    exact if_pos h.arity

/-- Signals that the circuit refuses are refused whatever comes with them. -/
theorem verify_eq_error {c : Circuit} {signals : List Nat} {e : Error} (h : c.checkSignals signals = .error e)
    (key : String) (proof : Json) : verify c key ⟨proof, signals⟩ = .error e := by
  unfold verify
  rw [h]
  rfl

/-- Reduced integers that are the same element of the field are the same integer. -/
theorem eq_of_congruent {ms ns : List Nat} (h : List.Forall₂ (fun m n => m % fieldOrder = n % fieldOrder) ms ns)
    (hm : ∀ m ∈ ms, m < fieldOrder) (hn : ∀ n ∈ ns, n < fieldOrder) : ms = ns := by
  induction h with
  | nil => rfl
  | cons hmod _ ih =>
    obtain ⟨hm, hms⟩ := List.forall_mem_cons.1 hm
    obtain ⟨hn, hns⟩ := List.forall_mem_cons.1 hn
    rw [Nat.mod_eq_of_lt hm, Nat.mod_eq_of_lt hn] at hmod
    rw [hmod, ih hms hns]

/-- **No signal reaches the pairing that stands for another integer.** What the circuit refuses is
refused whatever the key and the proof are. An answer is that of the pairing, on points of the
groups and on signals below their ceilings and below the order of the field, as many as the
circuit and the key take. And of the lists that are congruent modulo that order at most one is
answered for. -/
theorem verify_guarded (c : Circuit) (key : String) (proof : Json) :
    (∀ signals e, c.checkSignals signals = .error e → verify c key ⟨proof, signals⟩ = .error e) ∧
      (∀ signals b, verify c key ⟨proof, signals⟩ = .ok b ↔
        ∃ k felts p, Admitted c key ⟨proof, signals⟩ k felts p ∧ accepts k felts p = b) ∧
      ∀ ms ns a b, List.Forall₂ (fun m n => m % fieldOrder = n % fieldOrder) ms ns →
        verify c key ⟨proof, ms⟩ = .ok a → verify c key ⟨proof, ns⟩ = .ok b → ms = ns := by
  refine ⟨fun signals e h => verify_eq_error h key proof, fun signals b => verify_eq_ok_iff,
    fun ms ns a b hmod hm hn => ?_⟩
  obtain ⟨_, _, _, hm, -⟩ := verify_eq_ok_iff.1 hm
  obtain ⟨_, _, _, hn, -⟩ := verify_eq_ok_iff.1 hn
  exact eq_of_congruent hmod hm.reduced hn.reduced

/-- A circuit with one signal whose ceiling is above the order of the field. -/
def wideCircuit : Circuit :=
  ⟨0, none, [⟨"a", 3 * fieldOrder⟩], [], []⟩

theorem verify_guarded_wide :
    verify wideCircuit "" ⟨.null, [3 * fieldOrder]⟩ =
        .error (.signature (.aboveCeiling "a" (3 * fieldOrder) (3 * fieldOrder))) ∧
      (∃ b, verify wideCircuit (generatorKey 1).toJson.text ⟨generatorProof.toJson, [9]⟩ = .ok b) ∧
      ∀ b, verify wideCircuit (generatorKey 1).toJson.text ⟨generatorProof.toJson, [9 + fieldOrder]⟩ ≠ .ok b := by
  obtain ⟨hrefused, -, -⟩ := verify_guarded wideCircuit "" .null
  obtain ⟨-, hanswer, hunique⟩ := verify_guarded wideCircuit (generatorKey 1).toJson.text generatorProof.toJson
  have hkey := VerifyingKey.ofText_written (finite_generatorKey 1) (by decide)
  have hproof := Proof.ofJson_toJson finite_generatorProof
  have hverify := (hanswer [9] _).2 ⟨generatorKey 1, [9], generatorProof,
    { key := hkey, proof := hproof, count := rfl, arity := rfl
      below := .cons (by decide) .nil
      signals := by decide
      reduced := by decide
      keyPoints := VerifyingKey.inGroups_of_text hkey
      proofPoints := Proof.inGroups_of_json hproof }, rfl⟩
  refine ⟨hrefused _ _ rfl, ⟨_, hverify⟩, fun b hb => ?_⟩
  have hsame := hunique [9] [9 + fieldOrder] _ b (.cons (by decide) .nil) hverify hb
  exact absurd hsame (by decide)

end Vouch.Groth16

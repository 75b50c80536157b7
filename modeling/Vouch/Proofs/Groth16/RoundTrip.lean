import Vouch.Proofs.Groth16.Verification

/-! Keys and proofs that are lost in writing.

The point at infinity belongs to both groups but has no coordinates. Zeros are written for
them, which are the coordinates of no point (`PointGroup.Lawful.origin`), and so the reader
refuses what is written. Nothing else is lost: a key or a proof is read back
exactly if it has no such point, and never as another one (`readBack_iff`). -/
namespace Vouch.Groth16

open Pairing
open Weierstrass (Point)

/-! ### Points -/

/-- So it is with several points. -/
theorem PointGroup.mapM_read_json_iff {F : Type} [Zero F] [One F] {g : PointGroup F} (h : g.Lawful) {part : String}
    {ps qs : List (Point F)} : (ps.map g.json).mapM (g.read part) = .ok qs ↔ qs = ps ∧ ∀ p ∈ ps, g.Finite p := by
  rw [Result.mapM_eq_ok_iff, List.forall₂_map_left_iff]
  simp only [read_json_iff h]
  constructor
  · intro hread
    induction hread with
    | nil => exact ⟨rfl, nofun⟩
    | cons hp _ ih =>
      obtain ⟨rfl, hfinite⟩ := hp
      obtain ⟨rfl, hrest⟩ := ih
      exact ⟨rfl, List.forall_mem_cons.2 ⟨hfinite, hrest⟩⟩
  · rintro ⟨rfl, hfinite⟩
    exact List.forall₂_same.2 fun p hp => ⟨rfl, hfinite p hp⟩

/-! ### Keys and proofs -/

theorem VerifyingKey.ofJson_toJson_iff {k k' : VerifyingKey} :
    ofJson k.toJson = .ok k' ↔ k' = k ∧ k.Finite := by
  constructor
  · intro h
    rw [ofJson_toJson_eq] at h
    obtain ⟨inputs, hinputs, h⟩ := Result.bind_eq_ok_iff.1 h
    obtain ⟨alpha, halpha, h⟩ := Result.bind_eq_ok_iff.1 h
    obtain ⟨beta, hbeta, h⟩ := Result.bind_eq_ok_iff.1 h
    obtain ⟨gamma, hgamma, h⟩ := Result.bind_eq_ok_iff.1 h
    obtain ⟨delta, hdelta, h⟩ := Result.bind_eq_ok_iff.1 h
    cases h
    rw [PointGroup.mapM_read_json_iff lawful_firstGroup] at hinputs
    rw [PointGroup.read_json_iff lawful_firstGroup] at halpha
    rw [PointGroup.read_json_iff lawful_secondGroup] at hbeta hgamma hdelta
    have hkey : (⟨alpha, beta, gamma, delta, inputs⟩ : VerifyingKey) = k := by
      rw [halpha.1, hbeta.1, hgamma.1, hdelta.1, hinputs.1]
    exact ⟨hkey, halpha.2, hbeta.2, hgamma.2, hdelta.2, hinputs.2⟩
  · rintro ⟨rfl, h⟩
    exact ofJson_toJson h

theorem Proof.ofJson_toJson_iff {p p' : Proof} : ofJson p.toJson = .ok p' ↔ p' = p ∧ p.Finite := by
  constructor
  · intro h
    rw [ofJson_toJson_eq] at h
    obtain ⟨a, ha, h⟩ := Result.bind_eq_ok_iff.1 h
    obtain ⟨b, hb, h⟩ := Result.bind_eq_ok_iff.1 h
    obtain ⟨c, hc, h⟩ := Result.bind_eq_ok_iff.1 h
    cases h
    rw [PointGroup.read_json_iff lawful_firstGroup] at ha hc
    rw [PointGroup.read_json_iff lawful_secondGroup] at hb
    have hproof : (⟨a, b, c⟩ : Proof) = p := by rw [ha.1, hb.1, hc.1]
    exact ⟨hproof, ha.2, hb.2, hc.2⟩
  · rintro ⟨rfl, h⟩
    exact ofJson_toJson h

/-- **A key or a proof is read back from what is written exactly if all of its points have
coordinates, and never as another one.** -/
theorem readBack_iff (k : VerifyingKey) (p : Proof) :
    (∀ k', VerifyingKey.ofJson k.toJson = .ok k' ↔ k' = k ∧ k.Finite) ∧
      ∀ p', Proof.ofJson p.toJson = .ok p' ↔ p' = p ∧ p.Finite :=
  ⟨fun _ => VerifyingKey.ofJson_toJson_iff, fun _ => Proof.ofJson_toJson_iff⟩

/-- A key for a circuit that does not use its public signal. -/
def unusedKey : VerifyingKey :=
  ⟨g1, g2, g2, g2, [g1, .infinity]⟩

/-- The point of the unused signal is not read back. -/
theorem readBack_unusedKey :
    unusedKey.InGroups ∧ VerifyingKey.ofJson unusedKey.toJson = .error (.document (.notInG1 "IC")) := by
  have hg1 := finite_g1.2
  have hg2 := finite_g2.2
  have hinputs : ∀ p ∈ unusedKey.inputs, isInG1 p = true := by
    simp only [unusedKey, List.forall_mem_cons]
    exact ⟨hg1, rfl, List.forall_mem_nil _⟩
  refine ⟨⟨hg1, hg2, hg2, hg2, hinputs⟩, ?_⟩
  have hread : (unusedKey.inputs.map firstGroup.json).mapM (firstGroup.read "IC") =
      .error (.document (.notInG1 "IC")) := by
    have hfirst : firstGroup.read "IC" (firstGroup.json g1) = .ok g1 := lawful_firstGroup.read_json finite_g1
    have hinfinity : firstGroup.read "IC" (firstGroup.json .infinity) = .error (.document (.notInG1 "IC")) := by
      rw [PointGroup.read_json_eq lawful_firstGroup, lawful_firstGroup.origin]
      rfl
    simp only [unusedKey, List.map_cons, List.mapM_cons, hfirst, hinfinity]
    rfl
  rw [VerifyingKey.ofJson_toJson_eq, hread]
  rfl

end Vouch.Groth16

import Vouch.Proofs.Curve.Signatures
import Vouch.Proofs.Witness.Inputs

/-! Signatures that serve more than one message.

The equation of a signature has the challenge in it and not the message, so that a signature serves two
messages which have one challenge. If the challenges differ, the two equations say that two reduced
multiples of the key are the same. In a group of prime order that leaves one key: the neutral point,
which is read as a key like any other point whose multiple by the order is zero. A signature for it
serves every message that has a challenge (`verify_other_iff`). -/
namespace Vouch

namespace SigningCurve

variable {P : Type} {C : SigningCurve P} {A : Type} [AddCommGroup A]

/-- A challenge is reduced. -/
theorem challenge_lt {hash : FieldHash} {commitment key : P} {message : Felt} {c : Nat} (hpos : 0 < C.order)
    (h : C.challenge hash commitment key message = .ok c) : c < C.order := by
  obtain ⟨digest, -, hc⟩ := Result.bind_eq_ok_iff.1 h
  cases hc
  exact Nat.mod_lt _ hpos

namespace Lawful

variable (L : C.Lawful A)

include L

theorem addOrderOf_eq_order {a : A} (h : addOrderOf a ∣ C.order) (hne : a ≠ 0) : addOrderOf a = C.order :=
  (L.prime.eq_one_or_self_of_dvd _ h).resolve_left fun hone => hne (AddMonoid.addOrderOf_eq_one_iff.1 hone)

/-- Reduced factors of one multiple of a point are the same, unless the point is neutral. -/
theorem nsmul_eq_nsmul_iff_of_lt {a : A} (h : addOrderOf a ∣ C.order) {c d : Nat} (hc : c < C.order)
    (hd : d < C.order) : d • a = c • a ↔ a = 0 ∨ d = c := by
  constructor
  · intro heq
    by_cases hzero : a = 0
    · exact .inl hzero
    · rw [nsmul_eq_nsmul_iff_modEq, L.addOrderOf_eq_order h hzero] at heq
      exact .inr (heq.eq_of_lt_of_lt hd hc)
  · rintro (rfl | rfl)
    · rw [nsmul_zero, nsmul_zero]
    · rfl

/-- The same for what is added to a commitment, where both points have been read. -/
theorem add_multiple_eq_iff {commitment key : P} {first second : List UInt8}
    (hcommitment : C.decode? first = some commitment) (hkey : C.decode? second = some key) {c d : Nat}
    (hc : c < C.order) (hd : d < C.order) :
    C.add commitment (C.multiple d key) = C.add commitment (C.multiple c key) ↔ key = L.point 0 ∨ d = c := by
  obtain ⟨b, rfl, -⟩ := L.exists_of_decode _ _ hcommitment
  obtain ⟨a, rfl, ha⟩ := L.exists_of_decode _ _ hkey
  rw [L.multiple, L.multiple, L.add, L.add, L.injective.eq_iff, add_right_inj, L.injective.eq_iff]
  exact L.nsmul_eq_nsmul_iff_of_lt ha hc hd

/-- **Which other messages a signature serves.** -/
theorem verify_iff_of_verify [DecidableEq P] {hash : FieldHash} {message : Felt} {signature key : List UInt8}
    (h : C.verify hash message signature key = true) (other : Felt) :
    ∃ s c, C.decodeSignature signature key = .ok s ∧ C.challenge hash s.commitment s.key message = .ok c ∧
      (C.verify hash other signature key = true ↔
        ∃ d, C.challenge hash s.commitment s.key other = .ok d ∧ (s.key = L.point 0 ∨ d = c)) := by
  obtain ⟨s, c, hs, hc, heq⟩ := verify_eq_true_iff.1 h
  obtain ⟨-, hkey, hcommitment, -, -⟩ := decodeSignature_eq_ok_iff.1 hs
  -- The response is the one that answers the first challenge.
  have hequation {d : Nat} (hd : C.challenge hash s.commitment s.key other = .ok d) :
      C.multiple s.response C.generator = C.add s.commitment (C.multiple d s.key) ↔
        s.key = L.point 0 ∨ d = c := by
    rw [heq, eq_comm]
    exact L.add_multiple_eq_iff hcommitment hkey (challenge_lt L.order_pos hc) (challenge_lt L.order_pos hd)
  refine ⟨s, c, hs, hc, ?_⟩
  rw [verify_eq_true_iff]
  constructor
  · rintro ⟨t, d, ht, hd, hheld⟩
    obtain rfl := Except.ok.inj (hs.symm.trans ht)
    exact ⟨d, hd, (hequation hd).1 hheld⟩
  · rintro ⟨d, hd, hcase⟩
    exact ⟨s, d, hs, hd, (hequation hd).2 hcase⟩

end Lawful

end SigningCurve

open Edwards

/-- **One signature does not serve two messages, unless its key is neutral.** What is accepted for one
message is accepted for another one exactly if both have the same challenge, or the key is the neutral
point and the other message has a challenge at all. -/
theorem verify_other_iff {hash : FieldHash} {message : Felt} {signature key : List UInt8}
    (h : edwardsCurve.verify hash message signature key = true) (other : Felt) :
    ∃ s c, edwardsCurve.decodeSignature signature key = .ok s ∧
      edwardsCurve.challenge hash s.commitment s.key message = .ok c ∧
      (edwardsCurve.verify hash other signature key = true ↔
        ∃ d, edwardsCurve.challenge hash s.commitment s.key other = .ok d ∧ (s.key = zero ∨ d = c)) := by
  have hzero : lawful_edwardsCurve.point 0 = zero := point_zero
  have hserves := lawful_edwardsCurve.verify_iff_of_verify h other
  rwa [hzero] at hserves

/-- A hash by the last element. -/
def lastHash : FieldHash := fun elements => .ok (elements.getLastD 0)

/-- A key pair of the scalar two, with nonces that come from the message alone. -/
def doublingKey : ExpandedSecret := ⟨2, []⟩

theorem publicPoint_doublingKey_ne_zero : edwardsCurve.publicPoint doublingKey ≠ zero := by
  have hne : multiple 2 generator ≠ zero := by decide +kernel
  exact hne

/-- The signature of the element nine by the key pair. -/
theorem verify_other_iff_nine :
    ∃ signature, edwardsCurve.verify lastHash 9 signature (edwardsCurve.publicKey doublingKey) = true ∧
      edwardsCurve.verify lastHash 10 signature (edwardsCurve.publicKey doublingKey) = false := by
  have hchallenge : edwardsCurve.challenge lastHash (multiple (edwardsCurve.nonce doublingKey 9) generator)
      (edwardsCurve.publicPoint doublingKey) 9 = .ok 9 := rfl
  have hverify := lawful_edwardsCurve.verify_sign hchallenge
  have hdecode := lawful_edwardsCurve.decode_sign doublingKey 9 9
  refine ⟨_, hverify, ?_⟩
  obtain ⟨s, c, hs, hc, hserves⟩ := verify_other_iff hverify 10
  obtain rfl := Except.ok.inj (hdecode.symm.trans hs)
  obtain rfl : 9 = c := Except.ok.inj hc
  rw [Bool.eq_false_iff]
  intro hother
  obtain ⟨d, hd, hcase⟩ := hserves.1 hother
  obtain rfl : 10 = d := Except.ok.inj hd
  rcases hcase with hneutral | hchallenge
  · exact publicPoint_doublingKey_ne_zero hneutral
  · cases hchallenge

/-! ### The neutral key -/

open WitnessRequest (neutralBytes decodeSignature_neutral)

/-- A commitment to zero with the response zero. -/
def neutralSignature : List UInt8 :=
  neutralBytes ++ List.replicate 32 0

/-- **For the neutral key one signature serves every message that has a challenge.** -/
theorem verify_neutral_iff {hash : FieldHash} {message : Felt} :
    edwardsCurve.verify hash message neutralSignature neutralBytes = true ↔
      ∃ c, edwardsCurve.challenge hash zero zero message = .ok c := by
  have hequation (c : Nat) : multiple 0 generator = add zero (multiple c zero) := by
    rw [← point_base, ← point_zero, multiple_point, multiple_point, add_point, zero_nsmul, nsmul_zero, add_zero]
  rw [SigningCurve.verify_eq_true_iff]
  constructor
  · rintro ⟨s, c, hs, hc, -⟩
    obtain rfl := Except.ok.inj (decodeSignature_neutral.symm.trans hs)
    exact ⟨c, hc⟩
  · rintro ⟨c, hc⟩
    exact ⟨_, c, decodeSignature_neutral, hc, hequation c⟩

/-- The neutral signature serves every message, and so it does with a hash by the last element, where
the challenges of two messages differ. -/
theorem verify_neutral_all :
    (∀ message, edwardsCurve.verify Poseidon.hash message neutralSignature neutralBytes = true) ∧
    (∀ message, edwardsCurve.verify lastHash message neutralSignature neutralBytes = true) ∧
    ∃ s c d, edwardsCurve.decodeSignature neutralSignature neutralBytes = .ok s ∧
      edwardsCurve.challenge lastHash s.commitment s.key 9 = .ok c ∧
      edwardsCurve.challenge lastHash s.commitment s.key 10 = .ok d ∧ c ≠ d :=
  ⟨fun message => verify_neutral_iff.2 (exists_challenge zero zero message),
    fun _ => verify_neutral_iff.2 ⟨_, rfl⟩, _, 9, 10, decodeSignature_neutral, rfl, rfl, by decide⟩

end Vouch

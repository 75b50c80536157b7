import Vouch.Curve.Signing
import Vouch.Proofs.Curve.Encoding
import Vouch.Proofs.Poseidon.Chain

/-! Signatures in a group of prime order.

The scheme needs a curve whose operations are those of a group, whose generator has a prime order and
whose points of that order have one written form (`Lawful`). Then what is signed is read back and
verifies (`Lawful.verify_sign`), and a commitment has one response (`Lawful.response_unique`). -/
namespace Vouch

namespace SigningCurve

variable {P : Type}

/-- A curve computes in a group `A`, and the points of the subgroup that it reads and writes are those
of the prime order of its generator. -/
structure Lawful (C : SigningCurve P) (A : Type) [AddCommGroup A] where
  point : A → P
  injective : Function.Injective point
  base : A
  generator : C.generator = point base
  order : addOrderOf base = C.order
  prime : C.order.Prime
  add : ∀ a b, C.add (point a) (point b) = point (a + b)
  multiple : ∀ k a, C.multiple k (point a) = point (k • a)
  length_encode : ∀ p, (C.encode p).length = secretLength
  decode_encode : ∀ a, addOrderOf a ∣ C.order → C.decode? (C.encode (point a)) = some (point a)
  exists_of_decode : ∀ bytes p, C.decode? bytes = some p → ∃ a, p = point a ∧ addOrderOf a ∣ C.order
  order_le : C.order ≤ 256 ^ secretLength

variable {C : SigningCurve P} {A : Type} [AddCommGroup A]

namespace Lawful

variable (L : C.Lawful A)

include L

theorem order_pos : 0 < C.order := L.prime.pos

theorem addOrderOf_nsmul_dvd_order (k : Nat) : addOrderOf (k • L.base) ∣ C.order := by
  rw [← L.order]
  exact addOrderOf_smul_dvd k

/-- A multiple of the generator depends on the residue of its factor. -/
theorem nsmul_mod (k : Nat) : (k % C.order) • L.base = k • L.base := by
  rw [← L.order, mod_addOrderOf_nsmul]

/-- Reduced factors of one multiple are the same. -/
theorem eq_of_nsmul_eq {m n : Nat} (hm : m < C.order) (hn : n < C.order) (h : m • L.base = n • L.base) : m = n := by
  rw [nsmul_eq_nsmul_iff_modEq, L.order] at h
  exact h.eq_of_lt_of_lt hm hn

end Lawful

/-- The response of a signature, reduced. -/
def response (C : SigningCurve P) (k : ExpandedSecret) (message : Felt) (h : Nat) : Nat :=
  (C.nonce k message + h * k.scalar) % C.order

theorem sign_eq_ok {hash : FieldHash} {k : ExpandedSecret} {message : Felt} {h : Nat}
    (hchallenge : C.challenge hash (C.multiple (C.nonce k message) C.generator) (C.publicPoint k) message = .ok h) :
    C.sign hash k message = .ok (C.encode (C.multiple (C.nonce k message) C.generator) ++
      Bytes.toLittleEndian secretLength (C.response k message h)) := by
  unfold sign
  dsimp only
  rw [hchallenge]
  rfl

theorem decodeSignature_eq_ok_iff {signature key : List UInt8} {s : DecodedSignature P} :
    C.decodeSignature signature key = .ok s ↔ signature.length = signatureLength ∧ C.decode? key = some s.key ∧
      C.decode? (signature.take secretLength) = some s.commitment ∧
      s.response = Bytes.ofLittleEndian (signature.drop secretLength) ∧ s.response < C.order := by
  unfold decodeSignature
  constructor
  · intro h
    split at h
    · rename_i hlength
      split at h
      · cases h
      · rename_i a ha
        split at h
        · cases h
        · rename_i r hr
          dsimp only at h
          split at h
          · rename_i hlt
            cases h
            exact ⟨hlength, ha, hr, rfl, hlt⟩
          · cases h
    · cases h
  · rintro ⟨hlength, ha, hr, hresponse, hlt⟩
    rw [if_pos hlength, ha, hr]
    dsimp only
    rw [← hresponse, if_pos hlt]

theorem verify_eq_true_iff [DecidableEq P] {hash : FieldHash} {message : Felt} {signature key : List UInt8} :
    C.verify hash message signature key = true ↔ ∃ s h, C.decodeSignature signature key = .ok s ∧
      C.challenge hash s.commitment s.key message = .ok h ∧
      C.multiple s.response C.generator = C.add s.commitment (C.multiple h s.key) := by
  unfold verify holds
  constructor
  · intro h
    split at h
    · cases h
    · rename_i s hs
      split at h
      · cases h
      · rename_i c hc
        exact ⟨s, c, hs, hc, beq_iff_eq.1 h⟩
  · rintro ⟨s, c, hs, hc, heq⟩
    rw [hs]
    dsimp only
    rw [hc]
    exact beq_iff_eq.2 heq

theorem length_of_verify [DecidableEq P] {hash : FieldHash} {message : Felt} {signature key : List UInt8}
    (h : C.verify hash message signature key = true) : signature.length = signatureLength :=
  let ⟨_, _, hs, _⟩ := verify_eq_true_iff.1 h
  (decodeSignature_eq_ok_iff.1 hs).1

namespace Lawful

variable (L : C.Lawful A)

include L

/-- The equation of a signature, for a commitment `r G` and a key `k G`. -/
theorem add_multiple (r h k : Nat) :
    C.add (C.multiple r C.generator) (C.multiple h (C.multiple k C.generator)) = C.multiple (r + h * k) C.generator := by
  rw [L.generator, L.multiple, L.multiple, L.multiple, L.multiple, L.add, add_nsmul, mul_nsmul']

theorem multiple_mod (n : Nat) : C.multiple (n % C.order) C.generator = C.multiple n C.generator := by
  rw [L.generator, L.multiple, L.multiple, L.nsmul_mod]

/-- **What is signed is read back.** -/
theorem decode_sign (k : ExpandedSecret) (message : Felt) (h : Nat) :
    C.decodeSignature (C.encode (C.multiple (C.nonce k message) C.generator) ++
      Bytes.toLittleEndian secretLength (C.response k message h)) (C.publicKey k) =
      .ok ⟨C.publicPoint k, C.multiple (C.nonce k message) C.generator, C.response k message h⟩ := by
  have hlt : C.response k message h < C.order := Nat.mod_lt _ L.order_pos
  have hread (n : Nat) : C.decode? (C.encode (C.multiple n C.generator)) = some (C.multiple n C.generator) := by
    rw [L.generator, L.multiple]
    exact L.decode_encode _ (L.addOrderOf_nsmul_dvd_order n)
  have hlength := L.length_encode (C.multiple (C.nonce k message) C.generator)
  refine decodeSignature_eq_ok_iff.2 ⟨?_, hread k.scalar, ?_, ?_, hlt⟩
  · rw [List.length_append, hlength, Bytes.length_toLittleEndian]
    rfl
  · rw [List.take_left' hlength]
    exact hread _
  · rw [List.drop_left' hlength, Bytes.ofLittleEndian_toLittleEndian _ _ (Nat.lt_of_lt_of_le hlt L.order_le)]

/-- **What is signed verifies.** -/
theorem verify_sign [DecidableEq P] {hash : FieldHash} {k : ExpandedSecret} {message : Felt} {h : Nat}
    (hchallenge : C.challenge hash (C.multiple (C.nonce k message) C.generator) (C.publicPoint k) message = .ok h) :
    C.verify hash message (C.encode (C.multiple (C.nonce k message) C.generator) ++
      Bytes.toLittleEndian secretLength (C.response k message h)) (C.publicKey k) = true :=
  verify_eq_true_iff.2 ⟨_, h, L.decode_sign k message h, hchallenge,
    (L.multiple_mod _).trans (L.add_multiple _ h k.scalar).symm⟩

/-- **A commitment has one response.** -/
theorem response_unique [DecidableEq P] {hash : FieldHash} {message : Felt} {key commitment s t : List UInt8}
    (hlength : commitment.length = secretLength) (hs : C.verify hash message (commitment ++ s) key = true)
    (ht : C.verify hash message (commitment ++ t) key = true) : s = t := by
  obtain ⟨p, h, hp, hh, hpeq⟩ := verify_eq_true_iff.1 hs
  obtain ⟨q, i, hq, hi, hqeq⟩ := verify_eq_true_iff.1 ht
  obtain ⟨hplength, hpkey, hpcommitment, hpresponse, hplt⟩ := decodeSignature_eq_ok_iff.1 hp
  obtain ⟨hqlength, hqkey, hqcommitment, hqresponse, hqlt⟩ := decodeSignature_eq_ok_iff.1 hq
  -- The key, the commitment and with them the challenge are the same.
  rw [List.take_left' hlength] at hpcommitment hqcommitment
  rw [List.drop_left' hlength] at hpresponse hqresponse
  have hkey := Option.some.inj (hpkey.symm.trans hqkey)
  have hcommitment := Option.some.inj (hpcommitment.symm.trans hqcommitment)
  rw [← hkey, ← hcommitment] at hi hqeq
  obtain rfl := Except.ok.inj (hh.symm.trans hi)
  have hmultiple := hpeq.trans hqeq.symm
  rw [L.generator, L.multiple, L.multiple] at hmultiple
  have hresponse := L.eq_of_nsmul_eq hplt hqlt (L.injective hmultiple)
  rw [List.length_append, hlength] at hplength hqlength
  have hbytes : s.length = t.length := by omega
  rw [← Bytes.toLittleEndian_ofLittleEndian s, ← Bytes.toLittleEndian_ofLittleEndian t, ← hpresponse, ← hqresponse,
    hresponse, hbytes]

end Lawful

end SigningCurve

end Vouch

import Vouch.Proofs.Curve.Signing
import Vouch.Proofs.Result

/-! Signatures on the Edwards curve.

The curve is lawful (`lawful_edwardsCurve`). So every secret signs every element, and the signature is
what it is meant to be (`sign_complete`), and nobody can put another response behind a commitment, or
the same one in other bytes (`signature_rigid`). -/
namespace Vouch

open Edwards

theorem encode_edwardsCurve : edwardsCurve.encode = encode := rfl

theorem decode_edwardsCurve : edwardsCurve.decode? = decode? := rfl

/-- **The Edwards curve is what the scheme needs.** -/
def lawful_edwardsCurve : edwardsCurve.Lawful Edwards.Curve where
  point := point
  injective := point_injective
  base := base
  generator := point_base.symm
  order := addOrderOf_base
  prime := Modular.prime_order
  add := add_point
  multiple := multiple_point
  length_encode := length_encode
  decode_encode _ h := by
    rw [encode_edwardsCurve, decode_edwardsCurve]
    exact decode?_encode_point h
  exists_of_decode _ _ := exists_of_decode?
  order_le := by decide

theorem exists_expand {secret : List UInt8} (h : secret.length = secretLength) :
    ∃ k, edwardsCurve.expand secret = .ok k :=
  ⟨_, if_pos h⟩

theorem exists_challenge (commitment key : Point) (message : Felt) :
    ∃ h, edwardsCurve.challenge Poseidon.hash commitment key message = .ok h := by
  have hne : [commitment.x, commitment.y, key.x, key.y, message] ≠ [] := List.cons_ne_nil _ _
  obtain ⟨digest, hdigest⟩ := Poseidon.exists_chain (fun _ => Poseidon.exists_permute) hne
  exact ⟨_, Result.bind_eq_ok_iff.2 ⟨digest, hdigest, rfl⟩⟩

/-- The signals of a signature are reduced. -/
theorem signals_lt {s : DecodedSignature Point} (h : s.response < order) :
    ∀ n ∈ edwardsCurve.signals s, n < fieldOrder := by
  have hresponse : s.response < fieldOrder := Nat.lt_trans h (by decide)
  simp only [SigningCurve.signals, List.forall_mem_cons]
  exact ⟨Fin.isLt _, Fin.isLt _, Fin.isLt _, Fin.isLt _, hresponse, List.forall_mem_nil _⟩

/-- **Every secret signs every element.** The signature is read back as the key, the commitment and
the response that it was made of, all in reduced coordinates, and it verifies. -/
theorem sign_complete {secret : List UInt8} (hsecret : secret.length = secretLength) (message : Felt) :
    ∃ k signature h s, edwardsCurve.expand secret = .ok k ∧
      edwardsCurve.sign Poseidon.hash k message = .ok signature ∧ signature.length = signatureLength ∧
      edwardsCurve.decodeSignature signature (edwardsCurve.publicKey k) = .ok s ∧
      s.key = multiple k.scalar generator ∧
      s.commitment = multiple (edwardsCurve.nonce k message) generator ∧
      edwardsCurve.challenge Poseidon.hash s.commitment s.key message = .ok h ∧
      s.response = (edwardsCurve.nonce k message + h * k.scalar) % order ∧
      edwardsCurve.signals s = [s.key.x.val, s.key.y.val, s.commitment.x.val, s.commitment.y.val, s.response] ∧
      (∀ n ∈ edwardsCurve.signals s, n < fieldOrder) ∧
      edwardsCurve.verify Poseidon.hash message signature (edwardsCurve.publicKey k) = true := by
  obtain ⟨k, hk⟩ := exists_expand hsecret
  obtain ⟨h, hh⟩ := exists_challenge (multiple (edwardsCurve.nonce k message) generator) (multiple k.scalar generator)
    message
  have hdecode := lawful_edwardsCurve.decode_sign k message h
  have hlength := (SigningCurve.decodeSignature_eq_ok_iff.1 hdecode).1
  have hlt := (SigningCurve.decodeSignature_eq_ok_iff.1 hdecode).2.2.2.2
  exact ⟨k, _, h, _, hk, SigningCurve.sign_eq_ok hh, hlength, hdecode, rfl, rfl, hh, rfl, rfl, signals_lt hlt,
    lawful_edwardsCurve.verify_sign hh⟩

theorem sign_complete_sevens :
    (List.replicate 32 (7 : UInt8)).length = secretLength ∧
    ∃ k signature, edwardsCurve.expand (List.replicate 32 7) = .ok k ∧
      edwardsCurve.sign Poseidon.hash k 9 = .ok signature ∧
      edwardsCurve.verify Poseidon.hash 9 signature (edwardsCurve.publicKey k) = true :=
  have hlength : (List.replicate 32 (7 : UInt8)).length = secretLength := List.length_replicate
  let ⟨k, signature, _, _, hk, hsign, _, _, _, _, _, _, _, _, hverify⟩ := sign_complete hlength 9
  ⟨hlength, k, signature, hk, hsign, hverify⟩

/-- **A signature has one spelling of its response.** Behind a commitment one response is accepted, in
one spelling: where another byte stands in it, or where there are more or fewer bytes, nothing is. -/
theorem signature_rigid (hash : FieldHash) (message : Felt) (key : List UInt8) :
    (∀ commitment s t, commitment.length = secretLength →
      edwardsCurve.verify hash message (commitment ++ s) key = true →
      edwardsCurve.verify hash message (commitment ++ t) key = true → s = t) ∧
    ∀ signature, edwardsCurve.verify hash message signature key = true →
      (∀ i b, secretLength ≤ i → i < signature.length → signature[i]? ≠ some b →
        edwardsCurve.verify hash message (signature.set i b) key = false) ∧
      ∀ other, other.length ≠ signature.length → edwardsCurve.verify hash message other key = false := by
  have hunique (commitment s t : List UInt8) (hlength : commitment.length = secretLength)
      (hs : edwardsCurve.verify hash message (commitment ++ s) key = true)
      (ht : edwardsCurve.verify hash message (commitment ++ t) key = true) : s = t :=
    lawful_edwardsCurve.response_unique hlength hs ht
  refine ⟨hunique, fun signature hsignature => ⟨fun i b hi hlt hne => ?changed, fun other hother => ?length⟩⟩
  case changed =>
    rw [Bool.eq_false_iff]
    intro hset
    have hlong : (signature.take secretLength).length = secretLength := by
      rw [List.length_take]
      omega
    -- Both begin with the same commitment, so that they are the same.
    rw [← List.take_append_drop secretLength (signature.set i b), List.take_set_of_le hi] at hset
    rw [← List.take_append_drop secretLength signature] at hsignature
    have hdrop := hunique _ _ _ hlong hset hsignature
    have hget := congrArg (fun bytes => bytes[i - secretLength]?) hdrop
    simp only [List.getElem?_drop, Nat.add_sub_cancel' hi, List.getElem?_set_self hlt] at hget
    exact hne hget.symm
  case length =>
    rw [Bool.eq_false_iff]
    intro haccepted
    exact hother ((SigningCurve.length_of_verify haccepted).trans (SigningCurve.length_of_verify hsignature).symm)

/-- The signature with commitment `3 G` for the key `2 G` where every challenge is `5`. -/
def fixedSignature : List UInt8 :=
  encode (multiple 3 generator) ++ Bytes.toLittleEndian secretLength 13

theorem signature_rigid_fixed :
    edwardsCurve.verify (fun _ => .ok 5) 9 fixedSignature (encode (multiple 2 generator)) = true ∧
    edwardsCurve.verify (fun _ => .ok 5) 9 (fixedSignature.set 63 255) (encode (multiple 2 generator)) = false ∧
    edwardsCurve.verify (fun _ => .ok 5) 9 (fixedSignature ++ [0]) (encode (multiple 2 generator)) = false := by
  have hdecode : edwardsCurve.decodeSignature fixedSignature (encode (multiple 2 generator)) =
      .ok ⟨multiple 2 generator, multiple 3 generator, 13⟩ :=
    Result.eq_ok_of_toOption (by decide +kernel)
  have haccepted : edwardsCurve.verify (fun _ => .ok 5) 9 fixedSignature (encode (multiple 2 generator)) = true :=
    SigningCurve.verify_eq_true_iff.2 ⟨_, 5, hdecode, rfl, (lawful_edwardsCurve.add_multiple 3 5 2).symm⟩
  have hlength : fixedSignature.length = signatureLength := SigningCurve.length_of_verify haccepted
  have hlast : fixedSignature[63]? ≠ some 255 := by decide +kernel
  obtain ⟨hchanged, hlonger⟩ := (signature_rigid (fun _ => .ok 5) 9 (encode (multiple 2 generator))).2 _ haccepted
  refine ⟨haccepted, hchanged 63 255 (by decide) (by rw [hlength]; decide) hlast, hlonger _ ?_⟩
  rw [List.length_append]
  simp

end Vouch

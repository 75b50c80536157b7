import Vouch.Stack
import Vouch.Proofs.Credential.Binding

/-! When verifying fails.

A prepared stack answers for every signature whose integers are in the field: bytes of any
length, keys that are no point and responses that are not reduced are signatures that do not
hold. Besides an index out of range there is one more failure, though. A header or an issuance
with an integer that is no element of the field has no digest, and verifying hands that error
on (`verify_failure`). -/
namespace Vouch

open Result (Answers)

namespace Credential

variable {s : Stack} {c : Credential} {sig : Signature} {n : Nat}

/-! ### Digests -/

/-- Every integer that is signed under this issuance is in the field. -/
def InField (c : Credential) (i : Issuance) : Prop :=
  ∀ m ∈ c.signedIntegers i, m < fieldOrder

/-- Without a digest, the credential is at fault. -/
theorem exists_error_digest {i : Issuance} (hash : FieldHash) (h : ¬ c.InField i) :
    ∃ e, c.digest hash i = .error e ∧ e.kind = .invalidCredential := by
  have hfails : Result.FailsWith [.invalidCredential]
      ((c.signedIntegers i).mapM fun m => (Field.ofNat m).reported .invalidCredential) :=
    .mapM (fun m => .reported (List.mem_singleton_self _) _) _
  cases helements : (c.signedIntegers i).mapM fun m => (Field.ofNat m).reported .invalidCredential with
  | ok elements =>
    exact absurd ((Field.exists_mapM_ofNat_iff _).1 ⟨elements, helements⟩) h
  | error e =>
    rw [digest, helements]
    exact ⟨e, rfl, List.mem_singleton.1 (hfails e helements)⟩

/-- Attachments always have a digest: what is hashed ends in the number of bytes. -/
theorem exists_attachmentsDigest (c : Credential) : ∃ d, c.attachmentsDigest Poseidon.hash = .ok d := by
  refine Poseidon.exists_chain (fun _ => Poseidon.exists_permute) ?_
  rw [Field.pack_eq]
  exact List.append_ne_nil_of_right_ne_nil _ (List.cons_ne_nil _ _)

/-! ### Signatures that hold -/

/-- These bytes are a signature of the digest under the key of the issuance. -/
def SignedBy (i : Issuance) (digest : Result Felt) (bytes : List UInt8) : Prop :=
  ∃ message, digest = .ok message ∧ edwardsCurve.verify Poseidon.hash message bytes i.publicKey = true

/-- The signature is one of the credential, and on request one of its attachments, if there are any. -/
structure Holds (c : Credential) (sig : Signature) (withAttachments : Bool) : Prop where
  main : SignedBy sig.issuance (c.digest Poseidon.hash sig.issuance) sig.bytes
  attached : withAttachments = true → c.attachments ≠ .empty → ∃ bytes ∈ sig.attachments,
    SignedBy sig.issuance (c.attachmentsDigest Poseidon.hash) bytes

/-- Where there is a digest, a prepared stack answers, whatever the bytes are. -/
theorem answers_stack (h : s.prepared = true) {i : Issuance} {digest : Result Felt} {message : Felt}
    (hdigest : digest = .ok message) (bytes : List UInt8) :
    Answers (s.verify message bytes i.publicKey) (SignedBy i digest bytes) := by
  refine ⟨edwardsCurve.verify Poseidon.hash message bytes i.publicKey, ?_, ?_⟩
  · rw [Stack.verify, Stack.hasher, if_pos h]
    rfl
  · rw [hdigest]
    exact ⟨fun hverify => ⟨message, rfl, hverify⟩,
      fun ⟨_, hmessage, hverify⟩ => Except.ok.inj hmessage ▸ hverify⟩

theorem answers_verifyAttachments (h : s.prepared = true) (c : Credential) (sig : Signature) :
    Answers (c.verifyAttachments s.suite sig) (c.attachments ≠ .empty → ∃ bytes ∈ sig.attachments,
      SignedBy sig.issuance (c.attachmentsDigest Poseidon.hash) bytes) := by
  unfold verifyAttachments
  split
  · rename_i hempty
    exact ⟨true, rfl, iff_of_true rfl fun hne => absurd (Keyed.isEmpty_iff.1 hempty) hne⟩
  · rename_i hempty
    have hne : c.attachments ≠ .empty := mt Keyed.isEmpty_iff.2 hempty
    cases hbytes : sig.attachments with
    | none => exact ⟨false, rfl, iff_of_false (by decide) fun hsigned => nomatch hsigned hne⟩
    | some bytes =>
      obtain ⟨message, hmessage⟩ := exists_attachmentsDigest c
      have hhasher : s.suite.hasher = .ok Poseidon.hash := if_pos h
      simp only [hhasher, hmessage, bind, Except.bind]
      refine (answers_stack h hmessage bytes).congr ?_
      simp [hne, hmessage]

/-- What is left to verify once a signature is found and the stack is ready. -/
theorem verify_of_getElem? (h : s.prepared = true) (hsig : c.signatures[n]? = some sig)
    (withAttachments : Bool) :
    c.verify s.suite n withAttachments = do
      let message ← c.digest Poseidon.hash sig.issuance
      if ← s.verify message sig.bytes sig.issuance.publicKey then
        if withAttachments then c.verifyAttachments s.suite sig else return true
      else return false := by
  have hsome : ¬ c.signatures.isEmpty = true := by
    intro hempty
    rw [List.isEmpty_iff.1 hempty] at hsig
    cases hsig
  have hscheme : ¬ sig.issuance.scheme ≠ s.suite.scheme := fun hne => hne (Subsingleton.elim _ _)
  have hhasher : s.suite.hasher = .ok Poseidon.hash := if_pos h
  rw [verify, if_neg hsome, hsig]
  dsimp only
  rw [if_neg hscheme, hhasher]
  rfl

theorem answers_verify (h : s.prepared = true) (hsig : c.signatures[n]? = some sig)
    (hfield : c.InField sig.issuance) (withAttachments : Bool) :
    Answers (c.verify s.suite n withAttachments) (c.Holds sig withAttachments) := by
  obtain ⟨message, hmessage⟩ := exists_digest hfield
  have hmain := answers_stack (i := sig.issuance) h hmessage sig.bytes
  rw [verify_of_getElem? h hsig, hmessage]
  cases withAttachments with
  | true =>
    exact (hmain.and (answers_verifyAttachments h c sig)).congr
      ⟨fun ⟨hsigned, hattached⟩ => ⟨hsigned, fun _ => hattached⟩,
        fun hholds => ⟨hholds.main, hholds.attached rfl⟩⟩
  | false =>
    exact (hmain.and ⟨true, rfl, iff_of_true rfl trivial⟩).congr
      ⟨fun ⟨hsigned, _⟩ => ⟨hsigned, nofun⟩, fun hholds => ⟨hholds.main, trivial⟩⟩

theorem exists_error_verify (h : s.prepared = true) (hsig : c.signatures[n]? = some sig)
    (hfield : ¬ c.InField sig.issuance) (withAttachments : Bool) :
    ∃ e, c.verify s.suite n withAttachments = .error e ∧ e.kind = .invalidCredential := by
  obtain ⟨e, he, hkind⟩ := exists_error_digest Poseidon.hash hfield
  rw [verify_of_getElem? h hsig, he]
  exact ⟨e, rfl, hkind⟩

/-! ### Failures -/

theorem verify_of_length_le (hne : c.signatures ≠ []) (hn : c.signatures.length ≤ n)
    (suite : SignatureSuite) (withAttachments : Bool) :
    c.verify suite n withAttachments = .error (.signature (.indexOutOfRange n c.signatures.length)) := by
  rw [verify, if_neg (mt List.isEmpty_iff.1 hne), List.getElem?_eq_none hn]

/-- **Verifying fails on an index out of range and on integers out of the field**, and on nothing
else. A credential without signatures does not verify, and a signature in the field is answered for. -/
theorem verify_failure (h : s.prepared = true) (c : Credential) (n : Nat) (withAttachments : Bool) :
    ((∃ e, c.verify s.suite n withAttachments = .error e) ↔
        c.signatures ≠ [] ∧ (c.signatures.length ≤ n ∨
          ∃ sig, c.signatures[n]? = some sig ∧ ¬ c.InField sig.issuance)) ∧
      (c.signatures = [] → c.verify s.suite n withAttachments = .ok false) ∧
      (c.signatures ≠ [] → c.signatures.length ≤ n →
        c.verify s.suite n withAttachments =
          .error (.signature (.indexOutOfRange n c.signatures.length))) ∧
      ∀ sig, c.signatures[n]? = some sig →
        (¬ c.InField sig.issuance →
          ∃ e, c.verify s.suite n withAttachments = .error e ∧ e.kind = .invalidCredential) ∧
        (c.InField sig.issuance →
          (c.verify s.suite n withAttachments = .ok true ↔ c.Holds sig withAttachments) ∧
          (c.verify s.suite n withAttachments = .ok false ↔ ¬ c.Holds sig withAttachments)) := by
  have hnil : c.signatures = [] → c.verify s.suite n withAttachments = .ok false :=
    fun hnil => if_pos (List.isEmpty_iff.2 hnil)
  refine ⟨⟨?_, ?_⟩, hnil, fun hne hn => verify_of_length_le hne hn .., fun sig hsig => ⟨fun hfield =>
    exists_error_verify h hsig hfield withAttachments, fun hfield => ?_⟩⟩
  · intro ⟨e, he⟩
    have hne : c.signatures ≠ [] := fun hempty => nomatch (hnil hempty).symm.trans he
    refine ⟨hne, (Nat.lt_or_ge n c.signatures.length).symm.imp id fun hn => ?_⟩
    have hsig : c.signatures[n]? = some c.signatures[n] := List.getElem?_eq_getElem hn
    refine ⟨_, hsig, fun hfield => ?_⟩
    obtain ⟨b, hb, -⟩ := answers_verify h hsig hfield withAttachments
    exact nomatch hb.symm.trans he
  · rintro ⟨hne, hn | ⟨sig, hsig, hfield⟩⟩
    · exact ⟨_, verify_of_length_le hne hn ..⟩
    · obtain ⟨e, he, -⟩ := exists_error_verify h hsig hfield withAttachments
      exact ⟨e, he⟩
  · have hanswers := answers_verify h hsig hfield withAttachments
    exact ⟨hanswers.eq_ok_true_iff, hanswers.eq_ok_false_iff⟩

/-! ### A pass for a purpose out of the field -/

theorem validName_vip : Claim.ValidName "vip" := by
  unfold Claim.ValidName
  decide

def passSchema : Schema where
  claims := [⟨"vip", .boolean, validName_vip⟩]
  depth := none
  id := 0
  distinct := by decide
  validDepth := nofun

/-- An issuance with nothing in it but the id of the signature. -/
def blankIssuance : Issuance :=
  ⟨.babyzk, 1, 0, 0, 0, 0, []⟩

/-- A pass that somebody has signed with no bytes. -/
def pass (context : Nat) : Credential where
  header := .make 0 context 0
  body := { schema := passSchema, values := [.boolean true], typed := rfl }
  signatures := [⟨blankIssuance, [], none⟩]
  attachments := .empty

/-- A stack of the standard configuration, prepared. -/
def readyStack : Stack :=
  { config := .standard, prepared := true, prover := none, files := fun _ => none }

theorem not_holds_pass (context : Nat) : ¬ (pass context).Holds ⟨blankIssuance, [], none⟩ true := by
  intro hholds
  obtain ⟨message, -, hverify⟩ := hholds.main
  exact nomatch hverify

theorem verify_failure_pass :
    readyStack.prepared = true ∧ (pass 7).verify readyStack.suite 0 true = .ok false ∧
      ∃ e, (pass 7).verify readyStack.suite 1 true = .error e := by
  have hprepared : readyStack.prepared = true := rfl
  have hfield : (pass 7).InField blankIssuance := by unfold InField; decide
  obtain ⟨-, -, -, hanswers⟩ := verify_failure hprepared (pass 7) 0 true
  obtain ⟨hfailure, -, -, -⟩ := verify_failure hprepared (pass 7) 1 true
  have hsig : (pass 7).signatures[0]? = some ⟨blankIssuance, [], none⟩ := rfl
  exact ⟨hprepared, ((hanswers _ hsig).2 hfield).2.2 (not_holds_pass 7),
    hfailure.2 ⟨List.cons_ne_nil _ _, .inl (Nat.le_refl 1)⟩⟩

/-- Read from its text, with a signature at the index, and an error all the same. -/
theorem exists_error_verify_pass :
    (Stack.make .standard none fun _ => none).prepare = .ok readyStack ∧
      ofText passSchema (pass fieldOrder).text = .ok (pass fieldOrder) ∧
      0 < (pass fieldOrder).signatures.length ∧
      ∃ e, (pass fieldOrder).verify readyStack.suite 0 false = .error e := by
  have hcontext : ¬ (pass fieldOrder).InField blankIssuance := by
    intro hfield
    exact Nat.lt_irrefl _ (hfield fieldOrder (by simp [signedIntegers, pass, Header.make]))
  have hsig : (pass fieldOrder).signatures[0]? = some ⟨blankIssuance, [], none⟩ := rfl
  obtain ⟨e, he, -⟩ := exists_error_verify (s := readyStack) rfl hsig hcontext false
  exact ⟨rfl, ofText_of_type rfl, by decide, e, he⟩

end Credential

end Vouch

import Vouch.Proofs.Witness.Elements

/-! When there is a witness.

A request has a list of requirements, each with the kind of error that stands for it
(`WitnessRequest.requirements`). If all are met there is a witness, and else the error is that
of the first one that is not (`witness_outcome`). No error is internal: what is held against
the layout after the last requirement fits it by then. -/
namespace Vouch

open Circuit (Layout Intrinsic)
open Result (FailsWith Obeys)

/-! ### Kinds of error of the steps -/

theorem NonRevocation.check_failsWith (p : NonRevocation) (depth : Nat) :
    FailsWith [.invalidCredential] (p.check depth) := by
  unfold check
  split
  · split
    · exact .ok _
    · exact .own _
  · exact .own _

theorem RangeStatement.check_failsWith (s : RangeStatement) (n : Nat) :
    FailsWith [.invalidStatementCheck] (s.check n) := by
  unfold check
  split
  · exact .ok _
  · exact .own _

theorem Statement.check_failsWith (t : Statement) (v : ClaimValue) :
    FailsWith [.invalidStatementCheck] (t.check v) := by
  have hmismatch : FailsWith [.invalidStatementCheck] (t.mismatch v) := .own _
  unfold check
  split
  · split
    · exact .bind (RangeStatement.check_failsWith _ _) fun _ => .ok _
    · exact hmismatch
  · split
    · exact .ok _
    · exact hmismatch
  · exact .ok _
  · exact hmismatch

theorem Presentation.checkExpiration_failsWith (p : Presentation) (expiredAt : UInt64) :
    FailsWith [.invalidStatementCheck] (p.checkExpiration expiredAt) :=
  .within _ (RangeStatement.check_failsWith _ _)

theorem Presentation.checkBody_failsWith (p : Presentation) (b : Body) :
    FailsWith [.invalidStatementCheck] (p.checkBody b) := by
  unfold checkBody
  split
  · refine .bind (.mapM (fun part => ?_) _) fun _ => .ok _
    exact .bind (.within _ (Statement.check_failsWith _ _)) fun _ => .ok _
  · exact .own _

theorem SigningCurve.decodeSignature_failsWith {P : Type} (C : SigningCurve P) (bytes key : List UInt8) :
    FailsWith [.invalidSignature] (C.decodeSignature bytes key) := by
  unfold decodeSignature
  split
  · split
    · exact .own _
    · split
      · exact .own _
      · dsimp only
        split
        · exact .ok _
        · exact .own _
  · exact .own _

theorem Circuit.Layout.ofSchema_failsWith (s : Schema) :
    FailsWith [.unsupportableType] (Layout.ofSchema s) := by
  unfold Layout.ofSchema
  dsimp only
  split
  · exact .own _
  · split
    · exact .own _
    · split
      · exact .ok _
      · exact .own _

namespace WitnessRequest

variable {r : WitnessRequest}

/-! ### Requirements of a request -/

/-- Signatures cannot be revoked, or there is a proof of the right depth with integers in the field. -/
def Unrevoked (r : WitnessRequest) : Prop :=
  ∀ depth ∈ r.credential.body.schema.depth, ∃ proof ∈ r.unrevoked,
    proof.siblings.length = depth ∧ ∀ n ∈ proof.integers, n < fieldOrder

/-- What a request needs, in the order in which it is looked at. -/
def requirements (r : WitnessRequest) : List (Prop × FaultKind) :=
  [(r.Unrevoked, .invalidCredential),
    (r.index < r.credential.signatures.length, .invalidSignature),
    (∃ disclosed, r.presentation.checkBody r.credential.body = .ok disclosed, .invalidStatementCheck),
    (∀ s ∈ r.credential.signatures[r.index]?,
      r.presentation.checkExpiration s.issuance.expiredAt = .ok (), .invalidStatementCheck),
    (r.externalNullifier < 2 ^ 160, .invalidQuery),
    (r.pseudonym < 2 ^ 248, .invalidQuery),
    (∀ s ∈ r.credential.signatures[r.index]?, ∃ signature,
      edwardsCurve.decodeSignature s.bytes s.issuance.publicKey = .ok signature, .invalidSignature),
    (r.identitySecret < fieldOrder, .invalidClaimValue),
    (∃ layout, Layout.ofSchema r.credential.body.schema = .ok layout, .unsupportableType)]

theorem obeys_revocation (r : WitnessRequest) : Obeys [(r.Unrevoked, .invalidCredential)] r.revocation := by
  refine .single ?_ ?_
  · constructor
    · rintro ⟨revocation, hrevocation⟩ depth hdepth
      rcases revocation_eq_ok_iff.1 hrevocation with ⟨hnone, -⟩ | ⟨depth', proof, hsome, hproof, hcheck, -⟩
      · cases hnone.symm.trans hdepth
      · obtain rfl := Option.some.inj (hsome.symm.trans hdepth)
        exact ⟨proof, hproof, NonRevocation.check_eq_ok_iff.1 hcheck⟩
    · intro hunrevoked
      cases hdepth : r.credential.body.schema.depth with
      | none => exact ⟨none, revocation_eq_ok_iff.2 (.inl ⟨hdepth, rfl⟩)⟩
      | some depth =>
        obtain ⟨proof, hproof, hcheck⟩ := hunrevoked depth hdepth
        exact ⟨some proof, revocation_eq_ok_iff.2 (.inr ⟨depth, proof, hdepth, hproof,
          NonRevocation.check_eq_ok_iff.2 hcheck, rfl⟩)⟩
  · unfold revocation
    split
    · exact .ok _
    · exact .own _
    · exact .bind (NonRevocation.check_failsWith _ _) fun _ => .ok _

theorem obeys_signature (r : WitnessRequest) :
    Obeys [(r.index < r.credential.signatures.length, .invalidSignature)] r.signature := by
  refine .single ?_ ?_
  · simp only [signature_eq_ok_iff, List.getElem?_eq_some_iff]
    exact ⟨fun ⟨_, hindex, _⟩ => hindex, fun hindex => ⟨_, hindex, rfl⟩⟩
  · unfold signature
    split
    · split
      · exact .ok _
      · exact .own _
    · exact .own _

theorem obeys_checkBound (what : String) (n : Nat) (i : Intrinsic) :
    Obeys [(n < i.signal.ceiling, .invalidQuery)] (checkBound what n i) := by
  refine .single ?_ ?_
  · rw [Result.exists_eq_ok_iff, checkBound_eq_ok_iff]
  · unfold checkBound
    split
    · exact .ok _
    · exact .own _

/-- The purpose and the pseudonym are in the field once they are bounded. -/
theorem obeys_pseudonymDigest (hexternal : r.externalNullifier < fieldOrder)
    (hpseudonym : r.pseudonym < fieldOrder) :
    Obeys [(r.identitySecret < fieldOrder, .invalidClaimValue)] (r.pseudonymDigest Poseidon.hash) := by
  refine ⟨fun hsecret => exists_pseudonymDigest hsecret hexternal hpseudonym, fun hsecret => ?_⟩
  rw [pseudonymDigest, Field.ofNat, dif_neg hsecret]
  exact ⟨_, rfl, rfl⟩

theorem obeys_check (r : WitnessRequest) : Obeys r.requirements (r.check Poseidon.hash) := by
  refine .bind (obeys_revocation r) fun revocation _ => ?_
  refine .bind (obeys_signature r) fun s hs => ?_
  -- From here on the signature is known, and what is required of it is required of this one.
  rw [signature_eq_ok_iff] at hs
  have hat (P : Signature → Prop) : P s ↔ ∀ t ∈ r.credential.signatures[r.index]?, P t := by
    simp [hs]
  refine .bind (.single Iff.rfl (Presentation.checkBody_failsWith _ _)) fun _ _ => ?_
  have hexpiration := hat fun t => r.presentation.checkExpiration t.issuance.expiredAt = .ok ()
  refine .bind (.single (Result.exists_eq_ok_iff.trans hexpiration)
    (Presentation.checkExpiration_failsWith _ _)) fun _ _ => ?_
  refine .bind (obeys_checkBound _ _ .externalNullifier) fun _ hexternal => ?_
  refine .bind (obeys_checkBound _ _ .revealIdentity) fun _ hpseudonym => ?_
  rw [checkBound_eq_ok_iff] at hexternal hpseudonym
  have hdecoded := hat fun t =>
    ∃ signature, edwardsCurve.decodeSignature t.bytes t.issuance.publicKey = .ok signature
  refine .bind (.single hdecoded (SigningCurve.decodeSignature_failsWith _ _ _)) fun _ _ => ?_
  refine .bind (obeys_pseudonymDigest (Field.lt_fieldOrder hexternal (by decide))
    (Field.lt_fieldOrder hpseudonym (by decide))) fun _ _ => ?_
  exact .bind (.single Iff.rfl (Circuit.Layout.ofSchema_failsWith _)) fun _ _ => ⟨_, rfl⟩

theorem obeys_witness (r : WitnessRequest) : Obeys r.requirements (r.witness Poseidon.hash) := by
  -- Holding the inputs against the layout requires nothing more.
  rw [← List.append_nil r.requirements]
  refine .bind (obeys_check r) fun c hc => ?_
  have hw := witness_of_check hc
  rw [witness, hc] at hw
  exact ⟨_, hw⟩

/-- **There is a witness exactly if all requirements are met**, and the first one that is not gives
the kind of the error. -/
theorem witness_outcome (r : WitnessRequest) :
    ((∃ w, r.witness Poseidon.hash = .ok w) ↔ ∀ q ∈ r.requirements, q.1) ∧
      (∀ met q rest, r.requirements = met ++ q :: rest → (∀ m ∈ met, m.1) → ¬ q.1 →
        ∃ e, r.witness Poseidon.hash = .error e ∧ e.kind = q.2) ∧
      ∀ e, r.witness Poseidon.hash = .error e → e.kind ≠ .internalError := by
  have hobeys := obeys_witness r
  refine ⟨hobeys.exists_eq_ok_iff, fun met q rest hsplit hmet hq => ?_, fun e he hkind => ?_⟩
  · exact (hsplit ▸ hobeys).exists_error hmet hq
  · have hmem := hobeys.failsWith e he
    rw [hkind] at hmem
    exact absurd hmem (by simp [requirements])

theorem unrevoked_ageRequest : ageRequest.Unrevoked := by
  intro depth hdepth
  obtain rfl := Option.some.inj hdepth
  exact ⟨_, rfl, rfl, by decide⟩

theorem met_ageRequest : ∀ q ∈ ageRequest.requirements, q.1 := by
  have hlayout := (Layout.ofSchema_eq_ok_iff _ _).2
    ⟨rfl, ((Circuit.compile_eq_ok_iff _ _).1 Circuit.compile_ageSchema).2⟩
  have hsmall : ∀ n < 15, n < fieldOrder := fun n hn => Nat.lt_trans hn (by decide)
  simp only [requirements, List.forall_mem_cons]
  refine ⟨unrevoked_ageRequest, Nat.zero_lt_one, ⟨_, rfl⟩, fun s hs => ?_, by decide, by decide,
    fun s hs => ?_, hsmall 11 (by decide), ⟨_, hlayout⟩, nofun⟩
  · obtain rfl := Option.some.inj hs
    rfl
  · obtain rfl := Option.some.inj hs
    exact ⟨_, decodeSignature_neutral⟩

/-- A signature that is not there, for a purpose that is too great: the signature is looked for first. -/
theorem witness_outcome_age :
    (∃ w, ageRequest.witness Poseidon.hash = .ok w) ∧
      ∃ e, { ageRequest with chosen := some 1, externalNullifier := 2 ^ 160 }.witness Poseidon.hash = .error e ∧
        e.kind = .invalidSignature :=
  ⟨(witness_outcome ageRequest).1.2 met_ageRequest,
    (witness_outcome { ageRequest with chosen := some 1, externalNullifier := 2 ^ 160 }).2.1 [_] _ _ rfl
      (List.forall_mem_singleton.2 unrevoked_ageRequest) (Nat.lt_irrefl 1)⟩

end WitnessRequest

end Vouch

import Vouch.Proofs.Curve.Signatures
import Vouch.Proofs.Groth16.Outcome
import Vouch.Proofs.Stack.Lowering

/-! Stacks before and after they are prepared.

Whatever has happened to a stack, it is prepared if, and only if, some preparation has succeeded
(`prepared_run`); one that fails its checks leaves it as it was. Until then a stack refuses
every request that it guards (`perform_of_unprepared`), and from then on none: only a proof
can still find that there is no prover (`served_of_prepared`).

Three operations have no guard, because nothing of the stack goes into them: the key of a secret,
the circuit of a schema and the contract of a circuit. Signing looks at the secret before it
looks for the hash, and so answers for a secret of the wrong length even when it is
not prepared. `refuses_until_prepared` says that there are no other exceptions. -/
namespace Vouch

open Result (FailsWith)

/-! ### Kinds of error of hashing and signing -/

theorem Field.ofNat_failsWith (n : Nat) : FailsWith [.invalidClaimValue] (ofNat n) := by
  unfold ofNat
  split
  · exact .ok _
  · exact .own _

/-- Only nothing at all has no digest. -/
theorem Poseidon.hash_failsWith (xs : List Felt) : FailsWith [.internalError] (hash xs) := by
  by_cases hxs : xs = []
  · rw [hxs]
    exact .own _
  · obtain ⟨d, hd⟩ := exists_chain (fun _ => exists_permute) hxs
    rw [hash, hd]
    exact .ok d

theorem SigningCurve.expand_failsWith {P : Type} (C : SigningCurve P) (secret : List UInt8) :
    FailsWith [.invalidSignature] (C.expand secret) := by
  unfold expand
  split
  · exact .ok _
  · exact .own _

theorem SigningCurve.sign_failsWith {P : Type} {hash : FieldHash}
    (hhash : ∀ xs, FailsWith [.internalError] (hash xs)) (C : SigningCurve P) (k : ExpandedSecret) (message : Felt) :
    FailsWith [.internalError] (C.sign hash k message) :=
  .bind (.bind (hhash _) fun _ => .ok _) fun _ => .ok _

theorem Credential.digest_failsWith {hash : FieldHash} (hhash : ∀ xs, FailsWith [.internalError] (hash xs))
    (c : Credential) (i : Issuance) : FailsWith [.invalidCredential, .internalError] (c.digest hash i) := by
  have hinternal (xs : List Felt) : FailsWith [.invalidCredential, .internalError] (hash xs) :=
    (hhash xs).mono (List.subset_cons_self ..)
  refine .bind (.mapM (fun n => .reported (List.mem_cons_self ..) _) _) fun elements => ?_
  refine .bind (hinternal elements) fun head => .bind ?_ fun body => hinternal [head, body]
  unfold bodyDigest
  split
  · exact .ok 0
  · exact hinternal _

namespace Stack

open Circuit (ageSchema compile_ageSchema)

variable {s : Stack}

/-! ### Requests -/

/-- An operation of a stack with what it is given. -/
inductive Request where
  | hasher
  | identityCommitment (secret nullifier : Nat)
  | publicKey (secret : List UInt8)
  | sign (secret : List UInt8) (message : Felt)
  | verify (message : Felt) (signature key : List UInt8)
  | digest (c : Credential) (i : Issuance)
  | circuit (schema : Schema)
  | witness (r : WitnessRequest)
  | prove (schemaId : Nat) (w : Witness)
  | verifyWith (c : Circuit) (key : String) (d : ProofDocument)
  | contractCode (c : Circuit) (key : String)

namespace Request

/-- What a request is answered with. -/
def Answer : Request → Type
  | .hasher => FieldHash
  | .identityCommitment .. | .digest .. => Felt
  | .publicKey .. | .sign .. => List UInt8
  | .verify .. | .verifyWith .. => Bool
  | .circuit .. => Circuit
  | .witness .. => Witness
  | .prove .. => ProofDocument
  | .contractCode .. => String

/-- The stack has to be prepared for it. -/
def Guarded : Request → Prop
  | .publicKey .. | .circuit .. | .contractCode .. => False
  | .sign secret _ => secret.length = secretLength
  | _ => True

/-- It is not a prover that is asked. -/
def OwnWork : Request → Prop
  | .prove .. => False
  | _ => True

end Request

def perform (s : Stack) : (r : Request) → Result r.Answer
  | .hasher => s.hasher
  | .identityCommitment secret nullifier => s.identityCommitment secret nullifier
  | .publicKey secret => publicKey secret
  | .sign secret message => s.sign secret message
  | .verify message signature key => s.verify message signature key
  | .digest c i => s.digest c i
  | .circuit schema => s.circuit schema
  | .witness r => s.witness r
  | .prove schemaId w => s.prove schemaId w
  | .verifyWith c key d => s.verifyWith c key d
  | .contractCode c key => contractCode c key

/-! ### Histories -/

/-- What can happen to a stack. -/
inductive Event where
  | prepare
  | request (r : Request)
  /-- Another prover is attached. -/
  | attach (prover : Prover)
  /-- The files are no longer what they were. -/
  | replace (files : Files)

/-- A preparation that fails and a request leave the stack as it is. -/
def after (s : Stack) : Event → Stack
  | .prepare => s.prepare.toOption.getD s
  | .request _ => s
  | .attach prover => { s with prover := some prover }
  | .replace files => { s with files }

def run (s : Stack) (events : List Event) : Stack :=
  events.foldl after s

/-- Some preparation among the events has succeeded. -/
def HasPrepared (s : Stack) (events : List Event) : Prop :=
  ∃ before rest stack, events = before ++ .prepare :: rest ∧ (s.run before).prepare = .ok stack

theorem hasPrepared_cons {e : Event} {events : List Event} :
    s.HasPrepared (e :: events) ↔ (e = .prepare ∧ ∃ stack, s.prepare = .ok stack) ∨ (s.after e).HasPrepared events := by
  constructor
  · rintro ⟨before, rest, stack, hevents, hstack⟩
    cases before with
    | nil =>
      obtain ⟨rfl, -⟩ := List.cons.inj hevents
      exact .inl ⟨rfl, stack, hstack⟩
    | cons first before =>
      obtain ⟨rfl, rfl⟩ := List.cons.inj hevents
      exact .inr ⟨before, rest, stack, rfl, hstack⟩
  · rintro (⟨rfl, stack, hstack⟩ | ⟨before, rest, stack, rfl, hstack⟩)
    · exact ⟨[], events, stack, rfl, hstack⟩
    · exact ⟨e :: before, rest, stack, rfl, hstack⟩

/-- One event makes a stack prepared only if it is a preparation that succeeds. -/
theorem prepared_after (s : Stack) (e : Event) :
    (s.after e).prepared = true ↔ s.prepared = true ∨ (e = .prepare ∧ ∃ stack, s.prepare = .ok stack) := by
  cases e with
  | prepare =>
    cases h : s.prepare with
    | ok stack =>
      obtain ⟨-, rfl⟩ := prepare_eq_ok_iff.1 h
      simp [after, h, Except.toOption]
    | error e => simp [after, h, Except.toOption]
  | request r => simp [after]
  | attach prover => simp [after]
  | replace files => simp [after]

theorem prepared_run (s : Stack) (events : List Event) :
    (s.run events).prepared = true ↔ s.prepared = true ∨ s.HasPrepared events := by
  induction events generalizing s with
  | nil =>
    have hnone : ¬ s.HasPrepared [] := fun ⟨_, _, _, h, _⟩ => by simp at h
    exact (or_iff_left hnone).symm
  | cons e events ih =>
    rw [run, List.foldl_cons, ← run, ih, prepared_after, or_assoc, hasPrepared_cons]

/-! ### What is asked of an unprepared stack -/

theorem hasher_of_unprepared (h : s.prepared = false) : s.hasher = .error (.stack .unprepared) := by
  rw [hasher, h]
  rfl

theorem perform_of_unprepared (h : s.prepared = false) {r : Request} (hguarded : r.Guarded) :
    s.perform r = .error (.stack .unprepared) := by
  have hhasher := hasher_of_unprepared h
  cases r with
  | hasher => exact hhasher
  | identityCommitment secret nullifier => rw [perform, identityCommitment, hhasher]; rfl
  | publicKey secret => exact hguarded.elim
  | sign secret message =>
    -- The secret is expanded before the hash is looked for.
    obtain ⟨k, hk⟩ := exists_expand hguarded
    rw [perform, sign, hk, hhasher]
    rfl
  | verify message signature key => rw [perform, verify, hhasher]; rfl
  | digest c i => rw [perform, digest, hhasher]; rfl
  | circuit schema => exact hguarded.elim
  | witness r => rw [perform, witness, hhasher]; rfl
  | prove schemaId w => rw [perform, prove, h]; rfl
  | verifyWith c key d => rw [perform, verifyWith, h]; rfl
  | contractCode c key => exact hguarded.elim

/-! ### What is not refused -/

/-- If something goes wrong, it is not that the stack is not ready. -/
def Served {α : Type} (r : Result α) : Prop :=
  ∀ e, r = .error e → e.kind ≠ .notPrepared

theorem Served.of_failsWith {α : Type} {kinds : List FaultKind} {r : Result α} (h : FailsWith kinds r)
    (hkinds : .notPrepared ∉ kinds) : Served r :=
  fun e he hkind => hkinds (hkind ▸ h e he)

theorem publicKey_failsWith (secret : List UInt8) : FailsWith [.invalidSignature] (publicKey secret) :=
  .bind (edwardsCurve.expand_failsWith secret) fun _ => .ok _

theorem circuit_failsWith (s : Stack) (schema : Schema) : FailsWith [.unsupportableType] (s.circuit schema) := by
  refine .bind (.bind (Circuit.Layout.ofSchema_failsWith schema) fun _ => .ok _) fun c => ?_
  split
  · exact .ok _
  · exact .own _

theorem expand_of_length_ne {secret : List UInt8} (h : secret.length ≠ secretLength) :
    edwardsCurve.expand secret = .error (.signature (.privateKeyLength secret.length)) :=
  if_neg h

/-- What has no guard is answered whatever the state of the stack. -/
theorem served_of_not_guarded (s : Stack) {r : Request} (h : ¬ r.Guarded) : Served (s.perform r) := by
  cases r with
  | publicKey secret => exact .of_failsWith (publicKey_failsWith secret) (by decide)
  | sign secret message =>
    rw [perform, sign, expand_of_length_ne h]
    rintro _ ⟨⟩
    exact nofun
  | circuit schema => exact .of_failsWith (s.circuit_failsWith schema) (by decide)
  | contractCode c key => exact .of_failsWith (Groth16.Contract.code_failsWith c key) (by decide)
  | hasher | identityCommitment | verify | digest | witness | prove | verifyWith => exact absurd trivial h

section Prepared

variable (h : s.prepared = true)
include h

theorem hasher_of_prepared : s.hasher = .ok Poseidon.hash :=
  hasher_eq_ok_iff.2 ⟨h, rfl⟩

theorem identityCommitment_failsWith (secret nullifier : Nat) :
    FailsWith [.invalidClaimValue, .internalError] (s.identityCommitment secret nullifier) := by
  have hofNat (n : Nat) : FailsWith [.invalidClaimValue, .internalError] (Field.ofNat n) :=
    (Field.ofNat_failsWith n).mono (by decide)
  rw [identityCommitment, hasher_of_prepared h]
  show FailsWith _ (Field.ofNat secret >>= _)
  refine .bind (hofNat secret) fun secret => .bind (hofNat nullifier) fun nullifier => ?_
  exact (Poseidon.hash_failsWith [secret, nullifier]).mono (by decide)

theorem sign_failsWith (secret : List UInt8) (message : Felt) :
    FailsWith [.invalidSignature, .internalError] (s.sign secret message) := by
  rw [sign, hasher_of_prepared h]
  refine .bind ((edwardsCurve.expand_failsWith secret).mono (by decide)) fun k => ?_
  exact (edwardsCurve.sign_failsWith Poseidon.hash_failsWith k message).mono (by decide)

theorem verify_failsWith (message : Felt) (signature key : List UInt8) :
    FailsWith [] (s.verify message signature key) := by
  rw [verify, hasher_of_prepared h]
  exact .ok _

theorem digest_failsWith (c : Credential) (i : Issuance) :
    FailsWith [.invalidCredential, .internalError] (s.digest c i) := by
  rw [digest, hasher_of_prepared h]
  exact c.digest_failsWith Poseidon.hash_failsWith i

theorem witness_failsWith (r : WitnessRequest) :
    FailsWith ((s.answered r).requirements.map Prod.snd) (s.witness r) := by
  rw [witness, hasher_of_prepared h]
  exact (WitnessRequest.obeys_witness (s.answered r)).failsWith

theorem verifyWith_failsWith (c : Circuit) (key : String) (d : ProofDocument) :
    FailsWith [.invalidSignature, .serialization] (s.verifyWith c key d) := by
  rw [verifyWith, if_pos h]
  exact Groth16.verify_failsWith c key d

theorem served_of_prepared {r : Request} (hown : r.OwnWork) : Served (s.perform r) := by
  cases r with
  | hasher => exact fun e he => nomatch (hasher_of_prepared h).symm.trans he
  | identityCommitment secret nullifier =>
    exact .of_failsWith (identityCommitment_failsWith h secret nullifier) (by decide)
  | sign secret message => exact .of_failsWith (sign_failsWith h secret message) (by decide)
  | verify message signature key => exact .of_failsWith (verify_failsWith h message signature key) (by decide)
  | digest c i => exact .of_failsWith (digest_failsWith h c i) (by decide)
  | witness r => exact .of_failsWith (witness_failsWith h r) (by simp [WitnessRequest.requirements])
  | prove schemaId w => exact hown.elim
  | verifyWith c key d => exact .of_failsWith (verifyWith_failsWith h c key d) (by decide)
  | publicKey | circuit | contractCode => exact served_of_not_guarded s fun hguarded => hguarded

end Prepared

/-- **A stack refuses what it guards until a preparation has succeeded**, whatever else has been
asked of it and however many preparations have failed, and nothing but a proof afterwards. What it
does not guard it never refuses. -/
theorem refuses_until_prepared (config : Config) (prover : Option Prover) (files : Files) (events : List Event)
    (r : Request) :
    (¬ (make config prover files).HasPrepared events →
      (r.Guarded → ((make config prover files).run events).perform r = .error (.stack .unprepared)) ∧
        (¬ r.Guarded → Served (((make config prover files).run events).perform r))) ∧
      ((make config prover files).HasPrepared events → r.OwnWork →
        Served (((make config prover files).run events).perform r)) := by
  have hprepared := prepared_run (make config prover files) events
  rw [or_iff_right (show ¬ (make config prover files).prepared = true from Bool.false_ne_true)] at hprepared
  refine ⟨fun hnone => ⟨fun hguarded => ?_, served_of_not_guarded _⟩, fun hsome hown => ?_⟩
  · exact perform_of_unprepared (Bool.not_eq_true _ ▸ mt hprepared.1 hnone) hguarded
  · exact served_of_prepared (hprepared.2 hsome) hown

/-- A stack as it is made, with a limit that need not be allowed. -/
def fresh (limit : Nat) : Stack :=
  make { Config.standard with signalLimit := limit } none fun _ => none

def fives : List UInt8 := List.replicate secretLength 5

/-- No limit of zero is allowed, however often it is tried; the greatest one is. -/
theorem refuses_until_prepared_limits :
    ¬ (fresh 0).HasPrepared [.prepare, .request .hasher, .prepare] ∧
      ((fresh 0).run [.prepare, .request .hasher, .prepare]).perform (.sign fives 0) =
        .error (.stack .unprepared) ∧
      (fresh 256).HasPrepared [.prepare] ∧ Served (((fresh 256).run [.prepare]).perform (.sign fives 0)) := by
  have hnone : ¬ (fresh 0).HasPrepared [.prepare, .request .hasher, .prepare] := fun h =>
    nomatch (prepared_run _ _).2 (.inr h)
  have hsome : (fresh 256).HasPrepared [.prepare] :=
    hasPrepared_cons.2 (.inl ⟨rfl, _, prepare_eq_ok_iff.2 ⟨by decide, rfl⟩⟩)
  exact ⟨hnone, ((refuses_until_prepared _ _ _ _ _).1 hnone).1 rfl, hsome,
    (refuses_until_prepared _ _ _ _ _).2 hsome trivial⟩

/-- Before any preparation there is a key for a secret and a circuit for a schema, and a secret of the
wrong length is an error of its own. -/
theorem unprepared_answers :
    ¬ (fresh 256).HasPrepared [] ∧ (∃ key, (fresh 256).perform (.publicKey fives) = .ok key) ∧
      (fresh 256).perform (.sign [] 0) = .error (.signature (.privateKeyLength 0)) ∧
      ∃ c, (fresh 256).perform (.circuit ageSchema) = .ok c := by
  obtain ⟨k, hk⟩ := exists_expand (show fives.length = secretLength from rfl)
  have hkey : publicKey fives = .ok (edwardsCurve.publicKey k) := by
    rw [publicKey, hk]
    rfl
  have hcircuit := (circuit_of_compile (s := fresh 256) compile_ageSchema).trans (if_pos (by decide))
  have hnone : ¬ (fresh 256).HasPrepared [] := fun h => nomatch (prepared_run _ _).2 (.inr h)
  exact ⟨hnone, ⟨_, hkey⟩, rfl, _, hcircuit⟩

end Stack

end Vouch

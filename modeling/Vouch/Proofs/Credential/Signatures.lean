import Mathlib.Data.List.Induction
import Vouch.Credential.Signing
import Vouch.Proofs.Credential.RoundTrip
import Vouch.Proofs.Result

/-! Signatures stay good.

A credential takes on attachments and signatures, and is sent and read again, in any order and
as often as one likes (`run`). Whatever happens, its header and its body stay, and every
signature keeps its place, so that each one still verifies under its own issuance
(`signatures_survive`). The signature on attachments counts for those that were there when it
was made, and one that was made without any does not count once there are some. -/
namespace Vouch

/-- A suite that accepts what it signs, under the key of the secret. -/
def SignatureSuite.AcceptsOwn (suite : SignatureSuite) : Prop :=
  ∀ secret key message bytes, suite.publicKey secret = .ok key →
    suite.sign secret message = .ok bytes → suite.verify message bytes key = .ok true

namespace Credential

/-! ### Operations -/

/-- What is done to a credential once it is made. -/
inductive Operation where
  | attach (attachments : Keyed String)
  | sign (secret : List UInt8) (issuance : Issuance)
  /-- Written in the wire form, and read under the same schema. -/
  | send

variable (suite : SignatureSuite)

/-- An operation changes the credential in place; one that fails leaves it as it is at that point. -/
def perform : Operation → EStateM Error Credential Unit
  | .attach attachments => modify (·.withAttachments attachments)
  | .sign secret issuance => do
    let c ← get
    let s ← MonadExcept.ofExcept (c.signature suite secret issuance)
    modify fun c => { c with signatures := c.signatures ++ [s] }
  | .send => do
    let c ← get
    let d ← MonadExcept.ofExcept (ofText c.body.schema c.text)
    set d

/-- The credential after an operation, whatever the outcome. -/
def after (c : Credential) (op : Operation) : Credential :=
  match perform suite op c with
  | .ok _ d => d
  | .error _ d => d

def run (c : Credential) : List Operation → Credential
  | [] => c
  | op :: rest => run (after suite c op) rest

theorem run_append (c : Credential) (earlier later : List Operation) :
    run suite c (earlier ++ later) = run suite (run suite c earlier) later := by
  induction earlier generalizing c with
  | nil => rfl
  | cons op rest ih => exact ih _

variable {suite} {c d : Credential} {secret : List UInt8} {issuance : Issuance} {s : Signature}

theorem get_bind {α : Type} (f : Credential → EStateM Error Credential α) (c : Credential) :
    (get >>= f) c = f c c := rfl

theorem ofExcept_ok_bind {α β : Type} (f : α → EStateM Error Credential β) (a : α) (c : Credential) :
    (MonadExcept.ofExcept (.ok a : Result α) >>= f) c = f a c := rfl

theorem ofExcept_error_bind {α β : Type} (f : α → EStateM Error Credential β) (e : Error) (c : Credential) :
    (MonadExcept.ofExcept (.error e : Result α) >>= f) c = .error e c := rfl

/-- Signing in place is signing, and a refusal leaves the credential as it was. -/
theorem perform_sign : perform suite (.sign secret issuance) c =
    match c.sign suite secret issuance with
    | .ok d => .ok () d
    | .error e => .error e c := by
  rw [perform, get_bind, sign]
  cases c.signature suite secret issuance with
  | ok s =>
    rw [ofExcept_ok_bind]
    rfl
  | error e =>
    rw [ofExcept_error_bind]
    rfl

theorem sign_eq_ok_iff : c.sign suite secret issuance = .ok d ↔
    ∃ s, c.signature suite secret issuance = .ok s ∧ d = { c with signatures := c.signatures ++ [s] } := by
  rw [sign, Result.bind_eq_ok_iff]
  refine exists_congr fun s => and_congr_right fun _ => ?_
  exact ⟨fun h => (Except.ok.inj h).symm, fun h => congrArg Except.ok h.symm⟩

theorem perform_send (h : c.header.type = c.body.schema.id) : perform suite .send c = .ok () c := by
  rw [perform, get_bind, ofText_of_type h, ofExcept_ok_bind]
  rfl

theorem after_send (h : c.header.type = c.body.schema.id) : after suite c .send = c := by
  rw [after, perform_send h]

/-- What an operation can do. -/
theorem after_cases (suite : SignatureSuite) (h : c.header.type = c.body.schema.id) (op : Operation) :
    (∃ attachments, after suite c op = c.withAttachments attachments) ∨
      (∃ secret issuance s, op = .sign secret issuance ∧ c.signature suite secret issuance = .ok s ∧
        after suite c op = { c with signatures := c.signatures ++ [s] }) ∨
      after suite c op = c := by
  cases op with
  | attach attachments => exact .inl ⟨attachments, rfl⟩
  | sign secret issuance =>
    unfold after
    rw [perform_sign]
    cases hsign : c.sign suite secret issuance with
    | ok d =>
      obtain ⟨s, hs, rfl⟩ := sign_eq_ok_iff.1 hsign
      exact .inr (.inl ⟨secret, issuance, s, rfl, hs, rfl⟩)
    | error e => exact .inr (.inr rfl)
  | send => exact .inr (.inr (after_send h))

/-- Nothing but more signatures and other attachments. -/
structure Extends (c d : Credential) : Prop where
  header : d.header = c.header
  body : d.body = c.body
  signatures : c.signatures <+: d.signatures

theorem Extends.refl (c : Credential) : Extends c c :=
  ⟨rfl, rfl, List.prefix_refl _⟩

theorem Extends.trans {b c d : Credential} (h : Extends b c) (h' : Extends c d) : Extends b d :=
  ⟨h'.header.trans h.header, h'.body.trans h.body, h.signatures.trans h'.signatures⟩

/-- The header goes on naming the schema. -/
theorem Extends.type (h : Extends c d) (htype : c.header.type = c.body.schema.id) :
    d.header.type = d.body.schema.id := by
  rw [h.header, h.body, htype]

theorem extends_after (suite : SignatureSuite) (h : c.header.type = c.body.schema.id) (op : Operation) :
    Extends c (after suite c op) := by
  rcases after_cases suite h op with ⟨attachments, hd⟩ | ⟨secret, issuance, s, -, -, hd⟩ | hd
  · rw [hd]
    exact ⟨rfl, rfl, List.prefix_refl _⟩
  · rw [hd]
    exact ⟨rfl, rfl, List.prefix_append ..⟩
  · rw [hd]
    exact .refl c

theorem extends_run (suite : SignatureSuite) (h : c.header.type = c.body.schema.id)
    (ops : List Operation) :
    Extends c (run suite c ops) := by
  induction ops generalizing c with
  | nil => exact .refl c
  | cons op rest ih =>
    have hstep := extends_after suite h op
    exact hstep.trans (ih (hstep.type h))

/-! ### Where a signature comes from -/

/-- In a run, the signature at an index was made with this secret on the credential `d`. -/
structure MadeOn (suite : SignatureSuite) (start : Credential) (ops : List Operation) (i : Nat)
    (s : Signature) (secret : List UInt8) (d : Credential) : Prop where
  moment : ∃ earlier later, ops = earlier ++ .sign secret s.issuance :: later ∧ run suite start earlier = d
  index : d.signatures.length = i
  made : d.signature suite secret s.issuance = .ok s

theorem MadeOn.append {start : Credential} {ops : List Operation} {i : Nat}
    (h : MadeOn suite start ops i s secret d) (more : List Operation) :
    MadeOn suite start (ops ++ more) i s secret d := by
  obtain ⟨earlier, later, rfl, hd⟩ := h.moment
  exact ⟨⟨earlier, later ++ more, by rw [List.append_assoc, List.cons_append], hd⟩, h.index, h.made⟩

/-- How a signature was made: the id and the key were right, and the bytes were signed. -/
structure Made (suite : SignatureSuite) (secret : List UInt8) (hash : FieldHash) (c : Credential)
    (s : Signature) : Prop where
  validId : checkSignatureId c.body.schema s.issuance.signatureId = .ok ()
  key : suite.publicKey secret = .ok s.issuance.publicKey
  hasher : suite.hasher = .ok hash
  bytes : ∃ message, c.digest hash s.issuance = .ok message ∧ suite.sign secret message = .ok s.bytes
  unattached : c.attachments.isEmpty = true → s.attachments = none
  attached : ¬ c.attachments.isEmpty = true → ∃ message bytes, c.attachmentsDigest hash = .ok message ∧
    suite.sign secret message = .ok bytes ∧ s.attachments = some bytes

theorem made_of_signature (h : c.signature suite secret issuance = .ok s) :
    s.issuance = issuance ∧ ∃ hash, Made suite secret hash c s := by
  obtain ⟨⟨⟩, -, h⟩ := Result.bind_eq_ok_iff.1 h
  obtain ⟨⟨⟩, hid, h⟩ := Result.bind_eq_ok_iff.1 h
  obtain ⟨key, hkey, h⟩ := Result.bind_eq_ok_iff.1 h
  split at h
  · cases h
  · rename_i hmatch
    obtain rfl := Decidable.not_not.1 hmatch
    obtain ⟨hash, hhash, h⟩ := Result.bind_eq_ok_iff.1 h
    obtain ⟨message, hmessage, h⟩ := Result.bind_eq_ok_iff.1 h
    obtain ⟨bytes, hbytes, h⟩ := Result.bind_eq_ok_iff.1 h
    split at h
    · rename_i hempty
      obtain rfl := Except.ok.inj h
      exact ⟨rfl, hash, hid, hkey, hhash, ⟨message, hmessage, hbytes⟩, fun _ => rfl,
        fun hsome => absurd hempty hsome⟩
    · rename_i hsome
      obtain ⟨message', hmessage', h⟩ := Result.bind_eq_ok_iff.1 h
      obtain ⟨attached, hattached, h⟩ := Result.bind_eq_ok_iff.1 h
      obtain rfl := Except.ok.inj h
      exact ⟨rfl, hash, hid, hkey, hhash, ⟨message, hmessage, hbytes⟩, fun hempty => absurd hempty hsome,
        fun _ => ⟨message', attached, hmessage', hattached, rfl⟩⟩

theorem exists_madeOn {start : Credential} (htype : start.header.type = start.body.schema.id)
    (hnone : start.signatures = []) {ops : List Operation} {i : Nat}
    (h : (run suite start ops).signatures[i]? = some s) : ∃ secret d, MadeOn suite start ops i s secret d := by
  induction ops using List.reverseRecOn with
  | nil =>
    rw [run, hnone] at h
    cases h
  | append_singleton ops op ih =>
    have hrun : run suite start (ops ++ [op]) = after suite (run suite start ops) op := run_append ..
    have hearlier : (run suite start ops).signatures[i]? = some s →
        ∃ secret d, MadeOn suite start (ops ++ [op]) i s secret d := by
      intro h
      obtain ⟨secret, d, hmade⟩ := ih h
      exact ⟨secret, d, hmade.append [op]⟩
    have htype' := (extends_run suite htype ops).type htype
    rcases after_cases suite htype' op with
      ⟨attachments, hd⟩ | ⟨secret, issuance, s', rfl, hs', hd⟩ | hd
    · rw [hrun, hd] at h
      exact hearlier h
    · rw [hrun, hd] at h
      by_cases hi : i < (run suite start ops).signatures.length
      · rw [List.getElem?_append_left hi] at h
        exact hearlier h
      -- The signature is the one that the last operation has made.
      · rw [List.getElem?_append_right (Nat.le_of_not_lt hi), List.getElem?_singleton] at h
        split at h
        · rename_i hindex
          obtain rfl := Option.some.inj h
          obtain ⟨rfl, -⟩ := made_of_signature hs'
          exact ⟨secret, _, ⟨ops, [], rfl, rfl⟩, by omega, hs'⟩
        · cases h
    · rw [hrun, hd] at h
      exact hearlier h

/-! ### Verifying later -/

theorem checkSignatureId_eq_ok_iff {schema : Schema} {id : Nat} :
    checkSignatureId schema id = .ok () ↔ id ≠ 0 ∧ ∀ depth ∈ schema.depth, id < 2 ^ depth := by
  unfold checkSignatureId
  by_cases hzero : id = 0
  · simp [hzero]
  · rw [if_neg hzero, and_iff_right hzero]
    cases schema.depth with
    | none => simp
    | some depth => by_cases hfits : id < 2 ^ depth <;> simp [hfits]

/-- The digest reads the header and the body, and nothing that changes. -/
theorem digest_of_extends (h : Extends c d) (hash : FieldHash) (i : Issuance) :
    d.digest hash i = c.digest hash i := by
  simp only [digest, signedIntegers, h.header, h.body]

variable {hash : FieldHash} {i : Nat}

/-- Under the credential that it was made on, or a later one, the main part of a signature holds. -/
theorem verify_eq (hsuite : suite.AcceptsOwn) (hmade : Made suite secret hash d s) (hlater : Extends d c)
    (hs : c.signatures[i]? = some s) (withAttachments : Bool) :
    c.verify suite i withAttachments = if withAttachments then c.verifyAttachments suite s else .ok true := by
  have hsome : ¬ c.signatures.isEmpty = true := by
    intro hempty
    rw [List.isEmpty_iff.1 hempty] at hs
    cases hs
  obtain ⟨message, hmessage, hbytes⟩ := hmade.bytes
  have hdigest : c.digest hash s.issuance = .ok message := (digest_of_extends hlater ..).trans hmessage
  have haccepts := hsuite _ _ _ _ hmade.key hbytes
  have hscheme : ¬ s.issuance.scheme ≠ suite.scheme := fun hne => hne (Subsingleton.elim _ _)
  rw [verify, if_neg hsome, hs]
  dsimp only
  rw [if_neg hscheme]
  simp only [hmade.hasher, hdigest, haccepts, bind, Except.bind, if_true]
  cases withAttachments <;> rfl

theorem verifyAttachments_of_isEmpty (h : c.attachments.isEmpty = true) :
    c.verifyAttachments suite s = .ok true :=
  if_pos h

theorem verifyAttachments_of_eq (hsuite : suite.AcceptsOwn) (hmade : Made suite secret hash d s)
    (h : c.attachments = d.attachments) : c.verifyAttachments suite s = .ok true := by
  by_cases hempty : c.attachments.isEmpty = true
  · exact verifyAttachments_of_isEmpty hempty
  · obtain ⟨message, bytes, hmessage, hbytes, hattached⟩ := hmade.attached (h ▸ hempty)
    have hdigest : c.attachmentsDigest hash = .ok message := by
      rw [attachmentsDigest, h]
      exact hmessage
    rw [verifyAttachments, if_neg hempty, hattached]
    simp only [hmade.hasher, hdigest, bind, Except.bind]
    exact hsuite _ _ _ _ hmade.key hbytes

theorem verifyAttachments_of_unattached (hmade : Made suite secret hash d s)
    (hunattached : d.attachments.isEmpty = true) (h : ¬ c.attachments.isEmpty = true) :
    c.verifyAttachments suite s = .ok false := by
  rw [verifyAttachments, if_neg h, hmade.unattached hunattached]

/-! ### Any run -/

/-- The credential that a signature was made on is still there under the later one. -/
theorem MadeOn.extends {start : Credential} {ops : List Operation}
    (htype : start.header.type = start.body.schema.id) (h : MadeOn suite start ops i s secret d) :
    Extends d (run suite start ops) := by
  obtain ⟨earlier, later, rfl, rfl⟩ := h.moment
  rw [run_append]
  exact extends_run suite ((extends_run suite htype earlier).type htype) _

theorem eq_of_perform_sign_error {e : Error} (h : perform suite (.sign secret issuance) c = .error e d) :
    d = c := by
  rw [perform_sign] at h
  split at h
  · cases h
  · cases h
    rfl

theorem exists_of_perform_sign_ok (h : perform suite (.sign secret issuance) c = .ok () d) :
    ∃ s, d = { c with signatures := c.signatures ++ [s] } ∧ s.issuance = issuance := by
  rw [perform_sign] at h
  split at h
  · rename_i hsign
    cases h
    obtain ⟨s, hs, hd⟩ := sign_eq_ok_iff.1 hsign
    exact ⟨s, hd, (made_of_signature hs).1⟩
  · cases h

theorem signatures_of_make {header : Header} {body : Body} (h : make header body = .ok c) :
    c.signatures = [] := by
  unfold make at h
  split at h
  · cases h
    rfl
  · cases h

/-- **Signatures survive whatever is done to the credential later.** -/
theorem signatures_survive (hsuite : suite.AcceptsOwn) {header : Header} {body : Body} {start : Credential}
    (hstart : make header body = .ok start) {ops : List Operation} (hrun : run suite start ops = c) :
    (∀ secret issuance e d, perform suite (.sign secret issuance) c = .error e d → d = c) ∧
      (∀ secret issuance d, perform suite (.sign secret issuance) c = .ok () d →
        ∃ s, d = { c with signatures := c.signatures ++ [s] } ∧ s.issuance = issuance) ∧
      perform suite .send c = .ok () c ∧
      ∀ i s, c.signatures[i]? = some s →
        c.verify suite i false = .ok true ∧
        (∃ secret d, MadeOn suite start ops i s secret d) ∧
        ∀ secret d, MadeOn suite start ops i s secret d →
          s.issuance.signatureId ≠ 0 ∧ (∀ depth ∈ body.schema.depth, s.issuance.signatureId < 2 ^ depth) ∧
          suite.publicKey secret = .ok s.issuance.publicKey ∧
          (c.attachments = .empty ∨ c.attachments = d.attachments → c.verify suite i true = .ok true) ∧
          (d.attachments = .empty → c.attachments ≠ .empty → c.verify suite i true = .ok false) := by
  have hnone := signatures_of_make hstart
  obtain ⟨rfl, rfl, htype⟩ := of_make_eq_ok hstart
  subst hrun
  have htype' := (extends_run suite htype ops).type htype
  refine ⟨fun _ _ _ _ => eq_of_perform_sign_error, fun _ _ _ => exists_of_perform_sign_ok,
    perform_send htype', fun i s hs => ?_⟩
  obtain ⟨secret, d, hmadeOn⟩ := exists_madeOn htype hnone hs
  obtain ⟨-, hash, hmade⟩ := made_of_signature hmadeOn.made
  refine ⟨verify_eq hsuite hmade (hmadeOn.extends htype) hs false, ⟨secret, d, hmadeOn⟩, ?_⟩
  intro secret d hmadeOn
  obtain ⟨-, hash, hmade⟩ := made_of_signature hmadeOn.made
  have hlater := hmadeOn.extends htype
  have hverify := (verify_eq hsuite hmade hlater hs true).trans (if_pos rfl)
  have hbody : d.body = start.body := hlater.body.symm.trans (extends_run suite htype ops).body
  obtain ⟨hnonzero, hdepth⟩ := checkSignatureId_eq_ok_iff.1 hmade.validId
  refine ⟨hnonzero, hbody ▸ hdepth, hmade.key, ?_, ?_⟩
  · rintro (hempty | hequal)
    · exact hverify.trans (verifyAttachments_of_isEmpty (Keyed.isEmpty_iff.2 hempty))
    · exact hverify.trans (verifyAttachments_of_eq hsuite hmade hequal)
  · intro hunattached hattachments
    exact hverify.trans (verifyAttachments_of_unattached hmade (Keyed.isEmpty_iff.2 hunattached)
      (mt Keyed.isEmpty_iff.1 hattachments))

/-! ### Two signatures, of which one is on a note -/

/-- A signature is a byte of the digest before the secret, which is its own key. -/
def byteSuite : SignatureSuite where
  scheme := .babyzk
  hasher := .ok fun elements => .ok (Field.reduce (elements.foldl (fun n a => n + a.val) 0))
  publicKey secret := .ok secret
  sign secret message := .ok (UInt8.ofNat message.val :: secret)
  verify message bytes key := .ok (bytes == UInt8.ofNat message.val :: key)

theorem byteSuite_acceptsOwn : byteSuite.AcceptsOwn := by
  intro secret key message bytes hkey hbytes
  obtain rfl := Except.ok.inj hkey
  obtain rfl := Except.ok.inj hbytes
  exact congrArg Except.ok (beq_self_eq_true _)

def noteIssuance : Issuance :=
  ⟨.babyzk, 255, 1900000000, 5, 7, 0, [1]⟩

def plainIssuance : Issuance :=
  ⟨.babyzk, 1, 0, 6, 7, 0, [2]⟩

def noteSignature : Signature :=
  ⟨noteIssuance, [29, 1], some [139, 1]⟩

def plainSignature : Signature :=
  ⟨plainIssuance, [32, 2], none⟩

def noteStart : Credential :=
  ⟨.make 778 3 4, guestBody, [], .empty⟩

/-- Signed with the note, sent, and rid of the note. -/
def plainOperations : List Operation :=
  [.attach guestNote, .sign [1] noteIssuance, .send, .attach .empty]

/-- Signed again; then a refusal, the key being that of another secret; and the note put back. -/
def noteOperations : List Operation :=
  plainOperations ++ [.sign [2] plainIssuance, .sign [2] noteIssuance, .attach guestNote]

def noteEnd : Credential :=
  { noteStart with signatures := [noteSignature, plainSignature], attachments := guestNote }

theorem run_plainOperations :
    run byteSuite noteStart plainOperations = { noteStart with signatures := [noteSignature] } := by
  have hsigned : run byteSuite noteStart [.attach guestNote, .sign [1] noteIssuance] =
      { noteStart with signatures := [noteSignature], attachments := guestNote } := by decide +kernel
  rw [show plainOperations = [.attach guestNote, .sign [1] noteIssuance] ++ _ from rfl, run_append, hsigned,
    run, after_send rfl]
  rfl

theorem run_noteOperations : run byteSuite noteStart noteOperations = noteEnd := by
  rw [noteOperations, run_append, run_plainOperations]
  decide +kernel

theorem madeOn_noteSignature : MadeOn byteSuite noteStart noteOperations 0 noteSignature [1]
    (noteStart.withAttachments guestNote) where
  moment := ⟨[.attach guestNote], _, rfl, rfl⟩
  index := rfl
  made := Result.eq_ok_of_toOption (by decide +kernel)

theorem madeOn_plainSignature : MadeOn byteSuite noteStart noteOperations 1 plainSignature [2]
    { noteStart with signatures := [noteSignature] } where
  moment := ⟨plainOperations, _, rfl, run_plainOperations⟩
  index := rfl
  made := Result.eq_ok_of_toOption (by decide +kernel)

/-- With the note back in its place the signature on it counts, and the other one does not. -/
theorem signatures_survive_note :
    byteSuite.AcceptsOwn ∧ make (.make 778 3 4) guestBody = .ok noteStart ∧
      run byteSuite noteStart noteOperations = noteEnd ∧
      noteEnd.verify byteSuite 0 false = .ok true ∧ noteEnd.verify byteSuite 0 true = .ok true ∧
      noteEnd.verify byteSuite 1 false = .ok true ∧ noteEnd.verify byteSuite 1 true = .ok false := by
  have hstart : make (.make 778 3 4) guestBody = .ok noteStart := rfl
  obtain ⟨-, -, -, hall⟩ := signatures_survive byteSuite_acceptsOwn hstart run_noteOperations
  obtain ⟨hnote, -, hnote'⟩ := hall 0 noteSignature rfl
  obtain ⟨hplain, -, hplain'⟩ := hall 1 plainSignature rfl
  obtain ⟨-, -, -, hattached, -⟩ := hnote' [1] _ madeOn_noteSignature
  obtain ⟨-, -, -, -, hunattached⟩ := hplain' [2] _ madeOn_plainSignature
  exact ⟨byteSuite_acceptsOwn, hstart, run_noteOperations, hnote, hattached (.inr rfl), hplain,
    hunattached rfl (by decide)⟩

end Credential

end Vouch

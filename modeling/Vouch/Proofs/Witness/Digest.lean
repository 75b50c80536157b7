import Vouch.Proofs.Witness.Inputs

/-! The digest that a circuit recomputes.

The lines of the body digest name the inputs of the claims in order, and a witness holds
the limbs of the body under them; under the names of the signed inputs it holds the
integers that were signed. So hashing what the witness holds in the way of the circuit
gives the digest that was signed (`witness_digest`). -/
namespace Vouch

open Circuit (Layout)
open Circuit.Source (Clause mainClauses)
open Circuit.ClaimSignals (length_limbs ofClaim)

/-! ### The signed digest -/

/-- The digest of the limbs; that of none is zero. -/
def limbDigest (hash : FieldHash) (limbs : List Felt) : Result Felt :=
  if limbs.isEmpty then .ok 0 else hash limbs

/-- The digest of a credential as a circuit recomputes it. -/
def recomputed (hash : FieldHash) (signed limbs : List Felt) : Result Felt := do
  let head ← hash signed
  let body ← limbDigest hash limbs
  hash [head, body]

theorem Field.eq_reduce_of_ofNat {n : Nat} {a : Felt} (h : Field.ofNat n = .ok a) :
    a = Field.reduce n := by
  rw [← ofNat_eq_ok_iff.1 h]
  exact Fin.ext (Nat.mod_eq_of_lt a.isLt).symm

theorem Body.reduce_limbs (b : Body) :
    (b.values.flatMap ClaimValue.limbs).map Field.reduce = b.elements :=
  List.map_flatMap ..

/-- An issuance has a digest only if its integers are field elements as they stand. -/
theorem Credential.recomputed_of_digest {c : Credential} {hash : FieldHash} {i : Issuance} {d : Felt}
    (h : c.digest hash i = .ok d) :
    recomputed hash ((c.signedIntegers i).map Field.reduce) c.body.elements = .ok d := by
  obtain ⟨elements, helements, h⟩ := Result.bind_eq_ok_iff.1 h
  have hreduce : (c.signedIntegers i).map Field.reduce = elements := by
    have hpairs := Result.mapM_eq_ok_iff.1 helements
    rw [← List.forall₂_eq_eq_eq, List.forall₂_map_left_iff]
    refine hpairs.imp fun n a ha => ?_
    exact (Field.eq_reduce_of_ofNat (Result.reported_eq_ok_iff.1 ha)).symm
  rw [hreduce]
  exact h

/-- The witness holds these integers under these names. -/
def Witness.Holds (w : Witness) (names : List String) (values : List Nat) : Prop :=
  names.map w.get? = values.map fun n => some (.scalar n)

namespace Witness.Holds

variable {w : Witness} {names : List String} {values : List Nat}

theorem exists_name (h : w.Holds names values) {n : Nat} (hn : n ∈ values) :
    ∃ name, w.get? name = some (.scalar n) := by
  have hmem : some (InputValue.scalar n) ∈ names.map w.get? := h ▸ List.mem_map_of_mem hn
  obtain ⟨name, -, hget⟩ := List.mem_map.1 hmem
  exact ⟨name, hget⟩

theorem exists_value (h : w.Holds names values) {name : String} (hname : name ∈ names) :
    ∃ n ∈ values, w.get? name = some (.scalar n) := by
  have hmem : w.get? name ∈ values.map fun n => some (InputValue.scalar n) :=
    h ▸ List.mem_map_of_mem hname
  obtain ⟨n, hn, hget⟩ := List.mem_map.1 hmem
  exact ⟨n, hn, hget.symm⟩

end Witness.Holds

namespace WitnessRequest

variable {r : WitnessRequest} {hash : FieldHash} {c : Checked}

/-! ### Lookups -/

theorem holds_of_zip {w : Witness} {names : List String} {values : List Nat}
    (hlength : names.length = values.length)
    (h : ∀ entry ∈ names.zip (values.map InputValue.scalar), w.get? entry.1 = some entry.2) :
    w.Holds names values := by
  have hscalars : names.length = (values.map InputValue.scalar).length := by
    rw [hlength, List.length_map]
  calc names.map w.get?
    _ = ((names.zip (values.map InputValue.scalar)).map Prod.fst).map w.get? := by
      rw [List.map_fst_zip (Nat.le_of_eq hscalars)]
    _ = (names.zip (values.map InputValue.scalar)).map fun entry => w.get? entry.1 := List.map_map ..
    _ = (names.zip (values.map InputValue.scalar)).map fun entry => some entry.2 :=
      List.map_congr_left h
    _ = ((names.zip (values.map InputValue.scalar)).map Prod.snd).map some := (List.map_map ..).symm
    _ = values.map fun n => some (.scalar n) := by
      rw [List.map_snd_zip (Nat.le_of_eq hscalars.symm), List.map_map]
      rfl

/-- What belongs to no claim is held under its names. -/
theorem holds_fixed (h : r.check hash = .ok c) {names : List String} {values : List Nat}
    (hlength : names.length = values.length)
    (hsubset : names.zip values ⊆ fixedNames.zip (r.fixedValues c)) :
    Witness.Holds (.ofList (r.entries c)) names values := by
  refine holds_of_zip hlength fun entry hentry => ?_
  rw [List.zip_map_right] at hentry
  obtain ⟨fixed, hfixed, rfl⟩ := List.mem_map.1 hentry
  exact get?_fixed h fixed (hsubset hfixed)

theorem zip_flatMap {α β γ : Type} {f : α → List β} {g : α → List γ} {as : List α}
    (h : ∀ a ∈ as, (f a).length = (g a).length) :
    (as.flatMap f).zip (as.flatMap g) = as.flatMap fun a => (f a).zip (g a) := by
  induction as with
  | nil => rfl
  | cons a as ih =>
    have ⟨ha, has⟩ := List.forall_mem_cons.1 h
    rw [List.flatMap_cons, List.flatMap_cons, List.flatMap_cons, List.zip_append ha, ih has]

/-- The limbs of a claim and the operands of its statement, each after the names of their signals. -/
theorem claimEntries_eq {part : (Claim × ClaimValue) × Statement}
    (htype : part.1.2.type = part.1.1.type) :
    claimEntries (ofClaim part.1.1) part.1.2 part.2 =
      (ofClaim part.1.1).inputs.zip (part.1.2.limbs.map .scalar) ++
        (ofClaim part.1.1).operations.zip (part.2.operands.map .scalar) := by
  rw [claimEntries, List.map_append, List.zip_append]
  rw [List.length_map, length_limbs htype]

theorem limbs_mem_entries (h : r.check hash = .ok c) :
    c.layout.inputNames.length = (r.credential.body.values.flatMap ClaimValue.limbs).length ∧
      ∀ entry ∈ c.layout.inputNames.zip
          ((r.credential.body.values.flatMap ClaimValue.limbs).map .scalar), entry ∈ r.entries c := by
  have hvalues : r.parts.map (·.1.2) = r.credential.body.values := by
    rw [← Body.map_snd_entries, ← map_fst_parts h, List.map_map]
    rfl
  have hlength : ∀ part ∈ r.parts, (ofClaim part.1.1).inputs.length = part.1.2.limbs.length :=
    fun part hpart => (length_limbs (passes_of_mem_parts h hpart).1).symm
  rw [Layout.inputNames, flatMap_claims h, ← hvalues, List.flatMap_map, List.map_flatMap]
  constructor
  · rw [List.length_flatMap, List.length_flatMap, List.map_congr_left hlength]
  · intro entry hentry
    have hscalars : ∀ part ∈ r.parts,
        (ofClaim part.1.1).inputs.length = (part.1.2.limbs.map InputValue.scalar).length :=
      fun part hpart => (hlength part hpart).trans (List.length_map _).symm
    rw [zip_flatMap hscalars] at hentry
    obtain ⟨part, hpart, hentry⟩ := List.mem_flatMap.1 hentry
    rw [entries_eq h]
    refine List.mem_append_right _ (List.mem_flatMap.2 ⟨part, hpart, ?_⟩)
    rw [claimEntries_eq (passes_of_mem_parts h hpart).1]
    exact List.mem_append_left _ hentry

/-- The inputs for what is signed of the header and of the issuance. -/
def signedNames : List String :=
  ["version", "type", "context", "id", "sig_verification_stack", "sig_id", "sig_expired_at",
    "sig_identity_commitment"]

theorem signed_mem_entries (h : r.check hash = .ok c) :
    ∀ entry ∈ signedNames.zip ((r.credential.signedIntegers c.issuance).map InputValue.scalar),
      entry ∈ r.entries c := by
  have hsigned : fixedNames.zip ((r.fixedValues c).map InputValue.scalar) =
      signedNames.zip ((r.credential.signedIntegers c.issuance).map InputValue.scalar) ++
        (fixedNames.drop signedNames.length).zip
          (((r.fixedValues c).drop signedNames.length).map InputValue.scalar) := rfl
  intro entry hentry
  rw [entries_eq_append h, hsigned, List.append_assoc, List.append_assoc]
  exact List.mem_append_left _ hentry

/-- **The digest that a circuit recomputes from a witness is the one that was signed.** -/
theorem witness_digest {w : Witness} (h : r.witness hash = .ok w) :
    ∃ c s, ∃ names : List String, ∃ limbs : List Nat,
      Circuit.compile r.credential.body.schema = .ok c ∧
      r.credential.signatures[r.index]? = some s ∧
      (mainClauses c.code).filterMap (Clause.assignedUnder? "body.in[") =
        names.zipIdx.map (fun (name, i) => (s!"body.in[{i}]", name)) ∧
      (mainClauses c.code).filterMap (Clause.gadgetOf? "body") = [s!"BodyHash({names.length})"] ∧
      w.Holds names limbs ∧
      limbs.map Field.reduce = r.credential.body.elements ∧
      w.Holds signedNames (r.credential.signedIntegers s.issuance) ∧
      ∀ d, r.credential.digest hash s.issuance = .ok d →
        recomputed hash ((r.credential.signedIntegers s.issuance).map Field.reduce)
          (limbs.map Field.reduce) = .ok d := by
  obtain ⟨c, hc, rfl⟩ := witness_eq_ok_iff.1 h
  obtain ⟨-, s, hs, hissuance, -⟩ := check_eq_ok_iff.1 hc
  have hget {entry : String × InputValue} (hentry : entry ∈ r.entries c) :
      (Keyed.ofList (r.entries c)).get? entry.1 = some entry.2 :=
    (Keyed.get?_ofList (nodup_entries hc)).2 hentry
  have hcompile := compile_of_check hc
  have hlimbs := limbs_mem_entries hc
  have hsigned := signed_mem_entries hc
  rw [layout_of_check hc] at hlimbs
  rw [hissuance] at hsigned
  refine ⟨_, s, _, r.credential.body.values.flatMap ClaimValue.limbs, hcompile, hs,
    Circuit.digestInputs_code hcompile, Circuit.gadgets_code hcompile, ?_, Body.reduce_limbs _, ?_, ?_⟩
  · exact holds_of_zip hlimbs.1 fun entry hentry => hget (hlimbs.2 entry hentry)
  · exact holds_of_zip rfl fun entry hentry => hget (hsigned entry hentry)
  · intro d hd
    rw [Body.reduce_limbs]
    exact Credential.recomputed_of_digest hd

theorem witness_digest_age :
    ∃ w, ∃ limbs : List Nat, ageRequest.witness lengthHash = .ok w ∧
      limbs.map Field.reduce = [Field.reduce 42] ∧
      ∃ i d, ageRequest.credential.digest lengthHash i = .ok d ∧
        recomputed lengthHash ((ageRequest.credential.signedIntegers i).map Field.reduce)
          (limbs.map Field.reduce) = .ok d := by
  obtain ⟨c, hc⟩ := exists_check_ageRequest
  have hw := witness_eq_ok_iff.2 ⟨c, hc, rfl⟩
  obtain ⟨circuit, s, names, limbs, -, hs, -, -, -, hlimbs, -, hdigest⟩ := witness_digest hw
  obtain rfl := Option.some.inj hs
  exact ⟨_, limbs, hw, hlimbs, _, Field.reduce 2, rfl, hdigest _ rfl⟩

end WitnessRequest

end Vouch

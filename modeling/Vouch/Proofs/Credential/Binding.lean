import Vouch.Proofs.Circuit.Constraints
import Vouch.Proofs.Credential.RoundTrip
import Vouch.Proofs.Packing
import Vouch.Proofs.Poseidon.Chain
import Vouch.Proofs.Witness.Digest

/-! What the digests of a credential bind.

Two credentials with the same claims share a digest only if everything that is signed is the
same in both, unless two of the inputs that are permuted on the way collide
(`digest_binds`): no integer wraps where it enters the field, and equally many limbs are
chained. Attachments are bound likewise (`attachments_bind`), although their texts have any
lengths: what is chained of them ends in the number of bytes. -/
namespace Vouch

open Poseidon (Collision)

theorem Field.map_val_reduce {ns : List Nat} (h : ∀ n ∈ ns, n < fieldOrder) :
    (ns.map reduce).map Fin.val = ns := by
  rw [List.map_map]
  exact (List.map_congr_left fun n hn => val_reduce (h n hn)).trans (List.map_id ns)

/-- Integers enter the field together if each of them is in it. -/
theorem Field.exists_mapM_ofNat_iff {ns : List Nat} (kind : FaultKind) :
    (∃ elements, ns.mapM (fun n => (ofNat n).reported kind) = .ok elements) ↔ ∀ n ∈ ns, n < fieldOrder := by
  rw [Result.exists_mapM_eq_ok_iff]
  refine forall₂_congr fun n _ => ?_
  simp only [Result.reported_eq_ok_iff, ofNat_eq_ok_iff]
  constructor
  · rintro ⟨a, rfl⟩
    exact a.isLt
  · exact fun hn => ⟨⟨n, hn⟩, rfl⟩

/-! ### Values by their limbs -/

namespace ClaimValue

/-- Values that agree in what is hashed of them: the integer, the truth value, or the hash of the
property, whose text may be another one. -/
inductive SameContent : ClaimValue → ClaimValue → Prop
  | integer (v : IntegerValue) : SameContent (.integer v) (.integer v)
  | property {p q : PropertyValue} (htype : p.type = q.type) (hhash : p.hash = q.hash) :
      SameContent (.property p) (.property q)
  | boolean (b : Bool) : SameContent (.boolean b) (.boolean b)

theorem map_val_elements (v : ClaimValue) : v.elements.map Fin.val = v.limbs :=
  Field.map_val_reduce (limbs_lt v)

theorem length_elements {v w : ClaimValue} (h : v.type = w.type) :
    v.elements.length = w.elements.length := by
  simp only [elements, List.length_map]
  cases v with
  | integer v =>
    cases w with
    | integer w =>
      have hwidth : v.width = w.width := (ClaimType.integer.inj h)
      simp only [limbs, hwidth]
      split <;> rfl
    | property w => cases h
    | boolean b => cases h
  | property v =>
    cases w with
    | integer w => cases h
    | property w => rfl
    | boolean b => cases h
  | boolean a =>
    cases w with
    | integer w => cases h
    | property w => cases h
    | boolean b => rfl

theorem eq_of_limbs_eq {v w : IntegerValue} (hwidth : v.width = w.width)
    (h : (integer v).limbs = (integer w).limbs) : v = w := by
  refine IntegerValue.ext hwidth ?_
  simp only [limbs, hwidth] at h
  split at h
  · obtain ⟨hhigh, hlow⟩ := List.cons.inj h
    rw [← Field.join_split v.n, ← Field.join_split w.n, hhigh, List.singleton_inj.1 hlow]
  · exact List.singleton_inj.1 h

theorem sameContent_of_elements_eq {v w : ClaimValue} (htype : v.type = w.type)
    (h : v.elements = w.elements) : SameContent v w := by
  have hlimbs : v.limbs = w.limbs := by rw [← map_val_elements, h, map_val_elements]
  cases v with
  | integer v =>
    cases w with
    | integer w =>
      obtain rfl := eq_of_limbs_eq (ClaimType.integer.inj htype) hlimbs
      exact .integer v
    | property w => cases htype
    | boolean b => cases htype
  | property v =>
    cases w with
    | integer w => cases htype
    | property w => exact .property (ClaimType.property.inj htype) (List.singleton_inj.1 hlimbs)
    | boolean b => cases htype
  | boolean a =>
    cases w with
    | integer w => cases htype
    | property w => cases htype
    | boolean b =>
      have hinj : ∀ a b : Bool, a.toNat = b.toNat → a = b := by decide
      obtain rfl := hinj a b (List.singleton_inj.1 hlimbs)
      exact .boolean a

theorem length_flatMap_elements {vs ws : List ClaimValue} (h : vs.map type = ws.map type) :
    (vs.flatMap elements).length = (ws.flatMap elements).length := by
  have hcounts : vs.map (fun v => v.elements.length) = ws.map fun w => w.elements.length :=
    Aligned.map_eq_map_iff.2 ((Aligned.map_eq_map_iff.1 h).imp fun _ _ => length_elements)
  rw [List.length_flatMap, List.length_flatMap, hcounts]

theorem sameContent_of_flatMap_eq {vs ws : List ClaimValue} (htypes : vs.map type = ws.map type)
    (h : vs.flatMap elements = ws.flatMap elements) : List.Forall₂ SameContent vs ws := by
  induction vs generalizing ws with
  | nil =>
    obtain rfl := List.map_eq_nil_iff.1 htypes.symm
    exact .nil
  | cons v vs ih =>
    cases ws with
    | nil => cases htypes
    | cons w ws =>
      obtain ⟨htype, htypes⟩ := List.cons.inj htypes
      obtain ⟨hv, hvs⟩ := List.append_inj h (length_elements htype)
      exact .cons (sameContent_of_elements_eq htype hv) (ih htypes hvs)

end ClaimValue

namespace Credential

variable {permute : List Felt → Result Felt} {c₁ c₂ : Credential} {i₁ i₂ : Issuance} {d : Felt}

/-! ### The digest of header, issuance and body -/

def signedElements (c : Credential) (i : Issuance) : List Felt :=
  (c.signedIntegers i).map Field.reduce

/-- What is permuted for the digest of a credential: the head, the body, and both digests. -/
def digestInputs (permute : List Felt → Result Felt) (c : Credential) (i : Issuance) : List (List Felt) :=
  Poseidon.inputs permute (c.signedElements i) ++ Poseidon.inputs permute c.body.elements ++
    match Poseidon.chain permute (c.signedElements i), bodyDigest (Poseidon.chain permute) c.body with
    | .ok head, .ok body => Poseidon.inputs permute [head, body]
    | _, _ => []

theorem signedIntegers_lt {hash : FieldHash} {c : Credential} {i : Issuance} (h : c.digest hash i = .ok d) :
    ∀ n ∈ c.signedIntegers i, n < fieldOrder := by
  obtain ⟨elements, helements, -⟩ := Result.bind_eq_ok_iff.1 h
  exact (Field.exists_mapM_ofNat_iff _).1 ⟨elements, helements⟩

/-- The steps of a digest that exists, and what is permuted in them. -/
theorem exists_of_digest {c : Credential} {i : Issuance}
    (h : c.digest (Poseidon.chain permute) i = .ok d) :
    ∃ head body, Poseidon.chain permute (c.signedElements i) = .ok head ∧
      bodyDigest (Poseidon.chain permute) c.body = .ok body ∧
      Poseidon.chain permute [head, body] = .ok d ∧
      digestInputs permute c i =
        Poseidon.inputs permute (c.signedElements i) ++ Poseidon.inputs permute c.body.elements ++
          Poseidon.inputs permute [head, body] := by
  obtain ⟨head, hhead, h⟩ := Result.bind_eq_ok_iff.1 (recomputed_of_digest h)
  obtain ⟨body, hbody, htop⟩ := Result.bind_eq_ok_iff.1 h
  have hbody' : bodyDigest (Poseidon.chain permute) c.body = .ok body := hbody
  refine ⟨head, body, hhead, hbody', htop, ?_⟩
  rw [digestInputs, show Poseidon.chain permute (c.signedElements i) = _ from hhead, hbody']

theorem elements_eq_of_bodyDigest_eq {b₁ b₂ : Body} {as bs : List (List Felt)}
    (hno : ¬ Collision permute as bs) (has : Poseidon.inputs permute b₁.elements ⊆ as)
    (hbs : Poseidon.inputs permute b₂.elements ⊆ bs) (hlength : b₁.elements.length = b₂.elements.length)
    (h₁ : bodyDigest (Poseidon.chain permute) b₁ = .ok d)
    (h₂ : bodyDigest (Poseidon.chain permute) b₂ = .ok d) : b₁.elements = b₂.elements := by
  unfold bodyDigest at h₁ h₂
  cases hempty : b₁.elements with
  | nil =>
    rw [hempty] at hlength
    exact (List.length_eq_zero_iff.1 hlength.symm).symm
  | cons a rest =>
    have hsome₁ : ¬ b₁.elements.isEmpty = true := by simp [hempty]
    have hsome₂ : ¬ b₂.elements.isEmpty = true := by
      rw [List.isEmpty_iff_length_eq_zero, ← hlength, hempty]
      exact Nat.succ_ne_zero _
    rw [if_neg hsome₁] at h₁
    rw [if_neg hsome₂] at h₂
    rw [← hempty]
    exact Poseidon.eq_of_chain_eq hno has hbs hlength h₁ h₂

/-- Everything that is signed is the same. -/
structure SameSigned (c₁ : Credential) (i₁ : Issuance) (c₂ : Credential) (i₂ : Issuance) : Prop where
  version : c₁.header.version = c₂.header.version
  type : c₁.header.type = c₂.header.type
  context : c₁.header.context = c₂.header.context
  id : c₁.header.id = c₂.header.id
  scheme : i₁.scheme = i₂.scheme
  signatureId : i₁.signatureId = i₂.signatureId
  expiredAt : i₁.expiredAt = i₂.expiredAt
  identityCommitment : i₁.identityCommitment = i₂.identityCommitment
  values : List.Forall₂ ClaimValue.SameContent c₁.body.values c₂.body.values

theorem sameSigned_of_eq (hsigned : c₁.signedIntegers i₁ = c₂.signedIntegers i₂)
    (hvalues : List.Forall₂ ClaimValue.SameContent c₁.body.values c₂.body.values) :
    SameSigned c₁ i₁ c₂ i₂ := by
  simp only [signedIntegers, List.cons.injEq, UInt64.toNat_inj] at hsigned
  obtain ⟨hversion, htype, hcontext, hid, -, hsignature, hexpired, hidentity, -⟩ := hsigned
  -- There is one scheme so far.
  exact ⟨hversion, htype, hcontext, hid, rfl, hsignature, hexpired, hidentity, hvalues⟩

/-- **A digest binds what is signed**: two credentials that share it show two inputs on which the
permutation collides, or agree in all of it. -/
theorem digest_binds (hclaims : c₁.body.schema.claims = c₂.body.schema.claims)
    (h₁ : c₁.digest (Poseidon.chain permute) i₁ = .ok d)
    (h₂ : c₂.digest (Poseidon.chain permute) i₂ = .ok d) :
    Collision permute (digestInputs permute c₁ i₁) (digestInputs permute c₂ i₂) ∨
      SameSigned c₁ i₁ c₂ i₂ := by
  refine Classical.or_iff_not_imp_left.2 fun hno => ?_
  have hlt₁ := signedIntegers_lt h₁
  have hlt₂ := signedIntegers_lt h₂
  obtain ⟨head₁, body₁, hhead₁, hbody₁, htop₁, hinputs₁⟩ := exists_of_digest h₁
  obtain ⟨head₂, body₂, hhead₂, hbody₂, htop₂, hinputs₂⟩ := exists_of_digest h₂
  rw [hinputs₁, hinputs₂] at hno
  have htypes : c₁.body.values.map ClaimValue.type = c₂.body.values.map ClaimValue.type := by
    rw [c₁.body.typed, c₂.body.typed, hclaims]
  -- The digests of head and body are the only input at the top.
  have htop := Poseidon.eq_of_chain_eq hno (List.subset_append_right ..) (List.subset_append_right ..) rfl
    htop₁ htop₂
  obtain ⟨rfl, hbody⟩ := List.cons.inj htop
  obtain rfl := List.singleton_inj.1 hbody
  have hsigned : c₁.signedElements i₁ = c₂.signedElements i₂ :=
    Poseidon.eq_of_chain_eq hno
      (List.subset_append_of_subset_left _ (List.subset_append_left ..))
      (List.subset_append_of_subset_left _ (List.subset_append_left ..)) rfl hhead₁ hhead₂
  have helements : c₁.body.elements = c₂.body.elements :=
    elements_eq_of_bodyDigest_eq hno
      (List.subset_append_of_subset_left _ (List.subset_append_right ..))
      (List.subset_append_of_subset_left _ (List.subset_append_right ..))
      (ClaimValue.length_flatMap_elements htypes) hbody₁ hbody₂
  have hintegers : c₁.signedIntegers i₁ = c₂.signedIntegers i₂ := by
    rw [← Field.map_val_reduce hlt₁, ← Field.map_val_reduce hlt₂]
    exact congrArg (List.map Fin.val) hsigned
  exact sameSigned_of_eq hintegers (ClaimValue.sameContent_of_flatMap_eq htypes helements)

/-! ### A credential under another name -/

/-- The digest reads the signed integers and the limbs, and nothing else. -/
theorem digest_congr (hash : FieldHash) (hsigned : c₁.signedIntegers i₁ = c₂.signedIntegers i₂)
    (hbody : c₁.body.elements = c₂.body.elements) : c₁.digest hash i₁ = c₂.digest hash i₂ := by
  simp only [digest, bodyDigest, hsigned, hbody]

theorem exists_bodyDigest (b : Body) : ∃ d, bodyDigest Poseidon.hash b = .ok d := by
  unfold bodyDigest
  split
  · exact ⟨0, rfl⟩
  · rename_i h
    exact Poseidon.exists_chain (fun _ => Poseidon.exists_permute) fun hnil => h (List.isEmpty_iff.2 hnil)

/-- A digest exists if the signed integers are in the field. -/
theorem exists_digest {c : Credential} {i : Issuance} (h : ∀ n ∈ c.signedIntegers i, n < fieldOrder) :
    ∃ d, c.digest Poseidon.hash i = .ok d := by
  obtain ⟨elements, helements⟩ := (Field.exists_mapM_ofNat_iff .invalidCredential).2 h
  have hne : elements ≠ [] := by
    rintro rfl
    exact nomatch (Result.mapM_eq_ok_iff.1 helements).length_eq
  obtain ⟨head, hhead⟩ := Poseidon.exists_chain (fun _ => Poseidon.exists_permute) hne
  obtain ⟨body, hbody⟩ := exists_bodyDigest c.body
  obtain ⟨d, hd⟩ := Poseidon.exists_chain (fun _ => Poseidon.exists_permute) (List.cons_ne_nil head [body])
  exact ⟨d, Result.bind_eq_ok_iff.2 ⟨elements, helements, Result.bind_eq_ok_iff.2 ⟨head, hhead,
    Result.bind_eq_ok_iff.2 ⟨body, hbody, hd⟩⟩⟩⟩

theorem alias_fits : 5 < 2 ^ aliasType.width := by decide

/-- The same hash for another text. -/
def namesakeBody : Body where
  schema := guestSchema
  values := [.boolean true, .property ⟨aliasType, "Bob", 5, alias_fits, nofun⟩]
  typed := rfl

def guest : Credential :=
  ⟨.make 778 3 4, guestBody, [], guestNote⟩

def namesake : Credential :=
  ⟨.make 778 3 4, namesakeBody, [guestSignature], .empty⟩

/-- Issuances that differ in what is not signed: the issuer, the chain and the key. -/
def guestIssuance (issuer chain : Nat) (key : List UInt8) : Issuance :=
  ⟨.babyzk, 3, 1900000000, 2 ^ 253, issuer, chain, key⟩

theorem digest_binds_guest :
    ∃ d, guest.digest Poseidon.hash (guestIssuance 7 0 [1, 2]) = .ok d ∧
      namesake.digest Poseidon.hash (guestIssuance 8 1 []) = .ok d ∧
      (Collision Poseidon.permute (digestInputs Poseidon.permute guest (guestIssuance 7 0 [1, 2]))
          (digestInputs Poseidon.permute namesake (guestIssuance 8 1 [])) ∨
        SameSigned guest (guestIssuance 7 0 [1, 2]) namesake (guestIssuance 8 1 [])) := by
  have hsame : guest.digest Poseidon.hash (guestIssuance 7 0 [1, 2]) =
      namesake.digest Poseidon.hash (guestIssuance 8 1 []) := digest_congr _ rfl rfl
  have hlt : ∀ n ∈ guest.signedIntegers (guestIssuance 7 0 [1, 2]), n < fieldOrder := by decide
  obtain ⟨d, hd⟩ := exists_digest hlt
  exact ⟨d, hd, hsame ▸ hd, digest_binds rfl hd (hsame ▸ hd)⟩

/-! ### The digest of the attachments -/

/-- A text of attachments is the text of no others: it can be read. -/
theorem text_attachmentsJson_injective :
    Function.Injective fun attachments : Keyed String => (attachmentsJson attachments).text := by
  have hread : ∀ t : Keyed String,
      Json.read? (Json.Place.keyed? Json.Place.string?) (attachmentsJson t).text = some t := by
    intro t
    rw [Json.read?_text _ (integral_attachmentsJson t)]
    exact keyed?_of_attachmentsJson t 126
  intro a b h
  have htext : (attachmentsJson a).text = (attachmentsJson b).text := h
  exact Option.some.inj ((hread a).symm.trans (htext ▸ hread b))

/-- The bytes that the attachments are hashed as. -/
def attachmentsBytes (c : Credential) : List UInt8 :=
  Bytes.utf8 (attachmentsJson c.attachments).text

/-- What is permuted for the digest of the attachments. -/
def attachmentsInputs (permute : List Felt → Result Felt) (c : Credential) : List (List Felt) :=
  Poseidon.inputs permute (Field.pack c.attachmentsBytes)

/-- Packed bytes end in their number, which settles how many elements are chained. -/
theorem eq_of_chain_pack_eq {a b : List UInt8} {as bs : List (List Felt)}
    (hno : ¬ Collision permute as bs) (has : Poseidon.inputs permute (Field.pack a) ⊆ as)
    (hbs : Poseidon.inputs permute (Field.pack b) ⊆ bs) (hashort : a.length < 2 ^ 64)
    (hbshort : b.length < 2 ^ 64) (ha : Poseidon.chain permute (Field.pack a) = .ok d)
    (hb : Poseidon.chain permute (Field.pack b) = .ok d) : a = b := by
  have hlast := Poseidon.getLast?_eq_of_chain_eq hno has hbs ha hb
  rw [Field.getLast?_pack, Field.getLast?_pack, Option.some_inj] at hlast
  have hlength : a.length = b.length :=
    (Field.reduce_inj (Field.lt_fieldOrder hashort (by decide)) (Field.lt_fieldOrder hbshort (by decide))).1
      hlast
  have hcount : (Field.pack a).length = (Field.pack b).length := by
    rw [Field.length_pack, Field.length_pack, hlength]
  exact Field.pack_injective (Poseidon.eq_of_chain_eq hno has hbs hcount ha hb)

/-- **The digest of the attachments binds them**, whatever names and texts they have. -/
theorem attachments_bind :
    (Function.Injective fun attachments : Keyed String => (attachmentsJson attachments).text) ∧
      Function.Injective Field.pack ∧
      ∀ (permute : List Felt → Result Felt) (c₁ c₂ : Credential) (d : Felt),
        c₁.attachmentsBytes.length < 2 ^ 64 → c₂.attachmentsBytes.length < 2 ^ 64 →
        c₁.attachmentsDigest (Poseidon.chain permute) = .ok d →
        c₂.attachmentsDigest (Poseidon.chain permute) = .ok d →
        Collision permute (attachmentsInputs permute c₁) (attachmentsInputs permute c₂) ∨
          c₁.attachments = c₂.attachments := by
  refine ⟨text_attachmentsJson_injective, Field.pack_injective, ?_⟩
  intro permute c₁ c₂ d hshort₁ hshort₂ h₁ h₂
  refine Classical.or_iff_not_imp_left.2 fun hno => ?_
  have hbytes : c₁.attachmentsBytes = c₂.attachmentsBytes :=
    eq_of_chain_pack_eq hno (List.Subset.refl _) (List.Subset.refl _) hshort₁ hshort₂ h₁ h₂
  exact text_attachmentsJson_injective (Bytes.utf8_injective hbytes)

/-- The same attachments, put on two credentials in another order. -/
def guestLinks : Credential :=
  guest.withAttachments (.ofList [("site", "\u00e9\n"), ("mail", "")])

def namesakeLinks : Credential :=
  namesake.withAttachments (.ofList [("mail", ""), ("site", "\u00e9\n")])

theorem attachments_bind_links :
    guestLinks.attachmentsBytes.length < 2 ^ 64 ∧ namesakeLinks.attachmentsBytes.length < 2 ^ 64 ∧
      ∃ d, guestLinks.attachmentsDigest Poseidon.hash = .ok d ∧
        namesakeLinks.attachmentsDigest Poseidon.hash = .ok d ∧
        (Collision Poseidon.permute (attachmentsInputs Poseidon.permute guestLinks)
            (attachmentsInputs Poseidon.permute namesakeLinks) ∨
          guestLinks.attachments = namesakeLinks.attachments) := by
  have hsame : guestLinks.attachments = namesakeLinks.attachments := by decide
  have hshort : guestLinks.attachmentsBytes.length < 2 ^ 64 := by decide +kernel
  have hshort' : namesakeLinks.attachmentsBytes.length < 2 ^ 64 := by decide +kernel
  have hne : Field.pack guestLinks.attachmentsBytes ≠ [] := by
    rw [Field.pack_eq]
    exact List.append_ne_nil_of_right_ne_nil _ (List.cons_ne_nil _ _)
  obtain ⟨d, hd⟩ := Poseidon.exists_chain (fun _ => Poseidon.exists_permute) hne
  have hd' : namesakeLinks.attachmentsDigest Poseidon.hash = .ok d := by
    rw [attachmentsDigest, ← hsame]
    exact hd
  exact ⟨hshort, hshort', d, hd, hd', attachments_bind.2.2 _ _ _ d hshort hshort' hd hd'⟩

end Credential

end Vouch

import Vouch.Credential.Wire
import Vouch.Proofs.Json.Places

/-! Credentials survive the wire.

`Credential.ofText_text`: a credential that was made under a schema, whatever
signatures and attachments it has taken on since, is read back from its wire form as it
was.

Part by part, what a reader finds at the place of a written header, issuance or
signature is what was written. Of the body the wire has a table under the names of
the claims, in the order of the names; the schema puts the values back in order
(`takeValues_eq_ok`), and each one passes again every check that it passed when it was
made (`ClaimValue.ofJson_toJson`). -/
namespace Vouch

open Json (Place)
open Digest

/-! ### Values -/

namespace ClaimValue

theorem expectDecimal_decimal (n : Nat) : expectDecimal (.decimal n) = .ok n := by
  show (readDecimal (toString n)).reported .invalidClaimValue = .ok n
  rw [Result.reported_eq_ok_iff, readDecimal, Decimal.read?_toString]

theorem ofText_truncated (p : PropertyType) (text : String) :
    ofText p text (some (Keccak.truncated (Bytes.utf8 text) p.width)) =
      .ok (.property ⟨p, text, _, Keccak.truncated_lt _ _, fun _ => rfl⟩) := by
  have hagrees : (some (Keccak.truncated (Bytes.utf8 text) p.width)).filter
      (· != Keccak.truncated (Bytes.utf8 text) p.width) = none := by simp
  unfold ofText
  dsimp only
  split
  · rename_i hother
    exact nomatch hagrees.symm.trans hother
  · rfl

/-- The hash of a keccak256 property agrees with its text, that of another one is taken as it is. -/
theorem makeProperty_self (v : PropertyValue) :
    makeProperty (.property v.type) v.text (some v.hash) = .ok (.property v) := by
  obtain ⟨p, text, hash, fits, derived⟩ := v
  rw [makeProperty]
  split
  · rename_i h
    obtain rfl := derived h
    exact ofText_truncated p text
  · exact dif_pos fits

theorem makeInteger_self (v : IntegerValue) :
    makeInteger (.integer v.width v.validWidth) v.n = .ok (.integer v) :=
  dif_pos v.fits

/-- A value passes every check again that it passed when it was made. -/
theorem ofJson_toJson (v : ClaimValue) : ofJson v.type v.toJson = .ok v := by
  cases v with
  | integer v =>
    rw [type, toJson, ofJson, expectDecimal_decimal]
    exact makeInteger_self v
  | property v =>
    have hnodup : ([("str", Json.string v.text), ("value", .decimal v.hash)].map Prod.fst).Nodup := by
      simp
    rw [type, toJson, ofJson, Json.member?_object hnodup, Json.member?_object hnodup]
    simp only [Keyed.lookup_cons, String.reduceEq, if_true, if_false, Option.bind_some, Json.asString?]
    have hhash : (some (Json.decimal v.hash)).mapM expectDecimal = .ok (some v.hash) := by
      rw [Option.mapM_some, expectDecimal_decimal]
      rfl
    rw [hhash]
    exact makeProperty_self v
  | boolean b => cases b <;> rfl

theorem integral_toJson (v : ClaimValue) : Json.Integral v.toJson := by
  cases v with
  | integer v => exact .string _
  | property v =>
    exact Json.integral_object (by simp [Json.decimal, Json.Integral.string])
  | boolean b => exact .string _

theorem json?_of_toJson (v : ClaimValue) (room : Nat) :
    (Place.of (room + 1) v.toJson).json? = some v.toJson := by
  cases v with
  | integer v => exact Place.json?_of_string _ _
  | property v =>
    exact Place.json?_of_object _ (by simp [Json.decimal])
  | boolean b => exact Place.json?_of_string _ _

end ClaimValue

/-! ### Headers and signatures -/

theorem Header.read_of (h : Header) (room : Nat) : Header.read (.of (room + 1) h.toJson) = some h := by
  have hrecord : (Place.of (room + 1) h.toJson).record? ["version", "type", "context", "id"] = some _ :=
    Place.record?_of room [] (by simp)
  rw [Header.read, hrecord]
  simp only [bind, Option.bind, List.map_cons, List.map_nil, List.append_nil, Place.decimal?_of,
    Place.decimal64?_of _ h.version.toNat_lt, UInt64.ofNat_toNat]
  rfl

theorem Header.integral_toJson (h : Header) : Json.Integral h.toJson :=
  Json.integral_object (by simp [Json.decimal, Json.Integral.string])

theorem Scheme.read_of (s : Scheme) (room : Nat) : Scheme.read (.of room (.decimal s.code)) = some s := by
  cases s
  rw [Scheme.read, Place.decimal64?_of _ (by decide)]
  rfl

theorem Issuance.read_of (m : Issuance) (room : Nat) :
    Issuance.read (.of (room + 1) m.toJson) = some m := by
  have hrecord : (Place.of (room + 1) m.toJson).record? ["verification_stack", "signature_id", "expired_at",
      "identity_commitment", "issuer_id", "chain_id", "public_key"] = some _ :=
    Place.record?_of room [] (by simp)
  rw [Issuance.read, hrecord]
  simp only [bind, Option.bind, List.map_cons, List.map_nil, List.append_nil, Scheme.read_of,
    Place.decimal?_of, Place.decimal64?_of _ m.expiredAt.toNat_lt, UInt64.ofNat_toNat, Json.bytes,
    Place.bytes?_of]
  rfl

theorem Issuance.integral_toJson (m : Issuance) : Json.Integral m.toJson :=
  Json.integral_object (by simp [Json.decimal, Json.bytes, Json.Integral.string])

namespace Signature

theorem read_of (s : Signature) (room : Nat) : Signature.read (.of (room + 2) s.toJson) = some s := by
  obtain ⟨issuance, bytes, attachments⟩ := s
  cases attachments with
  | none =>
    have hrecord : (Place.of (room + 2) (toJson ⟨issuance, bytes, none⟩)).record?
        ["metadata", "signature", "attachmentsSignature"] = some _ :=
      Place.record?_of (room + 1) ["attachmentsSignature"] (by simp)
    rw [Signature.read, hrecord]
    simp only [bind, Option.bind, Option.toList_none, List.map_cons, List.map_nil, List.append_nil,
      List.cons_append, List.nil_append, Issuance.read_of, Json.bytes, Place.bytes?_of]
    rfl
  | some attached =>
    have hrecord : (Place.of (room + 2) (toJson ⟨issuance, bytes, some attached⟩)).record?
        ["metadata", "signature", "attachmentsSignature"] = some _ :=
      Place.record?_of (room + 1) [] (by simp)
    rw [Signature.read, hrecord]
    simp only [bind, Option.bind, Option.toList_some, List.map_cons, List.map_nil, List.append_nil,
      List.cons_append, List.nil_append, Issuance.read_of, Json.bytes, Place.bytes?_of, Place.optional?,
      Place.isNull_of_string]
    rfl

theorem integral_toJson (s : Signature) : Json.Integral s.toJson := by
  rw [toJson]
  cases s.attachments with
  | none =>
    exact Json.integral_object
      (by simp [s.issuance.integral_toJson, Json.bytes, Json.Integral.string])
  | some bytes =>
    exact Json.integral_object
      (by simp [s.issuance.integral_toJson, Json.bytes, Json.Integral.string])

end Signature

/-! ### Bodies -/

namespace Body

theorem typeFault?_eq_none {claims : List Claim} {values : List ClaimValue}
    (h : values.map ClaimValue.type = claims.map Claim.type) : typeFault? claims values = none := by
  induction claims generalizing values with
  | nil => rfl
  | cons claim claims ih =>
    cases values with
    | nil => rfl
    | cons value values =>
      obtain ⟨htype, htypes⟩ := List.cons.inj h
      rw [typeFault?, if_pos htype, ih htypes]

/-- The values of a body make it again. -/
theorem make_values (b : Body) : make b.schema b.values = .ok b := by
  have hlength : b.values.length = b.schema.claims.length := by simpa using congrArg List.length b.typed
  rw [make, dif_pos hlength]
  split
  · rename_i h
    exact nomatch (typeFault?_eq_none b.typed).symm.trans h
  · rfl

theorem of_make_eq_ok {s : Schema} {values : List ClaimValue} {b : Body} (h : make s values = .ok b) :
    b.schema = s ∧ b.values = values := by
  unfold make at h
  split at h
  · split at h
    · cases h
    · cases h
      exact ⟨rfl, rfl⟩
  · cases h

theorem schema_of_make {s : Schema} {values : List ClaimValue} {b : Body} (h : make s values = .ok b) :
    b.schema = s :=
  (of_make_eq_ok h).1

end Body

namespace Credential

/-- Values under the names of their claims, as a body is written. -/
def fields (claims : List Claim) (values : List ClaimValue) : List (String × Json) :=
  (claims.zip values).map fun (claim, value) => (claim.name, value.toJson)

theorem names_fields {claims : List Claim} {values : List ClaimValue}
    (h : values.map ClaimValue.type = claims.map Claim.type) :
    (fields claims values).map Prod.fst = claims.map Claim.name := by
  have hlength : claims.length ≤ values.length := by
    simpa using Nat.le_of_eq (congrArg List.length h).symm
  calc (fields claims values).map Prod.fst = ((claims.zip values).map Prod.fst).map Claim.name := by
        rw [fields, List.map_map, List.map_map]
        rfl
    _ = claims.map Claim.name := by rw [List.map_fst_zip hlength]

/-- The values of the claims are found one by one, whatever the order of the table, and nothing is
left in the end. -/
theorem takeValues_eq_ok {claims : List Claim} {values : List ClaimValue} {table : Keyed Json}
    (hnodup : (claims.map Claim.name).Nodup)
    (htyped : values.map ClaimValue.type = claims.map Claim.type)
    (htable : ∀ key, table.get? key = Keyed.lookup key (fields claims values)) :
    takeValues table claims = .ok values := by
  induction claims generalizing values table with
  | nil =>
    obtain rfl : values = [] := by simpa using htyped
    have hkeys : table.keys = [] := by
      refine List.eq_nil_iff_forall_not_mem.2 fun key hkey => ?_
      obtain ⟨j, hj⟩ := Keyed.mem_keys_iff.1 hkey
      exact nomatch (htable key).symm.trans hj
    rw [takeValues, hkeys]
  | cons claim claims ih =>
    cases values with
    | nil => cases htyped
    | cons value values =>
      obtain ⟨hclaim, hnodup⟩ := List.nodup_cons.1 hnodup
      obtain ⟨htype, htyped⟩ := List.cons.inj htyped
      have hlookup : ∀ key, table.get? key =
          if claim.name = key then some value.toJson else Keyed.lookup key (fields claims values) :=
        fun key => (htable key).trans (Keyed.lookup_cons ..)
      have hvalue : table.get? claim.name = some value.toJson := (hlookup claim.name).trans (if_pos rfl)
      have hrest : takeValues (table.erase claim.name) claims = .ok values := by
        refine ih hnodup htyped fun key => ?_
        rw [Keyed.get?_erase, hlookup]
        by_cases hkey : claim.name = key
        -- The name that was taken out is not that of a later claim.
        · rw [if_pos hkey, Keyed.lookup_eq_none_of_not_mem]
          rwa [names_fields htyped, ← hkey]
        · rw [if_neg hkey, if_neg hkey]
      have hread : (ClaimValue.ofJson claim.type value.toJson).within claim.name = .ok value := by
        rw [Result.within_eq_ok_iff, ← htype, ClaimValue.ofJson_toJson]
      rw [takeValues, hvalue]
      exact Result.bind_eq_ok_iff.2 ⟨value, hread, Result.bind_eq_ok_iff.2 ⟨values, hrest, rfl⟩⟩

/-! ### Whole credentials -/

/-- What stands in the wire document of a credential. -/
def wire (c : Credential) : Wire :=
  ⟨c.header, Keyed.ofList (fields c.body.schema.claims c.body.values), c.signatures, c.attachments⟩

theorem nodup_fields (b : Body) : ((fields b.schema.claims b.values).map Prod.fst).Nodup := by
  rw [names_fields b.typed]
  exact b.schema.distinct

theorem mem_fields {claims : List Claim} {values : List ClaimValue} {f : String × Json}
    (h : f ∈ fields claims values) : ∃ value : ClaimValue, f.2 = value.toJson := by
  obtain ⟨⟨claim, value⟩, -, rfl⟩ := List.mem_map.1 h
  exact ⟨value, rfl⟩

theorem keyed?_of_attachmentsJson (attachments : Keyed String) (room : Nat) :
    (Place.of (room + 1) (attachmentsJson attachments)).keyed? Place.string? = some attachments :=
  Place.keyed?_of _ _ Json.string attachments fun e _ => Place.string?_of _ e.2

theorem integral_attachmentsJson (attachments : Keyed String) : Json.Integral (attachmentsJson attachments) := by
  refine .members fun f hf => ?_
  obtain ⟨e, -, rfl⟩ := List.mem_map.1 hf
  exact .string _

/-- Attachments are missing if there are none. -/
theorem record?_of_toJson (c : Credential) (room : Nat) :
    (Place.of (room + 1) c.toJson).record? ["header", "body", "signatures", "attachments"] =
      some [some (.of room c.header.toJson), some (.of room (bodyJson c.body)),
        some (.of room (.array (c.signatures.map Signature.toJson))),
        if c.attachments.isEmpty then none else some (.of room (attachmentsJson c.attachments))] := by
  rw [toJson]
  split
  · exact Place.record?_of room ["attachments"] (by simp)
  · exact Place.record?_of room [] (by simp)

/-- A document is at most four containers deep: the issuances of the signatures lie deepest. -/
theorem read_wire (c : Credential) (room : Nat) : Wire.read (.of (room + 4) c.toJson) = some c.wire := by
  have hbody : (Place.of (room + 3) (bodyJson c.body)).keyed? Place.json? = some c.wire.body := by
    refine Place.keyed?_of_object _ fun f hf => ?_
    obtain ⟨value, hvalue⟩ := mem_fields hf
    rw [hvalue, ClaimValue.json?_of_toJson]
  have hsignatures := Place.mapM_of (room + 2) Signature.read Signature.toJson c.signatures
    fun s _ => s.read_of room
  have hattachments := keyed?_of_attachmentsJson c.attachments (room + 2)
  rw [Wire.read, record?_of_toJson]
  by_cases hempty : c.attachments.isEmpty = true
  · simp only [bind, Option.bind, if_pos hempty, Header.read_of, hbody, Place.items?_of, hsignatures]
    rw [wire, Keyed.eq_empty_of_isEmpty hempty]
    rfl
  · simp only [bind, Option.bind, if_neg hempty, Header.read_of, hbody, Place.items?_of, hsignatures,
      hattachments]
    rfl

theorem integral_toJson (c : Credential) : Json.Integral c.toJson := by
  have hbody : Json.Integral (bodyJson c.body) := by
    refine Json.integral_object fun f hf => ?_
    obtain ⟨value, hvalue⟩ := mem_fields hf
    rw [hvalue]
    exact value.integral_toJson
  have hsignatures : Json.Integral (.array (c.signatures.map Signature.toJson)) := by
    refine .array fun j hj => ?_
    obtain ⟨s, -, rfl⟩ := List.mem_map.1 hj
    exact s.integral_toJson
  have hattachments := integral_attachmentsJson c.attachments
  rw [toJson]
  by_cases hempty : c.attachments.isEmpty = true
  · rw [if_pos hempty]
    exact Json.integral_object (by simp [c.header.integral_toJson, hbody, hsignatures])
  · rw [if_neg hempty]
    exact Json.integral_object (by simp [c.header.integral_toJson, hbody, hsignatures, hattachments])

theorem ofWire_wire {c : Credential} (h : c.header.type = c.body.schema.id) :
    ofWire c.body.schema c.wire = .ok c := by
  have hvalues : takeValues c.wire.body c.body.schema.claims = .ok c.body.values := by
    refine takeValues_eq_ok c.body.schema.distinct c.body.typed fun key => ?_
    exact Keyed.lookup_ofList (nodup_fields c.body) key
  have hmake : make c.header c.body = .ok ⟨c.header, c.body, [], .empty⟩ := if_pos h
  rw [ofWire, if_pos (show c.wire.header.type = _ from h)]
  refine Result.bind_eq_ok_iff.2 ⟨_, hvalues, Result.bind_eq_ok_iff.2 ⟨_, c.body.make_values, ?_⟩⟩
  exact Result.bind_eq_ok_iff.2 ⟨_, hmake, rfl⟩

/-- A credential whose header names its schema is read back, whatever else it holds. -/
theorem ofText_of_type {c : Credential} (h : c.header.type = c.body.schema.id) :
    ofText c.body.schema c.text = .ok c := by
  have hplace : Wire.read (.of Json.greatestDepth c.toJson) = some c.wire := c.read_wire 123
  have hread : readDocument Wire.read c.text = .ok c.wire := readDocument_text c.integral_toJson hplace
  refine Result.bind_eq_ok_iff.2 ⟨c.wire, Result.reported_eq_ok_iff.2 hread, ?_⟩
  exact Result.within_eq_ok_iff.2 (ofWire_wire h)

theorem of_make_eq_ok {header : Header} {body : Body} {c : Credential} (h : make header body = .ok c) :
    c.body = body ∧ c.header = header ∧ header.type = body.schema.id := by
  unfold make at h
  split at h
  · rename_i htype
    cases h
    exact ⟨rfl, rfl, htype⟩
  · cases h

/-- A credential that was made under a schema survives the wire, with all signatures and attachments
that it has taken on since. -/
theorem ofText_text {s : Schema} {values : List ClaimValue} {body : Body} {header : Header}
    {c : Credential} (hbody : Body.make s values = .ok body) (hmake : make header body = .ok c)
    (signatures : List Signature) (attachments : Keyed String) :
    ofText s { c with signatures, attachments }.text = .ok { c with signatures, attachments } := by
  obtain ⟨rfl, rfl, htype⟩ := of_make_eq_ok hmake
  obtain rfl := Body.schema_of_make hbody
  exact ofText_of_type (c := { c with signatures, attachments }) htype

/-! ### A signed credential with an attachment -/

/-- A name with a hash of the issuer's choice. -/
def aliasType : PropertyType where
  width := 8
  hash := .custom
  checks := 1
  validWidth := by decide
  validChecks := by decide

/-- The claims stand in another order than their names. -/
def guestSchema : Schema where
  claims :=
    [⟨"vip", .boolean, by unfold Claim.ValidName; decide⟩,
      ⟨"alias", .property aliasType, by unfold Claim.ValidName; decide⟩]
  depth := some 8
  id := 778
  distinct := by decide
  validDepth := fun _ h => Option.some.inj h ▸ by decide

def guestBody : Body where
  schema := guestSchema
  values := [.boolean true, .property ⟨aliasType, "Ann \"the \u00e9tude\"\n", 5, by decide, nofun⟩]
  typed := rfl

def guestSignature : Signature where
  issuance := ⟨.babyzk, 3, 1900000000, 2 ^ 255, 7, 0, [1, 2, 3, 4]⟩
  bytes := [255, 0]
  attachments := some []

def guestNote : Keyed String := .ofList [("note", "\t/")]

theorem ofText_text_guest :
    ∃ c, Body.make guestSchema guestBody.values = .ok guestBody ∧
      make (.make 778 3 4) guestBody = .ok c ∧
      ofText guestSchema { c with signatures := [guestSignature], attachments := guestNote }.text =
        .ok { c with signatures := [guestSignature], attachments := guestNote } := by
  have hbody : Body.make guestSchema guestBody.values = .ok guestBody := guestBody.make_values
  have hmake : make (.make 778 3 4) guestBody = .ok ⟨.make 778 3 4, guestBody, [], .empty⟩ := if_pos rfl
  exact ⟨_, hbody, hmake, ofText_text hbody hmake _ _⟩

end Credential

end Vouch

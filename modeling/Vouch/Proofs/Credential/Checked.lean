import Vouch.Proofs.Credential.RoundTrip
import Vouch.Proofs.Result

/-! Only checked credentials are read.

Whatever the text, a credential that is read from it under a schema could have been issued
under the schema, and every failure is of one of two kinds (`Credential.ofText_checked`).

A value is read only from a form that denotes it (`ClaimValue.ofJson_eq_ok_iff`), and has
passed the checks of its type then. The table of the body is used up entry by entry, which
succeeds exactly if its keys are the names of the claims (`takeValues_eq_ok_iff`); they are
the names of the members in the text, of which a later one counts for an earlier one of its
name (`Json.Place.mem_keys_of_keyed?`). -/
namespace Vouch

open Json (Place)
open Digest
open Result (FailsWith)

theorem readDecimal_eq_ok_iff {s : String} {n : Nat} : readDecimal s = .ok n ↔ Decimal.read? s = some n := by
  rw [readDecimal]
  cases Decimal.read? s <;> simp

/-! ### Values -/

namespace ClaimValue

/-- What the checks of a value make sure of. -/
def Bounded : ClaimValue → Prop
  | .integer v => v.n < 2 ^ v.width
  | .property v =>
    v.hash < 2 ^ v.type.width ∧
      (v.type.hash = .keccak256 → v.hash = Keccak.truncated (Bytes.utf8 v.text) v.type.width)
  | .boolean _ => True

theorem bounded (v : ClaimValue) : v.Bounded := by
  cases v with
  | integer v => exact v.fits
  | property v => exact ⟨v.fits, v.derived⟩
  | boolean b => trivial

/-- A JSON value stands for the value of a claim. Digits may begin with zeros, the object of a
property may have other members besides its own, and a hash may be missing where it is computed. -/
inductive Denotes : Json → ClaimValue → Prop
  | integer {digits : String} {v : IntegerValue} (hdigits : Decimal.read? digits = some v.n) :
    Denotes (.string digits) (.integer v)
  | property {j : Json} {v : PropertyValue} (htext : j.member? "str" = some (.string v.text))
    (hsupplied : ∀ h ∈ j.member? "value",
      ∃ digits, h = .string digits ∧ Decimal.read? digits = some v.hash)
    (hcustom : v.type.hash = .custom → j.member? "value" ≠ none) :
    Denotes j (.property v)
  | boolean (b : Bool) : Denotes (.string (toString b)) (.boolean b)

theorem asString?_eq_some_iff {j : Json} {s : String} : j.asString? = some s ↔ j = .string s := by
  cases j <;> simp [Json.asString?]

theorem expectString_eq_ok_iff {j : Json} {s : String} : expectString j = .ok s ↔ j = .string s := by
  rw [← asString?_eq_some_iff, expectString]
  cases j.asString? <;> simp

theorem expectDecimal_eq_ok_iff {j : Json} {n : Nat} :
    expectDecimal j = .ok n ↔ ∃ digits, j = .string digits ∧ Decimal.read? digits = some n := by
  simp only [expectDecimal, Result.bind_eq_ok_iff, expectString_eq_ok_iff, Result.reported_eq_ok_iff,
    readDecimal_eq_ok_iff]

theorem makeInteger_eq_ok_iff {width n : Nat} {valid : ValidWidth greatestIntegerWidth width}
    {v : ClaimValue} : makeInteger (.integer width valid) n = .ok v ↔
      ∃ fits, v = .integer ⟨width, n, valid, fits⟩ := by
  rw [makeInteger]
  constructor
  · intro h
    split at h
    · rename_i fits
      exact ⟨fits, (Except.ok.inj h).symm⟩
    · cases h
  · rintro ⟨fits, rfl⟩
    exact dif_pos fits

/-- A hash that is supplied has to be that of the value; it may be left out where it is computed. -/
theorem makeProperty_eq_ok_iff {p : PropertyType} {text : String} {supplied : Option Nat}
    {v : ClaimValue} : makeProperty (.property p) text supplied = .ok v ↔
      ∃ u : PropertyValue, v = .property u ∧ u.type = p ∧ u.text = text ∧ (∀ n ∈ supplied, n = u.hash) ∧
        (p.hash = .custom → supplied ≠ none) := by
  constructor
  · intro h
    rw [makeProperty] at h
    split at h
    · rename_i hkeccak
      unfold ofText at h
      dsimp only at h
      split at h
      · cases h
      · rename_i hagrees
        obtain rfl := Except.ok.inj h
        refine ⟨_, rfl, rfl, rfl, fun n hn => ?_, fun hcustom => ?_⟩
        · simpa using Option.filter_eq_none_iff.1 hagrees n hn
        · cases hkeccak.symm.trans hcustom
    · rename_i hcustom
      unfold ofHash at h
      split at h
      · cases h
      · split at h
        · obtain rfl := Except.ok.inj h
          exact ⟨_, rfl, rfl, rfl, fun n hn => (Option.some.inj hn).symm, fun _ => Option.some_ne_none _⟩
        · cases h
  · rintro ⟨u, rfl, rfl, rfl, hsupplied, hcustom⟩
    cases supplied with
    | some n =>
      obtain rfl := hsupplied n rfl
      exact makeProperty_self u
    | none =>
      obtain ⟨p, text, hash, fits, derived⟩ := u
      rw [makeProperty]
      split
      · rename_i hkeccak
        obtain rfl := derived hkeccak
        rfl
      · rename_i hhash
        exact absurd rfl (hcustom hhash)

theorem denotes_of_property {p : PropertyType} {j : Json} {v : ClaimValue}
    (h : ofJson (.property p) j = .ok v) : v.type = .property p ∧ Denotes j v := by
  rw [ofJson] at h
  split at h
  · cases h
  · rename_i text htext
    obtain ⟨member, hmember, htext⟩ := Option.bind_eq_some_iff.1 htext
    obtain rfl := asString?_eq_some_iff.1 htext
    obtain ⟨supplied, hsupplied, hmake⟩ := Result.bind_eq_ok_iff.1 h
    obtain ⟨u, rfl, rfl, rfl, hhash, hcustom⟩ := makeProperty_eq_ok_iff.1 hmake
    have hread := Result.optionMapM_eq_ok_iff.1 hsupplied
    refine ⟨rfl, .property hmember (fun value hvalue => ?_) fun hc hnone => hcustom hc ?_⟩
    · rw [hvalue] at hread
      cases hread with
      | some hn => exact hhash _ rfl ▸ expectDecimal_eq_ok_iff.1 hn
    · rw [hnone] at hread
      cases hread
      rfl

theorem denotes_of_ofJson {t : ClaimType} {j : Json} {v : ClaimValue} (h : ofJson t j = .ok v) :
    v.type = t ∧ Denotes j v := by
  cases t with
  | integer width valid =>
    obtain ⟨n, hn, hmake⟩ := Result.bind_eq_ok_iff.1 h
    obtain ⟨digits, rfl, hdigits⟩ := expectDecimal_eq_ok_iff.1 hn
    obtain ⟨fits, rfl⟩ := makeInteger_eq_ok_iff.1 hmake
    exact ⟨rfl, .integer hdigits⟩
  | property p => exact denotes_of_property h
  | boolean =>
    obtain ⟨s, hs, htruth⟩ := Result.bind_eq_ok_iff.1 h
    obtain rfl := expectString_eq_ok_iff.1 hs
    split at htruth
    · cases htruth
      exact ⟨rfl, .boolean true⟩
    · cases htruth
      exact ⟨rfl, .boolean false⟩
    · cases htruth

/-- **A value is read exactly from what denotes it.** -/
theorem ofJson_eq_ok_iff {t : ClaimType} {j : Json} {v : ClaimValue} :
    ofJson t j = .ok v ↔ v.type = t ∧ Denotes j v := by
  refine ⟨denotes_of_ofJson, ?_⟩
  rintro ⟨rfl, h⟩
  cases h with
  | @integer digits v hdigits =>
    have hread := expectDecimal_eq_ok_iff.2 ⟨digits, rfl, hdigits⟩
    exact Result.bind_eq_ok_iff.2 ⟨v.n, hread, makeInteger_self v⟩
  | @property _ v htext hsupplied hcustom =>
    rw [type, ofJson, htext]
    cases hvalue : j.member? "value" with
    | none =>
      exact makeProperty_eq_ok_iff.2 ⟨v, rfl, rfl, rfl, fun n hn => absurd hn (Option.not_mem_none n),
        fun hc => absurd hvalue (hcustom hc)⟩
    | some value =>
      have hread := expectDecimal_eq_ok_iff.2 (hsupplied value hvalue)
      exact Result.bind_eq_ok_iff.2 ⟨some v.hash, Result.optionMapM_eq_ok_iff.2 (.some hread),
        makeProperty_self v⟩
  | boolean b => cases b <;> rfl

/-! ### Values that are refused -/

theorem expectString_failsWith (j : Json) : FailsWith [.invalidClaimValue] (expectString j) := by
  rw [expectString]
  split
  · exact .ok _
  · exact .own _

theorem expectDecimal_failsWith (j : Json) : FailsWith [.invalidClaimValue] (expectDecimal j) :=
  .bind (expectString_failsWith j) fun _ => .reported (List.mem_singleton_self _) _

theorem makeInteger_failsWith (t : ClaimType) (n : Nat) : FailsWith [.invalidClaimValue] (makeInteger t n) := by
  unfold makeInteger
  split
  · split
    · exact .ok _
    · exact .own _
  · exact .own _

theorem makeProperty_failsWith (t : ClaimType) (text : String) (supplied : Option Nat) :
    FailsWith [.invalidClaimValue] (makeProperty t text supplied) := by
  unfold makeProperty
  split
  · split
    · unfold ofText
      dsimp only
      split
      · exact .own _
      · exact .ok _
    · unfold ofHash
      split
      · exact .own _
      · split
        · exact .ok _
        · exact .own _
  · exact .own _

theorem ofJson_failsWith (t : ClaimType) (j : Json) : FailsWith [.invalidClaimValue] (ofJson t j) := by
  cases t with
  | integer width valid => exact .bind (expectDecimal_failsWith j) fun n => makeInteger_failsWith _ n
  | property p =>
    rw [ofJson]
    split
    · exact .own _
    · exact .bind (.optionMapM expectDecimal_failsWith _) fun _ => makeProperty_failsWith _ _ _
  | boolean =>
    refine .bind (expectString_failsWith j) fun s => ?_
    split
    · exact .ok _
    · exact .ok _
    · exact .own _

end ClaimValue

namespace Credential

/-! ### The table of the body -/

/-- Each value is read from what the table has under the name of its claim, and the table has no
other names. -/
theorem of_takeValues_eq_ok {claims : List Claim} {values : List ClaimValue} {table : Keyed Json}
    (h : takeValues table claims = .ok values) :
    List.Forall₂ (fun claim v => ∃ j, table.get? claim.name = some j ∧ ClaimValue.ofJson claim.type j = .ok v)
        claims values ∧
      ∀ name, name ∈ table.keys ↔ name ∈ claims.map Claim.name := by
  induction claims generalizing table values with
  | nil =>
    rw [takeValues] at h
    split at h
    · rename_i hkeys
      cases h
      exact ⟨.nil, fun name => by rw [hkeys, List.map_nil]⟩
    · cases h
  | cons claim claims ih =>
    rw [takeValues] at h
    split at h
    · cases h
    · rename_i j hj
      obtain ⟨v, hv, h⟩ := Result.bind_eq_ok_iff.1 h
      obtain ⟨rest, hrest, h⟩ := Result.bind_eq_ok_iff.1 h
      cases h
      obtain ⟨hvalues, hkeys⟩ := ih hrest
      refine ⟨.cons ⟨j, hj, Result.within_eq_ok_iff.1 hv⟩ (hvalues.imp ?_), fun name => ?_⟩
      -- What is left of the table answers as the table does.
      · rintro claim' v' ⟨j', hj', hv'⟩
        rw [Keyed.get?_erase] at hj'
        split at hj'
        · cases hj'
        · exact ⟨j', hj', hv'⟩
      · rw [List.map_cons, List.mem_cons, ← hkeys, Keyed.mem_keys_erase]
        by_cases hname : name = claim.name
        · exact iff_of_true (Keyed.mem_keys_iff.2 ⟨j, hname ▸ hj⟩) (.inl hname)
        · simp [hname]

theorem takeValues_of_forall₂ {claims : List Claim} {values : List ClaimValue} {table : Keyed Json}
    (hnodup : (claims.map Claim.name).Nodup)
    (hvalues : List.Forall₂
      (fun claim v => ∃ j, table.get? claim.name = some j ∧ ClaimValue.ofJson claim.type j = .ok v) claims values)
    (hkeys : ∀ name, name ∈ table.keys ↔ name ∈ claims.map Claim.name) :
    takeValues table claims = .ok values := by
  induction claims generalizing table values with
  | nil =>
    obtain rfl := List.forall₂_nil_left_iff.1 hvalues
    rw [takeValues, List.eq_nil_iff_forall_not_mem.2 fun name hname => List.not_mem_nil ((hkeys name).1 hname)]
  | cons claim claims ih =>
    obtain ⟨v, rest, ⟨j, hj, hv⟩, hrest, rfl⟩ := List.forall₂_cons_left_iff.1 hvalues
    obtain ⟨hclaim, hnodup⟩ := List.nodup_cons.1 hnodup
    have hother : ∀ claim' ∈ claims, claim.name ≠ claim'.name :=
      fun claim' hmem hname => hclaim (List.mem_map.2 ⟨claim', hmem, hname.symm⟩)
    have htaken : takeValues (table.erase claim.name) claims = .ok rest := by
      refine ih hnodup (((List.forall₂_and_left _ _).2 ⟨hother, hrest⟩).imp ?_) fun name => ?_
      · rintro claim' v' ⟨hname, j', hj', hv'⟩
        exact ⟨j', by rw [Keyed.get?_erase, if_neg hname, hj'], hv'⟩
      · rw [Keyed.mem_keys_erase, hkeys, List.map_cons, List.mem_cons]
        by_cases hname : name = claim.name
        · exact iff_of_false (fun h => h.1 hname) fun h => hclaim (hname ▸ h)
        · simp [hname]
    rw [takeValues, hj]
    exact Result.bind_eq_ok_iff.2 ⟨v, Result.within_eq_ok_iff.2 hv, Result.bind_eq_ok_iff.2 ⟨rest, htaken, rfl⟩⟩

theorem takeValues_eq_ok_iff {claims : List Claim} {values : List ClaimValue} {table : Keyed Json}
    (hnodup : (claims.map Claim.name).Nodup) :
    takeValues table claims = .ok values ↔
      List.Forall₂ (fun claim v => ∃ j, table.get? claim.name = some j ∧ ClaimValue.ofJson claim.type j = .ok v)
          claims values ∧
        ∀ name, name ∈ table.keys ↔ name ∈ claims.map Claim.name :=
  ⟨of_takeValues_eq_ok, fun h => takeValues_of_forall₂ hnodup h.1 h.2⟩

theorem takeValues_failsWith (table : Keyed Json) (claims : List Claim) :
    FailsWith [.invalidCredential, .invalidClaimValue] (takeValues table claims) := by
  induction claims generalizing table with
  | nil =>
    rw [takeValues]
    split
    · exact .ok _
    · exact .error (List.mem_cons_self ..)
  | cons claim claims ih =>
    rw [takeValues]
    split
    · exact .error (List.mem_cons_self ..)
    · refine .bind (.within _ ?_) fun v => .bind (ih _) fun rest => .ok _
      exact (ClaimValue.ofJson_failsWith _ _).mono (List.subset_cons_self ..)

/-! ### The body in the text -/

/-- Where the body stands in a wire document. -/
def bodyPlace? (text : String) : Option Place := do
  let p ← Place.ofText? text
  let [_, body, _, _] ← p.record? ["header", "body", "signatures", "attachments"] | none
  body

/-- The names of the members of the body, in textual order and with their repetitions. -/
def bodyNames? (text : String) : Option (List String) :=
  ((bodyPlace? text).bind Place.fields?).map (·.map Prod.fst)

/-- The members of the body; of two under one name the later counts. -/
def bodyTable? (text : String) : Option (Keyed Json) :=
  (bodyPlace? text).bind (·.keyed? Place.json?)

theorem body_of_read {p : Place} {w : Wire} (h : Wire.read p = some w) :
    ∃ header body signatures attachments,
      p.record? ["header", "body", "signatures", "attachments"] =
        some [header, some body, signatures, attachments] ∧
      body.keyed? Place.json? = some w.body := by
  obtain ⟨parts, hparts, h⟩ := Option.bind_eq_some_iff.1 h
  split at h
  · obtain ⟨_, -, h⟩ := Option.bind_eq_some_iff.1 h
    obtain ⟨header, -, h⟩ := Option.bind_eq_some_iff.1 h
    obtain ⟨bodyPlace, hplace, h⟩ := Option.bind_eq_some_iff.1 h
    obtain ⟨body, hbody, h⟩ := Option.bind_eq_some_iff.1 h
    obtain ⟨_, -, h⟩ := Option.bind_eq_some_iff.1 h
    obtain ⟨_, -, h⟩ := Option.bind_eq_some_iff.1 h
    obtain ⟨signatures, -, h⟩ := Option.bind_eq_some_iff.1 h
    have hw : w.body = body := by
      split at h
      · obtain ⟨attachments, -, h⟩ := Option.bind_eq_some_iff.1 h
        cases h
        rfl
      · obtain ⟨attachments, -, h⟩ := Option.bind_eq_some_iff.1 h
        cases h
        rfl
    exact ⟨_, bodyPlace, _, _, hplace ▸ hparts, hw ▸ hbody⟩
  · cases h

theorem bodyTable?_of_read {text : String} {w : Wire} (h : Json.read? Wire.read text = some w) :
    bodyTable? text = some w.body := by
  obtain ⟨p, hp, h⟩ := Option.bind_eq_some_iff.1 h
  obtain ⟨header, body, signatures, attachments, hrecord, hbody⟩ := body_of_read h
  have hplace : bodyPlace? text = some body := by
    rw [bodyPlace?, hp, Option.bind_eq_bind, Option.bind_some, hrecord]
    rfl
  rw [bodyTable?, hplace, Option.bind_some, hbody]

theorem exists_bodyNames? {text : String} {table : Keyed Json} (h : bodyTable? text = some table) :
    ∃ names, bodyNames? text = some names ∧ ∀ name, name ∈ table.keys ↔ name ∈ names := by
  obtain ⟨p, hp, htable⟩ := Option.bind_eq_some_iff.1 h
  obtain ⟨fields, hfields, hkeys⟩ := Place.mem_keys_of_keyed? htable
  exact ⟨_, by rw [bodyNames?, hp, Option.bind_some, hfields, Option.map_some], hkeys⟩

/-! ### Whole credentials -/

/-- What is known of a credential that was read from a text under a schema. -/
structure ReadUnder (s : Schema) (text : String) (c : Credential) : Prop where
  type : c.header.type = s.id
  schema : c.body.schema = s
  /-- One value for each claim, in the order of the claims and of their types. -/
  typed : c.body.values.map ClaimValue.type = s.claims.map Claim.type
  bounded : ∀ v ∈ c.body.values, v.Bounded
  /-- Nothing is read as something else. -/
  denoted : ∃ table, bodyTable? text = some table ∧
    List.Forall₂ (fun claim v => ∃ j, table.get? claim.name = some j ∧ ClaimValue.Denotes j v)
      s.claims c.body.values
  /-- The claims are all that the body of the text has, and it has all of them. -/
  names : ∃ names, bodyNames? text = some names ∧ ∀ name, name ∈ names ↔ name ∈ s.claims.map Claim.name
  again : ofText s c.text = .ok c

/-- A wire document is read if its header names the schema and its body has the values; the rest is
taken as it is. -/
theorem ofWire_eq_ok_iff {s : Schema} {w : Wire} {c : Credential} :
    ofWire s w = .ok c ↔
      w.header.type = s.id ∧ c.body.schema = s ∧ takeValues w.body s.claims = .ok c.body.values ∧
        c.header = w.header ∧ c.signatures = w.signatures ∧ c.attachments = w.attachments := by
  constructor
  · intro h
    rw [ofWire] at h
    split at h
    · rename_i htype
      obtain ⟨values, hvalues, h⟩ := Result.bind_eq_ok_iff.1 h
      obtain ⟨body, hbody, h⟩ := Result.bind_eq_ok_iff.1 h
      obtain ⟨made, hmade, h⟩ := Result.bind_eq_ok_iff.1 h
      cases h
      obtain ⟨rfl, hheader, -⟩ := of_make_eq_ok hmade
      obtain ⟨hschema, rfl⟩ := Body.of_make_eq_ok hbody
      exact ⟨htype, hschema, hvalues, hheader, rfl, rfl⟩
    · cases h
  · rintro ⟨htype, rfl, hvalues, hheader, hsignatures, hattachments⟩
    have hmake : make w.header c.body = .ok ⟨w.header, c.body, [], .empty⟩ := if_pos htype
    have hc : c = ⟨w.header, c.body, w.signatures, w.attachments⟩ := by
      rw [← hheader, ← hsignatures, ← hattachments]
    rw [ofWire, if_pos htype]
    exact Result.bind_eq_ok_iff.2 ⟨_, hvalues, Result.bind_eq_ok_iff.2 ⟨_, c.body.make_values,
      Result.bind_eq_ok_iff.2 ⟨_, hmake, congrArg Except.ok hc.symm⟩⟩⟩

theorem ofWire_failsWith (s : Schema) (w : Wire) :
    FailsWith [.invalidCredential, .invalidClaimValue] (ofWire s w) := by
  rw [ofWire]
  split
  · refine .bind (takeValues_failsWith _ _) fun values => .bind ?_ fun body => .bind ?_ fun c => .ok _
    · unfold Body.make
      split
      · split
        · exact .error (List.mem_cons_self ..)
        · exact .ok _
      · exact .error (List.mem_cons_self ..)
    · rw [make]
      split
      · exact .ok _
      · exact .error (List.mem_cons_self ..)
  · exact .error (List.mem_cons_self ..)

theorem readUnder_of_ofText {s : Schema} {text : String} {c : Credential} (h : ofText s text = .ok c) :
    ReadUnder s text c := by
  obtain ⟨w, hread, hwire⟩ := Result.bind_eq_ok_iff.1 h
  have htable := bodyTable?_of_read (readDocument_eq_ok_iff.1 (Result.reported_eq_ok_iff.1 hread))
  obtain ⟨hwtype, rfl, hvalues, hheader, -⟩ := ofWire_eq_ok_iff.1 (Result.within_eq_ok_iff.1 hwire)
  obtain ⟨hread, hkeys⟩ := (takeValues_eq_ok_iff c.body.schema.distinct).1 hvalues
  have htype : c.header.type = c.body.schema.id := hheader ▸ hwtype
  obtain ⟨names, hnames, hmem⟩ := exists_bodyNames? htable
  refine ⟨htype, rfl, c.body.typed, fun v _ => v.bounded, ⟨_, htable, hread.imp ?_⟩,
    ⟨names, hnames, fun name => (hmem name).symm.trans (hkeys name)⟩, ofText_of_type htype⟩
  rintro claim v ⟨j, hj, hv⟩
  exact ⟨j, hj, (ClaimValue.ofJson_eq_ok_iff.1 hv).2⟩

/-- **Only checked credentials are read**, and what is not read is refused as a bad credential or as a
bad value of a claim. -/
theorem ofText_checked (s : Schema) (text : String) :
    (∀ c, ofText s text = .ok c → ReadUnder s text c) ∧
      ∀ e, ofText s text = .error e → e.kind = .invalidCredential ∨ e.kind = .invalidClaimValue := by
  refine ⟨fun c => readUnder_of_ofText, fun e he => ?_⟩
  have hfails : FailsWith [.invalidCredential, .invalidClaimValue] (ofText s text) :=
    .bind (.reported (List.mem_cons_self ..) _) fun w => .within _ (ofWire_failsWith s w)
  simpa using hfails e he

/-! ### Texts that no issuer writes -/

/-- Records as arrays, a claim that stands twice, and digits that begin with a zero. -/
def looseText : String :=
  "[[\"1\",\"0778\",\"3\",\"4\"],\x7b\"vip\":\"false\"," ++
    "\"alias\":\x7b\"value\":\"09\",\"str\":\"Ann\"\x7d,\"vip\":\"true\"\x7d,[]]"

def looseCredential : Credential where
  header := .make 778 3 4
  body :=
    { schema := guestSchema
      values := [.boolean true, .property ⟨aliasType, "Ann", 9, by decide, nofun⟩]
      typed := rfl }
  signatures := []
  attachments := .empty

/-- The hash of the alias, which is the issuer's to choose, is missing. -/
def hashlessText : String :=
  "[[\"1\",\"778\",\"3\",\"4\"],\x7b\"vip\":\"true\",\"alias\":\x7b\"str\":\"Ann\"\x7d\x7d,[]]"

theorem ofText_looseText : ofText guestSchema looseText = .ok looseCredential :=
  Result.eq_ok_of_toOption (by decide +kernel)

theorem exists_error_hashlessText : ∃ e, ofText guestSchema hashlessText = .error e :=
  Result.exists_error_of_toOption (by decide +kernel)

theorem ofText_checked_guest :
    (ofText guestSchema looseText = .ok looseCredential ∧
      ReadUnder guestSchema looseText looseCredential) ∧
      ∃ e, ofText guestSchema hashlessText = .error e ∧
        (e.kind = .invalidCredential ∨ e.kind = .invalidClaimValue) := by
  obtain ⟨e, he⟩ := exists_error_hashlessText
  exact ⟨⟨ofText_looseText, (ofText_checked guestSchema looseText).1 _ ofText_looseText⟩,
    e, he, (ofText_checked guestSchema hashlessText).2 e he⟩

end Credential

end Vouch

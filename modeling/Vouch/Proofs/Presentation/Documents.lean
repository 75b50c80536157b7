import Vouch.Presentation.Query
import Vouch.Proofs.Json.Values
import Vouch.Proofs.Result
import Vouch.Stack.Witness

/-! The documents of a holder.

A holder keeps as texts the inputs of a circuit, proofs that a signature has not been revoked, and the
queries of verifiers. `documents_read_back`: each of them is read back from its text as it was. Which
order the text has the members of its objects in is left open (`Json.Reordered`), so this covers
records that are written field by field as they are declared as well as sorted ones.

An input is written without a tag, and the shape of the text alone tells a single one from an array
(`InputValue.read_of_reordered`). The value in a condition can have any shape. One that was read is no
deeper than its place in the document allows and never null (`Query.fitsPlace_of_ofText`), and its
numbers are integers of 64 bits by assumption; so it fits into its place again. -/
namespace Vouch

open Json (Place Reordered)

/-! ### Inputs -/

theorem integral_decimals (ns : List Nat) : Json.Integral (.array (ns.map .decimal)) :=
  .array (List.forall_mem_map.2 fun _ _ => .string _)

theorem decimals?_of_reordered (room : Nat) {ns : List Nat} {j : Json}
    (h : Reordered (.array (ns.map .decimal)) j) : (Place.of (room + 1) j).decimals? = some ns := by
  obtain ⟨items, rfl, hitems⟩ := h.exists_items
  rw [Place.decimals?, Place.items?_of]
  exact Place.mapM_of_reordered room (fun n _ j hj => by rw [hj.eq_decimal, Place.decimal?_of]) hitems

namespace InputValue

/-- An array is not a string, so nothing but its shape is needed to know an array of inputs. -/
theorem read_of_reordered (room : Nat) (v : InputValue) (j : Json) (h : Reordered v.toJson j) :
    read (.of (room + 1) j) = some v := by
  cases v with
  | scalar n => rw [read, h.eq_decimal, Place.decimal?_of]
  | array ns =>
    obtain ⟨items, rfl, -⟩ := h.exists_items
    have hdecimal : (Place.of (room + 1) (.array items)).decimal? = none := rfl
    rw [read, hdecimal, decimals?_of_reordered room h, Option.map_some]

theorem integral_toJson (v : InputValue) : v.toJson.Integral := by
  cases v with
  | scalar n => exact .string _
  | array ns => exact integral_decimals ns

end InputValue

namespace Witness

theorem read_of_reordered (room : Nat) (w : Witness) {j : Json} (h : Reordered w.toJson j) :
    read (.of (room + 2) j) = some w :=
  Place.keyed?_of_reordered (room + 1) (InputValue.read_of_reordered room) h

theorem integral_toJson (w : Witness) : w.toJson.Integral :=
  .members (List.forall_mem_map.2 fun e _ => e.2.integral_toJson)

end Witness

/-! ### Proofs of non-revocation -/

namespace NonRevocation

theorem read_of_reordered (room : Nat) (p : NonRevocation) {j : Json} (h : Reordered p.toJson j) :
    read (.of (room + 2) j) = some p := by
  obtain ⟨js, hjs, hrecord⟩ := Place.record?_of_reordered (room + 1) [] (by simp) h
  have hrecord : (Place.of (room + 2) j).record?
      ["root", "siblings", "oldKey", "oldValue", "isOld0", "value"] = _ := hrecord
  obtain _ | ⟨hroot, _ | ⟨hsiblings, _ | ⟨holdKey, _ | ⟨holdValue, _ | ⟨hisOldZero, _ | ⟨hvalue, ⟨⟩⟩⟩⟩⟩⟩⟩ := hjs
  obtain rfl := hroot.eq_decimal
  obtain rfl := holdKey.eq_decimal
  obtain rfl := holdValue.eq_decimal
  obtain rfl := hisOldZero.eq_bool
  obtain rfl := hvalue.eq_decimal
  rw [read, hrecord]
  simp only [bind, Option.bind, List.map_cons, List.map_nil, List.append_nil, Place.decimal?_of,
    decimals?_of_reordered room hsiblings]
  rfl

theorem integral_toJson (p : NonRevocation) : p.toJson.Integral :=
  Json.integral_object (by simp [Json.decimal, Json.Integral.string, Json.Integral.bool, integral_decimals])

end NonRevocation

/-! ### Queries -/

theorem Operation.read_of (room : Nat) (o : Operation) : Operation.read (.of room (.string o.tag)) = some o := by
  have htag : (Place.of room (.string o.tag)).tag? = some o.tag := Place.string?_of room o.tag
  rw [read, Place.oneOf?, htag, Option.bind_some]
  cases o <;> decide

namespace Condition

/-- The value of a condition, if there is one, is one that a place with that much room can hold, and
not null. -/
def FitsPlace (room : Nat) (c : Condition) : Prop :=
  ∀ value ∈ c.value, value.Fits room ∧ value ≠ .null

theorem read_of_reordered {room : Nat} {c : Condition} (hfits : c.FitsPlace room) {j : Json}
    (h : Reordered c.toJson j) : read (.of (room + 1) j) = some c := by
  obtain ⟨claim, operation, value⟩ := c
  cases value with
  | none =>
    obtain ⟨js, hjs, hrecord⟩ := Place.record?_of_reordered room ["value"] (by simp) h
    have hrecord : (Place.of (room + 1) j).record? ["identifier", "operation", "value"] = _ := hrecord
    obtain _ | ⟨hclaim, _ | ⟨hoperation, ⟨⟩⟩⟩ := hjs
    obtain rfl := hclaim.eq_string
    obtain rfl := hoperation.eq_string
    rw [read, hrecord]
    simp only [bind, Option.bind, List.map_cons, List.map_nil, List.cons_append, List.nil_append,
      Place.string?_of, Operation.read_of]
    rfl
  | some value =>
    obtain ⟨js, hjs, hrecord⟩ := Place.record?_of_reordered room [] (by simp) h
    have hrecord : (Place.of (room + 1) j).record? ["identifier", "operation", "value"] = _ := hrecord
    obtain _ | ⟨hclaim, _ | ⟨hoperation, _ | ⟨hvalue, ⟨⟩⟩⟩⟩ := hjs
    obtain rfl := hclaim.eq_string
    obtain rfl := hoperation.eq_string
    obtain ⟨hvalueFits, hnull⟩ := hfits value rfl
    have hread := Place.optional?_eq_some_iff.2 ⟨Place.json?_of_fits hvalueFits hvalue, hnull⟩
    rw [read, hrecord]
    simp only [bind, Option.bind, List.map_cons, List.map_nil, List.append_nil, Place.string?_of,
      Operation.read_of, hread]
    rfl

theorem integral_toJson {room : Nat} {c : Condition} (h : c.FitsPlace room) : c.toJson.Integral := by
  refine Json.integral_object fun f hf => ?_
  rcases List.mem_append.1 hf with hf | hf
  · simp only [List.mem_cons, List.not_mem_nil, or_false] at hf
    rcases hf with rfl | rfl <;> exact .string _
  · obtain ⟨value, hvalue, rfl⟩ := List.mem_map.1 hf
    exact Json.integral_of_fits (h value (Option.mem_toList.1 hvalue)).1

/-- What was read is no deeper than the room for it. -/
theorem fitsPlace_of_read {room : Nat} {p : Place} {c : Condition} (hroom : p.room = room + 1) (h : read p = some c)
    (hnumbers : ∀ value ∈ c.value, value.Numbers Json.Number.IsInteger64) : c.FitsPlace room := by
  intro value hvalue
  obtain ⟨fields, hfields, h⟩ := Option.bind_eq_some_iff.1 h
  split at h
  · rename_i claim operation place
    obtain ⟨_, -, h⟩ := Option.bind_eq_some_iff.1 h
    obtain ⟨_, -, h⟩ := Option.bind_eq_some_iff.1 h
    obtain ⟨_, -, h⟩ := Option.bind_eq_some_iff.1 h
    obtain ⟨_, -, h⟩ := Option.bind_eq_some_iff.1 h
    obtain ⟨read, hread, h⟩ := Option.bind_eq_some_iff.1 h
    cases h
    obtain rfl : read = some value := hvalue
    cases place with
    | none => cases hread
    | some q =>
      obtain ⟨hjson, hnull⟩ := Place.optional?_eq_some_iff.1 hread
      have hq : q.room + 1 = p.room := Place.room_of_record? hfields (by simp)
      obtain rfl : q.room = room := by omega
      exact ⟨Json.fits_of_json? hjson (hnumbers value rfl), hnull⟩
  · cases h

end Condition

namespace Query

theorem Options.read_of_reordered (room : Nat) (o : Query.Options) {j : Json} (h : Reordered o.toJson j) :
    Options.read (.of (room + 1) j) = some o := by
  obtain ⟨js, hjs, hrecord⟩ := Place.record?_of_reordered room [] (by simp) h
  have hrecord : (Place.of (room + 1) j).record?
      ["expiredAtLowerBound", "externalNullifier", "equalCheckId", "pseudonym"] = _ := hrecord
  obtain _ | ⟨hexpiration, _ | ⟨hnullifier, _ | ⟨hid, _ | ⟨hpseudonym, ⟨⟩⟩⟩⟩⟩ := hjs
  obtain rfl := hexpiration.eq_decimal
  obtain rfl := hnullifier.eq_decimal
  obtain rfl := hid.eq_decimal
  obtain rfl := hpseudonym.eq_decimal
  rw [Options.read, hrecord]
  simp only [bind, Option.bind, List.map_cons, List.map_nil, List.append_nil, Place.decimal?_of,
    Place.decimal64?_of _ o.expirationLb.toNat_lt, UInt64.ofNat_toNat]
  rfl

theorem Options.integral_toJson (o : Query.Options) : o.toJson.Integral :=
  Json.integral_object (by simp [Json.decimal, Json.Integral.string])

/-- The values of all conditions are such. -/
def FitsPlace (room : Nat) (q : Query) : Prop :=
  ∀ c ∈ q.conditions, c.FitsPlace room

/-- The numbers in the values of the conditions are integers of 64 bits. -/
def HasIntegers (q : Query) : Prop :=
  ∀ c ∈ q.conditions, ∀ value ∈ c.value, value.Numbers Json.Number.IsInteger64

theorem hasIntegers_of_fitsPlace {room : Nat} {q : Query} (h : q.FitsPlace room) : q.HasIntegers :=
  fun c hc value hvalue => Json.numbers_of_fits (h c hc value hvalue).1

theorem read_of_reordered {room : Nat} {q : Query} (hfits : q.FitsPlace room) {j : Json} (h : Reordered q.toJson j) :
    read (.of (room + 3) j) = some q := by
  obtain ⟨js, hjs, hrecord⟩ := Place.record?_of_reordered (room + 2) [] (by simp) h
  have hrecord : (Place.of (room + 3) j).record? ["conditions", "options"] = _ := hrecord
  obtain _ | ⟨hconditions, _ | ⟨hoptions, ⟨⟩⟩⟩ := hjs
  obtain ⟨items, rfl, hitems⟩ := hconditions.exists_items
  have hread := Place.mapM_of_reordered (room + 1) (fun c hc j hj => Condition.read_of_reordered (hfits c hc) hj) hitems
  rw [read, hrecord]
  simp only [bind, Option.bind, List.map_cons, List.map_nil, List.append_nil, Place.items?_of, hread,
    Options.read_of_reordered (room + 1) q.options hoptions]
  rfl

theorem integral_toJson {room : Nat} {q : Query} (h : q.FitsPlace room) : q.toJson.Integral := by
  have hconditions : Json.Integral (.array (q.conditions.map Condition.toJson)) :=
    .array (List.forall_mem_map.2 fun c hc => Condition.integral_toJson (h c hc))
  exact Json.integral_object (by simp [hconditions, q.options.integral_toJson])

/-- Between a query and the value of a condition there are three containers. -/
theorem fitsPlace_of_read {room : Nat} {p : Place} {q : Query} (hroom : p.room = room + 3) (h : read p = some q)
    (hnumbers : q.HasIntegers) : q.FitsPlace room := by
  intro c hc
  obtain ⟨fields, hfields, h⟩ := Option.bind_eq_some_iff.1 h
  split at h
  · rename_i conditions options
    obtain ⟨place, hconditions, h⟩ := Option.bind_eq_some_iff.1 h
    obtain ⟨items, hitems, h⟩ := Option.bind_eq_some_iff.1 h
    obtain ⟨read, hread, h⟩ := Option.bind_eq_some_iff.1 h
    obtain ⟨_, -, h⟩ := Option.bind_eq_some_iff.1 h
    obtain ⟨_, -, h⟩ := Option.bind_eq_some_iff.1 h
    cases h
    obtain ⟨item, hitem, hcondition⟩ := Aligned.exists_of_mem (Aligned.mapM_eq_some_iff.1 hread).flip hc
    have hplaceRoom : place.room + 1 = p.room := Place.room_of_record? hfields (by simp [hconditions])
    have hitemRoom : item.room + 1 = place.room := Place.room_of_items? hitems item hitem
    exact Condition.fitsPlace_of_read (by omega) hcondition (hnumbers c hc)
  · cases h

/-- A query that is as deep as its place in a document allows is read back from its text. -/
theorem ofText_of_reordered {q : Query} (hfits : q.FitsPlace 124) {j : Json} (h : Reordered q.toJson j) :
    ofText j.text = .ok q :=
  Result.reported_eq_ok_iff.2 (readDocument_text (h.integral (integral_toJson hfits)) (read_of_reordered hfits h))

theorem fitsPlace_of_ofText {s : String} {q : Query} (h : ofText s = .ok q) (hnumbers : q.HasIntegers) :
    q.FitsPlace 124 := by
  obtain ⟨place, hplace, hread⟩ :=
    Option.bind_eq_some_iff.1 (readDocument_eq_ok_iff.1 (Result.reported_eq_ok_iff.1 h))
  obtain ⟨written, -, rfl⟩ := Option.map_eq_some_iff.1 hplace
  exact fitsPlace_of_read rfl hread hnumbers

end Query

/-! ### All documents -/

/-- **What a holder keeps is read back from its text as it was**: a witness, a proof of non-revocation,
and a query that was read from any text, if the numbers in its values are integers of 64 bits. -/
theorem documents_read_back :
    (∀ (w : Witness) (j : Json), Reordered w.toJson j → readDocument Witness.read j.text = .ok w) ∧
      (∀ (p : NonRevocation) (j : Json), Reordered p.toJson j → readDocument NonRevocation.read j.text = .ok p) ∧
      ∀ (s : String) (q : Query), Query.ofText s = .ok q → q.HasIntegers → ∀ j, Reordered q.toJson j →
        Query.ofText j.text = .ok q ∧
          ∀ schema, (Query.ofText j.text >>= (·.toPresentation schema)) = q.toPresentation schema := by
  refine ⟨fun w j h => ?_, fun p j h => ?_, fun s q hs hnumbers j h => ?_⟩
  · exact readDocument_text (h.integral w.integral_toJson) (w.read_of_reordered 125 h)
  · exact readDocument_text (h.integral p.integral_toJson) (p.read_of_reordered 125 h)
  · have htext : Query.ofText j.text = .ok q := Query.ofText_of_reordered (Query.fitsPlace_of_ofText hs hnumbers) h
    refine ⟨htext, fun schema => ?_⟩
    rw [htext]
    rfl

/-! ### The documents of a visitor -/

def visitorWitness : Witness :=
  .ofList [("vip", .scalar 1), ("siblings", .array [2 ^ 256, 0]), ("\u00fc \"", .array [])]

def visitorProof : NonRevocation where
  root := 2 ^ 256
  siblings := [7, 0]
  oldKey := 0
  oldValue := 0
  isOldZero := true
  value := 5

/-- One condition has no value, the other one more in its value than anybody asks for. -/
def visitorQuery : Query where
  conditions :=
    [⟨"vip", .reveal, none⟩,
      ⟨"age", .within, some (.object [("to", .string "150"), ("from", .string "18"),
        ("limits", .array [.number (.real true .zero), .number (.negative (2 ^ 63)), .natural (2 ^ 64 - 1)])])⟩]
  options :=
    { expirationLb := 1700000000
      externalNullifier := 42
      idEqualsTo := 0
      pseudonym := 7 }

theorem fitsPlace_visitorQuery : visitorQuery.FitsPlace 124 := by
  have hzero : Json.Number.IsInteger64 (.real true .zero) :=
    ⟨⟨true, ['0'], none, none⟩, ⟨rfl, rfl, by decide⟩, by decide +kernel⟩
  have hleast : Json.Number.IsInteger64 (.negative (2 ^ 63)) :=
    ⟨⟨true, Nat.toDigits 10 (2 ^ 63), none, none⟩, ⟨rfl, rfl, by decide +kernel⟩, by decide +kernel⟩
  have hgreatest : Json.Number.IsInteger64 (.natural (2 ^ 64 - 1)) :=
    ⟨⟨false, Nat.toDigits 10 (2 ^ 64 - 1), none, none⟩, ⟨rfl, rfl, by decide +kernel⟩, by decide +kernel⟩
  have hlimits : Json.Fits 123
      (.array [.number (.real true .zero), .number (.negative (2 ^ 63)), .natural (2 ^ 64 - 1)]) := by
    refine .array ?_
    simp only [List.forall_mem_cons]
    exact ⟨.number _ hzero, .number _ hleast, .number _ hgreatest, List.forall_mem_nil _⟩
  refine List.forall_mem_cons.2 ⟨nofun, List.forall_mem_singleton.2 ?_⟩
  rintro _ ⟨⟩
  refine ⟨Json.fits_object ?_, nofun⟩
  simp only [List.forall_mem_cons]
  exact ⟨.string _ _, .string _ _, hlimits, List.forall_mem_nil _⟩

/-- The proof of non-revocation and the query are written with their fields in another order than that
of the names. -/
theorem documents_read_back_visitor :
    readDocument Witness.read visitorWitness.toJson.text = .ok visitorWitness ∧
      readDocument NonRevocation.read (Json.text (.members
        [("root", .decimal (2 ^ 256)), ("siblings", .array [.decimal 7, .decimal 0]), ("oldKey", .decimal 0),
          ("oldValue", .decimal 0), ("isOld0", .bool true), ("value", .decimal 5)])) = .ok visitorProof ∧
      Query.ofText visitorQuery.toJson.text = .ok visitorQuery ∧ visitorQuery.HasIntegers ∧
      Query.ofText (Json.text (.members
        [("options", visitorQuery.options.toJson),
          ("conditions", .array (visitorQuery.conditions.map Condition.toJson))])) = .ok visitorQuery := by
  have htext : Query.ofText visitorQuery.toJson.text = .ok visitorQuery :=
    Query.ofText_of_reordered fitsPlace_visitorQuery (.same _)
  have hintegers : visitorQuery.HasIntegers := Query.hasIntegers_of_fitsPlace fitsPlace_visitorQuery
  obtain ⟨hwitness, hproof, hquery⟩ := documents_read_back
  refine ⟨hwitness visitorWitness _ (.same _), hproof visitorProof _ (.ordered (by simp) (.refl _)), htext,
    hintegers, (hquery _ _ htext hintegers _ (.ordered (by simp) (.swap _ _ _))).1⟩

end Vouch

import Vouch.Document
import Vouch.Proofs.Aligned
import Vouch.Proofs.Json.Grammar
import Vouch.Proofs.Keyed

/-! Reading a value back out of its own text.

A reader of the text of a value starts at the place of the value's written form
(`read?_text`, `readDocument_text`). At the place of a written value (`Place.of`) each reader of
`Json/Reading.lean` finds what was put there: a text, an integer or bytes
in a string, the items of an array, the fields of a record by their names
(`record?_of_perm`), and a whole table (`keyed?_of_members`). Each container takes one off the
room. Of the numbers, integers of 64 bits keep their value (`Literal.value?_of_isInteger64`). -/
namespace Vouch.Json

theorem foldl_place (fields : List (String × Json)) (t : Keyed Json) :
    fields.foldl (fun done (name, value) => Keyed.place name value done) t.entries =
      (fields.foldl (fun t (name, value) => t.insert name value) t).entries := by
  induction fields generalizing t with
  | nil => rfl
  | cons f rest ih => exact ih (t.insert f.1 f.2)

/-- The members of an object stand as in a table. -/
theorem object_eq (fields : List (String × Json)) :
    object fields = .members (Keyed.ofList fields).entries :=
  congrArg members (foldl_place fields .empty)

/-- An object has the members that it is made of. -/
theorem member?_object {fields : List (String × Json)} (h : (fields.map Prod.fst).Nodup) (name : String) :
    (object fields).member? name = Keyed.lookup name fields := by
  rw [object_eq, member?, Keyed.lookup_ofList h]

theorem member_of_mem {fields : List (String × Json)} (hnodup : (fields.map Prod.fst).Nodup) {name : String} {j : Json}
    (h : (name, j) ∈ fields) : (object fields).member name = j := by
  have hlookup := (Keyed.lookup_eq_some_iff hnodup name j).2 h
  rw [member, member?_object hnodup, hlookup, Option.getD_some]

theorem integral_object {fields : List (String × Json)} (h : ∀ f ∈ fields, Integral f.2) :
    Integral (object fields) := by
  rw [object_eq]
  exact .members fun f hf => h f (Keyed.mem_of_mem_ofList hf)

/-! ### Integers -/

theorem le_ofDigitChars (cs : List Char) (significand : Nat) :
    significand ≤ Nat.ofDigitChars 10 cs significand := by
  induction cs generalizing significand with
  | nil => exact Nat.le_refl _
  | cons c rest ih =>
    refine Nat.le_trans ?_ (ih (10 * significand + (c.toNat - '0'.toNat)))
    omega

/-- Digits are taken in while what they stand for fits. -/
theorem absorb_eq {cs : List Char} {significand : Nat} (h : Nat.ofDigitChars 10 cs significand < 2 ^ 64) :
    absorb significand cs = (Nat.ofDigitChars 10 cs significand, []) := by
  induction cs generalizing significand with
  | nil => rfl
  | cons c rest ih =>
    have hnext : 10 * significand + (c.toNat - '0'.toNat) < 2 ^ 64 :=
      Nat.lt_of_le_of_lt (le_ofDigitChars rest _) h
    rw [absorb, if_pos hnext, ih h]
    rfl

/-- An integer of at most 64 bits, one of which is the sign if it has one. -/
def Literal.IsInteger64 (l : Literal) : Prop :=
  l.fraction = none ∧ l.exponent = none ∧
    Decimal.value l.whole < if l.negative then 2 ^ 63 + 1 else 2 ^ 64

/-- The value of an integer. Minus zero is a double. -/
theorem Literal.value?_of_isInteger64 {l : Literal} (h : l.IsInteger64) :
    l.value? = some (if l.negative then
      if 0 < Decimal.value l.whole then .negative (Decimal.value l.whole) else .real true .zero
    else .natural (Decimal.value l.whole)) := by
  obtain ⟨negative, whole, fraction, exponent⟩ := l
  obtain ⟨rfl, rfl, hlt⟩ : fraction = none ∧ exponent = none ∧ _ := h
  have habsorb : absorb 0 whole = (Decimal.value whole, []) := by
    refine absorb_eq (Nat.lt_of_lt_of_le hlt ?_)
    split <;> decide
  rw [value?]
  simp only [habsorb]
  cases negative with
  | false => rfl
  | true =>
    by_cases hzero : 0 < Decimal.value whole
    · have hle : Decimal.value whole ≤ 2 ^ 63 := Nat.le_of_lt_succ hlt
      simp [hzero, hle]
    · have hvalue : Decimal.value whole = 0 := Nat.le_zero.1 (Nat.not_lt.1 hzero)
      rw [hvalue]
      decide +kernel

namespace Place

/-- The place of a written value, with room for so many containers in one another. -/
def of (room : Nat) (j : Json) : Place :=
  ⟨room, j.written⟩

variable {α : Type} (room : Nat)

/-! ### Strings -/

@[simp] theorem string?_of (s : String) : (of room (.string s)).string? = some s :=
  pieceText?_pieceOf s

@[simp] theorem decimal?_of (n : Nat) : (of room (.decimal n)).decimal? = some n := by
  rw [decimal?, decimal, string?_of, Option.bind_some, Decimal.read?_toString]

theorem decimal64?_of {n : Nat} (h : n < 2 ^ 64) : (of room (.decimal n)).decimal64? = some n := by
  rw [decimal64?, decimal, string?_of, Option.bind_some, Decimal.read64?_toString n h]

/-- Bytes in a string, as base64. -/
@[simp] theorem bytes?_of (bytes : List UInt8) :
    (of room (.string (Base64.encode bytes))).bytes? = some bytes := by
  rw [bytes?, string?_of, Option.bind_some, Base64.decode?_encode]

@[simp] theorem isNull_of_string (s : String) : (of room (.string s)).isNull = false := rfl

@[simp] theorem json?_of_string (s : String) : (of room (.string s)).json? = some (.string s) := by
  rw [Place.json?, of, Json.written, Json.json?, pieceText?_pieceOf, Option.map_some]

/-! ### Numbers -/

/-- An integer of 64 bits stays one. -/
theorem json?_of_natural {n : Nat} (h : n < 2 ^ 64) : (of room (.natural n)).json? = some (.natural n) := by
  have hdigits : Decimal.value (Nat.toDigits 10 n) = n := Nat.ofDigitChars_toDigits (by decide) (by decide)
  have hvalue := Literal.value?_of_isInteger64 (l := ⟨false, Nat.toDigits 10 n, none, none⟩)
    ⟨rfl, rfl, hdigits.symm ▸ h⟩
  rw [Place.json?, of, natural, Json.written, Json.json?, hvalue, hdigits, Option.map_some]
  rfl

/-! ### Containers -/

/-- An array is read item by item. -/
theorem json?_of_items {items read : List Json}
    (h : List.Forall₂ (fun j j' => (of room j).json? = some j') items read) :
    (of (room + 1) (.array items)).json? = some (.array read) := by
  have hitems : itemsJson? room (writtenItems items) = some read := by
    induction h with
    | nil => rfl
    | @cons j j' _ _ hj _ ih =>
      rw [writtenItems, itemsJson?, show Json.json? room j.written = some j' from hj, ih]
      rfl
  rw [Place.json?, of, Json.written, Json.json?, hitems, Option.map_some]

/-- An array whose items read back is read back. -/
theorem json?_of_array {items : List Json} (h : ∀ j ∈ items, (of room j).json? = some j) :
    (of (room + 1) (.array items)).json? = some (.array items) :=
  json?_of_items room (List.forall₂_same.2 h)

theorem items?_of (items : List Json) : (of (room + 1) (.array items)).items? = some (items.map (of room)) := by
  rw [items?, of, Json.written, writtenItems_eq_map]
  show some ((items.map Json.written).map (Place.mk room)) = _
  rw [List.map_map]
  rfl

/-- Items that read back one by one read back together. -/
theorem mapM_of (read : Place → Option α) (toJson : α → Json) (xs : List α)
    (h : ∀ x ∈ xs, read (of room (toJson x)) = some x) :
    ((xs.map toJson).map (of room)).mapM read = some xs := by
  rw [List.map_map, List.mapM_map]
  exact (Aligned.mapM_eq_some_map (g := id) h).trans (congrArg some (List.map_id xs))

theorem fields?_of (fields : List (String × Json)) :
    (of (room + 1) (.members fields)).fields? = some (fields.map fun (name, j) => (name, of room j)) := by
  simp only [fields?, of, Json.written, writtenFields_eq_map, List.mapM_map]
  refine Aligned.mapM_eq_some_map fun f _ => ?_
  show (pieceText? (f.1.toList.map pieceOf)).map (·, of room f.2) = _
  rw [pieceText?_pieceOf, Option.map_some]
  rfl

theorem record?_of_members (fields : List (String × Json)) (names : List String) :
    (of (room + 1) (.members fields)).record? names =
      names.mapM fun name =>
        match (fields.map fun (name, j) => (name, of room j)).filter (·.1 == name) with
        | [] => some none
        | [(_, q)] => some (some q)
        | _ => none :=
  congrArg (Option.bind · _) (fields?_of room fields)

/-- At most one member of an object has a name. -/
theorem record?_eq_lookup {fields : List (String × Json)} (hnodup : (fields.map Prod.fst).Nodup)
    (names : List String) :
    (of (room + 1) (.members fields)).record? names =
      some (names.map fun name => (Keyed.lookup name fields).map (of room)) := by
  rw [record?_of_members]
  refine Aligned.mapM_eq_some_map fun name _ => ?_
  rw [List.filter_map, show (_ ∘ _ : String × Json → Bool) = (·.1 == name) from rfl,
    Keyed.filter_eq_lookup hnodup]
  cases Keyed.lookup name fields <;> rfl

/-- A record is read by the names of its fields, in whatever order its members stand; the fields that
were not written are missing. -/
theorem record?_of_perm {fields ordered : List (String × Json)} (missing : List String)
    (hnodup : (fields.map Prod.fst ++ missing).Nodup) (hperm : fields.Perm ordered) :
    (of (room + 1) (.members ordered)).record? (fields.map Prod.fst ++ missing) =
      some (fields.map (fun f => some (of room f.2)) ++ missing.map fun _ => none) := by
  obtain ⟨hfields, -, hdisjoint⟩ := List.nodup_append.1 hnodup
  have hlookup := Keyed.lookup_perm hfields hperm
  rw [record?_eq_lookup room ((hperm.map _).nodup_iff.1 hfields), List.map_append, List.map_map]
  have hwritten : fields.map ((fun name => (Keyed.lookup name ordered).map (of room)) ∘ Prod.fst) =
      fields.map fun f => some (of room f.2) := by
    refine List.map_congr_left fun f hf => ?_
    rw [Function.comp_apply, ← hlookup, (Keyed.lookup_eq_some_iff hfields f.1 f.2).2 hf, Option.map_some]
  have hmissing : (missing.map fun name => (Keyed.lookup name ordered).map (of room)) =
      missing.map fun _ => none := by
    refine List.map_congr_left fun name hname => ?_
    rw [← hlookup, Keyed.lookup_eq_none_of_not_mem fun hmem => hdisjoint name hmem name hname rfl,
      Option.map_none]
  rw [hwritten, hmissing]

theorem record?_of {fields : List (String × Json)} (missing : List String)
    (hnodup : (fields.map Prod.fst ++ missing).Nodup) :
    (of (room + 1) (object fields)).record? (fields.map Prod.fst ++ missing) =
      some (fields.map (fun f => some (of room f.2)) ++ missing.map fun _ => none) := by
  rw [object_eq]
  exact record?_of_perm room missing hnodup (Keyed.perm_ofList (List.nodup_append.1 hnodup).1).symm

/-- Reading what stands under names keeps the names. -/
theorem map_fst_of_mapM {read : Place → Option α} {fields : List (String × Place)}
    {entries : List (String × α)}
    (h : (fields.mapM fun (name, q) => (read q).map (name, ·)) = some entries) :
    entries.map Prod.fst = fields.map Prod.fst := by
  induction fields generalizing entries with
  | nil =>
    cases h
    rfl
  | cons f rest ih =>
    rw [List.mapM_cons] at h
    obtain ⟨e, he, h⟩ := Option.bind_eq_some_iff.1 h
    obtain ⟨es, hes, h⟩ := Option.bind_eq_some_iff.1 h
    cases h
    obtain ⟨a, -, rfl⟩ := Option.map_eq_some_iff.1 he
    rw [List.map_cons, List.map_cons, ih hes]

/-- The keys of a table that is read are the names of the members, repeated or not. -/
theorem mem_keys_of_keyed? {read : Place → Option α} {p : Place} {t : Keyed α}
    (h : p.keyed? read = some t) :
    ∃ fields, p.fields? = some fields ∧ ∀ name, name ∈ t.keys ↔ name ∈ fields.map Prod.fst := by
  obtain ⟨fields, hfields, h⟩ := Option.bind_eq_some_iff.1 h
  obtain ⟨entries, hentries, h⟩ := Option.bind_eq_some_iff.1 h
  cases h
  exact ⟨fields, hfields, fun name => by rw [Keyed.mem_keys_ofList_iff, map_fst_of_mapM hentries]⟩

/-- A table is read member by member. -/
theorem keyed?_of_members {read : Place → Option α} {fields : List (String × Json)} {entries : List (String × α)}
    (h : List.Forall₂ (fun f e => f.1 = e.1 ∧ read (of room f.2) = some e.2) fields entries) :
    (of (room + 1) (.members fields)).keyed? read = some (Keyed.ofList entries) := by
  have hentries : ((fields.map fun (name, j) => (name, of room j)).mapM fun (name, q) =>
      (read q).map (name, ·)) = some entries := by
    rw [List.mapM_map]
    refine Aligned.mapM_eq_some_iff.2 (h.imp fun f e ⟨hname, hread⟩ => ?_)
    show (read (of room f.2)).map (f.1, ·) = some e
    rw [hread, hname, Option.map_some]
  rw [keyed?, fields?_of]
  simp only [Option.bind_eq_bind, Option.bind_some, hentries]
  rfl

/-- A table whose values read back is read back. -/
theorem keyed?_of (read : Place → Option α) (toJson : α → Json) (t : Keyed α)
    (h : ∀ e ∈ t.entries, read (of room (toJson e.2)) = some e.2) :
    (of (room + 1) (.members (t.entries.map fun (key, a) => (key, toJson a)))).keyed? read = some t := by
  have hentries : List.Forall₂ (fun f e => f.1 = e.1 ∧ read (of room f.2) = some e.2)
      (t.entries.map fun (key, a) => (key, toJson a)) t.entries :=
    List.forall₂_map_left_iff.2 (List.forall₂_same.2 fun e he => ⟨rfl, h e he⟩)
  rw [keyed?_of_members room hentries, Keyed.ofList_entries]

/-- An object is read member by member. -/
theorem json?_of_members {fields read : List (String × Json)}
    (h : List.Forall₂ (fun f f' => f.1 = f'.1 ∧ (of room f.2).json? = some f'.2) fields read) :
    (of (room + 1) (.members fields)).json? = some (object read) := by
  have hfields : fieldsJson? room (writtenFields fields) = some read := by
    induction h with
    | nil => rfl
    | @cons f f' _ _ hf _ ih =>
      rw [writtenFields, fieldsJson?, pieceText?_pieceOf, hf.1,
        show Json.json? room f.2.written = some f'.2 from hf.2, ih]
      rfl
  rw [Place.json?, of, Json.written, Json.json?, hfields, Option.map_some]

/-- An object whose members read back is read back. -/
theorem json?_of_object {fields : List (String × Json)} (h : ∀ f ∈ fields, (of room f.2).json? = some f.2) :
    (of (room + 1) (object fields)).json? = some (object fields) := by
  have hfields := json?_of_members room (List.forall₂_same.2 fun f hf =>
    ⟨rfl, h f (Keyed.mem_of_mem_ofList hf)⟩)
  rw [object_eq, hfields, object_eq, Keyed.ofList_entries]

/-- The table of the members of an object. -/
theorem keyed?_of_object {fields : List (String × Json)} (h : ∀ f ∈ fields, (of room f.2).json? = some f.2) :
    (of (room + 1) (object fields)).keyed? Place.json? = some (Keyed.ofList fields) := by
  have htable := keyed?_of_members room (List.forall₂_same.2 fun f hf =>
    ⟨rfl, h f (Keyed.mem_of_mem_ofList hf)⟩)
  rw [object_eq, htable, Keyed.ofList_entries]

end Place

/-- A reader of the text of a value starts at the value. -/
theorem read?_text {α : Type} (reader : Place → Option α) {j : Json} (h : Integral j) :
    read? reader j.text = reader (.of greatestDepth j) := by
  rw [read?, Place.ofText?, ofText?_text h]
  rfl

end Vouch.Json

namespace Vouch

theorem readDocument_eq_ok_iff {α : Type} {reader : Json.Place → Option α} {text : String} {a : α} :
    readDocument reader text = .ok a ↔ Json.read? reader text = some a := by
  rw [readDocument]
  cases Json.read? reader text <;> simp

theorem readDocument_text {α : Type} {reader : Json.Place → Option α} {j : Json} {a : α} (hj : j.Integral)
    (h : reader (.of Json.greatestDepth j) = some a) : readDocument reader j.text = .ok a := by
  rw [readDocument_eq_ok_iff, Json.read?_text reader hj, h]

end Vouch

import Vouch.Proofs.Json.Order

/-! Values of any shape.

A part of a document whose shape is left open is taken over as a value. What such a part can hold
is bounded by its place: `Fits room j` says that containers nest in `j` no deeper than there is room,
that its members stand under ascending names, and that its numbers are integers of 64 bits. Other
numbers may change their last digit on the way through a double, so they are kept out.

What was read fits (`fits_of_json?`), and what fits is read back from its text, with the members of
its objects in whatever order (`Place.json?_of_fits`). -/
namespace Vouch.Json

/-- The number is the value of an integer literal of 64 bits. -/
def Number.IsInteger64 (n : Number) : Prop :=
  ∃ l : Literal, l.IsInteger64 ∧ l.value? = some n

/-- All numbers of the value are such numbers. -/
inductive Numbers (P : Number → Prop) : Json → Prop
  | null : Numbers P .null
  | bool (b : Bool) : Numbers P (.bool b)
  | number {n : Number} (h : P n) : Numbers P (.number n)
  | string (s : String) : Numbers P (.string s)
  | array {items : List Json} (h : ∀ j ∈ items, Numbers P j) : Numbers P (.array items)
  | members {fields : List (String × Json)} (h : ∀ f ∈ fields, Numbers P f.2) : Numbers P (.members fields)

/-- A place with that much room can hold the value. -/
inductive Fits : Nat → Json → Prop
  | null (room : Nat) : Fits room .null
  | bool (room : Nat) (b : Bool) : Fits room (.bool b)
  | number (room : Nat) {n : Number} (h : n.IsInteger64) : Fits room (.number n)
  | string (room : Nat) (s : String) : Fits room (.string s)
  | array {room : Nat} {items : List Json} (h : ∀ j ∈ items, Fits room j) : Fits (room + 1) (.array items)
  | members {room : Nat} {fields : List (String × Json)} (hsorted : fields.Pairwise (·.1 < ·.1))
      (h : ∀ f ∈ fields, Fits room f.2) : Fits (room + 1) (.members fields)

theorem fits_object {room : Nat} {fields : List (String × Json)} (h : ∀ f ∈ fields, Fits room f.2) :
    Fits (room + 1) (object fields) := by
  rw [object_eq]
  exact .members (Keyed.ofList fields).sorted fun f hf => h f (Keyed.mem_of_mem_ofList hf)

theorem numbers_of_fits {room : Nat} {j : Json} (h : Fits room j) : j.Numbers Number.IsInteger64 := by
  induction h with
  | null => exact .null
  | bool room b => exact .bool b
  | number room hn => exact .number hn
  | string room s => exact .string s
  | array _ ih => exact .array ih
  | members _ _ ih => exact .members ih

/-! ### What was read fits -/

mutual

theorem fits_of_json? {room : Nat} {w : Written} {j : Json} (h : json? room w = some j)
    (hnumbers : j.Numbers Number.IsInteger64) : Fits room j := by
  match w, room with
  | .null, room =>
    cases h
    exact .null room
  | .bool b, room =>
    cases h
    exact .bool room b
  | .number l, room =>
    obtain ⟨n, -, rfl⟩ := Option.map_eq_some_iff.1 h
    cases hnumbers with
    | number hn => exact .number room hn
  | .string pieces, room =>
    obtain ⟨s, -, rfl⟩ := Option.map_eq_some_iff.1 h
    exact .string room s
  | .array items, room + 1 =>
    obtain ⟨js, hjs, rfl⟩ := Option.map_eq_some_iff.1 h
    cases hnumbers with
    | array hnumbers => exact .array (fits_of_itemsJson? hjs hnumbers)
  | .object fields, room + 1 =>
    obtain ⟨read, hread, rfl⟩ := Option.map_eq_some_iff.1 h
    rw [object_eq] at hnumbers ⊢
    cases hnumbers with
    | members hnumbers =>
      -- A member that another one of its name has replaced is not asked for its numbers.
      refine .members (Keyed.ofList read).sorted fun f hf => ?_
      exact fits_of_fieldsJson? hread (Keyed.mem_of_mem_ofList hf) (hnumbers f hf)

theorem fits_of_itemsJson? {room : Nat} {items : List Written} {js : List Json}
    (h : itemsJson? room items = some js) (hnumbers : ∀ j ∈ js, j.Numbers Number.IsInteger64) :
    ∀ j ∈ js, Fits room j := by
  match items with
  | [] =>
    cases h
    exact List.forall_mem_nil _
  | w :: rest =>
    obtain ⟨j, hj, h⟩ := Option.bind_eq_some_iff.1 h
    obtain ⟨js, hjs, h⟩ := Option.bind_eq_some_iff.1 h
    cases h
    obtain ⟨hnumber, hnumbers⟩ := List.forall_mem_cons.1 hnumbers
    exact List.forall_mem_cons.2 ⟨fits_of_json? hj hnumber, fits_of_itemsJson? hjs hnumbers⟩

theorem fits_of_fieldsJson? {room : Nat} {fields : List (List Piece × Written)} {read : List (String × Json)}
    (h : fieldsJson? room fields = some read) {f : String × Json} (hf : f ∈ read)
    (hnumbers : f.2.Numbers Number.IsInteger64) : Fits room f.2 := by
  match fields with
  | [] =>
    cases h
    cases hf
  | (pieces, w) :: rest =>
    obtain ⟨name, -, h⟩ := Option.bind_eq_some_iff.1 h
    obtain ⟨j, hj, h⟩ := Option.bind_eq_some_iff.1 h
    obtain ⟨read, hread, h⟩ := Option.bind_eq_some_iff.1 h
    cases h
    rcases List.mem_cons.1 hf with rfl | hf
    · exact fits_of_json? hj hnumbers
    · exact fits_of_fieldsJson? hread hf hnumbers

end

/-! ### What fits is read back -/

/-- The three kinds of numbers that integers become. -/
theorem Number.IsInteger64.cases {n : Number} (h : n.IsInteger64) :
    (∃ k < 2 ^ 64, n = .natural k) ∨ (∃ k, 0 < k ∧ k ≤ 2 ^ 63 ∧ n = .negative k) ∨ n = .real true .zero := by
  obtain ⟨l, hl, hvalue⟩ := h
  rw [Literal.value?_of_isInteger64 hl] at hvalue
  obtain rfl := Option.some.inj hvalue
  obtain ⟨-, -, hlt⟩ := hl
  split
  · rename_i hnegative
    rw [if_pos hnegative] at hlt
    split
    · rename_i hpos
      exact .inr (.inl ⟨_, hpos, Nat.le_of_lt_succ hlt, rfl⟩)
    · exact .inr (.inr rfl)
  · rename_i hnegative
    rw [if_neg hnegative] at hlt
    exact .inl ⟨_, hlt, rfl⟩

theorem integral_of_fits {room : Nat} {j : Json} (h : Fits room j) : Integral j := by
  induction h with
  | null => exact .null
  | bool room b => exact .bool b
  | number room hn =>
    rcases hn.cases with ⟨k, -, rfl⟩ | ⟨k, -, -, rfl⟩ | rfl
    · exact .natural k
    · exact .negative k
    · exact .zero true rfl
  | string room s => exact .string s
  | array _ ih => exact .array ih
  | members _ _ ih => exact .members ih

namespace Place

variable (room : Nat)

theorem json?_of_number {n : Number} (h : n.IsInteger64) : (of room (.number n)).json? = some (.number n) := by
  rcases h.cases with ⟨k, hk, rfl⟩ | ⟨k, hpos, hk, rfl⟩ | rfl
  · exact json?_of_natural room hk
  · have hdigits : Decimal.value (Nat.toDigits 10 k) = k := Nat.ofDigitChars_toDigits (by decide) (by decide)
    have hliteral : Literal.IsInteger64 ⟨true, Nat.toDigits 10 k, none, none⟩ :=
      ⟨rfl, rfl, hdigits.symm ▸ Nat.lt_succ_of_le hk⟩
    rw [Place.json?, of, Json.written, Json.json?, Literal.value?_of_isInteger64 hliteral, hdigits,
      if_pos hpos, Option.map_some]
    rfl
  · have hvalue : Literal.value? ⟨true, ['0'], some ['0'], none⟩ = some (.real true .zero) := by
      decide +kernel
    have hzero : Number.Magnitude.zero.mantissa = 0 := rfl
    rw [Place.json?, of, Json.written, if_pos hzero, Json.json?, hvalue, Option.map_some]

variable {room}

/-- The induction is on what fits; each container hands one less room on. -/
theorem json?_of_fits {j j' : Json} (hfits : Fits room j) (h : Reordered j j') :
    (of room j').json? = some j := by
  induction hfits generalizing j' with
  | null room =>
    cases h
    rfl
  | bool room b =>
    cases h
    rfl
  | number room hn =>
    cases h
    exact json?_of_number room hn
  | string room s =>
    cases h
    exact json?_of_string room s
  | @array room items _ ih =>
    obtain ⟨items', rfl, hall⟩ := h.exists_items
    refine json?_of_items room (List.Forall₂.flip ?_)
    exact ((List.forall₂_and_left _ _).2 ⟨ih, hall⟩).imp fun j j' ⟨hread, hj'⟩ => hread hj'
  | @members room fields hsorted _ ih =>
    obtain ⟨fields', ordered, rfl, hperm, hall⟩ := h.exists_members
    have hfields : List.Forall₂ (fun f' f => f'.1 = f.1 ∧ (of room f'.2).json? = some f.2) fields' fields :=
      List.Forall₂.flip (((List.forall₂_and_left _ _).2 ⟨ih, hall⟩).imp
        fun f f' ⟨hread, hname, hf'⟩ => ⟨hname.symm, hread hf'⟩)
    obtain ⟨read, hordered, hread⟩ := List.perm_comp_forall₂ hperm.symm hfields
    have htable : Keyed.ofList read = ⟨fields, hsorted⟩ := Keyed.ofList_eq_of_perm hread
    rw [json?_of_members room hordered, object_eq, htable]

/-! ### Rooms -/

theorem room_of_items? {p : Place} {places : List Place} (h : p.items? = some places) :
    ∀ q ∈ places, q.room + 1 = p.room := by
  obtain ⟨room, w⟩ := p
  unfold items? at h
  split at h
  · rename_i hroom _
    cases h
    refine List.forall_mem_map.2 fun w _ => ?_
    exact hroom.symm
  · cases h

theorem room_of_fields? {p : Place} {fields : List (String × Place)} (h : p.fields? = some fields) :
    ∀ f ∈ fields, f.2.room + 1 = p.room := by
  obtain ⟨room, w⟩ := p
  unfold fields? at h
  split at h
  · rename_i hroom _
    intro f hf
    obtain ⟨written, -, hwritten⟩ := Aligned.exists_of_mem (Aligned.mapM_eq_some_iff.1 h).flip hf
    obtain ⟨name, -, rfl⟩ := Option.map_eq_some_iff.1 hwritten
    exact hroom.symm
  · cases h

/-- A record takes one off the room, whether it is written as an object or as an array. -/
theorem room_of_record? {names : List String} {p q : Place} {fields : List (Option Place)}
    (h : p.record? names = some fields) (hq : some q ∈ fields) : q.room + 1 = p.room := by
  unfold record? at h
  split at h
  · obtain ⟨items, hitems, h⟩ := Option.bind_eq_some_iff.1 h
    split at h
    · cases h
      rcases List.mem_append.1 hq with hq | hq
      · obtain ⟨item, hitem, heq⟩ := List.mem_map.1 hq
        cases heq
        exact room_of_items? hitems q hitem
      · cases List.eq_of_mem_replicate hq
    · cases h
  · obtain ⟨members, hmembers, h⟩ := Option.bind_eq_some_iff.1 h
    obtain ⟨name, -, hname⟩ := Aligned.exists_of_mem (Aligned.mapM_eq_some_iff.1 h).flip hq
    split at hname
    · cases hname
    · rename_i name' q' hfilter
      cases hname
      have hmem : (name', q) ∈ members.filter (·.1 == name) := hfilter ▸ List.mem_singleton_self _
      exact room_of_fields? hmembers _ (List.mem_of_mem_filter hmem)
    · cases hname

/-! ### Null -/

/-- Null is read from null alone. -/
theorem isNull_iff {p : Place} {j : Json} (h : p.json? = some j) : p.isNull = true ↔ j = .null := by
  obtain ⟨room, w⟩ := p
  constructor
  · intro hnull
    cases w with
    | null => exact (Option.some.inj h).symm
    | _ => cases hnull
  · rintro rfl
    cases w with
    | null => rfl
    | bool b => cases h
    | number l =>
      obtain ⟨n, -, hn⟩ := Option.map_eq_some_iff.1 h
      cases hn
    | string pieces =>
      obtain ⟨s, -, hs⟩ := Option.map_eq_some_iff.1 h
      cases hs
    | array items =>
      cases room with
      | zero => cases h
      | succ room =>
        obtain ⟨js, -, hjs⟩ := Option.map_eq_some_iff.1 h
        cases hjs
    | object fields =>
      cases room with
      | zero => cases h
      | succ room =>
        obtain ⟨read, -, hread⟩ := Option.map_eq_some_iff.1 h
        cases hread

/-- An optional value that is there is not null. -/
theorem optional?_eq_some_iff {p : Place} {j : Json} :
    optional? Place.json? (some p) = some (some j) ↔ p.json? = some j ∧ j ≠ .null := by
  rw [optional?]
  split
  · rename_i hnull
    refine iff_of_false nofun fun ⟨h, hne⟩ => hne ((isNull_iff h).1 hnull)
  · rename_i hnull
    rw [Option.map_eq_some_iff]
    constructor
    · rintro ⟨j, h, ⟨⟩⟩
      exact ⟨h, fun hj => hnull ((isNull_iff h).2 hj)⟩
    · exact fun ⟨h, _⟩ => ⟨j, h, rfl⟩

end Place

end Vouch.Json

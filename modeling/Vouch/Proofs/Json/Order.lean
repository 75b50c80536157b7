import Mathlib.Data.List.Perm.Basic
import Vouch.Proofs.Json.Places

/-! Documents in another order.

Where the members of an object stand says nothing: a writer that goes by the declaration of a record
and one that goes by the names give different texts of one value. `Reordered` relates a value to the
same value with the members of its objects moved about, at whatever depth.

The readers of `Json/Reading.lean` find the same in all of them. What is found at the place of a
reordered record, array or table is again reordered, part by part (`record?_of_reordered`,
`mapM_of_reordered`, `keyed?_of_reordered`), and strings and truth values have one order only. -/
namespace Vouch.Json

/-- The same value with the members of its objects in another order. Members keep their names, and
what stands under a name may be reordered in turn. -/
inductive Reordered : Json → Json → Prop
  | same (j : Json) : Reordered j j
  | array {items items' : List Json} (h : List.Forall₂ Reordered items items') :
      Reordered (.array items) (.array items')
  | members {fields fields' ordered : List (String × Json)}
      (hnames : fields.map Prod.fst = fields'.map Prod.fst)
      (h : List.Forall₂ Reordered (fields.map Prod.snd) (fields'.map Prod.snd)) (hperm : fields'.Perm ordered) :
      Reordered (.members fields) (.members ordered)

namespace Reordered

theorem eq_string {s : String} {j : Json} (h : Reordered (.string s) j) : j = .string s := by
  cases h
  rfl

theorem eq_decimal {n : Nat} {j : Json} (h : Reordered (.decimal n) j) : j = .decimal n :=
  eq_string h

theorem eq_bool {b : Bool} {j : Json} (h : Reordered (.bool b) j) : j = .bool b := by
  cases h
  rfl

theorem exists_items {items : List Json} {j : Json} (h : Reordered (.array items) j) :
    ∃ items', j = .array items' ∧ List.Forall₂ Reordered items items' := by
  cases h with
  | same => exact ⟨items, rfl, List.forall₂_same.2 fun j _ => .same j⟩
  | array h => exact ⟨_, rfl, h⟩

theorem exists_members {fields : List (String × Json)} {j : Json} (h : Reordered (.members fields) j) :
    ∃ fields' ordered, j = .members ordered ∧ fields'.Perm ordered ∧
      List.Forall₂ (fun f f' => f.1 = f'.1 ∧ Reordered f.2 f'.2) fields fields' := by
  cases h with
  | same => exact ⟨fields, fields, rfl, .refl _, List.forall₂_same.2 fun f _ => ⟨rfl, .same f.2⟩⟩
  | @members _ fields' ordered hnames h hperm =>
    refine ⟨fields', ordered, rfl, hperm, ?_⟩
    rw [List.forall₂_map_left_iff, List.forall₂_map_right_iff] at h
    exact (Aligned.forall₂_and_iff fun _ _ _ => Iff.rfl).2 ⟨Aligned.map_eq_map_iff.1 hnames, h⟩

/-- The members of an object, in the order in which they were given to it. -/
theorem exists_fields {fields : List (String × Json)} {j : Json} (hnodup : (fields.map Prod.fst).Nodup)
    (h : Reordered (object fields) j) :
    ∃ fields' ordered, j = .members ordered ∧ fields'.Perm ordered ∧
      List.Forall₂ (fun f f' => f.1 = f'.1 ∧ Reordered f.2 f'.2) fields fields' := by
  rw [object_eq] at h
  obtain ⟨sorted, ordered, rfl, hperm, h⟩ := exists_members h
  obtain ⟨fields', h, hsorted⟩ := List.perm_comp_forall₂ (Keyed.perm_ofList hnodup).symm h
  exact ⟨fields', ordered, rfl, hsorted.trans hperm, h⟩

/-- An object may be written with its members in the order in which they were given to it. -/
theorem ordered {fields ordered : List (String × Json)} (hnodup : (fields.map Prod.fst).Nodup)
    (hperm : fields.Perm ordered) : Reordered (object fields) (.members ordered) := by
  rw [object_eq]
  exact .members rfl (List.forall₂_same.2 fun j _ => .same j) ((Keyed.perm_ofList hnodup).trans hperm)

/-- The order of members has no part in which numbers there are. -/
theorem integral {j j' : Json} (h : Reordered j j') (hj : Integral j) : Integral j' := by
  induction hj generalizing j' with
  | array hitems ih =>
    obtain ⟨items', rfl, hall⟩ := exists_items h
    refine .array fun j' hj' => ?_
    obtain ⟨j, hj, hreordered⟩ := Aligned.exists_of_mem hall.flip hj'
    exact ih j hj hreordered
  | members hfields ih =>
    obtain ⟨fields', ordered, rfl, hperm, hall⟩ := exists_members h
    refine .members fun f' hf' => ?_
    obtain ⟨f, hf, -, hreordered⟩ := Aligned.exists_of_mem hall.flip (hperm.mem_iff.2 hf')
    exact ih f hf hreordered
  | _ => cases h; constructor <;> assumption

end Reordered

namespace Place

variable {α : Type} (room : Nat)

/-- A record is read by the names of its fields. -/
theorem record?_of_reordered {fields : List (String × Json)} {j : Json} (missing : List String)
    (hnodup : (fields.map Prod.fst ++ missing).Nodup) (h : Reordered (object fields) j) :
    ∃ js, List.Forall₂ Reordered (fields.map Prod.snd) js ∧
      (of (room + 1) j).record? (fields.map Prod.fst ++ missing) =
        some (js.map (fun j => some (of room j)) ++ missing.map fun _ => none) := by
  obtain ⟨fields', ordered, rfl, hperm, h⟩ := h.exists_fields (List.nodup_append.1 hnodup).1
  obtain ⟨hnames, hvalues⟩ := (Aligned.forall₂_and_iff fun _ _ _ => Iff.rfl).1 h
  have hnames : fields.map Prod.fst = fields'.map Prod.fst := Aligned.map_eq_map_iff.2 hnames
  refine ⟨fields'.map Prod.snd, ?_, ?_⟩
  · rwa [List.forall₂_map_left_iff, List.forall₂_map_right_iff]
  · rw [hnames] at hnodup ⊢
    rw [record?_of_perm room missing hnodup hperm, List.map_map]
    rfl

/-- Items that are read one by one are read together. -/
theorem mapM_of_reordered {read : Place → Option α} {toJson : α → Json} {xs : List α} {js : List Json}
    (hread : ∀ x ∈ xs, ∀ j, Reordered (toJson x) j → read (of room j) = some x)
    (h : List.Forall₂ Reordered (xs.map toJson) js) : (js.map (of room)).mapM read = some xs := by
  rw [List.forall₂_map_left_iff] at h
  rw [List.mapM_map, Aligned.mapM_eq_some_iff]
  exact List.Forall₂.flip (((List.forall₂_and_left _ _).2 ⟨hread, h⟩).imp fun x j ⟨hx, hj⟩ => hx j hj)

/-- A table has no order of its own. -/
theorem keyed?_of_reordered {read : Place → Option α} {toJson : α → Json} {t : Keyed α} {j : Json}
    (hread : ∀ a j, Reordered (toJson a) j → read (of room j) = some a)
    (h : Reordered (.members (t.entries.map fun (key, a) => (key, toJson a))) j) :
    (of (room + 1) j).keyed? read = some t := by
  obtain ⟨fields', ordered, rfl, hperm, h⟩ := h.exists_members
  rw [List.forall₂_map_left_iff] at h
  have hentries : List.Forall₂ (fun f e => f.1 = e.1 ∧ read (of room f.2) = some e.2) fields' t.entries :=
    List.Forall₂.flip (h.imp fun e f ⟨hname, hvalue⟩ => ⟨hname.symm, hread e.2 f.2 hvalue⟩)
  obtain ⟨entries, hordered, hentries⟩ := List.perm_comp_forall₂ hperm.symm hentries
  rw [keyed?_of_members room hordered, Keyed.ofList_eq_of_perm hentries]

end Place

end Vouch.Json

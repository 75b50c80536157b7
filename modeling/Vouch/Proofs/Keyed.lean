import Mathlib.Data.List.Nodup
import Vouch.Keyed

/-! Tables of lists whose keys are distinct.

Such a list loses nothing in a table: the table answers a key with the value that stands
beside it in the list (`get?_ofList`). The entries of a table are such a list, and give
the table again (`ofList_entries`). The keys are those of the list even where some are
repeated (`mem_keys_ofList_iff`). -/
namespace Vouch.Keyed

variable {α : Type}

/-- What is found by a key is what has this key, if no two have it. -/
theorem find?_eq_some_iff {κ : Type} [DecidableEq κ] {key : α → κ} {xs : List α} (h : (xs.map key).Nodup)
    {k : κ} {x : α} : xs.find? (key · == k) = some x ↔ x ∈ xs ∧ key x = k := by
  have hfound {y : α} (hfind : xs.find? (key · == k) = some y) : y ∈ xs ∧ key y = k :=
    ⟨List.mem_of_find?_eq_some hfind, beq_iff_eq.1 (List.find?_some hfind :)⟩
  refine ⟨hfound, fun ⟨hx, hkey⟩ => ?_⟩
  obtain ⟨y, hfind⟩ : ∃ y, xs.find? (key · == k) = some y :=
    Option.isSome_iff_exists.1 (List.find?_isSome.2 ⟨x, hx, beq_iff_eq.2 hkey⟩)
  obtain ⟨hy, hsame⟩ := hfound hfind
  rw [hfind, List.inj_on_of_nodup_map h hy hx (hsame.trans hkey.symm)]

theorem lookup_eq_some_iff {entries : List (String × α)} (h : (entries.map Prod.fst).Nodup)
    (key : String) (value : α) : lookup key entries = some value ↔ (key, value) ∈ entries := by
  rw [lookup, Option.map_eq_some_iff]
  constructor
  · rintro ⟨entry, hfind, rfl⟩
    obtain ⟨hmem, rfl⟩ := (find?_eq_some_iff h).1 hfind
    exact hmem
  · exact fun hmem => ⟨(key, value), (find?_eq_some_iff h).2 ⟨hmem, rfl⟩, rfl⟩

theorem lookup_eq_none_of_not_mem {entries : List (String × α)} {key : String}
    (h : key ∉ entries.map Prod.fst) : lookup key entries = none := by
  rw [lookup, Option.map_eq_none_iff, List.find?_eq_none]
  intro e he hkey
  exact h (List.mem_map.2 ⟨e, he, eq_of_beq hkey⟩)

theorem get?_foldl_insert {entries : List (String × α)} (h : (entries.map Prod.fst).Nodup) (t : Keyed α)
    (key : String) :
    (entries.foldl (fun t (key, value) => t.insert key value) t).get? key =
      (lookup key entries).or (t.get? key) := by
  induction entries generalizing t with
  | nil => rfl
  | cons head rest ih =>
    obtain ⟨other, v⟩ := head
    obtain ⟨hother, hrest⟩ := List.nodup_cons.1 h
    rw [List.foldl_cons, ih hrest, get?_insert, lookup_cons]
    by_cases hkey : other = key
    · subst hkey
      rw [lookup_eq_none_of_not_mem hother, if_pos rfl, if_pos rfl]
      rfl
    · rw [if_neg hkey, if_neg hkey]

theorem get?_ofList {entries : List (String × α)} (h : (entries.map Prod.fst).Nodup) {key : String}
    {value : α} : (ofList entries).get? key = some value ↔ (key, value) ∈ entries := by
  rw [ofList, get?_foldl_insert h, get?_empty, Option.or_none, lookup_eq_some_iff h]

/-- The keys of a table are distinct, being in order. -/
theorem nodup_keys (t : Keyed α) : (t.entries.map Prod.fst).Nodup := by
  refine List.pairwise_map.2 (t.sorted.imp fun {a b} hlt (he : a.1 = b.1) => ?_)
  exact String.lt_irrefl _ (he ▸ hlt)

theorem mem_keys_iff {t : Keyed α} {key : String} : key ∈ t.keys ↔ ∃ value, t.get? key = some value := by
  simp only [keys, get?, lookup_eq_some_iff t.nodup_keys, List.mem_map, Prod.exists, exists_and_right,
    exists_eq_right]

theorem mem_keys_insert {t : Keyed α} {key other : String} {value : α} :
    other ∈ (t.insert key value).keys ↔ other = key ∨ other ∈ t.keys := by
  simp only [mem_keys_iff, get?_insert]
  by_cases hkey : key = other
  · simp [hkey]
  · simp [hkey, Ne.symm hkey]

theorem mem_keys_erase {t : Keyed α} {key other : String} :
    other ∈ (t.erase key).keys ↔ other ≠ key ∧ other ∈ t.keys := by
  simp only [mem_keys_iff, get?_erase]
  by_cases hkey : key = other
  · simp [hkey]
  · simp [hkey, Ne.symm hkey]

/-- The keys of a table are those of the list that it is made from, repeated or not. -/
theorem mem_keys_ofList_iff {entries : List (String × α)} {key : String} :
    key ∈ (ofList entries).keys ↔ key ∈ entries.map Prod.fst := by
  have h : ∀ t : Keyed α, key ∈ (entries.foldl (fun t (key, value) => t.insert key value) t).keys ↔
      key ∈ entries.map Prod.fst ∨ key ∈ t.keys := by
    induction entries with
    | nil => simp
    | cons head rest ih =>
      intro t
      rw [List.foldl_cons, ih, mem_keys_insert, List.map_cons, List.mem_cons]
      exact or_left_comm.trans or_assoc.symm
  exact (h empty).trans (or_iff_left List.not_mem_nil)

theorem lookup_ofList {entries : List (String × α)} (h : (entries.map Prod.fst).Nodup) (key : String) :
    lookup key (ofList entries).entries = lookup key entries :=
  (get?_foldl_insert h empty key).trans (Option.or_none ..)

/-- A table is that of its own entries. -/
theorem ofList_entries (t : Keyed α) : ofList t.entries = t :=
  ext_get? (lookup_ofList t.nodup_keys)

theorem eq_empty_of_isEmpty {t : Keyed α} (h : t.isEmpty = true) : t = empty :=
  ext_get? fun key => by rw [get?, List.isEmpty_iff.1 h]; rfl

theorem isEmpty_iff {t : Keyed α} : t.isEmpty = true ↔ t = empty :=
  ⟨eq_empty_of_isEmpty, fun h => h ▸ rfl⟩

/-- A table keeps entries of the list that it is made from, and no others. -/
theorem mem_of_mem_ofList {entries : List (String × α)} {e : String × α} (h : e ∈ (ofList entries).entries) :
    e ∈ entries := by
  have hmem : ∀ t : Keyed α, e ∈ (entries.foldl (fun t (key, value) => t.insert key value) t).entries →
      e ∈ entries ∨ e ∈ t.entries := by
    clear h
    induction entries with
    | nil => exact fun t => .inr
    | cons head rest ih =>
      intro t h
      rcases ih _ h with h | h
      · exact .inl (List.mem_cons_of_mem _ h)
      · rcases mem_place h with rfl | h
        · exact .inl (List.mem_cons_self ..)
        · exact .inr h
  exact (hmem empty h).resolve_right List.not_mem_nil

theorem perm_ofList {entries : List (String × α)} (h : (entries.map Prod.fst).Nodup) :
    (ofList entries).entries.Perm entries := by
  refine (List.perm_ext_iff_of_nodup (List.Nodup.of_map _ (nodup_keys _)) (List.Nodup.of_map _ h)).2
    fun (key, value) => ?_
  rw [← lookup_eq_some_iff (nodup_keys _), ← get?_ofList h]
  rfl

theorem size_ofList {entries : List (String × α)} (h : (entries.map Prod.fst).Nodup) :
    (ofList entries).size = entries.length :=
  (perm_ofList h).length_eq

theorem lookup_perm {a b : List (String × α)} (h : (a.map Prod.fst).Nodup) (hperm : a.Perm b) (key : String) :
    lookup key a = lookup key b := by
  ext value
  rw [lookup_eq_some_iff h, lookup_eq_some_iff ((hperm.map _).nodup_iff.1 h), hperm.mem_iff]

/-- A table is made again from its entries in any order. -/
theorem ofList_eq_of_perm {entries : List (String × α)} {t : Keyed α} (h : entries.Perm t.entries) :
    ofList entries = t := by
  have hnodup : (entries.map Prod.fst).Nodup := (h.map _).nodup_iff.2 t.nodup_keys
  exact ext_get? fun key => (lookup_ofList hnodup key).trans (lookup_perm hnodup h key)

/-- Of entries under distinct keys at most one is under a given key. -/
theorem filter_eq_lookup {entries : List (String × α)} (h : (entries.map Prod.fst).Nodup) (key : String) :
    entries.filter (·.1 == key) = ((lookup key entries).map (key, ·)).toList := by
  induction entries with
  | nil => rfl
  | cons head rest ih =>
    obtain ⟨other, v⟩ := head
    obtain ⟨hother, hrest⟩ := List.nodup_cons.1 h
    rw [List.filter_cons, lookup_cons, ih hrest]
    by_cases hkey : other = key
    · subst hkey
      rw [lookup_eq_none_of_not_mem hother, if_pos (beq_self_eq_true _), if_pos rfl]
      rfl
    · rw [if_neg (by simpa using hkey), if_neg hkey]

end Vouch.Keyed

/-! Values kept under text keys, in ascending order of the keys.

The order is that of the code points, which is also that of the UTF-8 bytes. Each key
occurs once, so two tables that answer every `get?` alike are equal
(`ext_get?`). -/
namespace Vouch

/-- A finite table with text keys. -/
structure Keyed (α : Type) where
  entries : List (String × α)
  sorted : entries.Pairwise (·.1 < ·.1) := by exact .nil

namespace Keyed

variable {α β : Type}

instance [DecidableEq α] : DecidableEq (Keyed α) := fun a b =>
  if h : a.entries = b.entries then isTrue (by cases a; cases b; simp_all)
  else isFalse fun hab => h (congrArg entries hab)

/-! ### Sorted entries -/

/-- Puts an entry in its place, over one under the same key. -/
def place (key : String) (value : α) : List (String × α) → List (String × α)
  | [] => [(key, value)]
  | (other, v) :: rest =>
    if key < other then (key, value) :: (other, v) :: rest
    else if key = other then (key, value) :: rest
    else (other, v) :: place key value rest

def lookup (key : String) (entries : List (String × α)) : Option α :=
  (entries.find? (·.1 == key)).map (·.2)

theorem mem_place {key : String} {value : α} {entries : List (String × α)} {e : String × α}
    (h : e ∈ place key value entries) : e = (key, value) ∨ e ∈ entries := by
  induction entries with
  | nil => simpa [place] using h
  | cons head rest ih =>
    obtain ⟨other, v⟩ := head
    unfold place at h
    split at h
    · simpa using h
    · split at h
      · rcases List.mem_cons.1 h with h | h
        · exact .inl h
        · exact .inr (List.mem_cons_of_mem _ h)
      · rcases List.mem_cons.1 h with h | h
        · exact .inr (h ▸ List.mem_cons_self ..)
        · exact (ih h).imp id (List.mem_cons_of_mem _)

theorem lt_of_not {a b : String} (h : ¬ a < b) (hne : a ≠ b) : b < a :=
  Decidable.byContradiction fun hba =>
    hne (String.le_antisymm (String.not_lt.1 hba) (String.not_lt.1 h))

theorem sorted_place (key : String) (value : α) (entries : List (String × α))
    (h : entries.Pairwise (·.1 < ·.1)) : (place key value entries).Pairwise (·.1 < ·.1) := by
  induction entries with
  | nil => simp [place]
  | cons head rest ih =>
    obtain ⟨other, v⟩ := head
    obtain ⟨hhead, hrest⟩ := List.pairwise_cons.1 h
    unfold place
    split
    · rename_i hlt
      refine List.pairwise_cons.2 ⟨fun e he => ?_, h⟩
      rcases List.mem_cons.1 he with rfl | he
      · exact hlt
      · exact String.lt_trans hlt (hhead e he)
    · split
      · rename_i heq
        exact List.pairwise_cons.2 ⟨fun e he => heq ▸ hhead e he, hrest⟩
      · rename_i hlt hne
        refine List.pairwise_cons.2 ⟨fun e he => ?_, ih hrest⟩
        rcases mem_place he with rfl | he
        · exact lt_of_not hlt hne
        · exact hhead e he

theorem lookup_cons (key other : String) (value : α) (rest : List (String × α)) :
    lookup key ((other, value) :: rest) = if other = key then some value else lookup key rest := by
  unfold lookup
  rw [List.find?_cons]
  by_cases h : other = key
  · simp [h]
  · rw [beq_eq_false_iff_ne.2 h, if_neg h]

theorem lookup_place (key other : String) (value : α) (entries : List (String × α)) :
    lookup other (place key value entries) =
      if key = other then some value else lookup other entries := by
  induction entries with
  | nil => rw [place, lookup_cons]
  | cons head rest ih =>
    obtain ⟨k, v⟩ := head
    unfold place
    split
    · rw [lookup_cons]
    · split
      · rename_i heq
        subst heq
        rw [lookup_cons, lookup_cons]
        split <;> rfl
      · rename_i _ hne
        rw [lookup_cons, lookup_cons, ih]
        by_cases hk : k = other
        · subst hk
          rw [if_pos rfl, if_neg hne, if_pos rfl]
        · rw [if_neg hk, if_neg hk]

/-! ### Tables -/

def empty : Keyed α := { entries := [] }

def insert (t : Keyed α) (key : String) (value : α) : Keyed α :=
  { entries := place key value t.entries
    sorted := sorted_place key value t.entries t.sorted }

/-- The table of a list of entries; of two under one key the later counts. -/
def ofList (entries : List (String × α)) : Keyed α :=
  entries.foldl (fun t (key, value) => t.insert key value) empty

def get? (t : Keyed α) (key : String) : Option α :=
  lookup key t.entries

def keys (t : Keyed α) : List String :=
  t.entries.map (·.1)

def isEmpty (t : Keyed α) : Bool :=
  t.entries.isEmpty

def size (t : Keyed α) : Nat :=
  t.entries.length

def erase (t : Keyed α) (key : String) : Keyed α :=
  { entries := t.entries.filter (·.1 != key)
    sorted := t.sorted.filter _ }

@[simp] theorem get?_empty (key : String) : (empty : Keyed α).get? key = none := rfl

theorem get?_insert (t : Keyed α) (key other : String) (value : α) :
    (t.insert key value).get? other = if key = other then some value else t.get? other :=
  lookup_place key other value t.entries

theorem lookup_eq_none {key : String} {entries : List (String × α)}
    (h : ∀ e ∈ entries, key < e.1) : lookup key entries = none := by
  induction entries with
  | nil => rfl
  | cons head rest ih =>
    obtain ⟨other, v⟩ := head
    have hne : other ≠ key := fun he => String.lt_irrefl _ (he ▸ h (other, v) (List.mem_cons_self ..))
    rw [lookup_cons, if_neg hne]
    exact ih fun e he => h e (List.mem_cons_of_mem _ he)

/-- Of two sorted lists of entries that begin with different keys, the one with the lesser key has
an entry that the other one lacks. -/
theorem lookup_ne_of_lt {k k' : String} {v v' : α} {rest rest' : List (String × α)} (hlt : k < k')
    (h : ((k', v') :: rest').Pairwise (·.1 < ·.1)) :
    lookup k ((k, v) :: rest) ≠ lookup k ((k', v') :: rest') := by
  have hnone : lookup k ((k', v') :: rest') = none := by
    refine lookup_eq_none fun e he => ?_
    rcases List.mem_cons.1 he with rfl | he
    · exact hlt
    · exact String.lt_trans hlt ((List.pairwise_cons.1 h).1 e he)
  rw [hnone, lookup_cons, if_pos rfl]
  exact Option.some_ne_none v

theorem eq_of_lookup_eq {a b : List (String × α)} (ha : a.Pairwise (·.1 < ·.1))
    (hb : b.Pairwise (·.1 < ·.1)) (h : ∀ key, lookup key a = lookup key b) : a = b := by
  induction a generalizing b with
  | nil =>
    cases b with
    | nil => rfl
    | cons head rest =>
      have := h head.1
      rw [show head = (head.1, head.2) from rfl, lookup_cons, if_pos rfl] at this
      cases this
  | cons head rest ih =>
    obtain ⟨k, v⟩ := head
    cases b with
    | nil =>
      have := h k
      rw [lookup_cons, if_pos rfl] at this
      cases this
    | cons head' rest' =>
      obtain ⟨k', v'⟩ := head'
      obtain rfl : k = k' :=
        String.le_antisymm (String.not_lt.1 fun hlt => lookup_ne_of_lt hlt ha (h k').symm)
          (String.not_lt.1 fun hlt => lookup_ne_of_lt hlt hb (h k))
      obtain ⟨hk, hrest⟩ := List.pairwise_cons.1 ha
      obtain ⟨hk', hrest'⟩ := List.pairwise_cons.1 hb
      have hv : v = v' := by
        have := h k
        rw [lookup_cons, lookup_cons, if_pos rfl, if_pos rfl] at this
        exact Option.some.inj this
      rw [hv, ih hrest hrest' fun key => ?_]
      by_cases hkey : k = key
      · rw [← hkey, lookup_eq_none hk, lookup_eq_none hk']
      · have := h key
        rwa [lookup_cons, lookup_cons, if_neg hkey, if_neg hkey] at this

theorem lookup_filter_ne (key other : String) (entries : List (String × α)) :
    lookup other (entries.filter (·.1 != key)) =
      if key = other then none else lookup other entries := by
  induction entries with
  | nil => split <;> rfl
  | cons head rest ih =>
    obtain ⟨k, v⟩ := head
    rw [List.filter_cons]
    by_cases hk : k = key
    · subst hk
      rw [if_neg (by simp), ih, lookup_cons]
      split <;> rfl
    · rw [if_pos (by simpa using hk), lookup_cons, lookup_cons, ih]
      by_cases ho : k = other
      · rw [if_pos ho, if_pos ho, if_neg fun h => hk (ho.trans h.symm)]
      · rw [if_neg ho, if_neg ho]

theorem get?_erase (t : Keyed α) (key other : String) :
    (t.erase key).get? other = if key = other then none else t.get? other :=
  lookup_filter_ne key other t.entries

theorem ext_get? {s t : Keyed α} (h : ∀ key, s.get? key = t.get? key) : s = t := by
  obtain ⟨a, ha⟩ := s
  obtain ⟨b, hb⟩ := t
  obtain rfl := eq_of_lookup_eq ha hb h
  rfl

end Keyed

end Vouch

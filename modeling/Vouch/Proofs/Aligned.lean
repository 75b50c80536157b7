import Mathlib.Data.List.Forall2

/-! Lists side by side.

Two lists are compared entry by entry, or after a map, or after each entry has become a
list itself; all of this is `List.Forall₂`. -/
namespace Vouch.Aligned

variable {α β γ δ ε : Type}

theorem map_eq_map_iff {f : α → γ} {g : β → γ} {xs : List α} {ys : List β} :
    xs.map f = ys.map g ↔ List.Forall₂ (fun x y => f x = g y) xs ys := by
  rw [← List.forall₂_eq_eq_eq, List.forall₂_map_left_iff, List.forall₂_map_right_iff]

theorem map_flatMap_eq_iff {f : α → List γ} {g : β → List δ} {r : γ → ε} {s : δ → ε}
    (hparts : ∀ x y, (f x).length = (g y).length) {xs : List α} {ys : List β}
    (hlength : xs.length = ys.length) :
    (xs.flatMap f).map r = (ys.flatMap g).map s ↔
      List.Forall₂ (fun x y => (f x).map r = (g y).map s) xs ys := by
  induction xs generalizing ys with
  | nil => simp [List.length_eq_zero_iff.1 hlength.symm]
  | cons x xs ih =>
    cases ys with
    | nil => cases hlength
    | cons y ys =>
      rw [List.flatMap_cons, List.flatMap_cons, List.map_append, List.map_append, List.forall₂_cons,
        ← ih (Nat.succ.inj hlength)]
      constructor
      · exact fun h => List.append_inj h (by simpa using hparts x y)
      · exact fun h => congrArg₂ _ h.1 h.2

/-- Two lists made from one stand before others. -/
theorem forall₂_map_append_iff {R : β → γ → Prop} {f : α → β} {g : α → γ} {bs : List β}
    {cs : List γ} (h : List.Forall₂ R bs cs) (as : List α) :
    List.Forall₂ R (as.map f ++ bs) (as.map g ++ cs) ↔ ∀ a ∈ as, R (f a) (g a) := by
  induction as with
  | nil => exact iff_of_true h nofun
  | cons a as ih =>
    rw [List.map_cons, List.map_cons, List.cons_append, List.cons_append, List.forall₂_cons, ih,
      List.forall_mem_cons]

/-- Nothing is left out if there is an entry for everything. -/
theorem forall₂_filterMap {R : α → β → Prop} {f : α → Option β} {xs : List α}
    (h : ∀ x ∈ xs, ∃ y, f x = some y ∧ R x y) : List.Forall₂ R xs (xs.filterMap f) := by
  induction xs with
  | nil => exact .nil
  | cons x xs ih =>
    obtain ⟨⟨y, hy, hxy⟩, hxs⟩ := List.forall_mem_cons.1 h
    rw [List.filterMap_cons_some hy]
    exact .cons hxy (ih hxs)

/-- Indices of a list beside its entries. -/
theorem forall_lt_iff {P : Nat → Prop} {ys : List α} :
    (∀ i < ys.length, P i) ↔ List.Forall₂ (fun i _ => P i) (List.range ys.length) ys := by
  simp [List.forall₂_iff_get]

theorem forall₂_and_iff {P Q R : α → β → Prop} {xs : List α} {ys : List β}
    (h : ∀ x y, (x, y) ∈ xs.zip ys → (R x y ↔ P x y ∧ Q x y)) :
    List.Forall₂ R xs ys ↔ List.Forall₂ P xs ys ∧ List.Forall₂ Q xs ys := by
  simp only [List.forall₂_iff_zip]
  constructor
  · intro ⟨hlength, hR⟩
    exact ⟨⟨hlength, fun hmem => ((h _ _ hmem).1 (hR hmem)).1⟩,
      hlength, fun hmem => ((h _ _ hmem).1 (hR hmem)).2⟩
  · rintro ⟨⟨hlength, hP⟩, -, hQ⟩
    exact ⟨hlength, fun hmem => (h _ _ hmem).2 ⟨hP hmem, hQ hmem⟩⟩

/-- An entry has a partner. -/
theorem exists_of_mem {R : α → β → Prop} {xs : List α} {ys : List β} (h : List.Forall₂ R xs ys) {x : α}
    (hx : x ∈ xs) : ∃ y ∈ ys, R x y := by
  obtain ⟨i, hi, rfl⟩ := List.getElem_of_mem hx
  exact ⟨_, List.get_mem _ _, h.get hi (h.length_eq ▸ hi)⟩

/-- Where each entry has a partner, partners can be listed. -/
theorem exists_forall₂_iff {R : α → β → Prop} {xs : List α} :
    (∃ ys, List.Forall₂ R xs ys) ↔ ∀ x ∈ xs, ∃ y, R x y := by
  induction xs with
  | nil => simp
  | cons x xs ih =>
    rw [List.forall_mem_cons, ← ih]
    simp only [List.forall₂_cons_left_iff]
    constructor
    · rintro ⟨_, y, ys, hy, hys, rfl⟩
      exact ⟨⟨y, hy⟩, ys, hys⟩
    · rintro ⟨⟨y, hy⟩, ys, hys⟩
      exact ⟨y :: ys, y, ys, hy, hys, rfl⟩

/-- Of three lists side by side the first and the last. -/
theorem mem_zip_of_mem_zip_zip {as : List α} {bs : List β} {cs : List γ} {x : (α × β) × γ}
    (h : x ∈ (as.zip bs).zip cs) : (x.1.1, x.2) ∈ as.zip cs := by
  induction as generalizing bs cs with
  | nil => cases h
  | cons a as ih =>
    cases bs with
    | nil => cases h
    | cons b bs =>
      cases cs with
      | nil => cases h
      | cons c cs =>
        rcases List.mem_cons.1 h with rfl | h
        · exact List.mem_cons_self ..
        · exact List.mem_cons_of_mem _ (ih h)

theorem mem_zip_zip {as : List α} {bs : List β} {cs : List γ} {i : Nat} (ha : i < as.length)
    (hb : i < bs.length) (hc : i < cs.length) : ((as[i], bs[i]), cs[i]) ∈ (as.zip bs).zip cs :=
  List.mem_iff_getElem.2 ⟨i, by simp only [List.length_zip]; omega, by simp only [List.getElem_zip]⟩

/-- Steps that may fail succeed together if each of them does. -/
theorem mapM_eq_some_iff {f : α → Option β} {xs : List α} {ys : List β} :
    xs.mapM f = some ys ↔ List.Forall₂ (fun x y => f x = some y) xs ys := by
  induction xs generalizing ys with
  | nil => simp [eq_comm]
  | cons x rest ih =>
    rw [List.mapM_cons, List.forall₂_cons_left_iff]
    constructor
    · intro h
      obtain ⟨y, hy, h⟩ := Option.bind_eq_some_iff.1 h
      obtain ⟨ys, hys, h⟩ := Option.bind_eq_some_iff.1 h
      exact ⟨y, ys, hy, ih.1 hys, (Option.some.inj h).symm⟩
    · rintro ⟨y, ys, hy, hys, rfl⟩
      rw [hy, ih.2 hys]
      rfl

/-- Steps that all succeed, each with a known result. -/
theorem mapM_eq_some_map {f : α → Option β} {g : α → β} {xs : List α}
    (h : ∀ x ∈ xs, f x = some (g x)) : xs.mapM f = some (xs.map g) :=
  mapM_eq_some_iff.2 (List.forall₂_map_right_iff.2 (List.forall₂_same.2 h))

end Vouch.Aligned

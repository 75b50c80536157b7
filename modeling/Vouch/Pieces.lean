/-! Lists cut into pieces.

All pieces have the same length but the last one, which may be shorter. Nothing is lost
and nothing is moved (`flatten_pieces`), and no piece is empty. -/
namespace Vouch

variable {α : Type}

/-- The list in pieces of `length` elements. -/
def pieces (length : Nat) (positive : 0 < length) : List α → List (List α)
  | [] => []
  | x :: rest => (x :: rest).take length :: pieces length positive ((x :: rest).drop length)
termination_by xs => xs.length
decreasing_by
  simp only [List.length_drop, List.length_cons]
  omega

theorem flatten_pieces (length : Nat) (positive : 0 < length) (xs : List α) :
    (pieces length positive xs).flatten = xs := by
  fun_induction pieces length positive xs with
  | case1 => rfl
  | case2 x rest ih => rw [List.flatten_cons, ih, List.take_append_drop]

theorem length_le_of_mem_pieces {length : Nat} {positive : 0 < length} {xs piece : List α}
    (h : piece ∈ pieces length positive xs) : piece.length ≤ length := by
  fun_induction pieces length positive xs with
  | case1 => cases h
  | case2 x rest ih =>
    rcases List.mem_cons.1 h with rfl | h
    · exact List.length_take_le ..
    · exact ih h

theorem ne_nil_of_mem_pieces {length : Nat} {positive : 0 < length} {xs piece : List α}
    (h : piece ∈ pieces length positive xs) : piece ≠ [] := by
  fun_induction pieces length positive xs with
  | case1 => cases h
  | case2 x rest ih =>
    rcases List.mem_cons.1 h with rfl | h
    · obtain ⟨k, rfl⟩ := Nat.exists_eq_succ_of_ne_zero (Nat.ne_of_gt positive)
      rw [List.take_succ_cons]
      exact List.cons_ne_nil _ _
    · exact ih h

/-- As many pieces as it takes. -/
theorem length_pieces (length : Nat) (positive : 0 < length) (xs : List α) :
    (pieces length positive xs).length = (xs.length + (length - 1)) / length := by
  fun_induction pieces length positive xs with
  | case1 =>
    have hnone : (0 + (length - 1)) / length = 0 := Nat.div_eq_of_lt (by omega)
    exact hnone.symm
  | case2 x rest ih =>
    rw [List.length_cons, ih, ← Nat.add_div_right _ positive, List.length_drop, List.length_cons]
    by_cases h : length ≤ rest.length + 1
    · congr 1
      omega
    -- Nothing is left behind a last piece.
    · rw [Nat.div_eq_of_lt_le (k := 1) (by omega) (by omega),
        Nat.div_eq_of_lt_le (k := 1) (by omega) (by omega)]

end Vouch

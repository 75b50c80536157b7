import Mathlib.FieldTheory.Finite.Basic
import Vouch.Modular
import Vouch.Proofs.Repeated

/-! Residues in the field of their modulus.

What is computed with residues is what the ring of integers modulo `n` says: `residue` keeps
sums, products and powers, and inverses if `n` is an odd prime (`residue_inverse`). A square
root is found wherever there is one (`exists_root?`). -/
namespace Vouch.Modular

variable {n : Nat}

/-- The class of a residue. -/
def residue (a : Fin n) : ZMod n :=
  (a.val : ZMod n)

theorem residue_injective : Function.Injective (residue (n := n)) := by
  intro a b h
  have hmod := (ZMod.natCast_eq_natCast_iff' a.val b.val n).1 h
  rw [Nat.mod_eq_of_lt a.isLt, Nat.mod_eq_of_lt b.isLt] at hmod
  exact Fin.ext hmod

@[simp] theorem residue_add (a b : Fin n) : residue (a + b) = residue a + residue b := by
  rw [residue, Fin.val_add, ZMod.natCast_mod, Nat.cast_add]
  rfl

@[simp] theorem residue_mul (a b : Fin n) : residue (a * b) = residue a * residue b := by
  rw [residue, Fin.val_mul, ZMod.natCast_mod, Nat.cast_mul]
  rfl

@[simp] theorem residue_sub (a b : Fin n) : residue (a - b) = residue a - residue b := by
  rw [residue, Fin.val_sub, ZMod.natCast_mod, Nat.cast_add, Nat.cast_sub b.isLt.le, ZMod.natCast_self, zero_sub,
    neg_add_eq_sub]
  rfl

@[simp] theorem residue_neg (a : Fin n) : residue (-a) = -residue a := by
  rw [residue, Fin.val_neg', ZMod.natCast_mod, Nat.cast_sub a.isLt.le, ZMod.natCast_self, zero_sub]
  rfl

variable [NeZero n]

@[simp] theorem residue_zero : residue (0 : Fin n) = 0 := by
  simp [residue]

@[simp] theorem residue_one : residue (1 : Fin n) = 1 := by
  rw [residue, Fin.val_one', ZMod.natCast_mod, Nat.cast_one]

@[simp] theorem residue_power (a : Fin n) (k : Nat) : residue (power a k) = residue a ^ k := by
  refine repeated_rel (R := fun a m => residue a = m) residue_one ?_ rfl k
  rintro a b _ _ rfl rfl
  exact residue_mul a b

section

variable [Fact n.Prime]

/-- Zero has the inverse zero, as in the field. -/
theorem residue_inverse (hn : 2 < n) (a : Fin n) : residue (inverse a) = (residue a)⁻¹ := by
  rw [inverse, residue_power]
  by_cases ha : residue a = 0
  · rw [ha, inv_zero, zero_pow (by omega)]
  · refine eq_inv_of_mul_eq_one_left ?_
    rw [← pow_succ, show n - 2 + 1 = n - 1 by omega, ZMod.pow_card_sub_one_eq_one ha]

/-! ### Square roots -/

theorem residue_refine_zero (k : Nat) {x : Fin n} (rest unit : Fin n) (hx : residue x = 0) :
    residue (refine k x rest unit) = 0 := by
  induction k generalizing x rest unit with
  | zero => exact hx
  | succ k ih =>
    rw [refine]
    split
    · exact ih _ _ hx
    · exact ih _ _ (by rw [residue_mul, hx, zero_mul])

/-- Each pass keeps the product of `a` and `rest` a square, and ends when `rest` is one. -/
theorem mul_self_refine {k : Nat} {a x rest unit : Fin n}
    (hx : residue x * residue x = residue a * residue rest) (hrest : residue rest ^ 2 ^ k = 1)
    (hunit : residue unit ^ 2 ^ k = -1) :
    residue (refine k x rest unit) * residue (refine k x rest unit) = residue a := by
  induction k generalizing x rest unit with
  | zero =>
    rw [pow_zero, pow_one] at hrest
    rw [refine, hx, hrest, mul_one]
  | succ k ih =>
    have hsquare : residue (unit * unit) ^ 2 ^ k = -1 := by
      rw [residue_mul, ← pow_two, ← pow_mul, ← pow_succ', hunit]
    have hroot : (residue rest ^ 2 ^ k) * (residue rest ^ 2 ^ k) = 1 := by
      rw [← pow_two, ← pow_mul, ← pow_succ, hrest]
    rw [refine]
    split
    · rename_i hone
      refine ih hx ?_ hsquare
      rw [← residue_power, hone, residue_one]
    · rename_i hne
      have hminus : residue rest ^ 2 ^ k = -1 := by
        refine (mul_self_eq_one_iff.1 hroot).resolve_left fun hone => hne (residue_injective ?_)
        rw [residue_power, hone, residue_one]
      refine ih ?_ ?_ hsquare
      · simp only [residue_mul]
        rw [mul_mul_mul_comm, hx, mul_assoc]
      · rw [residue_mul, mul_pow, hminus, hsquare, neg_one_mul, neg_neg]

/-- **A square has a root that is found.** -/
theorem exists_root? {twos odd : Nat} {nonresidue a : Fin n} (hn : n - 1 = 2 ^ (twos + 1) * odd)
    (hodd : odd % 2 = 1) (hnonresidue : residue nonresidue ^ (2 ^ twos * odd) = -1) (ha : IsSquare (residue a)) :
    ∃ x, root? (twos + 1) odd nonresidue a = some x := by
  have hroot : residue (refine twos (power a ((odd + 1) / 2)) (power a odd) (power nonresidue odd)) *
      residue (refine twos (power a ((odd + 1) / 2)) (power a odd) (power nonresidue odd)) = residue a := by
    by_cases hzero : residue a = 0
    · rw [residue_refine_zero, zero_mul, hzero]
      rw [residue_power, hzero, zero_pow (by omega)]
    obtain ⟨b, hb⟩ := ha
    have hb0 : b ≠ 0 := fun h => hzero (by rw [hb, h, zero_mul])
    refine mul_self_refine ?_ ?_ ?_
    · rw [residue_power, residue_power, ← pow_add, ← pow_succ']
      congr 1
      omega
    · have hexponent : 2 * (odd * 2 ^ twos) = n - 1 := by
        rw [hn, pow_succ]
        ring
      rw [residue_power, hb, ← pow_two, ← pow_mul, ← pow_mul, hexponent, ZMod.pow_card_sub_one_eq_one hb0]
    · rw [residue_power, ← pow_mul, mul_comm, hnonresidue]
  refine ⟨_, if_pos (residue_injective ?_)⟩
  rw [residue_mul]
  exact hroot

end

end Vouch.Modular

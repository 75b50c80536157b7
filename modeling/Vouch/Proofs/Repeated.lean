import Mathlib.Algebra.Group.Basic
import Vouch.Repeated

/-! Repeated operations are powers.

Where an operation stands for the product of a monoid, so does repeating it for the power. -/
namespace Vouch

variable {α M : Type} [Monoid M] {op : α → α → α} {unit : α} {R : α → M → Prop}

theorem repeated_rel (hunit : R unit 1) (hop : ∀ {a b m n}, R a m → R b n → R (op a b) (m * n)) {a : α} {m : M}
    (h : R a m) (count : Nat) : R (repeated op unit count a) (m ^ count) := by
  fun_induction repeated op unit count a with
  | case1 =>
    rw [pow_zero]
    exact hunit
  | case2 count hcount half even heven ih =>
    have hpower : m ^ count = m ^ (count / 2) * m ^ (count / 2) := by
      rw [← pow_add]
      congr 1
      omega
    rw [hpower]
    exact hop ih ih
  | case3 count hcount half even hodd ih =>
    have hpower : m ^ count = m ^ (count / 2) * m ^ (count / 2) * m := by
      rw [← pow_add, ← pow_succ]
      congr 1
      omega
    rw [hpower]
    exact hop (hop ih ih) h

end Vouch

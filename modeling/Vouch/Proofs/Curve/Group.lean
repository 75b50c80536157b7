import Mathlib.Algebra.Field.Basic
import Mathlib.Algebra.Group.Even
import Mathlib.Tactic.FieldSimp
import Mathlib.Tactic.LinearCombination
import Mathlib.Tactic.Ring

/-! The group of a twisted Edwards curve.

The solutions of `x² + y² = 1 + d x² y²` over a field in which two is not zero and `d` has no
square root form a commutative group (`Solution.instAddCommGroup`). As `d` has none, no denominator of
the addition is zero (`Solution.one_add_ne_zero`, `Solution.one_sub_ne_zero`), so that there are no
cases; what is left are identities of polynomials. -/
namespace Vouch.Edwards

variable {K : Type} [Field K] {d : K}

@[ext] structure Solution (d : K) where
  x : K
  y : K
  equation : x ^ 2 + y ^ 2 = 1 + d * x ^ 2 * y ^ 2

namespace Solution

/-! ### Points -/

instance : Zero (Solution d) where
  zero := ⟨0, 1, by ring⟩

instance : Neg (Solution d) where
  neg p := ⟨-p.x, p.y, by linear_combination p.equation⟩

theorem x_zero : (0 : Solution d).x = 0 := rfl

theorem y_zero : (0 : Solution d).y = 1 := rfl

theorem x_neg (p : Solution d) : (-p).x = -p.x := rfl

theorem y_neg (p : Solution d) : (-p).y = p.y := rfl

/-- The sum with the point `(1, 0)`, of order four. -/
def turn (p : Solution d) : Solution d :=
  ⟨p.y, -p.x, by linear_combination p.equation⟩

theorem x_turn (p : Solution d) : p.turn.x = p.y := rfl

theorem y_turn (p : Solution d) : p.turn.y = -p.x := rfl

/-! ### Denominators -/

/-- What the denominators of a sum differ from one by. -/
def cross (p q : Solution d) : K :=
  d * p.x * q.x * p.y * q.y

theorem cross_comm (p q : Solution d) : p.cross q = q.cross p := by
  unfold cross
  ring

/-- Both sums of coordinates are roots of `d` times a square. -/
theorem square_eq {p q : Solution d} (hcross : p.cross q ^ 2 = 1) {s : K} (hs : s ^ 2 = 1) :
    (p.x + s * p.cross q * p.y) ^ 2 = d * (p.x * p.y * (q.x + s * q.y)) ^ 2 := by
  have hp := p.equation
  have hq := q.equation
  unfold cross at hcross ⊢
  linear_combination hp + ((d * p.x * q.x * p.y * q.y) ^ 2 * p.y ^ 2 - d * p.x ^ 2 * p.y ^ 2 * q.y ^ 2) * hs +
    (p.y ^ 2 - 1) * hcross - d * p.x ^ 2 * p.y ^ 2 * hq

/-- As `d` is no square, these sums are zero. -/
theorem add_eq_zero_of_cross {p q : Solution d} (hd : ¬ IsSquare d) (hcross : p.cross q ^ 2 = 1) {s : K}
    (hs : s ^ 2 = 1) : q.x + s * q.y = 0 := by
  by_contra hsum
  have hxy : p.x * p.y ≠ 0 := by
    intro hzero
    have hcross0 : p.cross q = 0 := by
      unfold cross
      linear_combination d * q.x * q.y * hzero
    rw [hcross0, zero_pow two_ne_zero] at hcross
    exact zero_ne_one hcross
  have hne : p.x * p.y * (q.x + s * q.y) ≠ 0 := mul_ne_zero hxy hsum
  refine hd ⟨(p.x + s * p.cross q * p.y) / (p.x * p.y * (q.x + s * q.y)), ?_⟩
  rw [div_mul_div_comm, ← pow_two, ← pow_two, square_eq hcross hs, mul_div_cancel_right₀ _ (pow_ne_zero 2 hne)]

/-- The product of the denominators, without the coordinates of one point in it twice. -/
theorem denominators_eq (p q : Solution d) :
    (1 + p.cross q) * (1 - p.cross q) = q.x ^ 2 + q.y ^ 2 - d * q.x ^ 2 * q.y ^ 2 * (p.x ^ 2 + p.y ^ 2) := by
  have hp := p.equation
  have hq := q.equation
  unfold cross
  linear_combination d * q.x ^ 2 * q.y ^ 2 * hp - hq

section

variable [NeZero (2 : K)] [hd : Fact (¬ IsSquare d)]

theorem cross_sq_ne_one (p q : Solution d) : p.cross q ^ 2 ≠ 1 := by
  intro hcross
  have hplus := add_eq_zero_of_cross hd.out hcross (one_pow 2)
  have hminus := add_eq_zero_of_cross hd.out hcross (neg_one_sq (R := K))
  have hx : q.x = 0 := by
    have htwo : (2 : K) * q.x = 0 := by linear_combination hplus + hminus
    exact (mul_eq_zero.1 htwo).resolve_left (NeZero.ne 2)
  have hcross0 : p.cross q = 0 := by rw [cross, hx, mul_zero, zero_mul, zero_mul]
  rw [hcross0, zero_pow two_ne_zero] at hcross
  exact zero_ne_one hcross

theorem one_add_ne_zero (p q : Solution d) : 1 + p.cross q ≠ 0 := by
  intro h
  refine cross_sq_ne_one p q ?_
  linear_combination (p.cross q - 1) * h

theorem one_sub_ne_zero (p q : Solution d) : 1 - p.cross q ≠ 0 := by
  intro h
  refine cross_sq_ne_one p q ?_
  linear_combination (-1 - p.cross q) * h

/-! ### Addition -/

theorem add_equation (p q : Solution d) :
    ((p.x * q.y + p.y * q.x) / (1 + p.cross q)) ^ 2 + ((p.y * q.y - p.x * q.x) / (1 - p.cross q)) ^ 2 =
      1 + d * ((p.x * q.y + p.y * q.x) / (1 + p.cross q)) ^ 2 * ((p.y * q.y - p.x * q.x) / (1 - p.cross q)) ^ 2 := by
  have hplus := one_add_ne_zero p q
  have hminus := one_sub_ne_zero p q
  have hpq := denominators_eq p q
  have hqp := denominators_eq q p
  rw [cross_comm q p] at hqp
  field_simp
  unfold cross at hpq hqp ⊢
  linear_combination -((1 + d * p.x * q.x * p.y * q.y) * (1 - d * p.x * q.x * p.y * q.y)) * hqp -
    (p.x ^ 2 + p.y ^ 2 - d * p.x ^ 2 * p.y ^ 2 * (q.x ^ 2 + q.y ^ 2)) * hpq

instance : Add (Solution d) where
  add p q := ⟨_, _, add_equation p q⟩

theorem x_add (p q : Solution d) : (p + q).x = (p.x * q.y + p.y * q.x) / (1 + p.cross q) := rfl

theorem y_add (p q : Solution d) : (p + q).y = (p.y * q.y - p.x * q.x) / (1 - p.cross q) := rfl

theorem add_comm' (p q : Solution d) : p + q = q + p := by
  ext
  · rw [x_add, x_add, cross_comm]
    ring
  · rw [y_add, y_add, cross_comm]
    ring

theorem zero_add' (p : Solution d) : 0 + p = p := by
  have hcross : (0 : Solution d).cross p = 0 := by
    rw [cross, x_zero, mul_zero, zero_mul, zero_mul, zero_mul]
  ext
  · rw [x_add, hcross, x_zero, y_zero]
    ring
  · rw [y_add, hcross, x_zero, y_zero]
    ring

theorem neg_add_cancel' (p : Solution d) : -p + p = 0 := by
  ext
  · rw [x_add, x_neg, y_neg, x_zero]
    ring
  · have hcross : 1 - (-p).cross p = p.x ^ 2 + p.y ^ 2 := by
      rw [cross, x_neg, y_neg]
      linear_combination -p.equation
    have hne : p.x ^ 2 + p.y ^ 2 ≠ 0 := hcross ▸ one_sub_ne_zero (-p) p
    rw [y_add, hcross, x_neg, y_neg, y_zero, div_eq_one_iff_eq hne]
    ring

/-! ### Associativity -/

/-- What is turned is one of the points of a sum, or the sum. -/
theorem turn_add (p q : Solution d) : (p + q).turn = p + q.turn := by
  have hcross : p.cross q.turn = -p.cross q := by
    rw [cross, cross, x_turn, y_turn]
    ring
  ext
  · rw [x_turn, y_add, x_add, hcross, x_turn, y_turn]
    ring
  · rw [y_turn, x_add, y_add, hcross, x_turn, y_turn]
    ring

theorem x_add_assoc (p q r : Solution d) : (p + q + r).x = (p + (q + r)).x := by
  have hp := p.equation
  have hq := q.equation
  have hr := r.equation
  have hleft := one_add_ne_zero (p + q) r
  have hright := one_add_ne_zero p (q + r)
  have h1 := one_add_ne_zero p q
  have h2 := one_sub_ne_zero p q
  have h3 := one_add_ne_zero q r
  have h4 := one_sub_ne_zero q r
  rw [x_add (p + q) r, x_add p (q + r), div_eq_div_iff hleft hright, cross, cross, x_add, y_add, x_add, y_add]
  have hpq := denominators_eq p q
  have hrq := denominators_eq r q
  rw [cross_comm r q] at hrq
  field_simp
  rw [hpq, hrq]
  unfold cross
  linear_combination
    d * q.x * q.y * (q.x * q.y * (r.x ^ 3 * (p.y * q.y - p.x * q.x) + r.y ^ 3 * (p.x * q.y + p.y * q.x)) -
      r.x ^ 2 * r.y * (p.x * q.x ^ 3 + p.y * q.y ^ 3) + r.x * r.y ^ 2 * (p.x * q.y ^ 3 - p.y * q.x ^ 3)) * hp +
    d * q.x * q.y * (p.x * p.y * (r.x ^ 3 * (p.y * q.y - p.x * q.x) - r.y ^ 3 * (p.x * q.y + p.y * q.x)) +
      r.x ^ 2 * r.y * (p.x ^ 3 * q.x + p.y ^ 3 * q.y) - r.x * r.y ^ 2 * (p.x ^ 3 * q.y - p.y ^ 3 * q.x)) * hq -
    d * q.x * q.y * (q.x * q.y * (p.x ^ 3 * (q.y * r.y - q.x * r.x) + p.y ^ 3 * (q.x * r.y + q.y * r.x)) -
      p.x ^ 2 * p.y * (r.x * q.x ^ 3 + r.y * q.y ^ 3) + p.x * p.y ^ 2 * (r.x * q.y ^ 3 - r.y * q.x ^ 3)) * hr

theorem add_assoc' (p q r : Solution d) : p + q + r = p + (q + r) := by
  ext
  · exact x_add_assoc p q r
  -- The second coordinate is the first one of the turned sum.
  · have hturned : (p + q + r).turn.x = (p + (q + r)).turn.x := by
      rw [turn_add, turn_add, turn_add, x_add_assoc]
    exact hturned

instance instAddCommGroup : AddCommGroup (Solution d) where
  add_assoc := add_assoc'
  zero_add := zero_add'
  add_zero p := by rw [add_comm', zero_add']
  neg_add_cancel := neg_add_cancel'
  add_comm := add_comm'
  nsmul := nsmulRec
  zsmul := zsmulRec

end

end Solution

end Vouch.Edwards

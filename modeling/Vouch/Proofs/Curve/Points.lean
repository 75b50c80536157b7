import Mathlib.GroupTheory.OrderOfElement
import Mathlib.NumberTheory.LegendreSymbol.Basic
import Vouch.Proofs.Curve.Group
import Vouch.Proofs.Modular.Primality
import Vouch.Proofs.Modular.Residue

/-! The curve that points are computed on.

What is computed with points is what the group of the solutions says: sums (`add_point`) and
multiples (`multiple_point`), whose projective coordinates stand for solutions (`Represents`).
The generator is a solution of the prime order `order` (`addOrderOf_base`). -/
namespace Vouch.Edwards

open Vouch.Modular (residue residue_injective residue_add residue_sub residue_mul residue_neg residue_zero residue_one
  residue_power residue_inverse)

/-- The field of the coordinates. -/
abbrev Coordinate := ZMod fieldOrder

theorem two_lt_fieldOrder : 2 < fieldOrder := by decide

/-- The coefficient. -/
def coefficient : Coordinate :=
  residue d

theorem residue_d : residue d = coefficient := rfl

instance : NeZero (2 : Coordinate) where
  out := by
    intro htwo
    have hdvd : fieldOrder ∣ 2 := (ZMod.natCast_eq_zero_iff 2 fieldOrder).1 htwo
    exact absurd (Nat.le_of_dvd (by decide) hdvd) (by decide)

/-- By the criterion of Euler. -/
theorem not_isSquare_coefficient : ¬ IsSquare coefficient := by
  have hpower : Modular.power d (fieldOrder / 2) = -1 := by decide +kernel
  have hminus : coefficient ^ (fieldOrder / 2) = -1 := by
    rw [coefficient, ← residue_power, hpower, residue_neg, residue_one]
  have hne : (-1 : Coordinate) ≠ 1 := fun h => NeZero.ne (2 : Coordinate) (by linear_combination -h)
  intro hsquare
  have hzero : coefficient ≠ 0 := by
    intro h
    rw [h, zero_pow (by decide)] at hminus
    exact neg_ne_zero.2 one_ne_zero hminus.symm
  exact hne (hminus.symm.trans ((ZMod.euler_criterion fieldOrder hzero).1 hsquare))

instance : Fact (¬ IsSquare coefficient) := ⟨not_isSquare_coefficient⟩

/-- The points of the curve as a group. -/
abbrev Curve := Solution coefficient

/-- The residue in a class. -/
def element (a : Coordinate) : Felt :=
  ⟨a.val, ZMod.val_lt a⟩

theorem residue_element (a : Coordinate) : residue (element a) = a :=
  ZMod.natCast_zmod_val a

theorem element_residue (a : Felt) : element (residue a) = a :=
  residue_injective (residue_element _)

/-- The point with the coordinates of a solution. -/
def point (s : Curve) : Point :=
  ⟨element s.x, element s.y⟩

theorem point_injective : Function.Injective point := by
  intro s t h
  obtain ⟨hx, hy⟩ := Point.mk.inj h
  ext
  · rw [← residue_element s.x, hx, residue_element]
  · rw [← residue_element s.y, hy, residue_element]

theorem point_eq_iff {s : Curve} {p : Point} : point s = p ↔ s.x = residue p.x ∧ s.y = residue p.y := by
  constructor
  · rintro rfl
    exact ⟨(residue_element _).symm, (residue_element _).symm⟩
  · rintro ⟨hx, hy⟩
    rw [point, hx, hy, element_residue, element_residue]

theorem point_zero : point 0 = zero :=
  point_eq_iff.2 ⟨residue_zero.symm, residue_one.symm⟩

/-! ### Sums -/

theorem add_point (s t : Curve) : add (point s) (point t) = point (s + t) := by
  symm
  rw [point_eq_iff, Solution.x_add, Solution.y_add]
  simp only [add, point, residue_mul, residue_add, residue_sub, residue_inverse two_lt_fieldOrder, residue_one,
    residue_element, div_eq_mul_inv]
  exact ⟨rfl, rfl⟩

/-! ### Multiples -/

/-- The projective coordinates stand for a solution. -/
structure Represents (q : Projective) (s : Curve) : Prop where
  ne_zero : residue q.z ≠ 0
  x : residue q.x = s.x * residue q.z
  y : residue q.y = s.y * residue q.z

theorem represents_point (s : Curve) : Represents (.ofPoint (point s)) s where
  ne_zero := by
    rw [Projective.ofPoint, residue_one]
    exact one_ne_zero
  x := by rw [Projective.ofPoint, residue_one, mul_one]; exact residue_element _
  y := by rw [Projective.ofPoint, residue_one, mul_one]; exact residue_element _

theorem Represents.toPoint {q : Projective} {s : Curve} (h : Represents q s) : q.toPoint = point s := by
  symm
  rw [point_eq_iff]
  simp only [Projective.toPoint, residue_mul, residue_inverse two_lt_fieldOrder, h.x, h.y]
  rw [mul_inv_cancel_right₀ h.ne_zero, mul_inv_cancel_right₀ h.ne_zero]
  exact ⟨rfl, rfl⟩

theorem Represents.add {q r : Projective} {s t : Curve} (hq : Represents q s) (hr : Represents r t) :
    Represents (Projective.add q r) (s + t) := by
  have hplus := Solution.one_add_ne_zero s t
  have hminus := Solution.one_sub_ne_zero s t
  have hz : residue (Projective.add q r).z =
      (residue q.z * residue r.z) ^ 4 * ((1 + s.cross t) * (1 - s.cross t)) := by
    simp only [Projective.add, residue_mul, residue_add, residue_sub, hq.x, hq.y, hr.x, hr.y, Solution.cross,
      residue_d]
    ring
  refine ⟨?_, ?_, ?_⟩
  · rw [hz]
    exact mul_ne_zero (pow_ne_zero 4 (mul_ne_zero hq.ne_zero hr.ne_zero)) (mul_ne_zero hplus hminus)
  · rw [hz, Solution.x_add]
    field_simp
    simp only [Projective.add, residue_mul, residue_add, residue_sub, hq.x, hq.y, hr.x, hr.y, Solution.cross,
      residue_d]
    ring
  · rw [hz, Solution.y_add]
    field_simp
    simp only [Projective.add, residue_mul, residue_add, residue_sub, hq.x, hq.y, hr.x, hr.y, Solution.cross,
      residue_d]
    ring

theorem multiple_point (k : Nat) (s : Curve) : multiple k (point s) = point (k • s) := by
  have hzero : Represents (.ofPoint zero) 0 := by
    rw [← point_zero]
    exact represents_point 0
  have hpower := repeated_rel (M := Multiplicative Curve) (R := fun q m => Represents q m.toAdd)
    hzero (fun hq hr => hq.add hr) (represents_point s) k
  exact hpower.toPoint

/-! ### The generator -/

/-- The solution that the generator is. -/
def base : Curve where
  x := residue generator.x
  y := residue generator.y
  equation := by
    have hon : generator.x * generator.x + generator.y * generator.y =
        1 + d * (generator.x * generator.x) * (generator.y * generator.y) := by
      decide +kernel
    have hresidue := congrArg residue hon
    simp only [residue_add, residue_mul, residue_one, residue_d] at hresidue
    linear_combination hresidue

theorem point_base : point base = generator :=
  point_eq_iff.2 ⟨rfl, rfl⟩

theorem order_nsmul_base : order • base = 0 := by
  have hmultiple : multiple order generator = zero := by decide +kernel
  apply point_injective
  rw [← multiple_point, point_base, hmultiple, point_zero]

/-- **The generator has the order that is written down.** -/
theorem addOrderOf_base : addOrderOf base = order := by
  have hne : base ≠ 0 := by
    intro hbase
    have hgenerator : generator ≠ zero := by decide +kernel
    exact hgenerator (by rw [← point_base, hbase, point_zero])
  have : Fact order.Prime := ⟨Modular.prime_order⟩
  exact addOrderOf_eq_prime order_nsmul_base hne

end Vouch.Edwards

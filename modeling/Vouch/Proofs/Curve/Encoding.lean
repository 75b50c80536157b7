import Vouch.Proofs.Curve.Points

/-! Written points read back.

The points of the subgroup are read back from their 32 bytes (`decode?_encode_point`), and what is
read is always one of them (`exists_of_decode?`). -/
namespace Vouch.Edwards

open Vouch.Modular (residue residue_injective residue_add residue_sub residue_mul residue_neg residue_zero residue_one
  residue_power residue_inverse)

/-! ### Signs -/

theorem val_neg_felt {x : Felt} (hx : x.val ≠ 0) : (-x).val = fieldOrder - x.val := by
  have hlt : fieldOrder - x.val < fieldOrder := by omega
  rw [Fin.val_neg', Nat.mod_eq_of_lt hlt]

theorem isGreater_neg {x : Felt} (hx : x.val ≠ 0) : isGreater (-x) = !isGreater x := by
  have hneg := val_neg_felt hx
  have hlt := x.isLt
  have hback : (-(-x)).val = x.val := by
    rw [val_neg_felt (by omega), hneg]
    omega
  have hodd : fieldOrder % 2 = 1 := by decide
  rw [isGreater, isGreater, hback, hneg]
  by_cases h : fieldOrder - x.val < x.val
  · simp only [h, decide_true, Bool.not_true, decide_eq_false_iff_not]
    omega
  · simp only [h, decide_false, Bool.not_false, decide_eq_true_eq]
    omega

/-- Of two roots the sign tells which one was meant. -/
theorem choose_root {x root : Felt} (h : residue root * residue root = residue x * residue x) :
    (if isGreater root = isGreater x then root else -root) = x := by
  rcases mul_self_eq_mul_self_iff.1 h with hsame | hneg
  · obtain rfl := residue_injective hsame
    exact if_pos rfl
  · rw [← residue_neg] at hneg
    obtain rfl := residue_injective hneg
    have hback : -(-x) = x := residue_injective (by rw [residue_neg, residue_neg, neg_neg])
    by_cases hx : x.val = 0
    · have hzero : x = 0 := Fin.ext hx
      rw [hzero]
      decide
    · rw [isGreater_neg hx, if_neg (by simp), hback]

/-! ### Coordinates -/

theorem one_sub_coefficient_ne_zero (y : Coordinate) : 1 - coefficient * y * y ≠ 0 := by
  intro h
  have hone : coefficient * (y * y) = 1 := by linear_combination -h
  have hy : y ≠ 0 := by
    rintro rfl
    rw [mul_zero, mul_zero] at hone
    exact zero_ne_one hone
  refine not_isSquare_coefficient ⟨y⁻¹, ?_⟩
  rw [← mul_inv]
  exact eq_inv_of_mul_eq_one_left hone

theorem exists_root? {a : Felt} (h : IsSquare (residue a)) : ∃ x, root? a = some x := by
  have hpower : Modular.power (5 : Felt) (2 ^ 27 * ((fieldOrder - 1) / 2 ^ 28)) = -1 := by decide +kernel
  have hnonresidue : residue (5 : Felt) ^ (2 ^ 27 * ((fieldOrder - 1) / 2 ^ 28)) = -1 := by
    rw [← residue_power, hpower, residue_neg, residue_one]
  exact Modular.exists_root? (by decide) (by decide) hnonresidue h

/-- What `xOf?` takes the root of. -/
theorem residue_ratio (y : Felt) : residue ((1 - y * y) * Modular.inverse (1 - d * y * y)) =
    (1 - residue y * residue y) / (1 - coefficient * residue y * residue y) := by
  simp only [residue_mul, residue_sub, residue_one, residue_inverse two_lt_fieldOrder, residue_d, div_eq_mul_inv]

theorem equation_iff {x y : Coordinate} : x ^ 2 + y ^ 2 = 1 + coefficient * x ^ 2 * y ^ 2 ↔
    x * x = (1 - y * y) / (1 - coefficient * y * y) := by
  rw [eq_div_iff (one_sub_coefficient_ne_zero y)]
  constructor
  · intro h
    linear_combination h
  · intro h
    linear_combination h

/-- The coordinate that is found goes with `y`. -/
theorem equation_of_xOf? {x y : Felt} (h : xOf? y = some x) :
    residue x ^ 2 + residue y ^ 2 = 1 + coefficient * residue x ^ 2 * residue y ^ 2 := by
  have hroot := Modular.mul_self_of_root? h
  rw [equation_iff, ← residue_ratio, ← hroot, residue_mul]

theorem exists_xOf? (s : Curve) : ∃ x, xOf? (point s).y = some x ∧
    residue x * residue x = residue (point s).x * residue (point s).x := by
  have hx : residue (point s).x = s.x := residue_element s.x
  have hy : residue (point s).y = s.y := residue_element s.y
  have hratio := equation_iff.1 s.equation
  rw [← hy, ← residue_ratio] at hratio
  obtain ⟨x, hroot⟩ := exists_root? ⟨s.x, hratio.symm⟩
  refine ⟨x, hroot, ?_⟩
  rw [hx, hratio, ← Modular.mul_self_of_root? hroot, residue_mul]

/-! ### Bytes -/

theorem length_encode (p : Point) : (encode p).length = pointLength :=
  Bytes.length_toLittleEndian _ _

theorem fieldOrder_lt_sign : fieldOrder < 2 ^ signBit := by decide

/-- The integer that is written for a point. -/
theorem ofLittleEndian_encode (p : Point) :
    Bytes.ofLittleEndian (encode p) = p.y.val + (isGreater p.x).toNat * 2 ^ signBit := by
  have hy := p.y.isLt
  have hfield := fieldOrder_lt_sign
  have hsign : (isGreater p.x).toNat * 2 ^ signBit ≤ 2 ^ signBit := by
    refine Nat.le_trans (Nat.mul_le_mul_right _ (Bool.toNat_le _)) (Nat.le_of_eq (Nat.one_mul _))
  have hlength : 2 ^ signBit + 2 ^ signBit = 256 ^ pointLength := by decide
  exact Bytes.ofLittleEndian_toLittleEndian _ _ (by omega)

/-- The coordinate and the sign are apart. -/
theorem split_sign {y : Nat} (hy : y < fieldOrder) (greater : Bool) :
    (y + greater.toNat * 2 ^ signBit) % 2 ^ signBit = y ∧
      (y + greater.toNat * 2 ^ signBit).testBit signBit = greater := by
  have hlt : y < 2 ^ signBit := Nat.lt_trans hy fieldOrder_lt_sign
  have hdiv : (y + greater.toNat * 2 ^ signBit) / 2 ^ signBit = greater.toNat := by
    rw [Nat.add_mul_div_right _ _ (Nat.two_pow_pos _), Nat.div_eq_of_lt hlt, Nat.zero_add]
  refine ⟨by rw [Nat.add_mul_mod_self_right, Nat.mod_eq_of_lt hlt], ?_⟩
  rw [Nat.testBit_eq_decide_div_mod_eq, hdiv]
  cases greater <;> rfl

/-! ### The subgroup -/

theorem isInSubgroup_point {s : Curve} : isInSubgroup (point s) = true ↔ addOrderOf s ∣ order := by
  rw [isInSubgroup, multiple_point, beq_iff_eq, ← point_zero, addOrderOf_dvd_iff_nsmul_eq_zero]
  exact point_injective.eq_iff

/-- What is read: a reduced coordinate, the root that has the sign, and both of them in the subgroup. -/
theorem decode?_eq_some_iff {bytes : List UInt8} {p : Point} : decode? bytes = some p ↔
    bytes.length = pointLength ∧ ∃ y x : Felt, Bytes.ofLittleEndian bytes % 2 ^ signBit = y.val ∧ xOf? y = some x ∧
      p = ⟨if isGreater x = (Bytes.ofLittleEndian bytes).testBit signBit then x else -x, y⟩ ∧
      isInSubgroup p = true := by
  unfold decode?
  constructor
  · intro h
    split at h
    · rename_i hlength
      dsimp only at h
      split at h
      · rename_i hlt
        obtain ⟨x, hx, h⟩ := Option.bind_eq_some_iff.1 h
        obtain ⟨hsubgroup, h⟩ := Option.ite_none_right_eq_some.1 h
        cases h
        exact ⟨hlength, ⟨_, hlt⟩, x, rfl, hx, rfl, hsubgroup⟩
      · cases h
    · cases h
  · rintro ⟨hlength, y, x, hy, hx, rfl, hsubgroup⟩
    have hlt : Bytes.ofLittleEndian bytes % 2 ^ signBit < fieldOrder := hy ▸ y.isLt
    have hfelt : (⟨Bytes.ofLittleEndian bytes % 2 ^ signBit, hlt⟩ : Felt) = y := Fin.ext hy
    rw [if_pos hlength]
    dsimp only
    rw [dif_pos hlt, hfelt, hx]
    exact if_pos hsubgroup

/-- **The points of the subgroup are read back.** -/
theorem decode?_encode_point {s : Curve} (h : addOrderOf s ∣ order) : decode? (encode (point s)) = some (point s) := by
  obtain ⟨x, hx, hsquare⟩ := exists_xOf? s
  obtain ⟨hy, hsign⟩ := split_sign (point s).y.isLt (isGreater (point s).x)
  rw [← ofLittleEndian_encode] at hy hsign
  refine decode?_eq_some_iff.2 ⟨length_encode _, (point s).y, x, hy, hx, ?_, isInSubgroup_point.2 h⟩
  rw [hsign, choose_root hsquare]

/-- **What is read is a point of the subgroup.** -/
theorem exists_of_decode? {bytes : List UInt8} {p : Point} (h : decode? bytes = some p) :
    ∃ s : Curve, p = point s ∧ addOrderOf s ∣ order := by
  obtain ⟨-, y, x, -, hx, rfl, hsubgroup⟩ := decode?_eq_some_iff.1 h
  have hon := equation_of_xOf? hx
  generalize hchosen : (if isGreater x = (Bytes.ofLittleEndian bytes).testBit signBit then x else -x) = chosen at *
  have hsquare : residue chosen ^ 2 = residue x ^ 2 := by
    rw [← hchosen]
    split
    · rfl
    · rw [residue_neg, neg_sq]
  rw [← hsquare] at hon
  have hpoint : point ⟨residue chosen, residue y, hon⟩ = ⟨chosen, y⟩ := point_eq_iff.2 ⟨rfl, rfl⟩
  rw [← hpoint] at hsubgroup
  exact ⟨_, hpoint.symm, isInSubgroup_point.1 hsubgroup⟩

end Vouch.Edwards

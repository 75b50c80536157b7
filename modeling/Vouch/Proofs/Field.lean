import Vouch.Claim.Type
import Vouch.Field

/-! Small elements of the field.

The field has room for a hash and one bit more, and for each limb of an integer. What is that small is
the value of its element, and differs from other elements as integers differ. -/
namespace Vouch

namespace Field

theorem val_reduce {n : Nat} (h : n < fieldOrder) : (reduce n).val = n :=
  Nat.mod_eq_of_lt h

theorem reduce_inj {m n : Nat} (hm : m < fieldOrder) (hn : n < fieldOrder) :
    reduce m = reduce n ↔ m = n := by
  rw [Fin.ext_iff, val_reduce hm, val_reduce hn]

theorem reduce_add (m n : Nat) : reduce (m + n) = reduce m + reduce n :=
  Fin.ext (Nat.add_mod m n fieldOrder)

theorem reduce_mul (m n : Nat) : reduce (m * n) = reduce m * reduce n :=
  Fin.ext (Nat.mul_mod m n fieldOrder)

/-- A hash and one bit more do not wrap. -/
theorem two_pow_lt_fieldOrder {bits : Nat} (h : bits ≤ greatestPropertyWidth + 1) :
    2 ^ bits < fieldOrder :=
  calc 2 ^ bits ≤ 2 ^ (greatestPropertyWidth + 1) := Nat.pow_le_pow_right (by decide) h
    _ < fieldOrder := by decide

theorem lt_fieldOrder {n bits : Nat} (h : n < 2 ^ bits) (hbits : bits ≤ greatestPropertyWidth + 1) :
    n < fieldOrder :=
  Nat.lt_trans h (two_pow_lt_fieldOrder hbits)

theorem split_lt {n : Nat} (h : n < 2 ^ greatestIntegerWidth) :
    (split n).1 < 2 ^ limbBits ∧ (split n).2 < 2 ^ limbBits :=
  ⟨Nat.div_lt_of_lt_mul (Nat.pow_add 2 limbBits limbBits ▸ h), Nat.mod_lt _ (by decide)⟩

end Field

/-- An integer that is not of the greatest width leaves a byte free. -/
theorem ValidWidth.le_of_ne {width : Nat} (h : ValidWidth greatestIntegerWidth width)
    (hne : width ≠ greatestIntegerWidth) : width ≤ greatestPropertyWidth := by
  obtain ⟨-, hle, hbytes⟩ := h
  unfold greatestIntegerWidth at hle hne
  unfold greatestPropertyWidth
  omega

end Vouch

import Vouch.Error
import Vouch.Bytes
import Vouch.Modular
import Vouch.Pieces

/-! The field of the circuits, and integers as its elements.

Digests, signatures and circuits compute in the prime field whose order is that of the
pairing group. Integers enter it checked (`Field.ofNat`), an integer of 256 bits as two
limbs of 128 (`Field.join_split`), and bytes 31 at a time followed by their number, so
that texts which differ only in trailing zeros differ packed. -/
namespace Vouch

/-- The order of the pairing group. -/
def fieldOrder : Nat :=
  21888242871839275222246405745257275088548364400416034343698204186575808495617

instance : NeZero fieldOrder := ⟨by decide⟩

/-- An element of the field. -/
abbrev Felt := Fin fieldOrder

namespace Field

/-- The residue of an integer. -/
def reduce (n : Nat) : Felt :=
  Fin.ofNat fieldOrder n

/-- An integer as a field element, unless it would wrap. -/
def ofNat (n : Nat) : Result Felt :=
  if h : n < fieldOrder then .ok ⟨n, h⟩ else .error (.value (.notFieldElement n))

theorem ofNat_of_lt {n : Nat} (h : n < fieldOrder) : ofNat n = .ok ⟨n, h⟩ := by
  simp [ofNat, h]

theorem ofNat_eq_ok_iff {n : Nat} {a : Felt} : ofNat n = .ok a ↔ a.val = n := by
  constructor
  · intro h
    unfold ofNat at h
    split at h
    · exact congrArg Fin.val (Except.ok.inj h).symm
    · cases h
  · rintro rfl
    exact ofNat_of_lt a.isLt

/-! ### Limbs -/

/-- Bits of a limb of a wide integer. -/
def limbBits : Nat := 128

/-- The high and the low limb. -/
def split (n : Nat) : Nat × Nat :=
  (n / 2 ^ limbBits, n % 2 ^ limbBits)

def join (high low : Nat) : Nat :=
  high * 2 ^ limbBits + low

theorem join_split (n : Nat) : join (split n).1 (split n).2 = n := by
  simp only [join, split]
  rw [Nat.mul_comm]
  exact Nat.div_add_mod n _

/-- The greatest integer of that many bits. -/
def mask (bits : Nat) : Nat :=
  2 ^ bits - 1

/-! ### Bytes -/

/-- Bytes that fit an element with room to spare. -/
def packLength : Nat := 31

/-- Chunks of 31 bytes, most significant byte first, and the number of bytes. -/
def pack (bytes : List UInt8) : List Felt :=
  (pieces packLength (by decide) bytes).map (fun chunk => reduce (Bytes.ofBigEndian chunk)) ++
    [reduce bytes.length]

end Field

/-- A hash of field elements. -/
abbrev FieldHash := List Felt → Result Felt

end Vouch

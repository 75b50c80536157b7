import Vouch.Naturals

/-! Byte strings and the integers they write.

A byte string is a list of bytes. An integer is read from one in either order and
written in little-endian order at a fixed length; `ofLittleEndian_toLittleEndian`
says that the length decides which integers come back. -/
namespace Vouch.Bytes

/-- The integer whose most significant byte comes first. -/
def ofBigEndian (bytes : List UInt8) : Nat :=
  bytes.foldl (fun n b => 256 * n + b.toNat) 0

/-- The integer whose least significant byte comes first. -/
def ofLittleEndian : List UInt8 → Nat
  | [] => 0
  | b :: rest => b.toNat + 256 * ofLittleEndian rest

/-- The low `length` bytes of an integer, least significant first. -/
def toLittleEndian : (length : Nat) → Nat → List UInt8
  | 0, _ => []
  | k + 1, n => UInt8.ofNat n :: toLittleEndian k (n / 256)

/-- The low `length` bytes of an integer, most significant first. -/
def toBigEndian (length n : Nat) : List UInt8 :=
  (toLittleEndian length n).reverse

/-- The UTF-8 encoding of a text. -/
def utf8 (s : String) : List UInt8 :=
  s.toUTF8.data.toList

@[simp] theorem length_toLittleEndian (k n : Nat) : (toLittleEndian k n).length = k := by
  induction k generalizing n with
  | zero => rfl
  | succ k ih => simp [toLittleEndian, ih]

theorem ofLittleEndian_lt (bytes : List UInt8) : ofLittleEndian bytes < 256 ^ bytes.length := by
  induction bytes with
  | nil => simp [ofLittleEndian]
  | cons b rest ih =>
    have hb : b.toNat < 256 := b.toNat_lt
    simp only [ofLittleEndian, List.length_cons, Nat.pow_succ]
    omega

theorem ofLittleEndian_toLittleEndian (k n : Nat) (h : n < 256 ^ k) :
    ofLittleEndian (toLittleEndian k n) = n := by
  induction k generalizing n with
  | zero => simp at h; simp [toLittleEndian, ofLittleEndian, h]
  | succ k ih =>
    have hdiv : n / 256 < 256 ^ k := by
      rw [Nat.div_lt_iff_lt_mul (by decide)]
      rwa [Nat.pow_succ] at h
    simp only [toLittleEndian, ofLittleEndian, ih _ hdiv, UInt8.toNat_ofNat']
    omega

theorem toLittleEndian_ofLittleEndian (bytes : List UInt8) :
    toLittleEndian bytes.length (ofLittleEndian bytes) = bytes := by
  induction bytes with
  | nil => rfl
  | cons b rest ih =>
    have hb : b.toNat < 256 := b.toNat_lt
    have hhead : UInt8.ofNat (b.toNat + 256 * ofLittleEndian rest) = b := by
      apply UInt8.toNat_inj.1
      simp only [UInt8.toNat_ofNat']
      omega
    have htail : (b.toNat + 256 * ofLittleEndian rest) / 256 = ofLittleEndian rest := by omega
    simp only [List.length_cons, ofLittleEndian, toLittleEndian, hhead, htail, ih]

theorem utf8_injective {s t : String} (h : utf8 s = utf8 t) : s = t := by
  have hdata : s.toUTF8.data = t.toUTF8.data := Array.toList_inj.1 h
  have hbytes : s.toUTF8 = t.toUTF8 := by
    cases hs : s.toUTF8
    cases ht : t.toUTF8
    simp_all
  simpa [String.toByteArray_inj] using hbytes

end Vouch.Bytes

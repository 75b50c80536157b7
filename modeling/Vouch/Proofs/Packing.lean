import Vouch.Field
import Vouch.Proofs.Field

/-! Packed bytes, taken apart again.

A chunk of 31 bytes is an integer below the order of the field, so nothing wraps; which
zeros in front belong to a chunk is settled by its length. That of the last chunk follows
from the number of bytes, which stands at the end. So no two byte strings are packed
alike (`pack_injective`). -/
namespace Vouch

/-! ### Integers of bytes -/

namespace Bytes

theorem ofBigEndian_eq (bytes : List UInt8) : ofBigEndian bytes = ofLittleEndian bytes.reverse := by
  have hfold : ∀ bytes : List UInt8, bytes.foldr (fun b n => 256 * n + b.toNat) 0 = ofLittleEndian bytes := by
    intro bytes
    induction bytes with
    | nil => rfl
    | cons b rest ih => rw [List.foldr_cons, ih, ofLittleEndian, Nat.add_comm]
  rw [ofBigEndian, ← hfold, List.foldr_reverse]

theorem ofBigEndian_lt (bytes : List UInt8) : ofBigEndian bytes < 256 ^ bytes.length := by
  rw [ofBigEndian_eq, ← List.length_reverse]
  exact ofLittleEndian_lt _

/-- Bytes of one number write different integers. -/
theorem ofBigEndian_inj {a b : List UInt8} (hlength : a.length = b.length)
    (h : ofBigEndian a = ofBigEndian b) : a = b := by
  rw [ofBigEndian_eq, ofBigEndian_eq] at h
  have hreverse : a.reverse = b.reverse := by
    rw [← toLittleEndian_ofLittleEndian a.reverse, ← toLittleEndian_ofLittleEndian b.reverse, h,
      List.length_reverse, List.length_reverse, hlength]
  exact List.reverse_inj.1 hreverse

end Bytes

/-! ### Pieces of equally long lists -/

/-- Lists of one length have their pieces side by side, each as long as the other. -/
theorem eq_of_map_pieces_eq {α β : Type} {length : Nat} {positive : 0 < length} {f : List α → β}
    (hf : ∀ p q, p.length ≤ length → p.length = q.length → f p = f q → p = q) {xs ys : List α}
    (hlength : xs.length = ys.length)
    (h : (pieces length positive xs).map f = (pieces length positive ys).map f) : xs = ys := by
  fun_induction pieces length positive xs generalizing ys with
  | case1 => exact (List.length_eq_zero_iff.1 hlength.symm).symm
  | case2 x rest ih =>
    cases ys with
    | nil => cases hlength
    | cons y others =>
      rw [pieces, List.map_cons, List.map_cons] at h
      obtain ⟨htake, hdrop⟩ := List.cons.inj h
      have hfront := hf _ _ (List.length_take_le ..) (by rw [List.length_take, List.length_take, hlength]) htake
      have hback := ih (by rw [List.length_drop, List.length_drop, hlength]) hdrop
      rw [← List.take_append_drop length (x :: rest), hfront, hback, List.take_append_drop]

namespace Field

theorem pack_eq (bytes : List UInt8) :
    pack bytes = (pieces packLength (by decide) bytes).map (fun chunk => reduce (Bytes.ofBigEndian chunk)) ++
      [reduce bytes.length] := rfl

theorem length_pack (bytes : List UInt8) : (pack bytes).length = (bytes.length + 30) / 31 + 1 := by
  rw [pack, List.length_append, List.length_map, length_pieces]
  rfl

theorem getLast?_pack (bytes : List UInt8) : (pack bytes).getLast? = some (reduce bytes.length) :=
  List.getLast?_concat ..

theorem reduce_chunk_inj (a b : List UInt8) (ha : a.length ≤ packLength) (hlength : a.length = b.length)
    (h : reduce (Bytes.ofBigEndian a) = reduce (Bytes.ofBigEndian b)) : a = b := by
  have hsmall : ∀ bytes : List UInt8, bytes.length ≤ packLength → Bytes.ofBigEndian bytes < fieldOrder := by
    intro bytes hbytes
    calc Bytes.ofBigEndian bytes < 256 ^ bytes.length := Bytes.ofBigEndian_lt bytes
      _ ≤ 256 ^ packLength := Nat.pow_le_pow_right (by decide) hbytes
      _ < fieldOrder := by decide
  exact Bytes.ofBigEndian_inj hlength ((reduce_inj (hsmall a ha) (hsmall b (hlength ▸ ha))).1 h)

theorem eq_of_pack_eq {a b : List UInt8} (hlength : a.length = b.length) (h : pack a = pack b) : a = b :=
  eq_of_map_pieces_eq reduce_chunk_inj hlength (List.append_inj_left' h rfl)

/-- The number of bytes is written reduced, but numbers that it leaves alike take different numbers of
chunks. -/
theorem pack_injective : Function.Injective pack := by
  intro a b h
  have hcount := congrArg List.length h
  rw [length_pack, length_pack] at hcount
  have hlast : reduce a.length = reduce b.length := by
    rw [← Option.some_inj, ← getLast?_pack, ← getLast?_pack, h]
  have hmod : a.length % fieldOrder = b.length % fieldOrder := congrArg Fin.val hlast
  have hlength : a.length = b.length := by
    unfold fieldOrder at hmod
    omega
  exact eq_of_pack_eq hlength h

end Field

end Vouch

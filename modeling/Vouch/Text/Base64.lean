/-! Base64 with the standard alphabet and canonical padding.

Three bytes make four digits; one or two bytes left over make two or three digits
and the padding that fills the group. Reading accepts exactly what writing makes:
the padding is required, and the bits of the last digit that no byte uses are
zero. What is written reads back (`decode?_encode`). -/
namespace Vouch.Base64

/-- The digit of a six-bit value. -/
def digit (n : Nat) : Char :=
  let k := n % 64
  if k < 26 then Char.ofNat ('A'.toNat + k)
  else if k < 52 then Char.ofNat ('a'.toNat + (k - 26))
  else if k < 62 then Char.ofNat ('0'.toNat + (k - 52))
  else if k = 62 then '+'
  else '/'

def value? (c : Char) : Option Nat :=
  if 'A' ≤ c ∧ c ≤ 'Z' then some (c.toNat - 'A'.toNat)
  else if 'a' ≤ c ∧ c ≤ 'z' then some (c.toNat - 'a'.toNat + 26)
  else if '0' ≤ c ∧ c ≤ '9' then some (c.toNat - '0'.toNat + 52)
  else if c = '+' then some 62
  else if c = '/' then some 63
  else none

def encodeBytes : List UInt8 → List Char
  | [] => []
  | [a] => [digit (a.toNat / 4), digit (a.toNat * 16), '=', '=']
  | [a, b] => [digit (a.toNat / 4), digit (a.toNat * 16 + b.toNat / 16), digit (b.toNat * 4), '=']
  | a :: b :: c :: rest =>
    digit (a.toNat / 4) :: digit (a.toNat * 16 + b.toNat / 16) ::
      digit (b.toNat * 4 + c.toNat / 64) :: digit c.toNat :: encodeBytes rest

def encode (bytes : List UInt8) : String :=
  String.ofList (encodeBytes bytes)

def decodeChars? : List Char → Option (List UInt8)
  | [] => some []
  | [w, x, '=', '='] => do
    let w ← value? w
    let x ← value? x
    if x % 16 = 0 then some [UInt8.ofNat (w * 4 + x / 16)] else none
  | [w, x, y, '='] => do
    let w ← value? w
    let x ← value? x
    let y ← value? y
    if y % 4 = 0 then some [UInt8.ofNat (w * 4 + x / 16), UInt8.ofNat (x * 16 + y / 4)] else none
  | w :: x :: y :: z :: rest => do
    let w ← value? w
    let x ← value? x
    let y ← value? y
    let z ← value? z
    let bytes ← decodeChars? rest
    return UInt8.ofNat (w * 4 + x / 16) :: UInt8.ofNat (x * 16 + y / 4) :: UInt8.ofNat (y * 64 + z) ::
      bytes
  | _ => none

def decode? (s : String) : Option (List UInt8) :=
  decodeChars? s.toList

/-! ### Round trip -/

theorem digit_mod (n : Nat) : digit (n % 64) = digit n := by
  unfold digit
  rw [Nat.mod_mod]

theorem digit_ne_pad (n : Nat) : digit n ≠ '=' := by
  rw [← digit_mod]
  have h : ∀ k : Fin 64, digit k.val ≠ '=' := by decide
  exact h ⟨n % 64, Nat.mod_lt _ (by decide)⟩

theorem value?_digit (n : Nat) : value? (digit n) = some (n % 64) := by
  rw [← digit_mod]
  have h : ∀ k : Fin 64, value? (digit k.val) = some k.val := by decide
  exact h ⟨n % 64, Nat.mod_lt _ (by decide)⟩

theorem ofNat_eq {n : Nat} {b : UInt8} (h : n % 256 = b.toNat) : UInt8.ofNat n = b :=
  UInt8.toNat_inj.1 (by rw [UInt8.toNat_ofNat', h])

theorem decodeChars?_encodeBytes (bytes : List UInt8) : decodeChars? (encodeBytes bytes) = some bytes := by
  fun_induction encodeBytes bytes with
  | case1 => rfl
  | case2 a =>
    have ha := a.toNat_lt
    simp only [decodeChars?, value?_digit, Option.bind_eq_bind, Option.bind_some]
    rw [if_pos (by omega), ofNat_eq (b := a) (by omega)]
  | case3 a b =>
    have ha := a.toNat_lt
    have hb := b.toNat_lt
    rw [decodeChars?]
    · simp only [value?_digit, Option.bind_eq_bind, Option.bind_some]
      rw [if_pos (by omega), ofNat_eq (b := a) (by omega), ofNat_eq (b := b) (by omega)]
    · exact digit_ne_pad _
  | case4 a b c rest ih =>
    have ha := a.toNat_lt
    have hb := b.toNat_lt
    have hc := c.toNat_lt
    rw [decodeChars?]
    · simp only [value?_digit, ih, Option.bind_eq_bind, Option.bind_some]
      rw [ofNat_eq (b := a) (by omega), ofNat_eq (b := b) (by omega), ofNat_eq (b := c) (by omega)]
      rfl
    · intro _ h
      exact absurd h (digit_ne_pad _)
    · intro h
      exact absurd h (digit_ne_pad _)

theorem decode?_encode (bytes : List UInt8) : decode? (encode bytes) = some bytes := by
  rw [decode?, encode, String.toList_ofList, decodeChars?_encodeBytes]

end Vouch.Base64

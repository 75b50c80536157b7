/-! Bytes as lower-case hexadecimal text, two digits a byte. -/
namespace Vouch.Hex

def digit (n : Nat) : Char :=
  Nat.digitChar (n % 16)

def encode (bytes : List UInt8) : String :=
  String.ofList (bytes.flatMap fun b => [digit (b.toNat / 16), digit b.toNat])

/-- The value of a digit, in either case. -/
def digitValue? (c : Char) : Option Nat :=
  if '0' ≤ c ∧ c ≤ '9' then some (c.toNat - '0'.toNat)
  else if 'a' ≤ c ∧ c ≤ 'f' then some (c.toNat - 'a'.toNat + 10)
  else if 'A' ≤ c ∧ c ≤ 'F' then some (c.toNat - 'A'.toNat + 10)
  else none

def decodeChars? : List Char → Option (List UInt8)
  | [] => some []
  | [_] => none
  | high :: low :: rest => do
    let h ← digitValue? high
    let l ← digitValue? low
    let bytes ← decodeChars? rest
    return UInt8.ofNat (16 * h + l) :: bytes

def decode? (s : String) : Option (List UInt8) :=
  decodeChars? s.toList

theorem digitValue?_digit (n : Nat) : digitValue? (digit n) = some (n % 16) := by
  have h : ∀ k : Fin 16, digitValue? (Nat.digitChar k.val) = some k.val := by decide
  exact h ⟨n % 16, Nat.mod_lt _ (by decide)⟩

theorem decode?_encode (bytes : List UInt8) : decode? (encode bytes) = some bytes := by
  unfold decode? encode
  rw [String.toList_ofList]
  induction bytes with
  | nil => rfl
  | cons b rest ih =>
    have hb := b.toNat_lt
    have hbyte : UInt8.ofNat (16 * (b.toNat / 16 % 16) + b.toNat % 16) = b := by
      rw [show 16 * (b.toNat / 16 % 16) + b.toNat % 16 = b.toNat by omega, UInt8.ofNat_toNat]
    simp only [List.flatMap_cons, List.cons_append, List.nil_append, decodeChars?, digitValue?_digit, ih,
      Option.bind_eq_bind, Option.bind_some, hbyte]
    rfl

end Vouch.Hex

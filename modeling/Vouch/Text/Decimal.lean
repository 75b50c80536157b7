import Vouch.Naturals

/-! Integers as decimal text.

Integers of every size travel as decimal strings. Writing gives the digits without
a leading zero; reading takes ASCII digits only, at least one, and leading zeros
are allowed: `read?_toString` says that what is written reads back. -/
namespace Vouch.Decimal

/-- Nothing but ASCII digits, and at least one. -/
def isDigits (cs : List Char) : Bool :=
  !cs.isEmpty && cs.all Char.isDigit

def value (cs : List Char) : Nat :=
  Nat.ofDigitChars 10 cs 0

/-- A strictly decimal, unsigned integer: no sign, no space. -/
def read? (s : String) : Option Nat :=
  if isDigits s.toList then some (value s.toList) else none

/-- A decimal integer of at most 64 bits. -/
def read64? (s : String) : Option Nat :=
  (read? s).filter (· < 2 ^ 64)

theorem isDigits_toDigits (n : Nat) : isDigits (Nat.toDigits 10 n) = true := by
  simp only [isDigits, Bool.and_eq_true, Bool.not_eq_true', List.isEmpty_eq_false_iff, List.all_eq_true]
  exact ⟨Nat.toDigits_ne_nil, fun c hc => Nat.isDigit_of_mem_toDigits (by decide) (by decide) hc⟩

@[simp] theorem read?_toString (n : Nat) : read? (toString n) = some n := by
  simp [read?, value, isDigits_toDigits]

theorem read64?_toString (n : Nat) (h : n < 2 ^ 64) : read64? (toString n) = some n := by
  rw [read64?, read?_toString, Option.filter_some, if_pos (by simpa using h)]

end Vouch.Decimal

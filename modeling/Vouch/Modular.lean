import Vouch.Naturals
import Vouch.Repeated

/-! Powers, inverses and square roots modulo a prime.

The residues are `Fin n`, whose sums and products are reduced already. The inverse is
the power by `n - 2`, so that of zero is zero. A square root is built up from the odd
part of `n - 1` and is given only if its square is right, so what `root?` returns is a
root whether the modulus is prime or not. -/
namespace Vouch.Modular

variable {n : Nat} [NeZero n]

/-- The `k`-th power. -/
def power (a : Fin n) (k : Nat) : Fin n :=
  repeated (· * ·) 1 k a

def inverse (a : Fin n) : Fin n :=
  power a (n - 2)

/-- One pass over the powers of two in `n - 1`. Throughout `x * x = a * rest`; the order of
`rest` divides `2 ^ k`, and that of `unit` is `2 ^ (k + 1)`. -/
def refine : (k : Nat) → (x rest unit : Fin n) → Fin n
  | 0, x, _, _ => x
  | k + 1, x, rest, unit =>
    let square := unit * unit
    if power rest (2 ^ k) = 1 then refine k x rest square
    else refine k (x * unit) (rest * square) square

/-- A square root, where `n - 1 = 2 ^ twos * odd` and `nonresidue` has none. -/
def root? (twos odd : Nat) (nonresidue a : Fin n) : Option (Fin n) :=
  let x := refine (twos - 1) (power a ((odd + 1) / 2)) (power a odd) (power nonresidue odd)
  if x * x = a then some x else none

theorem mul_self_of_root? {twos odd : Nat} {nonresidue a x : Fin n}
    (h : root? twos odd nonresidue a = some x) : x * x = a := by
  unfold root? at h
  dsimp only at h
  split at h
  · rename_i hx
    cases h
    exact hx
  · cases h

end Vouch.Modular

/-! A stream of pseudorandom numbers from a shift register.

The register holds 80 bits and feeds six of them back. Its output is taken in pairs of
which the first bit says whether the second one counts. The numbers drawn from it are
constants that anybody can derive again, since the register starts from the
parameters that the constants are for. -/
namespace Vouch.Poseidon

/-- The register: its 16 oldest bits and the 64 that follow, each with the oldest on top. -/
structure Grain where
  head : UInt16
  tail : UInt64
deriving DecidableEq, Repr

namespace Grain

/-- The bit that enters next. -/
def feedback (g : Grain) : UInt64 :=
  let h := g.head.toUInt64
  let t := g.tail
  (h >>> 15 ^^^ h >>> 2 ^^^ t >>> 56 ^^^ t >>> 41 ^^^ t >>> 28 ^^^ t >>> 17) &&& 1

def shift (g : Grain) (bit : UInt64) : Grain :=
  ⟨g.head <<< 1 ||| (g.tail >>> 63).toUInt16, g.tail <<< 1 ||| bit⟩

def next (g : Grain) : Grain :=
  g.shift g.feedback

/-- The bit that entered last. -/
def output (g : Grain) : UInt64 :=
  g.tail &&& 1

/-- Shifts in an integer, most significant bit first. -/
def load (g : Grain) (width n : Nat) : Grain :=
  (List.range width).reverse.foldl (fun g i => g.shift (if n.testBit i then 1 else 0)) g

/-- The register after its first outputs, which are discarded. -/
def warm : (steps : Nat) → Grain → Grain
  | 0, g => g
  | steps + 1, g => warm steps g.next

/-! ### Numbers -/

/-- Appends bits to an integer; `pairs` bounds how many pairs of outputs are looked at. -/
def append : (pairs bits n : Nat) → Grain → Nat × Grain
  | 0, _, n, g => (n, g)
  | _, 0, n, g => (n, g)
  | pairs + 1, bits + 1, n, g =>
    let first := g.next
    let second := first.next
    if first.output = 1 then append pairs bits (2 * n + second.output.toNat) second
    else append pairs (bits + 1) n second

/-- An integer of that many bits. Half of the pairs count, so that the bound is out of reach. -/
def draw (bits : Nat) (g : Grain) : Nat × Grain :=
  append (64 * bits) bits 0 g

/-- An integer below a bound, of at most so many drawn. -/
def drawBelow (bits bound : Nat) : (tries : Nat) → Grain → Nat × Grain
  | 0, g => (0, g)
  | tries + 1, g =>
    let (n, g) := g.draw bits
    if n < bound then (n, g) else drawBelow bits bound tries g

/-- As many integers as asked for, drawn one after the other. -/
def drawMany (one : Grain → Nat × Grain) : (count : Nat) → Grain → List Nat × Grain
  | 0, g => ([], g)
  | count + 1, g =>
    let (n, g) := one g
    let (rest, g) := drawMany one count g
    (n :: rest, g)

end Grain

end Vouch.Poseidon

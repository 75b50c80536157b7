import Vouch.Field
import Vouch.Poseidon.Grain

/-! The constants of the Poseidon permutations.

There is one permutation for each number of inputs from one to twelve; its state has
one element more. Its round constants and its mixing matrix, a Cauchy matrix, come out
of the register that is loaded with the field size, the state size and the numbers of
rounds. -/
namespace Vouch.Poseidon

/-- Full rounds, half of them before and half of them after the partial ones. -/
def fullRounds : Nat := 8

/-- How many partial rounds there are for one input, for two, and so on. -/
def partialRounds : List Nat := [56, 57, 56, 60, 60, 63, 64, 63, 60, 66, 60, 65]

/-- The most inputs of one permutation. -/
def greatestArity : Nat := 12

/-- Bits of a field element. -/
def elementBits : Nat := 254

structure Parameters where
  /-- The constants of the full rounds at the beginning, of the partial rounds, and of the full
  rounds at the end, a row for each round. -/
  opening : List (List Felt)
  middle : List (List Felt)
  closing : List (List Felt)
  matrix : List (List Felt)

namespace Parameters

/-- The register for a state size and a number of partial rounds: a prime field and the fifth
power as substitution, then the sizes, and ones. -/
def register (size rounds : Nat) : Grain :=
  let fields := [(2, 1), (4, 0), (12, elementBits), (12, size), (10, fullRounds), (10, rounds),
    (30, 2 ^ 30 - 1)]
  (fields.foldl (fun (g : Grain) (width, n) => g.load width n) ⟨0, 0⟩).warm 160

/-- The entries are the inverses of the sums. -/
def cauchy (xs ys : List Felt) : List (List Felt) :=
  xs.map fun x => ys.map fun y => Modular.inverse (x + y)

/-- The constants for a state size. Round constants are drawn below the order of the field, the
seeds of the matrix are reduced. -/
def derive (size rounds : Nat) (positive : 0 < size) : Parameters :=
  let (constants, g) :=
    (register size rounds).drawMany (Grain.drawBelow elementBits fieldOrder 64)
      ((fullRounds + rounds) * size)
  let (seeds, _) := g.drawMany (Grain.draw elementBits) (2 * size)
  let table := pieces size positive (constants.map Field.reduce)
  let seeds := seeds.map Field.reduce
  { opening := table.take (fullRounds / 2)
    middle := (table.drop (fullRounds / 2)).take rounds
    closing := table.drop (fullRounds / 2 + rounds)
    matrix := cauchy (seeds.take size) (seeds.drop size) }

/-- The constants for one input, for two, and so on, derived where they are first needed. -/
def table : List (Thunk Parameters) :=
  partialRounds.zipIdx.map fun (rounds, i) => .mk fun _ => derive (i + 2) rounds (Nat.succ_pos _)

/-- The constants for a number of inputs, if there is a permutation for it. -/
def ofArity? (inputs : Nat) : Option Parameters :=
  match inputs with
  | 0 => none
  | k + 1 => (table[k]?).map Thunk.get

end Parameters

end Vouch.Poseidon

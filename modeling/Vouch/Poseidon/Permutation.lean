import Vouch.Poseidon.Parameters

/-! The Poseidon permutation.

A round adds its constants, raises elements to the fifth power, all of them or the
first only, and multiplies the state by the matrix. A digest of up to twelve inputs is
the first element of the permuted state that starts with a zero. -/
namespace Vouch.Poseidon

def fifth (x : Felt) : Felt :=
  let square := x * x
  square * square * x

def dot : List Felt → List Felt → Felt
  | a :: as, b :: bs => a * b + dot as bs
  | _, _ => 0

def mix (matrix : List (List Felt)) (state : List Felt) : List Felt :=
  matrix.map (dot · state)

def fullRound (matrix : List (List Felt)) (state constants : List Felt) : List Felt :=
  mix matrix ((List.zipWith (· + ·) state constants).map fifth)

def partialRound (matrix : List (List Felt)) (state constants : List Felt) : List Felt :=
  match List.zipWith (· + ·) state constants with
  | [] => []
  | x :: rest => mix matrix (fifth x :: rest)

def run (p : Parameters) (state : List Felt) : List Felt :=
  let state := p.opening.foldl (fullRound p.matrix) state
  let state := p.middle.foldl (partialRound p.matrix) state
  p.closing.foldl (fullRound p.matrix) state

/-- The digest of one to twelve inputs. -/
def permute (inputs : List Felt) : Result Felt :=
  match Parameters.ofArity? inputs.length with
  | none => .error (.internal (.permutationArity inputs.length))
  | some p => .ok ((run p (0 :: inputs)).headD 0)

end Vouch.Poseidon

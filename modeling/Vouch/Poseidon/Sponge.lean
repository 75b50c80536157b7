import Vouch.Poseidon.Permutation

/-! Digests of any number of elements.

The first twelve elements go into one permutation. While elements are left, the digest
so far and the next eleven go into another. The chain is defined for any permutation
of one to twelve inputs. -/
namespace Vouch.Poseidon

/-- How many elements go into a permutation beside the digest so far. -/
def chainedArity : Nat := greatestArity - 1

/-- The digest of at least one element. -/
def chain (permute : List Felt → Result Felt) (elements : List Felt) : Result Felt :=
  if elements.isEmpty then .error (.internal .nothingToHash)
  else do
    let first ← permute (elements.take greatestArity)
    (pieces chainedArity (by decide) (elements.drop greatestArity)).foldlM
      (fun digest piece => permute (digest :: piece)) first

def hash : FieldHash :=
  chain permute

end Vouch.Poseidon

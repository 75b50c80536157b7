import Mathlib.Algebra.Order.Floor.Div
import Vouch.Proofs.Poseidon.Chain

/-! What a chain takes in.

The digest of a list runs one permutation, and another one for every eleven elements beyond
the twelfth, what is left over in the end included. Each gets between one and twelve inputs,
and without the digests that they go on from the inputs are the list itself (`chain_absorbs`).

What is run is read off a record. The chain is written for steps of any kind (`chainIn`), of
which `chain` is one case; where the steps put down what they are given (`recorded`), a run
puts down `inputs`, whether or not it gets to its end (`record_eq`). -/
namespace Vouch.Poseidon

variable {permute : List Felt → Result Felt} {xs : List Felt} {d : Felt}

/-! ### Runs with a record -/

/-- The chain over steps of any kind that can fail. -/
def chainIn {m : Type → Type} [Monad m] [MonadExceptOf Error m] (permute : List Felt → m Felt)
    (elements : List Felt) : m Felt :=
  if elements.isEmpty then throw (.internal .nothingToHash)
  else do
    let first ← permute (elements.take greatestArity)
    (behind elements).foldlM (fun digest piece => permute (digest :: piece)) first

theorem chainIn_eq (permute : List Felt → Result Felt) : chainIn permute = chain permute := rfl

/-- Steps with a record of what was permuted, which a failure leaves as it is. -/
abbrev Recorder := ExceptT Error (StateM (List (List Felt)))

/-- Puts the input down and permutes it. -/
def recorded (permute : List Felt → Result Felt) (block : List Felt) : Recorder Felt := do
  modify (· ++ [block])
  liftExcept (permute block)

/-- What a chain comes to, and what it has permuted on the way. -/
def record (permute : List Felt → Result Felt) (xs : List Felt) : Result Felt × List (List Felt) :=
  (chainIn (recorded permute) xs).run.run []

theorem run_recorded_bind (block : List Felt) (next : Felt → Recorder Felt) (log : List (List Felt)) :
    (recorded permute block >>= next).run.run log =
      match permute block with
      | .ok digest => (next digest).run.run (log ++ [block])
      | .error e => (.error e, log ++ [block]) := by
  simp only [recorded]
  cases permute block <;> rfl

theorem run_absorbed (ps : List (List Felt)) (a : Felt) (log : List (List Felt)) :
    (ps.foldlM (fun digest piece => recorded permute (digest :: piece)) a).run.run log =
      (absorb permute a ps, log ++ absorbed permute a ps) := by
  induction ps generalizing a log with
  | nil => exact congrArg (Prod.mk _) (List.append_nil log).symm
  | cons p ps ih =>
    rw [List.foldlM_cons, run_recorded_bind, absorb, List.foldlM_cons, absorbed, followed]
    cases permute (a :: p) with
    | ok next =>
      refine (ih next _).trans ?_
      rw [List.append_assoc, List.singleton_append]
      rfl
    | error e => rfl

/-- The record of a chain is that of its inputs. -/
theorem record_eq (permute : List Felt → Result Felt) (xs : List Felt) :
    record permute xs = (chain permute xs, inputs permute xs) := by
  rw [← chainIn_eq]
  unfold record chainIn inputs
  split
  · rfl
  · rw [run_recorded_bind, followed]
    cases permute (xs.take greatestArity) with
    | ok first => exact run_absorbed (behind xs) first _
    | error e => rfl

/-! ### Inputs -/

theorem exists_piece_of_mem_absorbed {ps : List (List Felt)} {a : Felt} {block : List Felt}
    (h : block ∈ absorbed permute a ps) : ∃ b, ∃ p ∈ ps, block = b :: p := by
  induction ps generalizing a with
  | nil => cases h
  | cons p ps ih =>
    rw [absorbed, followed] at h
    rcases List.mem_cons.1 h with rfl | h
    · exact ⟨a, p, List.mem_cons_self .., rfl⟩
    · split at h
      · obtain ⟨b, q, hq, rfl⟩ := ih h
        exact ⟨b, q, List.mem_cons_of_mem _ hq, rfl⟩
      · cases h

/-- Every permutation gets between one and twelve inputs, even if an earlier one has failed. -/
theorem isBlock_of_mem_inputs {block : List Felt} (h : block ∈ inputs permute xs) : IsBlock block := by
  unfold inputs at h
  split at h
  · cases h
  · rename_i hne
    rw [followed] at h
    rcases List.mem_cons.1 h with rfl | h
    · exact isBlock_take fun hnil => hne (List.isEmpty_iff.2 hnil)
    · split at h
      · obtain ⟨b, p, hp, rfl⟩ := exists_piece_of_mem_absorbed h
        exact isBlock_cons (length_le_of_mem_behind hp) b
      · cases h

/-- Pieces are all there is in the inputs beside the digests. -/
theorem map_tail_absorbed {ps : List (List Felt)} {a : Felt} (h : absorb permute a ps = .ok d) :
    (absorbed permute a ps).map List.tail = ps := by
  induction ps generalizing a with
  | nil => rfl
  | cons p ps ih =>
    obtain ⟨next, hnext, h⟩ := absorb_cons_eq_ok_iff.1 h
    rw [absorbed, followed_eq hnext, List.map_cons, ih h, List.tail_cons]

/-- The second input begins with the digest of the first one. -/
def GoesOn (permute : List Felt → Result Felt) (block next : List Felt) : Prop :=
  ∃ digest, permute block = .ok digest ∧ next.head? = some digest

theorem goesOn_absorbed {ps : List (List Felt)} {block : List Felt} {a : Felt}
    (hblock : permute block = .ok a) (h : absorb permute a ps = .ok d) :
    (block :: absorbed permute a ps).IsChain (GoesOn permute) ∧
      ∃ last, (block :: absorbed permute a ps).getLast? = some last ∧ permute last = .ok d := by
  induction ps generalizing block a with
  | nil =>
    obtain rfl := Except.ok.inj h
    exact ⟨.singleton _, block, rfl, hblock⟩
  | cons p ps ih =>
    obtain ⟨next, hnext, h⟩ := absorb_cons_eq_ok_iff.1 h
    obtain ⟨hchain, last, hlast, hd⟩ := ih hnext h
    rw [absorbed, followed_eq hnext]
    exact ⟨.cons_cons ⟨a, hblock, rfl⟩ hchain, last, hlast, hd⟩

/-! ### Lists that are taken in -/

/-- What inputs hold beside the digests that they go on from. -/
def fresh : List (List Felt) → List Felt
  | [] => []
  | first :: rest => first ++ rest.flatMap List.tail

/-- The inputs by which a list is taken in, and the digest that they lead to. -/
structure Absorbs (permute : List Felt → Result Felt) (xs : List Felt) (blocks : List (List Felt))
    (d : Felt) : Prop where
  isBlock : ∀ block ∈ blocks, IsBlock block
  length : blocks.length = 1 + (xs.length - greatestArity) ⌈/⌉ chainedArity
  /-- Every element goes in once, and in order. -/
  fresh : fresh blocks = xs
  linked : blocks.IsChain (GoesOn permute)
  last : ∃ block, blocks.getLast? = some block ∧ permute block = .ok d

theorem length_behind (xs : List Felt) :
    (behind xs).length = (xs.length - greatestArity) ⌈/⌉ chainedArity := by
  rw [behind, length_pieces, List.length_drop, Nat.ceilDiv_eq_add_pred_div,
    Nat.add_sub_assoc chainedArity_pos]

theorem absorbs_inputs (h : chain permute xs = .ok d) : Absorbs permute xs (inputs permute xs) d := by
  obtain ⟨hne, first, hfirst, h⟩ := chain_eq_ok_iff.1 h
  have htails := map_tail_absorbed h
  have hcount : (absorbed permute first (behind xs)).length = (behind xs).length := by
    simpa using congrArg List.length htails
  obtain ⟨hlinked, hlast⟩ := goesOn_absorbed hfirst h
  refine ⟨fun _ => isBlock_of_mem_inputs, ?_, ?_, ?_, ?_⟩
  all_goals rw [inputs_eq hne hfirst]
  · rw [List.length_cons, Nat.add_comm, hcount, length_behind]
  · rw [fresh, List.flatMap_def, htails, take_append_behind]
  · exact hlinked
  · exact hlast

/-- What is behind more than twelve elements, from the digest of the first twelve on. -/
theorem chain_cons (first : Felt) (hlength : greatestArity < xs.length) :
    chain permute (first :: xs.drop greatestArity) = absorb permute first (behind xs) := by
  have hne : xs.drop greatestArity ≠ [] := by
    rw [Ne, List.drop_eq_nil_iff]
    omega
  obtain ⟨x, rest, hrest⟩ := List.exists_cons_of_ne_nil hne
  have hpieces : behind xs =
      (x :: rest).take chainedArity :: pieces chainedArity chainedArity_pos ((x :: rest).drop chainedArity) := by
    rw [behind, hrest, pieces]
  rw [hpieces, hrest]
  rfl

/-- **A chain takes in every list but the empty one**: in one permutation, and another for every
eleven elements beyond the twelfth, each element once and in order. The first twelve elements can be
replaced by their digest as long as there are more. -/
theorem chain_absorbs (hpermute : ∀ block, IsBlock block → ∃ d, permute block = .ok d) (xs : List Felt) :
    ((∃ e, chain permute xs = .error e) ↔ xs = []) ∧
      (xs ≠ [] → ∃ d blocks, record permute xs = (.ok d, blocks) ∧ chain permute xs = .ok d ∧
        Absorbs permute xs blocks d) ∧
      (greatestArity < xs.length → chain permute xs = do
        let first ← permute (xs.take greatestArity)
        chain permute (first :: xs.drop greatestArity)) := by
  refine ⟨⟨fun ⟨e, he⟩ => ?_, ?_⟩, fun hne => ?_, fun hlength => ?_⟩
  · by_contra hne
    obtain ⟨d, hd⟩ := exists_chain hpermute hne
    exact nomatch hd.symm.trans he
  · rintro rfl
    exact ⟨_, rfl⟩
  · obtain ⟨d, hd⟩ := exists_chain hpermute hne
    exact ⟨d, inputs permute xs, by rw [record_eq, hd], hd, absorbs_inputs hd⟩
  · have hne : ¬ xs.isEmpty = true := by
      rw [List.isEmpty_iff]
      rintro rfl
      cases hlength
    rw [chain, if_neg hne]
    refine congrArg (permute (xs.take greatestArity) >>= ·) (funext fun first => ?_)
    exact (chain_cons first hlength).symm

/-- As many elements as two permutations take in. -/
def fullElements : List Felt :=
  (List.range 23).map Field.reduce

/-- A list that fills its last input has no empty one behind it. -/
theorem chain_absorbs_full :
    (∃ d blocks, record Poseidon.permute fullElements = (.ok d, blocks) ∧
      Absorbs Poseidon.permute fullElements blocks d ∧ blocks.length = 2) ∧
      chain Poseidon.permute fullElements =
        Poseidon.permute (fullElements.take greatestArity) >>= fun first =>
          chain Poseidon.permute (first :: fullElements.drop greatestArity) := by
  have hlength : fullElements.length = 23 := by rw [fullElements, List.length_map, List.length_range]
  have hne : fullElements ≠ [] := List.ne_nil_of_length_pos (hlength ▸ by decide)
  obtain ⟨-, habsorbs, hshorter⟩ := chain_absorbs (fun _ => exists_permute) fullElements
  obtain ⟨d, blocks, hrecord, -, h⟩ := habsorbs hne
  have hcount : blocks.length = 1 + (23 - greatestArity) ⌈/⌉ chainedArity := hlength ▸ h.length
  exact ⟨⟨d, blocks, hrecord, h, hcount.trans (by decide)⟩, hshorter (hlength ▸ by decide)⟩

end Vouch.Poseidon

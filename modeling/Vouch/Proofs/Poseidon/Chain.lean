import Mathlib.Data.List.Basic
import Vouch.Poseidon.Sponge

/-! Lists that share a digest.

A chain alone does not keep lists apart: a list has the digest of the shorter one in which
the digest of its first twelve elements stands in their place. Lists of one length have
different digests unless the permutation takes two different inputs to one output
(`eq_of_chain_eq`), and so have lists of any lengths that end differently
(`getLast?_eq_of_chain_eq`).

The permutation may be any function. That it takes some two inputs to one output is then no
surprise, as there are more inputs than outputs; what counts is that such a pair is among
the inputs that it gets on the way to the two digests (`inputs`). -/
namespace Vouch.Poseidon

variable {permute : List Felt → Result Felt} {xs ys : List Felt} {d : Felt}

/-! ### What is permuted -/

/-- A list that one permutation takes in. -/
def IsBlock (block : List Felt) : Prop :=
  block ≠ [] ∧ block.length ≤ greatestArity

theorem chainedArity_pos : 0 < chainedArity := by decide

/-- What is left behind the first block, in pieces. -/
def behind (xs : List Felt) : List (List Felt) :=
  pieces chainedArity chainedArity_pos (xs.drop greatestArity)

/-- The digest that more pieces lead to. -/
def absorb (permute : List Felt → Result Felt) (digest : Felt) (ps : List (List Felt)) : Result Felt :=
  ps.foldlM (fun digest piece => permute (digest :: piece)) digest

/-- An input, and the inputs that its output goes into, if it has one. -/
def followed (permute : List Felt → Result Felt) (block : List Felt)
    (next : Felt → List (List Felt)) : List (List Felt) :=
  block ::
    match permute block with
    | .ok digest => next digest
    | .error _ => []

/-- The inputs by which pieces are absorbed. -/
def absorbed (permute : List Felt → Result Felt) (digest : Felt) : List (List Felt) → List (List Felt)
  | [] => []
  | p :: ps => followed permute (digest :: p) fun digest => absorbed permute digest ps

/-- The inputs of the permutations that the digest of a list is made with, in order. -/
def inputs (permute : List Felt → Result Felt) (xs : List Felt) : List (List Felt) :=
  if xs.isEmpty then []
  else followed permute (xs.take greatestArity) fun first => absorbed permute first (behind xs)

theorem followed_eq {block : List Felt} {next : Felt → List (List Felt)} (h : permute block = .ok d) :
    followed permute block next = block :: next d := by
  rw [followed, h]

theorem chain_eq_ok_iff : chain permute xs = .ok d ↔
    xs ≠ [] ∧ ∃ first, permute (xs.take greatestArity) = .ok first ∧
      absorb permute first (behind xs) = .ok d := by
  unfold chain
  split
  · rename_i h
    exact iff_of_false (fun hd => nomatch hd) fun hd => hd.1 (List.isEmpty_iff.1 h)
  · rename_i h
    have hne : xs ≠ [] := fun hnil => h (List.isEmpty_iff.2 hnil)
    rw [Result.bind_eq_ok_iff, and_iff_right hne]
    rfl

theorem absorb_cons_eq_ok_iff {a : Felt} {p : List Felt} {ps : List (List Felt)} :
    absorb permute a (p :: ps) = .ok d ↔
      ∃ next, permute (a :: p) = .ok next ∧ absorb permute next ps = .ok d := by
  rw [absorb, List.foldlM_cons, Result.bind_eq_ok_iff]
  rfl

theorem inputs_eq {first : Felt} (hne : xs ≠ []) (h : permute (xs.take greatestArity) = .ok first) :
    inputs permute xs = xs.take greatestArity :: absorbed permute first (behind xs) := by
  rw [inputs, if_neg (mt List.isEmpty_iff.1 hne), followed_eq h]

theorem take_append_behind (xs : List Felt) :
    xs.take greatestArity ++ (behind xs).flatten = xs := by
  rw [behind, flatten_pieces, List.take_append_drop]

/-! ### Inputs with one output -/

/-- Two different inputs with one output, the first out of one list and the second out of another. -/
def Collision (permute : List Felt → Result Felt) (as bs : List (List Felt)) : Prop :=
  ∃ a ∈ as, ∃ b ∈ bs, a ≠ b ∧ IsBlock a ∧ IsBlock b ∧ ∃ d, permute a = .ok d ∧ permute b = .ok d

variable {as bs : List (List Felt)}

theorem eq_of_permute_eq (hno : ¬ Collision permute as bs) {a b : List Felt} (ha : a ∈ as) (hb : b ∈ bs)
    (hablock : IsBlock a) (hbblock : IsBlock b) (hpa : permute a = .ok d) (hpb : permute b = .ok d) :
    a = b :=
  Classical.byContradiction fun hne => hno ⟨a, ha, b, hb, hne, hablock, hbblock, d, hpa, hpb⟩

theorem isBlock_take (h : xs ≠ []) : IsBlock (xs.take greatestArity) := by
  refine ⟨fun hnil => ?_, List.length_take_le ..⟩
  rcases List.take_eq_nil_iff.1 hnil with harity | hnil
  · exact absurd harity (by decide)
  · exact h hnil

theorem isBlock_cons {piece : List Felt} (h : piece.length ≤ chainedArity) (digest : Felt) :
    IsBlock (digest :: piece) :=
  ⟨List.cons_ne_nil _ _, Nat.succ_le_succ h⟩

theorem length_le_of_mem_behind {piece : List Felt} (h : piece ∈ behind xs) :
    piece.length ≤ chainedArity :=
  length_le_of_mem_pieces h

/-! ### Lists of one length -/

/-- From the last pieces to the first: the digests that equal pieces are absorbed into are equal. -/
theorem eq_of_absorb_eq (hno : ¬ Collision permute as bs) {ps qs : List (List Felt)}
    (hps : ∀ p ∈ ps, p.length ≤ chainedArity) (hqs : ∀ q ∈ qs, q.length ≤ chainedArity)
    (hlength : ps.length = qs.length) {a b : Felt} (has : absorbed permute a ps ⊆ as)
    (hbs : absorbed permute b qs ⊆ bs) (ha : absorb permute a ps = .ok d)
    (hb : absorb permute b qs = .ok d) : a = b ∧ ps = qs := by
  induction ps generalizing qs a b with
  | nil =>
    obtain rfl := List.length_eq_zero_iff.1 hlength.symm
    exact ⟨(Except.ok.inj ha).trans (Except.ok.inj hb).symm, rfl⟩
  | cons p ps ih =>
    cases qs with
    | nil => cases hlength
    | cons q qs =>
      obtain ⟨hp, hps⟩ := List.forall_mem_cons.1 hps
      obtain ⟨hq, hqs⟩ := List.forall_mem_cons.1 hqs
      obtain ⟨a', hpa, ha⟩ := absorb_cons_eq_ok_iff.1 ha
      obtain ⟨b', hqb, hb⟩ := absorb_cons_eq_ok_iff.1 hb
      rw [absorbed, followed_eq hpa] at has
      rw [absorbed, followed_eq hqb] at hbs
      obtain ⟨hmem, has⟩ := List.cons_subset.1 has
      obtain ⟨hmem', hbs⟩ := List.cons_subset.1 hbs
      obtain ⟨rfl, rfl⟩ := ih hps hqs (Nat.succ.inj hlength) has hbs ha hb
      have hblock := eq_of_permute_eq hno hmem hmem' (isBlock_cons hp a) (isBlock_cons hq b) hpa hqb
      obtain ⟨rfl, rfl⟩ := List.cons.inj hblock
      exact ⟨rfl, rfl⟩

theorem eq_of_chain_eq (hno : ¬ Collision permute as bs) (has : inputs permute xs ⊆ as)
    (hbs : inputs permute ys ⊆ bs) (hlength : xs.length = ys.length)
    (hx : chain permute xs = .ok d) (hy : chain permute ys = .ok d) : xs = ys := by
  obtain ⟨hxne, first, hfirst, hx⟩ := chain_eq_ok_iff.1 hx
  obtain ⟨hyne, first', hfirst', hy⟩ := chain_eq_ok_iff.1 hy
  rw [inputs_eq hxne hfirst] at has
  rw [inputs_eq hyne hfirst'] at hbs
  obtain ⟨hmem, has⟩ := List.cons_subset.1 has
  obtain ⟨hmem', hbs⟩ := List.cons_subset.1 hbs
  have hcount : (behind xs).length = (behind ys).length := by
    rw [behind, behind, length_pieces, length_pieces, List.length_drop, List.length_drop, hlength]
  obtain ⟨rfl, hbehind⟩ := eq_of_absorb_eq hno (fun _ => length_le_of_mem_behind)
    (fun _ => length_le_of_mem_behind) hcount has hbs hx hy
  have htake := eq_of_permute_eq hno hmem hmem' (isBlock_take hxne) (isBlock_take hyne) hfirst hfirst'
  rw [← take_append_behind xs, ← take_append_behind ys, htake, hbehind]

/-! ### The last element -/

/-- The piece that comes last is the end of the input that comes last. -/
theorem exists_absorbed_last {ps : List (List Felt)} {p : List Felt} {a : Felt}
    (h : absorb permute a (ps ++ [p]) = .ok d) :
    ∃ b, (b :: p) ∈ absorbed permute a (ps ++ [p]) ∧ permute (b :: p) = .ok d := by
  induction ps generalizing a with
  | nil =>
    obtain ⟨d', hp, hd⟩ := absorb_cons_eq_ok_iff.1 h
    exact ⟨a, List.mem_cons_self .., hp.trans hd⟩
  | cons q ps ih =>
    obtain ⟨a', hq, h⟩ := absorb_cons_eq_ok_iff.1 h
    obtain ⟨b, hmem, hb⟩ := ih h
    refine ⟨b, ?_, hb⟩
    rw [List.cons_append, absorbed, followed_eq hq]
    exact List.mem_cons_of_mem _ hmem

theorem exists_input_last (h : chain permute xs = .ok d) :
    ∃ block ∈ inputs permute xs, IsBlock block ∧ permute block = .ok d ∧
      block.getLast? = xs.getLast? := by
  obtain ⟨hne, first, hfirst, h⟩ := chain_eq_ok_iff.1 h
  rw [inputs_eq hne hfirst]
  have hxs := take_append_behind xs
  rcases List.eq_nil_or_concat (behind xs) with hnone | ⟨ps, p, hsome⟩
  · rw [hnone] at h
    obtain rfl := Except.ok.inj h
    rw [hnone, List.flatten_nil, List.append_nil] at hxs
    exact ⟨_, List.mem_cons_self .., isBlock_take hne, hfirst, congrArg List.getLast? hxs⟩
  · rw [List.concat_eq_append] at hsome
    have hp : p ∈ behind xs := hsome ▸ List.mem_append_right _ (List.mem_singleton_self p)
    have hpne : p ≠ [] := ne_nil_of_mem_pieces hp
    rw [hsome] at h hxs
    obtain ⟨b, hmem, hb⟩ := exists_absorbed_last h
    refine ⟨b :: p, List.mem_cons_of_mem _ (hsome ▸ hmem), isBlock_cons (length_le_of_mem_behind hp) b, hb, ?_⟩
    rw [← hxs, List.flatten_append, List.flatten_singleton, ← List.append_assoc,
      List.getLast?_append_of_ne_nil _ hpne, ← List.singleton_append, List.getLast?_append_of_ne_nil _ hpne]

theorem getLast?_eq_of_chain_eq (hno : ¬ Collision permute as bs) (has : inputs permute xs ⊆ as)
    (hbs : inputs permute ys ⊆ bs) (hx : chain permute xs = .ok d) (hy : chain permute ys = .ok d) :
    xs.getLast? = ys.getLast? := by
  obtain ⟨a, hmem, ha, hpa, hlast⟩ := exists_input_last hx
  obtain ⟨b, hmem', hb, hpb, hlast'⟩ := exists_input_last hy
  rw [← hlast, ← hlast', eq_of_permute_eq hno (has hmem) (hbs hmem') ha hb hpa hpb]

/-! ### Digests exist -/

theorem exists_absorb (hpermute : ∀ block, IsBlock block → ∃ d, permute block = .ok d)
    {ps : List (List Felt)} (hps : ∀ p ∈ ps, p.length ≤ chainedArity) (a : Felt) :
    ∃ d, absorb permute a ps = .ok d := by
  induction ps generalizing a with
  | nil => exact ⟨a, rfl⟩
  | cons p ps ih =>
    obtain ⟨hp, hps⟩ := List.forall_mem_cons.1 hps
    obtain ⟨next, hnext⟩ := hpermute (a :: p) (isBlock_cons hp a)
    obtain ⟨d, hd⟩ := ih hps next
    exact ⟨d, absorb_cons_eq_ok_iff.2 ⟨next, hnext, hd⟩⟩

theorem exists_chain (hpermute : ∀ block, IsBlock block → ∃ d, permute block = .ok d) (hne : xs ≠ []) :
    ∃ d, chain permute xs = .ok d := by
  obtain ⟨first, hfirst⟩ := hpermute _ (isBlock_take hne)
  obtain ⟨d, hd⟩ := exists_absorb hpermute (fun _ => length_le_of_mem_behind) first
  exact ⟨d, chain_eq_ok_iff.2 ⟨hne, first, hfirst, hd⟩⟩

/-- There are constants for every input of one to twelve elements. -/
theorem exists_permute {block : List Felt} (h : IsBlock block) : ∃ d, Poseidon.permute block = .ok d := by
  obtain ⟨hne, hlength⟩ := h
  obtain ⟨k, hk⟩ := Nat.exists_eq_succ_of_ne_zero (mt List.length_eq_zero_iff.1 hne)
  have hcount : k < Parameters.table.length := by
    rw [Parameters.table, List.length_map, List.length_zipIdx]
    exact Nat.lt_of_succ_le (hk ▸ hlength)
  have hparameters : Parameters.ofArity? block.length = some Parameters.table[k].get := by
    rw [hk, Parameters.ofArity?, List.getElem?_eq_getElem hcount, Option.map_some]
  exact ⟨_, by rw [permute, hparameters]⟩

end Vouch.Poseidon

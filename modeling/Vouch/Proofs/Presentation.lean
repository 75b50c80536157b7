import Vouch.Presentation
import Vouch.Proofs.Result

/-! What it takes to pass the checks of a presentation.

A statement passes with a value of its own kind, and an integer only within the bounds
(`Statement.check_eq_ok_iff`). A presentation passes exactly if it has a statement for
every claim and each passes (`Presentation.exists_checkBody_iff`). -/
namespace Vouch

namespace Statement

theorem check_range_eq_ok_iff {r : RangeStatement} {i : IntegerValue} {disclosed : List Nat} :
    check (.range r) (.integer i) = .ok disclosed ↔
      i.width = r.width ∧ r.lower ≤ i.n ∧ i.n ≤ r.upper ∧ disclosed = [] := by
  by_cases hwidth : i.width = r.width
  · rw [check, if_pos hwidth, Result.bind_eq_ok_iff]
    constructor
    · rintro ⟨⟨⟩, hbounds, h⟩
      have ⟨hlower, hupper⟩ := (RangeStatement.check_eq_ok_iff r i.n).1 hbounds
      exact ⟨hwidth, hlower, hupper, (Except.ok.inj h).symm⟩
    · rintro ⟨-, hlower, hupper, rfl⟩
      exact ⟨(), (RangeStatement.check_eq_ok_iff r i.n).2 ⟨hlower, hupper⟩, rfl⟩
  · rw [check, if_neg hwidth]
    exact ⟨fun h => (nomatch h), fun h => absurd h.1 hwidth⟩

theorem check_equality_eq_ok_iff {e : EqualityStatement} {p : PropertyValue} {disclosed : List Nat} :
    check (.equality e) (.property p) = .ok disclosed ↔
      p.type = e.type ∧ disclosed = [(e.holds p.hash).toNat] := by
  by_cases htype : p.type = e.type
  · rw [check, if_pos htype]
    exact ⟨fun h => ⟨htype, (Except.ok.inj h).symm⟩, fun h => congrArg Except.ok h.2.symm⟩
  · rw [check, if_neg htype]
    exact ⟨fun h => (nomatch h), fun h => absurd h.1 htype⟩

theorem check_reveal_eq_ok_iff {shown b : Bool} {disclosed : List Nat} :
    check (.reveal shown) (.boolean b) = .ok disclosed ↔ disclosed = if shown then [b.toNat] else [] :=
  ⟨fun h => (Except.ok.inj h).symm, fun h => congrArg Except.ok h.symm⟩

theorem check_eq_ok_iff {t : Statement} {v : ClaimValue} {disclosed : List Nat} :
    t.check v = .ok disclosed ↔
      (∃ r i, t = .range r ∧ v = .integer i ∧ i.width = r.width ∧ r.lower ≤ i.n ∧ i.n ≤ r.upper ∧
        disclosed = []) ∨
      (∃ e p, t = .equality e ∧ v = .property p ∧ p.type = e.type ∧
        disclosed = [(e.holds p.hash).toNat]) ∨
      ∃ shown b, t = .reveal shown ∧ v = .boolean b ∧ disclosed = if shown then [b.toNat] else [] := by
  cases t with
  | range r =>
    cases v with
    | integer i => simp [check_range_eq_ok_iff]
    | property p => simp [check, mismatch]
    | boolean b => simp [check, mismatch]
  | equality e =>
    cases v with
    | integer i => simp [check, mismatch]
    | property p => simp [check_equality_eq_ok_iff]
    | boolean b => simp [check, mismatch]
  | reveal shown =>
    cases v with
    | integer i => simp [check, mismatch]
    | property p => simp [check, mismatch]
    | boolean b => simp [check_reveal_eq_ok_iff]

end Statement

/-! ### Presentations -/

namespace Body

theorem length_values (b : Body) : b.values.length = b.schema.claims.length := by
  have hlength := congrArg List.length b.typed
  rwa [List.length_map, List.length_map] at hlength

theorem map_fst_entries (b : Body) : b.entries.map Prod.fst = b.schema.claims :=
  List.map_fst_zip (Nat.le_of_eq b.length_values.symm)

theorem map_snd_entries (b : Body) : b.entries.map Prod.snd = b.values :=
  List.map_snd_zip (Nat.le_of_eq b.length_values)

theorem type_of_mem_entries {b : Body} {c : Claim} {v : ClaimValue} (h : (c, v) ∈ b.entries) :
    v.type = c.type := by
  have htyped : List.Forall₂ (fun (c : Claim) (v : ClaimValue) => c.type = v.type)
      b.schema.claims b.values := by
    rw [← List.forall₂_map_right_iff (f := ClaimValue.type),
      ← List.forall₂_map_left_iff (f := Claim.type), b.typed]
    exact List.forall₂_same.2 fun _ _ => rfl
  exact (List.forall₂_zip htyped h).symm

end Body

theorem Presentation.make_eq_ok_iff {expirationLb : UInt64} {idEqualsTo : Nat} {statements : List Statement}
    {p : Presentation} : make expirationLb idEqualsTo statements = .ok p ↔
      p.expirationLb = expirationLb ∧ p.idEqualsTo = idEqualsTo ∧ p.statements = statements := by
  unfold make
  constructor
  · intro h
    split at h
    · cases h
      exact ⟨rfl, rfl, rfl⟩
    · cases h
  · rintro ⟨rfl, rfl, rfl⟩
    rw [dif_pos p.idFits]

/-- A presentation passes exactly if it has a statement for every claim and each passes. -/
theorem Presentation.exists_checkBody_iff {p : Presentation} {b : Body} :
    (∃ disclosed, p.checkBody b = .ok disclosed) ↔
      p.statements.length = b.values.length ∧
        ∀ part ∈ b.entries.zip p.statements, ∃ disclosed, part.2.check part.1.2 = .ok disclosed := by
  unfold checkBody
  split
  · rename_i hlength
    have hstep (part : (Claim × ClaimValue) × Statement) :
        (∃ entry : String × List Nat, (do
          let aux ← (part.2.check part.1.2).within s!"claim {part.1.1.name}"
          return (part.1.1.name, aux)) = .ok entry) ↔
          ∃ disclosed, part.2.check part.1.2 = .ok disclosed := by
      simp [Result.bind_eq_ok_iff, pure, Except.pure]
    simp only [hlength, true_and, Result.bind_eq_ok_iff]
    simp only [← hstep]
    rw [← Result.exists_mapM_eq_ok_iff]
    constructor
    · rintro ⟨_, entries, h, -⟩
      exact ⟨entries, h⟩
    · intro ⟨entries, h⟩
      exact ⟨_, entries, h, rfl⟩
  · rename_i hlength
    exact ⟨fun ⟨_, h⟩ => (nomatch h), fun h => absurd h.1 hlength⟩

end Vouch

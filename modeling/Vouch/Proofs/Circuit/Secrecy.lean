import Vouch.Proofs.Circuit.Agreement

/-! What the outputs of claims keep secret.

Every output is a function of the statement and of what the statement looks at: nothing in
the case of a range, the outcome of each comparison for a property, and the truth value if
it is revealed. Two bodies that agree there cannot be told apart by the public signals that
come from claims, whatever valuations satisfy the source of the circuit
(`claimOutputs_eq_of_alike`). -/
namespace Vouch

open Circuit (Valuation WellTyped Intrinsic Layout compile)
open Circuit.ClaimSignals (ofClaim)

namespace Presentation

variable {p : Presentation} {b : Body}

theorem wellTyped_of_checkBody (h : ∃ disclosed, p.checkBody b = .ok disclosed) :
    ∀ part ∈ p.parts b, WellTyped part ∧ part.2.Admits part.1.2 := by
  intro part hpart
  obtain ⟨disclosed, hdisclosed⟩ := (exists_checkBody_iff.1 h).2 part hpart
  obtain ⟨hconcerns, hadmits, -⟩ := Statement.check_eq_ok_iff_admits.1 hdisclosed
  exact ⟨⟨Body.type_of_mem_entries (List.of_mem_zip (b := part.2) hpart).1, hconcerns⟩, hadmits⟩

/-- What passes its checks has an assignment to all wires of a compiled circuit. -/
theorem exists_solves_of_checkBody {c : Circuit} (hcompile : compile b.schema = .ok c)
    (h : ∃ disclosed, p.checkBody b = .ok disclosed) : ∃ ρ : Valuation, ρ.Solves c (p.parts b) := by
  have hnames := Circuit.nodup_claimNames ((Circuit.compile_eq_ok_iff _ _).1 hcompile).2.1
  have hlength := (exists_checkBody_iff.1 h).1
  have htyped := wellTyped_of_checkBody h
  rw [Circuit.exists_solves_iff hcompile (fun part hpart => (htyped part hpart).1) (map_claims_parts hlength)]
  exact Circuit.exists_realizes_all (fun part hpart => (htyped part hpart).1)
    (pairwise_wires hlength hnames)
    fun part hpart => (Circuit.exists_realizes_iff (htyped part hpart).1).2 (htyped part hpart).2

/-- What solves a circuit realizes its claims. -/
theorem realizes_of_solves {c : Circuit} (hcompile : compile b.schema = .ok c)
    (h : ∃ disclosed, p.checkBody b = .ok disclosed) {ρ : Valuation} (hρ : ρ.Solves c (p.parts b)) :
    ∀ part ∈ p.parts b, ρ.Realizes part :=
  hρ.realizes hcompile fun part hpart => by
    rw [← map_claims_parts (exists_checkBody_iff.1 h).1]
    exact List.mem_map_of_mem hpart

/-- Two bodies of a schema side by side, with the statements about both. -/
theorem exists_parts {b₁ b₂ : Body} (hschema : b₁.schema = b₂.schema)
    (hlength : p.statements.length = b₁.values.length) {claim : Claim} (h : claim ∈ b₁.schema.claims) :
    ∃ v₁ v₂ t, ((claim, v₁), t) ∈ p.parts b₁ ∧ ((claim, v₂), t) ∈ p.parts b₂ ∧
      ((v₁, v₂), t) ∈ (b₁.values.zip b₂.values).zip p.statements := by
  have hvalues₁ := b₁.length_values
  have hvalues₂ := b₂.length_values
  obtain ⟨schema, values₁, typed₁⟩ := b₁
  obtain ⟨_, values₂, typed₂⟩ := b₂
  obtain rfl := hschema
  dsimp only at h hlength hvalues₁ hvalues₂
  obtain ⟨i, hi, rfl⟩ := List.getElem_of_mem h
  have hi₁ : i < values₁.length := hvalues₁ ▸ hi
  have hi₂ : i < values₂.length := hvalues₂ ▸ hi
  have hi' : i < p.statements.length := hlength ▸ hi₁
  exact ⟨values₁[i], values₂[i], p.statements[i], Aligned.mem_zip_zip hi hi₁ hi', Aligned.mem_zip_zip hi hi₂ hi',
    Aligned.mem_zip_zip hi₁ hi₂ hi'⟩

end Presentation

namespace Circuit

/-- **The public outputs of claims depend on a body only through what its statements look at.** -/
theorem claimOutputs_eq_of_alike {s : Schema} {c : Circuit} (hcompile : compile s = .ok c)
    {p : Presentation} {b₁ b₂ : Body} (h₁ : b₁.schema = s) (h₂ : b₂.schema = s)
    (hcheck₁ : ∃ disclosed, p.checkBody b₁ = .ok disclosed)
    (hcheck₂ : ∃ disclosed, p.checkBody b₂ = .ok disclosed)
    (halike : ∀ pair ∈ (b₁.values.zip b₂.values).zip p.statements, pair.2.Alike pair.1.1 pair.1.2) :
    (∃ ρ : Valuation, ρ.Solves c (p.parts b₁)) ∧
      (∃ ρ : Valuation, ρ.Solves c (p.parts b₂)) ∧
      ∀ ρ₁ ρ₂ : Valuation, ρ₁.Solves c (p.parts b₁) → ρ₂.Solves c (p.parts b₂) →
        c.claimOutputs.map (fun out => ρ₁.signal out.name) =
          c.claimOutputs.map fun out => ρ₂.signal out.name := by
  have hcompile₁ : compile b₁.schema = .ok c := by rw [h₁, hcompile]
  have hcompile₂ : compile b₂.schema = .ok c := by rw [h₂, hcompile]
  refine ⟨Presentation.exists_solves_of_checkBody hcompile₁ hcheck₁,
    Presentation.exists_solves_of_checkBody hcompile₂ hcheck₂, fun ρ₁ ρ₂ hρ₁ hρ₂ => ?_⟩
  have hrealizes₁ := Presentation.realizes_of_solves hcompile₁ hcheck₁ hρ₁
  have hrealizes₂ := Presentation.realizes_of_solves hcompile₂ hcheck₂ hρ₂
  have htyped₁ := Presentation.wellTyped_of_checkBody hcheck₁
  have htyped₂ := Presentation.wellTyped_of_checkBody hcheck₂
  have hlength := (Presentation.exists_checkBody_iff.1 hcheck₁).1
  rw [claimOutputs_of_compile hcompile]
  refine List.map_congr_left fun out hout => ?_
  obtain ⟨claim, hclaim, hout⟩ := List.mem_flatMap.1 hout
  obtain ⟨v₁, v₂, t, hpart₁, hpart₂, hpair⟩ :=
    Presentation.exists_parts (p := p) (h₁.trans h₂.symm) hlength (h₁ ▸ hclaim)
  have houtputs := Statement.outputs_eq_of_alike (htyped₁ _ hpart₁).1.2 (htyped₂ _ hpart₂).1.2
    (halike _ hpair)
  have hvalues := (outputs_of_realizes (htyped₁ _ hpart₁).1 (hrealizes₁ _ hpart₁)).trans
    (houtputs.trans (outputs_of_realizes (htyped₂ _ hpart₂).1 (hrealizes₂ _ hpart₂)).symm)
  exact Fin.ext (List.map_inj_left.1 hvalues out hout)

/-- Two members of different age, balance and name, none of the names one that is asked for. -/
theorem claimOutputs_eq_of_alike_club :
    ∃ c b₁ b₂, compile clubSchema = .ok c ∧ b₁ ≠ b₂ ∧
      (∃ disclosed, clubPresentation.checkBody b₁ = .ok disclosed) ∧
      (∃ disclosed, clubPresentation.checkBody b₂ = .ok disclosed) ∧
      ∃ ρ₁ ρ₂ : Valuation, ρ₁.Solves c (clubPresentation.parts b₁) ∧ ρ₂.Solves c (clubPresentation.parts b₂) ∧
        c.claimOutputs.map (fun out => ρ₁.signal out.name) =
          c.claimOutputs.map fun out => ρ₂.signal out.name := by
  let b₁ := clubBody 42 (2 ^ 130) 6 (by decide) (by decide) (by decide)
  let b₂ := clubBody 80 12 7 (by decide) (by decide) (by decide)
  have hne : b₁ ≠ b₂ := by decide
  have hcheck₁ : ∃ disclosed, clubPresentation.checkBody b₁ = .ok disclosed := ⟨_, rfl⟩
  have hcheck₂ : ∃ disclosed, clubPresentation.checkBody b₂ = .ok disclosed := ⟨_, rfl⟩
  have hnames : ∀ k ∈ [3, 5], 6 = k ↔ 7 = k := by decide
  have halike : ∀ pair ∈ (b₁.values.zip b₂.values).zip clubPresentation.statements,
      pair.2.Alike pair.1.1 pair.1.2 :=
    List.forall_mem_cons.2 ⟨trivial, List.forall_mem_cons.2 ⟨trivial, List.forall_mem_cons.2
      ⟨hnames, List.forall_mem_cons.2 ⟨rfl, nofun⟩⟩⟩⟩
  obtain ⟨⟨ρ₁, hρ₁⟩, ⟨ρ₂, hρ₂⟩, hsame⟩ :=
    claimOutputs_eq_of_alike compile_clubSchema (show b₁.schema = clubSchema from rfl)
      (show b₂.schema = clubSchema from rfl) hcheck₁ hcheck₂ halike
  exact ⟨_, b₁, b₂, compile_clubSchema, hne, hcheck₁, hcheck₂, ρ₁, ρ₂, hρ₁, hρ₂, hsame ρ₁ ρ₂ hρ₁ hρ₂⟩

end Circuit

end Vouch

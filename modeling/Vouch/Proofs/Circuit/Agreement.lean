import Vouch.Proofs.Keyed
import Vouch.Proofs.Circuit.Solutions

/-! Checks of presentations and constraints of circuits.

What a holder checks over integers before a proof is made is what the source of the claims
says over the field: a presentation passes exactly if the source can be satisfied with the
limbs and operands set, claim by claim, all together if no two claims share a signal, and
within the source of the circuit if there is one. What the outputs then say is what the
statements disclose (`checkBody_iff_realizable`). -/
namespace Vouch

open Circuit (Valuation WellTyped wires compile)
open Circuit.ClaimSignals (ofClaim)

namespace Presentation

/-- The claims of a body, each with its value and the statement about it. -/
def parts (p : Presentation) (b : Body) : List ((Claim × ClaimValue) × Statement) :=
  b.entries.zip p.statements

/-- Every statement was made for the type of its claim. -/
def MadeFor (p : Presentation) (s : Schema) : Prop :=
  List.Forall₂ (fun c t => t.MadeFor c.type) s.claims p.statements

variable {p : Presentation} {b : Body} {part : (Claim × ClaimValue) × Statement}

theorem wellTyped_of_mem_parts (h : p.MadeFor b.schema) (hpart : part ∈ p.parts b) : WellTyped part := by
  have htype := Body.type_of_mem_entries (List.of_mem_zip (b := part.2) hpart).1
  exact ⟨htype, (List.forall₂_zip h (Aligned.mem_zip_of_mem_zip_zip hpart)).concerns htype⟩

theorem MadeFor.length_statements (h : p.MadeFor b.schema) : p.statements.length = b.values.length := by
  rw [b.length_values, h.length_eq]

theorem map_fst_parts (h : p.statements.length = b.values.length) : (p.parts b).map Prod.fst = b.entries := by
  refine List.map_fst_zip (Nat.le_of_eq ?_)
  rw [h, ← Body.map_snd_entries, List.length_map]

theorem map_claims_parts (h : p.statements.length = b.values.length) :
    (p.parts b).map (·.1.1) = b.schema.claims := by
  rw [← Body.map_fst_entries, ← map_fst_parts h, List.map_map]
  rfl

/-- A presentation passes exactly if every statement admits its value. -/
theorem exists_checkBody_iff_admits (h : p.MadeFor b.schema) :
    (∃ disclosed, p.checkBody b = .ok disclosed) ↔ ∀ part ∈ p.parts b, part.2.Admits part.1.2 := by
  rw [exists_checkBody_iff, and_iff_right h.length_statements]
  exact forall₂_congr fun part hpart =>
    Statement.exists_check_iff_admits (wellTyped_of_mem_parts h hpart).2

/-- What the statements tell, under the names of the claims. -/
theorem exists_of_checkBody {disclosed : Keyed (List Nat)} (h : p.checkBody b = .ok disclosed) :
    ∃ entries, disclosed = .ofList entries ∧ entries.map Prod.fst = b.schema.claims.map Claim.name ∧
      List.Forall₂ (fun (part : (Claim × ClaimValue) × Statement) (entry : String × List Nat) =>
        part.2.check part.1.2 = .ok entry.2 ∧ part.1.1.name = entry.1) (p.parts b) entries := by
  unfold checkBody at h
  split at h
  · rename_i hlength
    obtain ⟨entries, hentries, h⟩ := Result.bind_eq_ok_iff.1 h
    obtain rfl := Except.ok.inj h
    have hsteps : List.Forall₂ (fun (part : (Claim × ClaimValue) × Statement) (entry : String × List Nat) =>
        part.2.check part.1.2 = .ok entry.2 ∧ part.1.1.name = entry.1) (p.parts b) entries := by
      refine (Result.mapM_eq_ok_iff.1 hentries).imp fun part entry hstep => ?_
      obtain ⟨aux, haux, hstep⟩ := Result.bind_eq_ok_iff.1 hstep
      obtain rfl := Except.ok.inj hstep
      exact ⟨Result.within_eq_ok_iff.1 haux, rfl⟩
    have hkeys : (p.parts b).map (·.1.1.name) = entries.map Prod.fst :=
      Aligned.map_eq_map_iff.2 (hsteps.imp fun _ _ h => h.2)
    have hclaims : ((p.parts b).map (·.1.1)).map Claim.name = (p.parts b).map (·.1.1.name) := List.map_map
    refine ⟨entries, rfl, ?_, hsteps⟩
    rw [← hkeys, ← hclaims, map_claims_parts hlength]
  · cases h

/-- What a check returns it keeps under the names of the claims. -/
theorem get?_of_checkBody {disclosed : Keyed (List Nat)} (h : p.checkBody b = .ok disclosed)
    (hpart : part ∈ p.parts b) :
    ∃ aux, part.2.check part.1.2 = .ok aux ∧ disclosed.get? part.1.1.name = some aux := by
  obtain ⟨entries, rfl, hkeys, hsteps⟩ := exists_of_checkBody h
  have hnames : (entries.map Prod.fst).Nodup := hkeys ▸ b.schema.distinct
  obtain ⟨⟨_, aux⟩, hentry, hcheck, rfl⟩ := Aligned.exists_of_mem hsteps hpart
  exact ⟨aux, hcheck, (Keyed.get?_ofList hnames).2 hentry⟩

/-- Every claim is told about once, and nothing else is. -/
theorem keys_of_checkBody {disclosed : Keyed (List Nat)} (h : p.checkBody b = .ok disclosed) :
    disclosed.keys.Perm (b.schema.claims.map Claim.name) := by
  obtain ⟨entries, rfl, hkeys, -⟩ := exists_of_checkBody h
  refine (List.perm_ext_iff_of_nodup (Keyed.nodup_keys _) b.schema.distinct).2 fun name => ?_
  rw [← hkeys]
  exact Keyed.mem_keys_ofList_iff

/-- Claims with distinct signals have distinct wires. -/
theorem pairwise_wires (h : p.statements.length = b.values.length)
    (hnames : (b.schema.claims.flatMap fun c => (ofClaim c).names).Nodup) :
    (p.parts b).Pairwise fun a d => (wires a.1.1).Disjoint (wires d.1.1) := by
  have hclaims : b.schema.claims.Pairwise fun c d => (wires c).Disjoint (wires d) :=
    ((List.pairwise_map.1 b.schema.distinct).and (List.nodup_flatMap.1 hnames).2).imp
      fun ⟨hname, hsignals⟩ => Circuit.disjoint_wires hname hsignals
  rw [← map_claims_parts h, List.pairwise_map] at hclaims
  exact hclaims

end Presentation

/-- **A presentation passes exactly if the source of the claims can be satisfied with its operands and
the limbs of the body, and the outputs are then what its statements disclose.** So it is with the source
of each claim on its own, with that of all claims, and with that of the circuit they are compiled to. -/
theorem Presentation.checkBody_iff_realizable {p : Presentation} {b : Body} (h : p.MadeFor b.schema) :
    ((∃ disclosed, p.checkBody b = .ok disclosed) ↔
        ∀ part ∈ p.parts b, ∃ ρ : Valuation, ρ.Realizes part) ∧
      ((b.schema.claims.flatMap fun c => (ofClaim c).names).Nodup →
        ((∃ disclosed, p.checkBody b = .ok disclosed) ↔
          ∃ ρ : Valuation, ∀ part ∈ p.parts b, ρ.Realizes part)) ∧
      (∀ c, compile b.schema = .ok c →
        ((∃ disclosed, p.checkBody b = .ok disclosed) ↔ ∃ ρ : Valuation, ρ.Solves c (p.parts b)) ∧
          ∀ ρ : Valuation, ρ.Solves c (p.parts b) → ∀ part ∈ p.parts b, ρ.Realizes part) ∧
      ∀ disclosed, p.checkBody b = .ok disclosed → ∀ part ∈ p.parts b,
        disclosed.get? part.1.1.name = some (part.2.aside part.1.2) ∧
          ∀ ρ : Valuation, ρ.Realizes part →
            (ofClaim part.1.1).outputs.map (fun out => (ρ.signal out.name).val) =
              part.2.outputs part.1.2 := by
  have htyped : ∀ part ∈ p.parts b, WellTyped part := fun _ hpart => wellTyped_of_mem_parts h hpart
  have hclaims := map_claims_parts h.length_statements
  have heach : (∃ disclosed, p.checkBody b = .ok disclosed) ↔
      ∀ part ∈ p.parts b, ∃ ρ : Valuation, ρ.Realizes part := by
    rw [exists_checkBody_iff_admits h]
    exact forall₂_congr fun part hpart => (Circuit.exists_realizes_iff (htyped part hpart)).symm
  have hall (hnames : (b.schema.claims.flatMap fun c => (ofClaim c).names).Nodup) :
      (∃ disclosed, p.checkBody b = .ok disclosed) ↔ ∃ ρ : Valuation, ∀ part ∈ p.parts b, ρ.Realizes part := by
    rw [heach]
    exact ⟨Circuit.exists_realizes_all htyped (pairwise_wires h.length_statements hnames),
      fun ⟨ρ, hρ⟩ part hpart => ⟨ρ, hρ part hpart⟩⟩
  refine ⟨heach, hall, fun c hc => ⟨?_, fun ρ hρ => hρ.realizes hc fun part hpart => ?_⟩,
    fun disclosed hcheck part hpart => ⟨?_, fun ρ hρ => ?_⟩⟩
  · rw [Circuit.exists_solves_iff hc htyped hclaims]
    exact hall (Circuit.nodup_claimNames ((Circuit.compile_eq_ok_iff _ _).1 hc).2.1)
  · exact hclaims ▸ List.mem_map_of_mem hpart
  · obtain ⟨aux, haux, hget⟩ := get?_of_checkBody hcheck hpart
    rw [hget, (Statement.check_eq_ok_iff_admits.1 haux).2.2]
  · exact Circuit.outputs_of_realizes (htyped part hpart) hρ

/-! ### A club -/

/-- A member of a given age, who has paid. -/
def clubBody (age balance hash : Nat) (hage : age < 2 ^ 8) (hbalance : balance < 2 ^ 256)
    (hhash : hash < 2 ^ 8) : Body where
  schema := clubSchema
  values :=
    [.integer ⟨8, age, Circuit.validWidth_byte, hage⟩, .integer ⟨256, balance, validWidth_widest, hbalance⟩,
      .property ⟨nameType, "Ann", hash, hhash, nofun⟩, .boolean true]
  typed := rfl

/-- Of age, with any balance, and neither called by the first code nor perhaps by the second. -/
def clubPresentation : Presentation where
  expirationLb := 10
  idEqualsTo := 8
  statements :=
    [.range ⟨8, 18, 255, by decide, by decide⟩, .range ⟨256, 0, 2 ^ 200, by decide, by decide⟩,
      .equality ⟨nameType, [3, 5], rfl, by decide⟩, .reveal true]
  idFits := by decide

theorem clubPresentation_madeFor : clubPresentation.MadeFor clubSchema :=
  .cons (.inl ⟨18, 255, rfl⟩) (.cons (.inl ⟨0, 2 ^ 200, rfl⟩)
    (.cons (.inr (.inl ⟨[3, 5], rfl⟩)) (.cons (.inr (.inr ⟨rfl, true, rfl⟩)) .nil)))

/-- Its check passes for somebody of 42 years, and so the source of the club's circuit can be satisfied. -/
theorem checkBody_iff_realizable_club :
    ∃ b : Body, clubPresentation.MadeFor b.schema ∧
      (∃ disclosed, clubPresentation.checkBody b = .ok disclosed) ∧
      ∃ c, compile b.schema = .ok c ∧ ∃ ρ : Valuation, ρ.Solves c (clubPresentation.parts b) := by
  let b := clubBody 42 (2 ^ 130) 5 (by decide) (by decide) (by decide)
  have hchecked : ∃ disclosed, clubPresentation.checkBody b = .ok disclosed := ⟨_, rfl⟩
  have hagree := Presentation.checkBody_iff_realizable (p := clubPresentation) (b := b) clubPresentation_madeFor
  exact ⟨b, clubPresentation_madeFor, hchecked, _, compile_clubSchema,
    (hagree.2.2.1 _ compile_clubSchema).1.1 hchecked⟩

end Vouch

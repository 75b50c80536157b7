import Vouch.Proofs.Witness.Outcome
import Vouch.Stack

/-! The two lowerings of a stack.

A stack makes the circuit of a schema and the witnesses for it. Both go through the layout of
the schema, and so there is a circuit for whatever has a witness (`compile_of_witness`). The
configured limit is one on circuits: no witness is held against it, and a stack refuses a circuit
that it makes witnesses for if, and only if, that has more signals than are configured
(`circuit_of_witness`). -/
namespace Vouch.Stack

open Circuit (ageSchema compile_ageSchema)

variable {s : Stack}

/-! ### Operations of a stack -/

theorem prepare_eq_ok_iff {stack : Stack} :
    s.prepare = .ok stack ↔
      (1 ≤ s.config.signalLimit ∧ s.config.signalLimit ≤ greatestSignalCount) ∧
        stack = { s with prepared := true } := by
  unfold prepare Config.check
  split
  · next hlimit => exact ⟨fun h => ⟨hlimit, (Except.ok.inj h).symm⟩, fun h => h.2 ▸ rfl⟩
  · next hlimit => exact ⟨nofun, fun h => absurd h.1 hlimit⟩

theorem hasher_eq_ok_iff {hash : FieldHash} : s.hasher = .ok hash ↔ s.prepared = true ∧ hash = Poseidon.hash := by
  unfold hasher
  split
  · next hprepared => simp [hprepared, eq_comm]
  · next hprepared => simp [hprepared]

/-- The request as the stack answers it. -/
def answered (s : Stack) (r : WitnessRequest) : WitnessRequest :=
  { r with chosen := r.chosen.or (some s.config.signatureIndex) }

theorem witness_eq_ok_iff {r : WitnessRequest} {w : Witness} :
    s.witness r = .ok w ↔ s.prepared = true ∧ (s.answered r).witness Poseidon.hash = .ok w := by
  unfold witness
  rw [Result.bind_eq_ok_iff]
  simp only [hasher_eq_ok_iff]
  constructor
  · rintro ⟨_, ⟨hprepared, rfl⟩, h⟩
    exact ⟨hprepared, h⟩
  · rintro ⟨hprepared, h⟩
    exact ⟨_, ⟨hprepared, rfl⟩, h⟩

theorem circuit_of_compile {schema : Schema} {c : Circuit} (h : Circuit.compile schema = .ok c) :
    s.circuit schema =
      if c.publicSignals.length ≤ s.config.signalLimit then .ok c
      else .error (.circuit (.aboveConfigured c.publicSignals.length s.config.signalLimit)) := by
  rw [circuit, h]
  rfl

/-! ### Circuits of witnesses -/

theorem compile_of_witness {r : WitnessRequest} {w : Witness} (h : s.witness r = .ok w) :
    ∃ c, Circuit.compile r.credential.body.schema = .ok c := by
  obtain ⟨-, hw⟩ := witness_eq_ok_iff.1 h
  obtain ⟨c, hc, -⟩ := WitnessRequest.witness_eq_ok_iff.1 hw
  have hcompile := WitnessRequest.compile_of_check hc
  exact ⟨_, hcompile⟩

/-- **What has a witness has a circuit, and only the configured limit keeps a stack from giving it.** -/
theorem circuit_of_witness {r : WitnessRequest} {w : Witness} (h : s.witness r = .ok w) :
    ∃ c, Circuit.compile r.credential.body.schema = .ok c ∧
      (s.circuit r.credential.body.schema =
        if c.publicSignals.length ≤ s.config.signalLimit then .ok c
        else .error (.circuit (.aboveConfigured c.publicSignals.length s.config.signalLimit))) ∧
      (s.config.signalLimit = Config.standard.signalLimit → s.circuit r.credential.body.schema = .ok c) := by
  obtain ⟨c, hc⟩ := compile_of_witness h
  have hcircuit := circuit_of_compile (s := s) hc
  obtain ⟨rfl, -, -, hcount⟩ := (Circuit.compile_eq_ok_iff _ _).1 hc
  refine ⟨_, hc, hcircuit, fun hlimit => hcircuit.trans (if_pos ?_)⟩
  -- The standard limit is the one that the layout has been held to already.
  rw [hlimit]
  exact hcount

/-- A stack that is prepared with a limit. -/
def limited (limit : Nat) : Stack :=
  { make { Config.standard with signalLimit := limit } none fun _ => none with prepared := true }

theorem exists_witness_limited (limit : Nat) :
    ∃ w, (limited limit).witness WitnessRequest.ageRequest = .ok w := by
  have hmet : ∀ q ∈ ((limited limit).answered WitnessRequest.ageRequest).requirements, q.1 :=
    WitnessRequest.met_ageRequest
  obtain ⟨w, hw⟩ := (WitnessRequest.obeys_witness _).exists_eq_ok_iff.2 hmet
  exact ⟨w, witness_eq_ok_iff.2 ⟨rfl, hw⟩⟩

theorem circuit_of_witness_age :
    ∃ w, (limited 11).witness WitnessRequest.ageRequest = .ok w ∧ ∃ c, (limited 11).circuit ageSchema = .ok c := by
  obtain ⟨w, hw⟩ := exists_witness_limited 11
  obtain ⟨c, hc, hcircuit, -⟩ := circuit_of_witness hw
  obtain rfl := Except.ok.inj (compile_ageSchema.symm.trans hc)
  exact ⟨w, hw, _, hcircuit.trans (if_pos (by decide))⟩

/-- One signal less is configured than an age has. -/
theorem circuit_above_limit :
    (make { Config.standard with signalLimit := 10 } none fun _ => none).prepare = .ok (limited 10) ∧
      (∃ w, (limited 10).witness WitnessRequest.ageRequest = .ok w) ∧
      (limited 10).circuit WitnessRequest.ageRequest.credential.body.schema =
        .error (.circuit (.aboveConfigured 11 10)) := by
  have hprepare : 1 ≤ 10 ∧ 10 ≤ greatestSignalCount := by decide
  refine ⟨prepare_eq_ok_iff.2 ⟨hprepare, rfl⟩, exists_witness_limited 10, ?_⟩
  exact (circuit_of_compile compile_ageSchema).trans (if_neg (by decide))

end Vouch.Stack

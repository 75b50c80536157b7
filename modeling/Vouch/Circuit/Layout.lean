import Vouch.Circuit.ClaimSignals

/-! The signals of a whole schema.

A layout lists everything that is declared: the private inputs that every circuit has,
the signals of each claim, and the public signals, intrinsic ones first. All names
share one namespace, and so `a:uint<8>` beside `a_lb:bool` has no layout. -/
namespace Vouch.Circuit

/-- A private input that belongs to no claim; an array has a length. -/
structure InputSignal where
  name : String
  length : Option Nat
deriving DecidableEq, Repr

def InputSignal.single (name : String) : InputSignal := ⟨name, none⟩

/-- The inputs of the header, the signature and the proving holder. -/
def fixedInputs : List InputSignal :=
  [.single "version", .single "type", .single "context", .single "id",
    .single "sig_verification_stack", .single "sig_id", .single "sig_expired_at",
    .single "sig_identity_commitment", .single "sig_pubkey_Ax", .single "sig_pubkey_Ay",
    .single "sig_R8x", .single "sig_R8y", .single "sig_S", .single "identity_secret",
    .single "internal_nullifier", .single "external_nullifier", .single "revealing_identity",
    .single "revealing_identity_hmac", .single "expiration_lb", .single "id_equals_to"]

/-- The inputs of a proof that the signature is not revoked, in a tree of that depth. -/
def revocationInputs (depth : Nat) : List InputSignal :=
  [.single "sig_revocation_smt_root", ⟨"sig_revocation_smt_siblings", some depth⟩,
    .single "sig_revocation_smt_old_key", .single "sig_revocation_smt_old_value",
    .single "sig_revocation_smt_is_old0", .single "sig_revocation_smt_value"]

def intrinsicInputs : Option Nat → List InputSignal
  | none => fixedInputs
  | some depth => fixedInputs ++ revocationInputs depth

structure Layout where
  schemaId : Nat
  depth : Option Nat
  intrinsicInputs : List InputSignal
  claims : List ClaimSignals
  publicSignals : List PublicSignal
deriving DecidableEq

namespace Layout

/-- The private inputs of the claims, claim by claim. -/
def inputNames (l : Layout) : List String :=
  l.claims.flatMap (·.inputs)

def operationNames (l : Layout) : List String :=
  l.claims.flatMap (·.operations)

def outputs (l : Layout) : List PublicSignal :=
  l.claims.flatMap (·.outputs)

def claimAggregations (l : Layout) : List Aggregation :=
  l.claims.flatMap (·.aggregations)

/-- Every name that is declared. -/
def names (l : Layout) : List String :=
  l.intrinsicInputs.map (·.name) ++ l.inputNames ++ l.operationNames ++ l.publicSignals.map (·.name)

/-- The layout of a schema, before anything is checked. -/
def unchecked (s : Schema) : Layout :=
  let claims := s.claims.map ClaimSignals.ofClaim
  { schemaId := s.id
    depth := s.depth
    intrinsicInputs := Circuit.intrinsicInputs s.depth
    claims
    publicSignals := (Intrinsic.ofRevocable s.isRevocable).map (·.signal) ++ claims.flatMap (·.outputs) }

/-- Names are declared once, slots are filled by one aggregation, and a verifier takes the
public signals. -/
def ofSchema (s : Schema) : Result Layout :=
  let l := unchecked s
  match firstRepeat? [] l.names with
  | some name => .error (.circuit (.repeatedSignal name))
  | none =>
    match firstRepeat? [] (l.claimAggregations.map (·.destination)) with
    | some destination => .error (.circuit (.repeatedAggregation destination))
    | none =>
      if l.publicSignals.length ≤ greatestSignalCount then .ok l
      else .error (.circuit (.tooManySignals l.publicSignals.length))

theorem ofSchema_eq_ok_iff (s : Schema) (l : Layout) :
    ofSchema s = .ok l ↔
      l = unchecked s ∧ (unchecked s).names.Nodup ∧
        ((unchecked s).claimAggregations.map (·.destination)).Nodup ∧
        (unchecked s).publicSignals.length ≤ greatestSignalCount := by
  have hnames := firstRepeat?_eq_none_iff [] (unchecked s).names
  have hslots := firstRepeat?_eq_none_iff [] ((unchecked s).claimAggregations.map (·.destination))
  simp only [List.not_mem_nil, not_false_eq_true, implies_true, and_true] at hnames hslots
  rw [← hnames, ← hslots]
  unfold ofSchema
  dsimp only
  split
  · rename_i name h
    simp [h]
  · rename_i h
    split
    · rename_i destination h'
      simp [h']
    · rename_i h'
      split
      · rename_i hcount
        simp only [Except.ok.injEq, h, h', hcount, and_true]
        exact eq_comm
      · rename_i hcount
        simp [hcount]

end Layout

end Vouch.Circuit

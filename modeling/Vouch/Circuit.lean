import Vouch.Circuit.Body

/-! Circuits compiled from schemas.

A circuit is its template, the table of public signals with the places of the
intrinsic ones, and the aggregations that add up proofs of it. Before a proof is looked
at, its public signals are checked against the table. -/
namespace Vouch

open Circuit in
/-- A compiled circuit. One that is put together by hand need not have a template. -/
structure Circuit where
  schemaId : Nat
  template : Option Template
  publicSignals : List PublicSignal
  /-- Where each intrinsic signal stands among the public ones, in the order of `Intrinsic.all`. -/
  intrinsics : List (Intrinsic × Nat)
  aggregations : List Aggregation
deriving DecidableEq

namespace Circuit

/-- The source text. -/
def code (c : Circuit) : String :=
  match c.template with
  | some t => t.text
  | none => ""

/-- The slots of the claims between those of the intrinsic signals. -/
def aggregationsOf (l : Layout) : List Aggregation :=
  .ofBits "agg_out_id_equals_to" 249 [Intrinsic.idEqualsTo.outputName] .unchanged ::
    l.claimAggregations ++
    .ofBits "agg_expiration_lb" 64 [Intrinsic.expirationLb.outputName] .greatest ::
    if l.depth.isSome then
      [.ofBits "sig_smt_root" 256 [Intrinsic.revocationRoot.outputName] .latest]
    else []

def ofLayout (l : Layout) : Circuit :=
  { schemaId := l.schemaId
    template := some l.template
    publicSignals := l.publicSignals
    intrinsics := (Intrinsic.ofRevocable l.depth.isSome).zipIdx
    aggregations := aggregationsOf l }

def compile (s : Schema) : Result Circuit := do
  let l ← Layout.ofSchema s
  return ofLayout l

/-! ### Public signals of a proof -/

def indexOf? (c : Circuit) (i : Intrinsic) : Option Nat :=
  (c.intrinsics.find? (·.1 == i)).map (·.2)

/-- An intrinsic signal out of those of a proof. -/
def intrinsicValue? (c : Circuit) (i : Intrinsic) (signals : List Nat) : Option Nat :=
  (c.indexOf? i).bind fun k => signals[k]?

/-- As many signals as the table has, each below its ceiling; the first that is not is named. -/
def checkSignals (c : Circuit) (signals : List Nat) : Result Unit :=
  if signals.length = c.publicSignals.length then
    (c.publicSignals.zip signals).forM fun (s, value) => s.check value
  else .error (.signature (.signalCount c.publicSignals.length signals.length))

/-- The values of the signals that an aggregation names. -/
def sourceValues (c : Circuit) (a : Aggregation) (signals : List Nat) : List Nat :=
  a.sources.filterMap fun name =>
    ((c.publicSignals.zip signals).find? (·.1.name == name)).map (·.2)

end Circuit

end Vouch

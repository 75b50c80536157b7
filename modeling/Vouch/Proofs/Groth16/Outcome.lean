import Vouch.Groth16.Contract
import Vouch.Groth16.Verification
import Vouch.Proofs.Result

/-! What can go wrong with keys and proofs.

A key or a proof that cannot be read is an error of the document, whatever part of it is
malformed (`VerifyingKey.ofText_failsWith`, `Proof.ofJson_failsWith`). Public signals that do
not fit the circuit, the key or the field are errors of the signature (`verify_failsWith`). -/
namespace Vouch

open Result (FailsWith)

theorem readDecimal_failsWith (s : String) : FailsWith [.serialization] (readDecimal s) := by
  unfold readDecimal
  split
  · exact .ok _
  · exact .own _

theorem readDocument_failsWith {α : Type} (reader : Json.Place → Option α) (s : String) :
    FailsWith [.serialization] (readDocument reader s) := by
  unfold readDocument
  split
  · exact .ok _
  · exact .own _

namespace Circuit

theorem PublicSignal.check_failsWith (s : PublicSignal) (value : Nat) :
    FailsWith [.invalidSignature] (s.check value) := by
  unfold check
  split
  · exact .ok _
  · exact .own _

theorem checkSignals_failsWith (c : Circuit) (signals : List Nat) :
    FailsWith [.invalidSignature] (c.checkSignals signals) := by
  unfold checkSignals
  split
  · exact .forM (fun _ => PublicSignal.check_failsWith _ _) _
  · exact .own _

end Circuit

namespace Groth16

/-! ### Points -/

theorem readBase_failsWith (part : String) (j : Json) : FailsWith [.serialization] (readBase part j) := by
  unfold readBase
  split
  · exact .own _
  · refine .bind (readDecimal_failsWith _) fun n => ?_
    split
    · exact .ok _
    · exact .own _

theorem readQuadratic_failsWith (part : String) (j : Json) :
    FailsWith [.serialization] (readQuadratic part j) := by
  unfold readQuadratic
  split
  · exact .bind (readBase_failsWith part _) fun _ => .bind (readBase_failsWith part _) fun _ => .ok _
  · exact .own _

theorem readPoint_failsWith {F : Type} {coordinate : Json → Result F}
    (h : ∀ j, FailsWith [.serialization] (coordinate j)) (part : String) (j : Json) :
    FailsWith [.serialization] (readPoint coordinate part j) := by
  unfold readPoint
  split
  · exact .bind (h _) fun _ => .bind (h _) fun _ => .ok _
  · exact .own _

theorem PointGroup.read_failsWith {F : Type} {g : PointGroup F}
    (h : ∀ part j, FailsWith [.serialization] (g.readCoordinate part j)) (part : String) (j : Json) :
    FailsWith [.serialization] (g.read part j) := by
  refine .bind (readPoint_failsWith (h part) part j) fun p => ?_
  split
  · exact .ok _
  · exact .own _

theorem firstGroup_failsWith (part : String) (j : Json) : FailsWith [.serialization] (firstGroup.read part j) :=
  PointGroup.read_failsWith readBase_failsWith part j

theorem secondGroup_failsWith (part : String) (j : Json) : FailsWith [.serialization] (secondGroup.read part j) :=
  PointGroup.read_failsWith readQuadratic_failsWith part j

/-! ### Keys and proofs -/

theorem VerifyingKey.ofJson_failsWith (j : Json) : FailsWith [.serialization] (ofJson j) := by
  unfold ofJson
  split
  · exact .own _
  · refine .bind (.mapM (firstGroup_failsWith "IC") _) fun _ => ?_
    refine .bind (firstGroup_failsWith "vk_alpha_1" _) fun _ => ?_
    refine .bind (secondGroup_failsWith "vk_beta_2" _) fun _ => ?_
    refine .bind (secondGroup_failsWith "vk_gamma_2" _) fun _ => ?_
    exact .bind (secondGroup_failsWith "vk_delta_2" _) fun _ => .ok _

theorem VerifyingKey.ofText_failsWith (s : String) : FailsWith [.serialization] (ofText s) :=
  .bind (readDocument_failsWith _ s) fun j => ofJson_failsWith j

theorem Proof.ofJson_failsWith (j : Json) : FailsWith [.serialization] (ofJson j) := by
  refine .bind (firstGroup_failsWith "pi_a" _) fun _ => ?_
  refine .bind (secondGroup_failsWith "pi_b" _) fun _ => ?_
  exact .bind (firstGroup_failsWith "pi_c" _) fun _ => .ok _

theorem verify_failsWith (c : Circuit) (key : String) (d : ProofDocument) :
    FailsWith [.invalidSignature, .serialization] (verify c key d) := by
  have hdocument : [FaultKind.serialization] ⊆ [.invalidSignature, .serialization] := by decide
  refine .bind ((c.checkSignals_failsWith d.signals).mono (by decide)) fun _ => ?_
  refine .bind ((VerifyingKey.ofText_failsWith key).mono hdocument) fun k => ?_
  split
  · refine .bind (.mapM (fun n => .reported (by decide) _) _) fun signals => ?_
    exact .bind ((Proof.ofJson_failsWith d.proof).mono hdocument) fun p => .ok _
  · exact .error (List.mem_cons_self ..)

theorem Contract.code_failsWith (c : Circuit) (key : String) : FailsWith [.serialization] (code c key) := by
  refine .bind (VerifyingKey.ofText_failsWith key) fun k => .bind ?_ fun _ => .ok _
  unfold make
  split
  · exact .ok _
  · exact .own _

end Groth16

end Vouch

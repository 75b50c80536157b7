import Vouch.Groth16.Key
import Vouch.Proofs.Json.Places
import Vouch.Proofs.Result

/-! Keys and proofs read back.

Both groups write and read coordinates so that they are read back, and zeros are those of no point
(`PointGroup.Lawful`). So a point is read back exactly if it belongs to its group and is not at
infinity (`PointGroup.read_json_iff`), and keys and proofs of such points are (`ofJson_toJson`,
`ofText_written`). -/
namespace Vouch.Groth16

open Pairing
open Json (Place)
open Weierstrass (Point)

/-! ### Coordinates -/

theorem readBase_decimal (part : String) (a : Base) : readBase part (.decimal a.val) = .ok a := by
  have hread : readDecimal (toString a.val) = .ok a.val := by
    rw [readDecimal, Decimal.read?_toString]
  rw [readBase, Json.decimal, Json.asString?]
  dsimp only
  rw [hread]
  exact dif_pos a.isLt

theorem readQuadratic_quadraticJson (part : String) (a : Quadratic) :
    readQuadratic part (quadraticJson a) = .ok a := by
  rw [readQuadratic, quadraticJson, Json.asArray?]
  dsimp only
  rw [readBase_decimal, readBase_decimal]
  rfl

/-! ### Points -/

/-- The point that is read where a point was written. -/
def written {F : Type} [Zero F] (p : Point F) : Point F :=
  .affine (coordinates p).1 (coordinates p).2

namespace PointGroup

variable {F : Type} {g : PointGroup F} {part : String}

theorem contains_of_read {j : Json} {p : Point F} (h : g.read part j = .ok p) : g.contains p = true := by
  obtain ⟨q, -, h⟩ := Result.bind_eq_ok_iff.1 h
  obtain ⟨rfl, hcontains⟩ := Result.checked_eq_ok_iff.1 h
  exact hcontains

variable [Zero F] [One F]

/-- What is written of a coordinate is read as it, and what is written for the point at infinity is no
point of the group. -/
structure Lawful (g : PointGroup F) : Prop where
  coordinate : ∀ part x, g.readCoordinate part (g.coordinateJson x) = .ok x
  integral : ∀ x, (g.coordinateJson x).Integral
  origin : g.contains (written .infinity) = false

/-- The point belongs to the group and has coordinates. -/
def Finite (g : PointGroup F) (p : Point F) : Prop :=
  p ≠ .infinity ∧ g.contains p = true

theorem read_json_eq (h : g.Lawful) (p : Point F) :
    g.read part (g.json p) =
      if g.contains (written p) then .ok (written p) else .error (.document (g.fault part)) := by
  have hpoint : readPoint (g.readCoordinate part) part (g.json p) = .ok (written p) := by
    unfold json written
    generalize coordinates p = q
    rw [readPoint, Json.asArray?]
    dsimp only
    rw [h.coordinate, h.coordinate]
    rfl
  rw [read, hpoint]
  rfl

/-- A point is read back exactly if it has coordinates, and never as another one. -/
theorem read_json_iff (h : g.Lawful) {p q : Point F} : g.read part (g.json p) = .ok q ↔ q = p ∧ g.Finite p := by
  rw [read_json_eq h, Result.checked_eq_ok_iff]
  cases p with
  | infinity => simp [h.origin, Finite]
  | affine x y => exact and_congr_right fun _ => ⟨fun h => ⟨nofun, h⟩, And.right⟩

theorem Lawful.read_json (h : g.Lawful) {p : Point F} (hp : g.Finite p) : g.read part (g.json p) = .ok p :=
  (read_json_iff h).2 ⟨rfl, hp⟩

theorem Lawful.integral_json (h : g.Lawful) (p : Point F) : (g.json p).Integral := by
  unfold json
  exact .array (by simp [h.integral])

theorem json?_json {room : Nat} (h : ∀ x, (Place.of room (g.coordinateJson x)).json? = some (g.coordinateJson x))
    (p : Point F) : (Place.of (room + 1) (g.json p)).json? = some (g.json p) := by
  unfold json
  generalize coordinates p = q
  refine Place.json?_of_array room ?_
  simp only [List.forall_mem_cons]
  exact ⟨h _, h _, h _, List.forall_mem_nil _⟩

end PointGroup

theorem lawful_firstGroup : firstGroup.Lawful where
  coordinate := readBase_decimal
  integral _ := .string _
  origin := by decide

theorem lawful_secondGroup : secondGroup.Lawful where
  coordinate := readQuadratic_quadraticJson
  integral _ := .array (by simp [Json.decimal, Json.Integral.string])
  origin := by decide +kernel

/-! ### Places -/

section

variable (room : Nat)

theorem json?_decimal (n : Nat) : (Place.of room (.decimal n)).json? = some (.decimal n) :=
  Place.json?_of_string room _

theorem json?_quadraticJson (a : Quadratic) :
    (Place.of (room + 1) (quadraticJson a)).json? = some (quadraticJson a) := by
  refine Place.json?_of_array room ?_
  simp only [List.forall_mem_cons]
  exact ⟨json?_decimal room _, json?_decimal room _, List.forall_mem_nil _⟩

theorem json?_firstGroup (p : G1) : (Place.of (room + 1) (firstGroup.json p)).json? = some (firstGroup.json p) :=
  PointGroup.json?_json (fun _ => json?_decimal room _) p

theorem json?_secondGroup (p : G2) : (Place.of (room + 2) (secondGroup.json p)).json? = some (secondGroup.json p) :=
  PointGroup.json?_json (fun _ => json?_quadraticJson room _) p

end

/-! ### Values -/

namespace VerifyingKey

/-- All points of the key have coordinates. -/
structure Finite (k : VerifyingKey) : Prop where
  alpha : firstGroup.Finite k.alpha
  beta : secondGroup.Finite k.beta
  gamma : secondGroup.Finite k.gamma
  delta : secondGroup.Finite k.delta
  inputs : ∀ p ∈ k.inputs, firstGroup.Finite p

/-- The members of a key's document. -/
def fields (k : VerifyingKey) : List (String × Json) :=
  [("protocol", .string "groth16"), ("curve", .string "bn128"),
    ("nPublic", .natural k.signalCount), ("vk_alpha_1", firstGroup.json k.alpha),
    ("vk_beta_2", secondGroup.json k.beta), ("vk_gamma_2", secondGroup.json k.gamma),
    ("vk_delta_2", secondGroup.json k.delta),
    ("IC", .array (k.inputs.map firstGroup.json))]

theorem nodup_fields (k : VerifyingKey) : (k.fields.map Prod.fst).Nodup := by
  have hnames : ["protocol", "curve", "nPublic", "vk_alpha_1", "vk_beta_2", "vk_gamma_2", "vk_delta_2",
      "IC"].Nodup := by decide
  exact hnames

theorem member_toJson {k : VerifyingKey} {name : String} {j : Json} (h : (name, j) ∈ k.fields) :
    k.toJson.member name = j :=
  Json.member_of_mem k.nodup_fields h

/-- What a key is read from is what its points were written as. -/
theorem ofJson_toJson_eq (k : VerifyingKey) :
    ofJson k.toJson = do
      let inputs ← (k.inputs.map firstGroup.json).mapM (firstGroup.read "IC")
      let alpha ← firstGroup.read "vk_alpha_1" (firstGroup.json k.alpha)
      let beta ← secondGroup.read "vk_beta_2" (secondGroup.json k.beta)
      let gamma ← secondGroup.read "vk_gamma_2" (secondGroup.json k.gamma)
      let delta ← secondGroup.read "vk_delta_2" (secondGroup.json k.delta)
      return ⟨alpha, beta, gamma, delta, inputs⟩ := by
  have hic : k.toJson.member "IC" = .array (k.inputs.map firstGroup.json) := member_toJson (by simp [fields])
  have halpha : k.toJson.member "vk_alpha_1" = firstGroup.json k.alpha := member_toJson (by simp [fields])
  have hbeta : k.toJson.member "vk_beta_2" = secondGroup.json k.beta := member_toJson (by simp [fields])
  have hgamma : k.toJson.member "vk_gamma_2" = secondGroup.json k.gamma := member_toJson (by simp [fields])
  have hdelta : k.toJson.member "vk_delta_2" = secondGroup.json k.delta := member_toJson (by simp [fields])
  rw [ofJson, hic, halpha, hbeta, hgamma, hdelta, Json.asArray?]

/-- **A key of such points is read back from its value.** -/
theorem ofJson_toJson {k : VerifyingKey} (h : k.Finite) : ofJson k.toJson = .ok k := by
  have hinputs : (k.inputs.map firstGroup.json).mapM (firstGroup.read "IC") = .ok k.inputs := by
    rw [Result.mapM_eq_ok_iff, List.forall₂_map_left_iff, List.forall₂_same]
    exact fun p hp => lawful_firstGroup.read_json (h.inputs p hp)
  rw [ofJson_toJson_eq, hinputs, lawful_firstGroup.read_json h.alpha, lawful_secondGroup.read_json h.beta,
    lawful_secondGroup.read_json h.gamma, lawful_secondGroup.read_json h.delta]
  rfl

theorem integral_toJson (k : VerifyingKey) : k.toJson.Integral := by
  refine Json.integral_object ?_
  simp only [List.forall_mem_cons]
  have hfirst (p : G1) := lawful_firstGroup.integral_json p
  have hsecond (p : G2) := lawful_secondGroup.integral_json p
  exact ⟨.string _, .string _, .natural _, hfirst _, hsecond _, hsecond _, hsecond _,
    .array (List.forall_mem_map.2 fun p _ => hfirst p), List.forall_mem_nil _⟩

theorem json?_toJson {k : VerifyingKey} (hcount : k.signalCount < 2 ^ 64) (room : Nat) :
    (Place.of (room + 3) k.toJson).json? = some k.toJson := by
  have hinputs : (Place.of (room + 2) (.array (k.inputs.map firstGroup.json))).json? =
      some (.array (k.inputs.map firstGroup.json)) :=
    Place.json?_of_array (room + 1) (List.forall_mem_map.2 fun p _ => json?_firstGroup room p)
  refine Place.json?_of_object (room + 2) ?_
  simp only [List.forall_mem_cons]
  exact ⟨Place.json?_of_string _ _, Place.json?_of_string _ _, Place.json?_of_natural _ hcount,
    json?_firstGroup (room + 1) _, json?_secondGroup room _, json?_secondGroup room _,
    json?_secondGroup room _, hinputs, List.forall_mem_nil _⟩

/-- **A key of such points is read back from its text.** -/
theorem ofText_written {k : VerifyingKey} (h : k.Finite) (hcount : k.signalCount < 2 ^ 64) :
    ofText k.toJson.text = .ok k := by
  have hplace : (Place.of Json.greatestDepth k.toJson).json? = some k.toJson := json?_toJson hcount 124
  have hread : readDocument Place.json? k.toJson.text = .ok k.toJson := by
    rw [readDocument, Json.read?_text _ k.integral_toJson, hplace]
  rw [ofText, hread]
  exact ofJson_toJson h

end VerifyingKey

namespace Proof

/-- All points of the proof have coordinates. -/
structure Finite (p : Proof) : Prop where
  a : firstGroup.Finite p.a
  b : secondGroup.Finite p.b
  c : firstGroup.Finite p.c

/-- The members of a proof's value. -/
def fields (p : Proof) : List (String × Json) :=
  [("pi_a", firstGroup.json p.a), ("pi_b", secondGroup.json p.b), ("pi_c", firstGroup.json p.c),
    ("protocol", .string "groth16"), ("curve", .string "bn128")]

theorem nodup_fields (p : Proof) : (p.fields.map Prod.fst).Nodup := by
  have hnames : ["pi_a", "pi_b", "pi_c", "protocol", "curve"].Nodup := by decide
  exact hnames

theorem member_toJson {p : Proof} {name : String} {j : Json} (h : (name, j) ∈ p.fields) :
    p.toJson.member name = j :=
  Json.member_of_mem p.nodup_fields h

theorem ofJson_toJson_eq (p : Proof) :
    ofJson p.toJson = do
      let a ← firstGroup.read "pi_a" (firstGroup.json p.a)
      let b ← secondGroup.read "pi_b" (secondGroup.json p.b)
      let c ← firstGroup.read "pi_c" (firstGroup.json p.c)
      return ⟨a, b, c⟩ := by
  have ha : p.toJson.member "pi_a" = firstGroup.json p.a := member_toJson (by simp [fields])
  have hb : p.toJson.member "pi_b" = secondGroup.json p.b := member_toJson (by simp [fields])
  have hc : p.toJson.member "pi_c" = firstGroup.json p.c := member_toJson (by simp [fields])
  rw [ofJson, ha, hb, hc]

/-- **A proof of such points is read back from its value.** -/
theorem ofJson_toJson {p : Proof} (h : p.Finite) : ofJson p.toJson = .ok p := by
  rw [ofJson_toJson_eq, lawful_firstGroup.read_json h.a, lawful_secondGroup.read_json h.b,
    lawful_firstGroup.read_json h.c]
  rfl

end Proof

/-! ### Generators -/

/-- The generator of the first group. -/
def g1 : G1 :=
  .affine 1 2

/-- The generator of the second group. -/
def g2 : G2 :=
  .affine
    ⟨10857046999023057135944570762232829481370756359578518086990519993285655852781,
      11559732032986387107991004021392285783925812861821192530917403151452391805634⟩
    ⟨8495653923123431417604973247489272438418190587263600148770280649306958101930,
      4082367875863433681332203403145435568316851327593401208105741076214120093531⟩

theorem finite_g1 : firstGroup.Finite g1 :=
  ⟨nofun, by decide +kernel⟩

theorem finite_g2 : secondGroup.Finite g2 :=
  ⟨nofun, by decide +kernel⟩

/-- A key of generators that takes `n` public signals. -/
def generatorKey (n : Nat) : VerifyingKey :=
  ⟨g1, g2, g2, g2, List.replicate (n + 1) g1⟩

theorem finite_generatorKey (n : Nat) : (generatorKey n).Finite :=
  ⟨finite_g1, finite_g2, finite_g2, finite_g2, fun _ hp => List.eq_of_mem_replicate hp ▸ finite_g1⟩

/-- A proof of generators. -/
def generatorProof : Proof :=
  ⟨g1, g2, g1⟩

theorem finite_generatorProof : generatorProof.Finite :=
  ⟨finite_g1, finite_g2, finite_g1⟩

end Vouch.Groth16

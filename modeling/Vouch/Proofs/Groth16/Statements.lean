import Mathlib.Data.List.Forall2
import Vouch.Groth16.Contract
import Vouch.Proofs.Aligned
import Vouch.Proofs.Circuit.Written
import Vouch.Proofs.Groth16.Source

/-! The statements of a contract.

Each statement of a contract whose names are single words reads back as what it was written
for: a constant (`declares_constants`), an assignment to the key (`keySizes_items`,
`keyEntries_items`) or a requirement (`condition?_requirement`). -/
namespace Vouch.Groth16

open Circuit (IsName)
open Circuit.Source (IsPart words wordsOf words_phrase words_sentence wordsOf_append_blank wordsOf_word
  not_mem_intercalate)
open Listing (Item rows oneLine_line oneLine_enter row_line row_enter)
open Pairing (G1 G2)

namespace Source

/-! ### Statements -/

/-- The text stands within one statement. -/
def IsPlain (s : String) : Prop :=
  ';' ∉ s.toList ∧ '\n' ∉ s.toList

instance (s : String) : Decidable (IsPlain s) :=
  inferInstanceAs (Decidable (_ ∧ _))

@[simp] theorem isPlain_append {a b : String} : IsPlain (a ++ b) ↔ IsPlain a ∧ IsPlain b := by
  simp only [IsPlain, String.toList_append, List.mem_append, not_or]
  exact and_and_and_comm

@[simp] theorem isPlain_repr (n : Nat) : IsPlain n.repr :=
  ⟨(Circuit.spelled_repr n).not_mem (by decide), (Circuit.spelled_repr n).not_mem (by decide)⟩

theorem blank_not_mem_repr (n : Nat) : ' ' ∉ n.repr.toList :=
  (Circuit.spelled_repr n).not_mem (by decide)

theorem isPlain_name {name : String} (h : IsName name) : IsPlain name :=
  ⟨h.spelled.not_mem (by decide), h.spelled.not_mem (by decide)⟩

/-- One word within a statement. -/
structure IsWord (s : String) : Prop where
  part : IsPart s
  plain : IsPlain s

instance (s : String) : Decidable (IsWord s) :=
  decidable_of_iff (IsPart s ∧ IsPlain s) ⟨fun h => ⟨h.1, h.2⟩, fun h => ⟨h.part, h.plain⟩⟩

theorem isWord_of_plain {s : String} (hne : s.toList ≠ []) (hblank : ' ' ∉ s.toList) (h : IsPlain s) :
    IsWord s :=
  ⟨⟨h.1, by rw [wordsOf_word hne hblank, String.ofList_toList]⟩, h⟩

theorem isWord_name {name : String} (h : IsName name) : IsWord name :=
  isWord_of_plain h.toList_ne_nil (h.spelled.not_mem (by decide)) (isPlain_name h)

theorem isWord_repr (n : Nat) : IsWord n.repr :=
  isWord_of_plain (by simp) (blank_not_mem_repr n) (isPlain_repr n)

theorem oneLine_statement {parts : List String} (h : ∀ s ∈ parts, IsPlain s) :
    (Item.line (" ".intercalate parts ++ ";")).OneLine := by
  have hparts := not_mem_intercalate (c := '\n') (by decide) fun s hs => (h s hs).2
  have hsemicolon : '\n' ∉ ";".toList := by decide
  simp only [Item.OneLine, Item.chars, String.toList_append, List.mem_append, not_or]
  exact ⟨hparts, hsemicolon⟩

/-- The item is a statement of these words. -/
structure Says (i : Item) (ws : List String) : Prop where
  text : i = .line (" ".intercalate ws ++ ";")
  words : ∀ s ∈ ws, IsWord s

theorem Says.row_eq {i : Item} {ws : List String} (h : Says i ws) : i.row = ws := by
  rw [h.text]
  exact words_phrase (fun s hs => (h.words s hs).part) 0

theorem Says.oneLine {i : Item} {ws : List String} (h : Says i ws) : i.OneLine := by
  rw [h.text]
  exact oneLine_statement fun s hs => (h.words s hs).plain

/-- The item is an assignment to that word. -/
structure Sets (i : Item) (target value : String) : Prop where
  text : i = .line (" ".intercalate [target, "=", value] ++ ";")
  target : IsWord target
  value : IsPlain value

theorem Sets.row_eq {i : Item} {target value : String} (h : Sets i target value) :
    i.row = target :: "=" :: wordsOf value.toList := by
  have hequals : IsPart "=" := by decide
  have hplain : ∀ s ∈ [target, "=", value], ';' ∉ s.toList := by
    simp [h.target.part.1, h.value.1]
  have hwords := words_sentence hplain 0
  simp only [List.flatMap_cons, List.flatMap_nil, h.target.part.2, hequals.2, List.append_nil] at hwords
  rw [h.text]
  exact hwords

theorem Sets.oneLine {i : Item} {target value : String} (h : Sets i target value) : i.OneLine := by
  have hequals : IsPlain "=" := by decide
  rw [h.text]
  exact oneLine_statement (by simp [h.target.plain, h.value, hequals])

end Source

namespace Contract

open Source

/-- The names that a contract is written with are single words. -/
structure Named (c : Contract) : Prop where
  places : ∀ place ∈ c.places, IsWord place.1
  requirements : ∀ r ∈ c.requirements, IsName r.signal

/-! ### Constants -/

/-- What the constants of a contract say. -/
def declared (c : Contract) : List (String × Nat) :=
  [("TYPE_ID", c.schemaId), ("NUM_PUBLIC_SIGNALS", c.signalCount), ("SNARK_SCALAR_FIELD", fieldOrder)] ++
    c.places

/-- The item declares that constant. -/
def Declares (i : Item) (constant : String × Nat) : Prop :=
  i.OneLine ∧ constant? i.row = some constant

theorem declares_public {i : Item} {name : String} {n : Nat} (hname : IsWord name)
    (htext : i = .line (" ".intercalate ["uint256", "public", "constant", name, "=", n.repr] ++ ";")) :
    Declares i (name, n) := by
  have hwords : IsName "uint256" ∧ IsName "public" ∧ IsName "constant" := by decide
  have hequals : IsWord "=" := by decide
  have hspelled : Says i ["uint256", "public", "constant", name, "=", n.repr] :=
    ⟨htext, by simp [isWord_name, hwords, hequals, hname, isWord_repr]⟩
  have hread : Decimal.read? n.repr = some n := Decimal.read?_toString n
  refine ⟨hspelled.oneLine, ?_⟩
  rw [hspelled.row_eq, constant?, hread]
  rfl

theorem declares_private {i : Item} {name : String} {n : Nat} (hname : IsWord name)
    (htext : i = .line (" ".intercalate ["uint256", "constant", name, "=", n.repr] ++ ";")) :
    Declares i (name, n) := by
  have hwords : IsName "uint256" ∧ IsName "constant" := by decide
  have hequals : IsWord "=" := by decide
  have hspelled : Says i ["uint256", "constant", name, "=", n.repr] :=
    ⟨htext, by simp [isWord_name, hwords, hequals, hname, isWord_repr]⟩
  have hread : Decimal.read? n.repr = some n := Decimal.read?_toString n
  refine ⟨hspelled.oneLine, ?_⟩
  rw [hspelled.row_eq, constant?, hread]
  rfl

def placeItem (place : String × Nat) : Item :=
  .line s!"uint256 public constant {place.1} = {place.2};"

theorem constants_eq (c : Contract) : c.constants =
    .line s!"uint256 public constant TYPE_ID = {c.schemaId};" ::
      .line s!"uint256 public constant NUM_PUBLIC_SIGNALS = {c.signalCount};" ::
      .line s!"uint256 constant SNARK_SCALAR_FIELD = {fieldOrder};" :: c.places.map placeItem :=
  rfl

theorem declares_constants {c : Contract} (h : c.Named) : List.Forall₂ Declares c.constants c.declared := by
  have htype (n : Nat) : Declares (.line s!"uint256 public constant TYPE_ID = {n};") ("TYPE_ID", n) :=
    declares_public (isWord_name (by decide)) (by simp [toString, ← String.toList_inj])
  have hcount (n : Nat) :
      Declares (.line s!"uint256 public constant NUM_PUBLIC_SIGNALS = {n};") ("NUM_PUBLIC_SIGNALS", n) :=
    declares_public (isWord_name (by decide)) (by simp [toString, ← String.toList_inj])
  have hfield (n : Nat) :
      Declares (.line s!"uint256 constant SNARK_SCALAR_FIELD = {n};") ("SNARK_SCALAR_FIELD", n) :=
    declares_private (isWord_name (by decide)) (by simp [toString, ← String.toList_inj])
  have hplace : ∀ place ∈ c.places, Declares (placeItem place) place := fun place hplace =>
    declares_public (h.places place hplace) (by simp [placeItem, toString, ← String.toList_inj])
  rw [constants_eq]
  exact .cons (htype _) (.cons (hcount _) (.cons (hfield _)
    (List.forall₂_map_left_iff.2 (List.forall₂_same.2 hplace))))

/-! ### Points -/

theorem isPlain_g1Text (p : G1) : IsPlain (g1Text p) := by
  have hparts : IsPlain "Pairing.G1Point(" ∧ IsPlain ", " ∧ IsPlain ")" := by simp [IsPlain]
  unfold g1Text
  generalize coordinates p = q
  obtain ⟨x, y⟩ := q
  simp [toString, hparts]

theorem isPlain_quadraticText (a : Pairing.Quadratic) : IsPlain (quadraticText a) := by
  have hparts : IsPlain "[" ∧ IsPlain ", " ∧ IsPlain "]" := by simp [IsPlain]
  simp [quadraticText, toString, hparts]

theorem isPlain_g2Text (p : G2) : IsPlain (g2Text p) := by
  have hparts : IsPlain "Pairing.G2Point(" ∧ IsPlain ", " ∧ IsPlain ")" := by simp [IsPlain]
  unfold g2Text
  generalize coordinates p = q
  obtain ⟨x, y⟩ := q
  simp [toString, hparts, isPlain_quadraticText]

/-- The points that are not in the array. -/
def points (k : VerifyingKey) : List (String × String) :=
  [("vk.alfa1", g1Text k.alpha), ("vk.beta2", g2Text k.beta), ("vk.gamma2", g2Text k.gamma),
    ("vk.delta2", g2Text k.delta)]

def pointItem (point : String × String) : Item :=
  .line s!"{point.1} = {point.2};"

def arrayItem (n : Nat) : Item :=
  .line s!"vk.IC = new Pairing.G1Point[]({n});"

def entryItem (entry : G1 × Nat) : Item :=
  .line s!"vk.IC[{entry.2}] = {g1Text entry.1};"

theorem keyItems_eq (k : VerifyingKey) : keyItems k =
    (points k).map pointItem ++ arrayItem k.inputs.length :: k.inputs.zipIdx.map entryItem := by
  simp [keyItems, points, pointItem, arrayItem, entryItem, toString]

theorem sets_pointItem {name value : String} (hname : IsWord name) (hvalue : IsPlain value) :
    Sets (pointItem (name, value)) name value where
  text := by simp [pointItem, toString, ← String.toList_inj]
  target := hname
  value := hvalue

theorem sets_point (k : VerifyingKey) : ∀ point ∈ points k, Sets (pointItem point) point.1 point.2 := by
  have hnames : IsWord "vk.alfa1" ∧ IsWord "vk.beta2" ∧ IsWord "vk.gamma2" ∧ IsWord "vk.delta2" := by decide
  obtain ⟨halpha, hbeta, hgamma, hdelta⟩ := hnames
  simp only [points, List.forall_mem_cons]
  exact ⟨sets_pointItem halpha (isPlain_g1Text _), sets_pointItem hbeta (isPlain_g2Text _),
    sets_pointItem hgamma (isPlain_g2Text _), sets_pointItem hdelta (isPlain_g2Text _), List.forall_mem_nil _⟩

theorem sets_array (n : Nat) :
    Sets (arrayItem n) "vk.IC" ("new Pairing.G1Point[](" ++ n.repr ++ ")") where
  text := by simp [arrayItem, toString, ← String.toList_inj]
  target := by decide
  value := by
    have hparts : IsPlain "new Pairing.G1Point[](" ∧ IsPlain ")" := by simp [IsPlain]
    simp [hparts]

theorem sets_entry (entry : G1 × Nat) :
    Sets (entryItem entry) ("vk.IC[" ++ entry.2.repr ++ "]") (g1Text entry.1) where
  text := by simp [entryItem, toString, ← String.toList_inj]
  target := by
    have hparts : IsPlain "vk.IC[" ∧ IsPlain "]" := by simp [IsPlain]
    exact isWord_of_plain (by simp) (by simpa using blank_not_mem_repr entry.2) (by simp [hparts])
  value := isPlain_g1Text entry.1

/-- Every statement about the key is an assignment to a part of it. -/
theorem exists_sets (k : VerifyingKey) : ∀ i ∈ keyItems k, ∃ target value,
    Sets i target value ∧ target.toList.head? = some 'v' := by
  have hnames : ∀ point ∈ points k, point.1.toList.head? = some 'v' := by
    simp only [points, List.forall_mem_cons]
    exact ⟨by decide, by decide, by decide, by decide, List.forall_mem_nil _⟩
  have hpoints : ∀ i ∈ (points k).map pointItem, ∃ target value,
      Sets i target value ∧ target.toList.head? = some 'v' :=
    List.forall_mem_map.2 fun point hpoint =>
      ⟨point.1, point.2, sets_point k point hpoint, hnames point hpoint⟩
  have hentries : ∀ i ∈ k.inputs.zipIdx.map entryItem, ∃ target value,
      Sets i target value ∧ target.toList.head? = some 'v' :=
    List.forall_mem_map.2 fun entry _ => ⟨_, _, sets_entry entry, by simp⟩
  rw [keyItems_eq]
  exact List.forall_mem_append.2 ⟨hpoints, List.forall_mem_cons.2 ⟨⟨_, _, sets_array _, by decide⟩, hentries⟩⟩

theorem entry?_entryItem (entry : G1 × Nat) : entry? (entryItem entry).row = some entry.2 := by
  have hplace : "vk.IC[" ++ entry.2.repr ++ "]" =
      String.ofList ("vk.IC".toList ++ '[' :: (entry.2.repr.toList ++ [']'])) := by
    simp [← String.toList_inj]
  rw [(sets_entry entry).row_eq, entry?, hplace, numberIn?_append (by simp) (by decide)]

/-- Only the array itself is made with a size. -/
theorem size?_of_sets {i : Item} {target value : String} (h : Sets i target value) (hne : target ≠ "vk.IC") :
    size? i.row = none := by
  rw [h.row_eq]
  unfold size?
  split
  · rename_i heq
    exact absurd (List.cons.inj heq).1 hne
  · rfl

theorem size?_entryItem (entry : G1 × Nat) : size? (entryItem entry).row = none := by
  have hne : "vk.IC[" ++ entry.2.repr ++ "]" ≠ "vk.IC" := by simp [← String.toList_inj]
  exact size?_of_sets (sets_entry entry) hne

theorem size?_arrayItem (n : Nat) : size? (arrayItem n).row = some n := by
  have htext : ("new Pairing.G1Point[](" ++ n.repr ++ ")").toList =
      "new".toList ++ ' ' :: ("Pairing.G1Point[](" ++ n.repr ++ ")").toList := by
    simp
  have hblank : ' ' ∉ ("Pairing.G1Point[](" ++ n.repr ++ ")").toList := by
    simpa using blank_not_mem_repr n
  have hplace : "Pairing.G1Point[](" ++ n.repr ++ ")" =
      String.ofList ("Pairing.G1Point[]".toList ++ '(' :: (n.repr.toList ++ [')'])) := by
    simp [← String.toList_inj]
  rw [(sets_array n).row_eq, htext, wordsOf_append_blank, wordsOf_word (by simp) (by simp),
    wordsOf_word (by simp) hblank, String.ofList_toList, String.ofList_toList, List.singleton_append, size?,
    hplace, numberIn?_append (by simp) (by decide)]

/-- Only the array has places. -/
theorem entry?_of_sets {i : Item} {target value : String} (h : Sets i target value)
    (hplace : '[' ∉ target.toList) : entry? i.row = none := by
  rw [h.row_eq, entry?, numberIn?_of_not_mem hplace]

theorem rows_keyItems (k : VerifyingKey) : (keyItems k).map Item.row =
    (points k).map (fun point => (pointItem point).row) ++
      (arrayItem k.inputs.length).row :: k.inputs.zipIdx.map (fun entry => (entryItem entry).row) := by
  rw [keyItems_eq]
  simp only [List.map_append, List.map_cons, List.map_map, Function.comp_def]

theorem keySizes_items (k : VerifyingKey) :
    ((keyItems k).map Item.row).filterMap size? = [k.inputs.length] := by
  have hpoints : ∀ point ∈ points k, point.1 ≠ "vk.IC" := by
    simp only [points, List.forall_mem_cons]
    exact ⟨by decide, by decide, by decide, by decide, List.forall_mem_nil _⟩
  have hfront : ((points k).map (fun point => (pointItem point).row)).filterMap size? = [] :=
    List.filterMap_eq_nil_iff.2 <| List.forall_mem_map.2 fun point hpoint =>
      size?_of_sets (sets_point k point hpoint) (hpoints point hpoint)
  have hback : (k.inputs.zipIdx.map (fun entry => (entryItem entry).row)).filterMap size? = [] :=
    List.filterMap_eq_nil_iff.2 <| List.forall_mem_map.2 fun entry _ => size?_entryItem entry
  rw [rows_keyItems, List.filterMap_append, List.filterMap_cons_some (size?_arrayItem _), hfront, hback,
    List.nil_append]

theorem keyEntries_items (k : VerifyingKey) :
    ((keyItems k).map Item.row).filterMap entry? = List.range k.inputs.length := by
  have hpoints : ∀ point ∈ points k, '[' ∉ point.1.toList := by
    simp only [points, List.forall_mem_cons]
    exact ⟨by decide, by decide, by decide, by decide, List.forall_mem_nil _⟩
  have hfront : ((points k).map (fun point => (pointItem point).row)).filterMap entry? = [] :=
    List.filterMap_eq_nil_iff.2 <| List.forall_mem_map.2 fun point hpoint =>
      entry?_of_sets (sets_point k point hpoint) (hpoints point hpoint)
  have harray : entry? (arrayItem k.inputs.length).row = none := entry?_of_sets (sets_array _) (by decide)
  have hback : (k.inputs.zipIdx.map (fun entry => (entryItem entry).row)).filterMap entry? =
      k.inputs.zipIdx.map Prod.snd := by
    rw [List.filterMap_map]
    simp only [Function.comp_def, entry?_entryItem]
    exact congrFun List.filterMap_eq_map _
  rw [rows_keyItems, List.filterMap_append, List.filterMap_cons_none harray, hfront, hback,
    List.nil_append, List.zipIdx_map_snd, List.range_eq_range']

/-! ### Requirements -/

theorem isPlain_bound (b : Bound) : IsPlain b.text := by
  cases b with
  | scalarField => decide
  | literal n => exact isPlain_repr n

theorem not_mem_bound (b : Bound) : ' ' ∉ b.text.toList ∧ ',' ∉ b.text.toList := by
  cases b with
  | scalarField => decide
  | literal n => exact ⟨blank_not_mem_repr n, (Circuit.spelled_repr n).not_mem (by decide)⟩

def requirementWords (r : Requirement) : List String :=
  ["require(signals[" ++ r.index.repr ++ "]", "<", r.bound.text ++ ",", "\"" ++ r.signal, "out", "of",
    "range\")"]

theorem says_requirement {r : Requirement} (h : IsName r.signal) :
    Says (requirementItem r) (requirementWords r) where
  text := by simp [requirementItem, requirementWords, toString, ← String.toList_inj]
  words := by
    have hparts : IsPlain "require(signals[" ∧ IsPlain "]" ∧ IsPlain "," ∧ IsPlain "\"" := by simp [IsPlain]
    have hsignal : ' ' ∉ r.signal.toList := h.spelled.not_mem (by decide)
    simp only [requirementWords, List.forall_mem_cons]
    refine ⟨?_, by decide, ?_, ?_, by decide, by decide, by decide, List.forall_mem_nil _⟩
    · exact isWord_of_plain (by simp) (by simpa using blank_not_mem_repr r.index) (by simp [hparts])
    · exact isWord_of_plain (by simp) (by simpa using (not_mem_bound r.bound).1)
        (by simp [hparts, isPlain_bound])
    · exact isWord_of_plain (by simp) (by simpa using hsignal) (by simp [hparts, isPlain_name h])

/-- The limit that a requirement is written as. -/
def limitOf (r : Requirement) : Limit :=
  ⟨r.index, r.bound.text, r.signal⟩

theorem condition?_requirement {r : Requirement} (h : IsName r.signal) :
    condition? (requirementItem r).row = some (.below (limitOf r)) := by
  have hindex : "require(signals[" ++ r.index.repr ++ "]" =
      String.ofList ("require(signals".toList ++ '[' :: (r.index.repr.toList ++ [']'])) := by
    simp [← String.toList_inj]
  have hbound : r.bound.text ++ "," = String.ofList (r.bound.text.toList ++ ',' :: []) := by
    simp
  have hsubject : subject ["\"" ++ r.signal, "out", "of", "range\")"] = r.signal := by
    simp [subject]
  rw [(says_requirement h).row_eq, requirementWords, condition?, hsubject, hindex,
    numberIn?_append (by simp) (by decide), hbound, before_append (not_mem_bound _).2]
  rfl

end Contract

end Vouch.Groth16

import Vouch.Proofs.Groth16.Statements

/-! Contracts and their source.

A contract whose names are single words says in its text what it is made of: its constants
(`constants_text`), the array of its key (`keySizes_text`, `keyEntries_text`) and all that its
check requires (`conditions?_text`). -/
namespace Vouch.Groth16

open Circuit.Source (words wordsOf wordsOf_append_blank wordsOf_word)
open Listing (Item rows oneLine_line oneLine_enter row_line row_enter)

namespace Contract

open Source

/-! ### Its parts -/

def keyHeader : String :=
  "function verifyingKey() internal pure returns (Pairing.VerifyingKey memory vk)"

def checkHeader : String :=
  "function checkPublicSignals(uint256[] calldata signals) internal pure"

def verifyHeader : String :=
  "function verifyProof(uint256[8] calldata proof, uint256[] calldata signals) external view returns (bool)"

def contractItem (c : Contract) : Item :=
  .enter s!"contract CredentialVerifier_{c.schemaId}"

/-- The item that requires the number of signals. -/
def countItem : Item :=
  .line "require(signals.length == NUM_PUBLIC_SIGNALS, \"bad signal count\");"

/-- What stands before the functions. -/
def front (c : Contract) : List Item :=
  preamble ++ c.contractItem :: (c.constants ++ [Item.blank])

/-- What stands behind the check. -/
def back : List Item :=
  .blank :: (Listing.block verifyHeader verifyItems ++ [Item.leave])

theorem items_eq (c : Contract) : c.items =
    c.front ++ .enter keyHeader :: (keyItems c.key ++ .leave ::
      (.blank :: .enter checkHeader :: (c.checkItems ++ .leave :: back))) := by
  simp [items, front, back, Listing.block, keyHeader, checkHeader, verifyHeader, contractItem]

/-- The first line. -/
def termsItem : Item :=
  .line s!"// SPDX-License-Identifier: {terms}"

theorem chars_termsItem : termsItem.chars = "// SPDX-License-Identifier: ".toList ++ terms.toList := by
  simp [termsItem, Item.chars, toString]

theorem preamble_eq : preamble =
    [termsItem, .line "pragma solidity ^0.8.0;", .blank,
      .line "import \x7bPairing\x7d from \"./Pairing.sol\";", .blank] := by
  simp [preamble, termsItem, toString, languageVersion, pairingLibrary]

theorem oneLine_preamble : ∀ i ∈ preamble, i.OneLine := by
  have hterms : termsItem.OneLine := by
    rw [Item.OneLine, chars_termsItem]
    decide
  have hblank : Item.blank.OneLine := by decide
  simp only [preamble_eq, List.forall_mem_cons]
  exact ⟨hterms, oneLine_line (by decide), hblank, oneLine_line (by decide), hblank, List.forall_mem_nil _⟩

theorem oneLine_front {c : Contract} (h : c.Named) : ∀ i ∈ c.front, i.OneLine := by
  have hheader : c.contractItem.OneLine := by
    simp [contractItem, Item.OneLine, Item.chars, toString, Circuit.newline_not_mem_toDigits]
  have hconstants : ∀ i ∈ c.constants, i.OneLine := by
    intro i hi
    obtain ⟨_, _, hdeclares⟩ := Aligned.exists_of_mem (declares_constants h) hi
    exact hdeclares.1
  have hblank : ∀ i ∈ [Item.blank], i.OneLine := by decide
  exact List.forall_mem_append.2 ⟨oneLine_preamble, List.forall_mem_cons.2 ⟨hheader,
    List.forall_mem_append.2 ⟨hconstants, hblank⟩⟩⟩

theorem oneLine_back : ∀ i ∈ back, i.OneLine := by
  have hleave : Item.leave.OneLine := by decide
  have hblank : Item.blank.OneLine := by decide
  simp only [back, Listing.block, verifyItems, List.forall_mem_cons, List.forall_mem_append]
  exact ⟨hblank, ⟨⟨oneLine_enter (by decide), oneLine_line (by decide), oneLine_line (by decide),
    List.forall_mem_nil _⟩, hleave, List.forall_mem_nil _⟩, hleave, List.forall_mem_nil _⟩

theorem oneLine_items {c : Contract} (h : c.Named) : ∀ i ∈ c.items, i.OneLine := by
  have hkey : ∀ i ∈ keyItems c.key, i.OneLine := fun i hi =>
    let ⟨_, _, hsets, _⟩ := exists_sets c.key i hi
    hsets.oneLine
  have hcount : countItem.OneLine := oneLine_line (by decide)
  have hcheck : ∀ i ∈ c.checkItems, i.OneLine :=
    List.forall_mem_cons.2 ⟨hcount, List.forall_mem_map.2 fun r hr =>
      (says_requirement (h.requirements r hr)).oneLine⟩
  have hleave : Item.leave.OneLine := by decide
  have hblank : Item.blank.OneLine := by decide
  rw [items_eq]
  simp only [List.forall_mem_append, List.forall_mem_cons]
  exact ⟨oneLine_front h, oneLine_enter (by decide), hkey, hleave, hblank, oneLine_enter (by decide), hcheck,
    hleave, oneLine_back⟩

/-! ### Reading it back -/

/-- A row that declares no constant and opens no function. -/
def Silent (row : List String) : Prop :=
  constant? row = none ∧ function? row = none

theorem silent_of_head? {row : List String} (hconstant : row.head? ≠ some "uint256")
    (hfunction : row.head? ≠ some "function") : Silent row :=
  ⟨constant?_of_head? hconstant, function?_of_head? hfunction⟩

/-- Neither word begins with another character. -/
theorem silent_of_first {word : String} {c : Char} (h : word.toList.head? = some c) (hu : c ≠ 'u') (hf : c ≠ 'f')
    (rest : List String) : Silent (word :: rest) := by
  have hne (other : String) (hother : other.toList.head? ≠ some c) : some word ≠ some other := fun heq =>
    hother (Option.some.inj heq ▸ h)
  have huint : "uint256".toList.head? = some 'u' := by decide
  have hfunction : "function".toList.head? = some 'f' := by decide
  refine silent_of_head? (hne _ ?_) (hne _ ?_)
  · rw [huint]
    exact fun heq => hu (Option.some.inj heq).symm
  · rw [hfunction]
    exact fun heq => hf (Option.some.inj heq).symm

instance (row : List String) : Decidable (Silent row) :=
  inferInstanceAs (Decidable (constant? row = none ∧ function? row = none))

theorem silent_line {cs : List Char} (h : Silent (words cs)) : Silent (Item.line (String.ofList cs)).row := by
  rwa [row_line]

theorem function?_enter {cs : List Char} {f : String} (h : function? (words (cs ++ [' ', '\x7b'])) = some f) :
    function? (Item.enter (String.ofList cs)).row = some f := by
  rwa [row_enter]

theorem silent_blank : Silent Item.blank.row := ⟨rfl, rfl⟩

theorem silent_leave : Silent Item.leave.row := ⟨rfl, rfl⟩

theorem function?_keyHeader : function? (Item.enter keyHeader).row = some "verifyingKey" :=
  function?_enter (by decide)

theorem function?_checkHeader : function? (Item.enter checkHeader).row = some "checkPublicSignals" :=
  function?_enter (by decide)

theorem function?_verifyHeader : function? (Item.enter verifyHeader).row = some "verifyProof" :=
  function?_enter (by decide)

theorem silent_preamble : ∀ i ∈ preamble, Silent i.row := by
  have hterms : Silent termsItem.row := by
    rw [Item.row, chars_termsItem]
    decide
  simp only [preamble_eq, List.forall_mem_cons]
  exact ⟨hterms, silent_line (by decide), silent_blank, silent_line (by decide),
    silent_blank, List.forall_mem_nil _⟩

theorem silent_contractItem (c : Contract) : Silent c.contractItem.row := by
  have htext : c.contractItem.chars =
      "contract".toList ++ ' ' :: (s!"CredentialVerifier_{c.schemaId}".toList ++ [' ', '\x7b']) := by
    simp [contractItem, Item.chars, toString]
  have hhead : c.contractItem.row.head? = some "contract" := by
    rw [Item.row, htext, head?_words (by decide) (by decide) (by decide), String.ofList_toList]
  exact silent_of_head? (by rw [hhead]; decide) (by rw [hhead]; decide)

/-! ### Rows -/

/-- The words of the items, line by line. -/
def rowsOf (is : List Item) : List (List String) :=
  is.map Item.row

theorem rows_text {c : Contract} (h : c.Named) : rows c.text =
    rowsOf c.front ++ (Item.enter keyHeader).row :: (rowsOf (keyItems c.key) ++ ["\x7d"] ::
      ([] :: (Item.enter checkHeader).row :: (rowsOf c.checkItems ++ ["\x7d"] :: (rowsOf back ++ [[]])))) := by
  rw [text, Listing.rows_text c.items (oneLine_items h), items_eq]
  simp only [rowsOf, List.map_append, List.map_cons, List.append_assoc, List.cons_append]
  rfl

theorem silent_keyItems (k : VerifyingKey) : ∀ row ∈ rowsOf (keyItems k), Silent row :=
  List.forall_mem_map.2 fun i hi => by
    obtain ⟨target, value, hsets, hfirst⟩ := exists_sets k i hi
    rw [hsets.row_eq]
    exact silent_of_first hfirst (by decide) (by decide) _

theorem silent_checkItems {c : Contract} (h : c.Named) : ∀ row ∈ rowsOf c.checkItems, Silent row := by
  have hcount : Silent countItem.row := silent_line (by decide)
  refine List.forall_mem_cons.2 ⟨hcount, List.forall_mem_map.2 (List.forall_mem_map.2 fun r hr => ?_)⟩
  have hfirst : ("require(signals[" ++ r.index.repr ++ "]").toList.head? = some 'r' := by simp
  rw [(says_requirement (h.requirements r hr)).row_eq]
  exact silent_of_first hfirst (by decide) (by decide) _

/-! ### Constants -/

theorem constant?_of_function? {row : List String} {f : String} (h : function? row = some f) :
    constant? row = none := by
  refine constant?_of_head? fun hhead => ?_
  have hnone : function? row = none := function?_of_head? (by rw [hhead]; decide)
  cases h.symm.trans hnone

theorem function?_of_constant? {row : List String} {constant : String × Nat} (h : constant? row = some constant) :
    function? row = none := by
  refine function?_of_head? fun hhead => ?_
  have hnone : constant? row = none := constant?_of_head? (by rw [hhead]; decide)
  cases h.symm.trans hnone

theorem filterMap_silent {rs : List (List String)} (h : ∀ row ∈ rs, Silent row) : rs.filterMap constant? = [] :=
  List.filterMap_eq_nil_iff.2 fun row hrow => (h row hrow).1

theorem filterMap_declares {is : List Item} {constants : List (String × Nat)}
    (h : List.Forall₂ Declares is constants) : (rowsOf is).filterMap constant? = constants := by
  induction h with
  | nil => rfl
  | cons hdeclares _ ih => exact (List.filterMap_cons_some hdeclares.2).trans (congrArg _ ih)

theorem rowsOf_front (c : Contract) : rowsOf c.front =
    rowsOf preamble ++ c.contractItem.row :: (rowsOf c.constants ++ [[]]) := by
  simp only [rowsOf, front, List.map_append, List.map_cons, List.map_nil]
  rfl

theorem silent_rowsOf_preamble : ∀ row ∈ rowsOf preamble, Silent row :=
  List.forall_mem_map.2 silent_preamble

theorem constants_front {c : Contract} (h : c.Named) : (rowsOf c.front).filterMap constant? = c.declared := by
  rw [rowsOf_front, List.filterMap_append, filterMap_silent silent_rowsOf_preamble,
    List.filterMap_cons_none (silent_contractItem c).1, List.filterMap_append,
    filterMap_declares (declares_constants h)]
  exact List.append_nil _

theorem constants_back : (rowsOf back).filterMap constant? = [] := by
  have hcall : Silent (Item.line "checkPublicSignals(signals);").row := silent_line (by decide)
  have hreturn : Silent (Item.line "return Pairing.verifyGroth16(verifyingKey(), proof, signals);").row :=
    silent_line (by decide)
  refine List.filterMap_eq_nil_iff.2 (List.forall_mem_map.2 ?_)
  simp only [back, Listing.block, verifyItems, List.forall_mem_cons, List.forall_mem_append]
  exact ⟨silent_blank.1, ⟨⟨constant?_of_function? function?_verifyHeader, hcall.1, hreturn.1,
    List.forall_mem_nil _⟩, silent_leave.1, List.forall_mem_nil _⟩, silent_leave.1, List.forall_mem_nil _⟩

/-- **The constants that a contract declares are those that it is made of.** -/
theorem constants_text {c : Contract} (h : c.Named) : Source.constants c.text = c.declared := by
  have hkey := filterMap_silent (silent_keyItems c.key)
  have hcheck := filterMap_silent (silent_checkItems h)
  have hblank : constant? [] = none := rfl
  have hbrace : constant? ["\x7d"] = none := rfl
  rw [Source.constants, rows_text h, List.filterMap_append, constants_front h,
    List.filterMap_cons_none (constant?_of_function? function?_keyHeader), List.filterMap_append, hkey,
    List.filterMap_cons_none hbrace, List.filterMap_cons_none hblank,
    List.filterMap_cons_none (constant?_of_function? function?_checkHeader), List.filterMap_append, hcheck,
    List.filterMap_cons_none hbrace, List.filterMap_append, constants_back]
  exact List.append_nil _

/-! ### Functions -/

theorem function?_front {c : Contract} (h : c.Named) : ∀ row ∈ rowsOf c.front, function? row = none := by
  have hconstants : ∀ row ∈ rowsOf c.constants, function? row = none := List.forall_mem_map.2 fun i hi =>
    let ⟨_, _, hdeclares⟩ := Aligned.exists_of_mem (declares_constants h) hi
    function?_of_constant? hdeclares.2
  rw [rowsOf_front]
  exact List.forall_mem_append.2 ⟨fun row hrow => (silent_rowsOf_preamble row hrow).2,
    List.forall_mem_cons.2 ⟨(silent_contractItem c).2, List.forall_mem_append.2 ⟨hconstants,
      List.forall_mem_singleton.2 rfl⟩⟩⟩

theorem brace_not_mem_keyItems (k : VerifyingKey) : ["\x7d"] ∉ rowsOf (keyItems k) := by
  intro hmem
  obtain ⟨i, hi, hrow⟩ := List.mem_map.1 hmem
  obtain ⟨target, value, hsets, -⟩ := exists_sets k i hi
  rw [hsets.row_eq] at hrow
  cases (List.cons.inj hrow).2

theorem body_key {c : Contract} (h : c.Named) : body "verifyingKey" c.text = rowsOf (keyItems c.key) := by
  rw [body, rows_text h]
  exact bodyIn_eq (fun row hrow => by rw [function?_front h row hrow]; exact nofun) function?_keyHeader
    (brace_not_mem_keyItems c.key) _

theorem brace_not_mem_checkItems {c : Contract} (h : c.Named) : ["\x7d"] ∉ rowsOf c.checkItems := by
  have hcount : ["\x7d"] ≠ countItem.row := by
    have hrow : words "require(signals.length == NUM_PUBLIC_SIGNALS, \"bad signal count\");".toList ≠ ["\x7d"] := by
      decide
    exact hrow.symm
  refine List.not_mem_cons_of_ne_of_not_mem hcount fun hmem => ?_
  obtain ⟨i, hi, hrow⟩ := List.mem_map.1 hmem
  obtain ⟨r, hr, rfl⟩ := List.mem_map.1 hi
  rw [(says_requirement (h.requirements r hr)).row_eq] at hrow
  cases (List.cons.inj hrow).2

theorem body_check {c : Contract} (h : c.Named) :
    body "checkPublicSignals" c.text = rowsOf c.checkItems := by
  have hfront : ∀ row ∈ rowsOf c.front ++ (Item.enter keyHeader).row ::
      (rowsOf (keyItems c.key) ++ ["\x7d"] :: [[]]), function? row ≠ some "checkPublicSignals" := by
    refine List.forall_mem_append.2 ⟨fun row hrow => by rw [function?_front h row hrow]; exact nofun,
      List.forall_mem_cons.2 ⟨by rw [function?_keyHeader]; decide, List.forall_mem_append.2
        ⟨fun row hrow => by rw [(silent_keyItems _ row hrow).2]; exact nofun, by decide⟩⟩⟩
  have hrows : rows c.text = (rowsOf c.front ++ (Item.enter keyHeader).row ::
      (rowsOf (keyItems c.key) ++ ["\x7d"] :: [[]])) ++ (Item.enter checkHeader).row ::
      (rowsOf c.checkItems ++ ["\x7d"] :: (rowsOf back ++ [[]])) := by
    rw [rows_text h]
    simp only [List.append_assoc, List.cons_append, List.nil_append]
  rw [body, hrows]
  exact bodyIn_eq hfront function?_checkHeader (brace_not_mem_checkItems h) _

/-! ### The key and the check -/

/-- **The array of the key is made once, with a place for each of its points.** -/
theorem keySizes_text {c : Contract} (h : c.Named) : keySizes c.text = [c.key.inputs.length] := by
  rw [keySizes, body_key h]
  exact keySizes_items c.key

/-- **Each place of the array is filled once, in order.** -/
theorem keyEntries_text {c : Contract} (h : c.Named) :
    keyEntries c.text = List.range c.key.inputs.length := by
  rw [keyEntries, body_key h]
  exact keyEntries_items c.key

theorem rowsOf_checkItems (c : Contract) : rowsOf c.checkItems =
    countItem.row :: c.requirements.map fun r => (requirementItem r).row := by
  have hitems : c.checkItems = countItem :: c.requirements.map requirementItem := rfl
  simp only [rowsOf, hitems, List.map_cons, List.map_map, Function.comp_def]

theorem condition?_countItem : condition? countItem.row = some (.count "NUM_PUBLIC_SIGNALS") := by
  have hrow : condition? (words "require(signals.length == NUM_PUBLIC_SIGNALS, \"bad signal count\");".toList) =
      some (.count "NUM_PUBLIC_SIGNALS") := by
    decide
  exact hrow

/-- **The check requires the number of signals and what the requirements say**, in order, and
nothing else. -/
theorem conditions?_text {c : Contract} (h : c.Named) : conditions? c.text =
    some (.count "NUM_PUBLIC_SIGNALS" :: c.requirements.map fun r => .below (limitOf r)) := by
  have hlimits : (c.requirements.map fun r => (requirementItem r).row).mapM condition? =
      some (c.requirements.map fun r => .below (limitOf r)) := by
    rw [List.mapM_map]
    refine Aligned.mapM_eq_some_map fun r hr => ?_
    rw [Function.comp_apply]
    exact condition?_requirement (h.requirements r hr)
  rw [conditions?, body_check h, rowsOf_checkItems, List.mapM_cons, condition?_countItem, hlimits]
  rfl

end Contract

end Vouch.Groth16

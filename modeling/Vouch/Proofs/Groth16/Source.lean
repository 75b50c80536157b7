import Vouch.Text.Decimal
import Vouch.Proofs.Circuit.Spelling
import Vouch.Proofs.Listing

/-! Contract source read back.

A contract leaves this library as text, so what it refuses is what its text says. A row of
source declares a constant, opens a function, assigns, or requires a condition; the rows of a
function are those up to the next brace that stands alone. A contract accepts public signals
if every statement of its check is a condition that can be read and holds (`Accepts`). Nothing
here knows how contracts are written. -/
namespace Vouch.Groth16.Source

open Listing (rows)
open Text (cut?)
open Circuit.Source (words wordsOf_append_blank wordsOf_word)

/-! ### Words -/

/-- What stands before a mark in a word. -/
def before (mark : Char) (word : String) : String :=
  String.ofList (word.toList.takeWhile (· != mark))

/-- The number in brackets behind a name. -/
def numberIn? (opening closing : Char) (name word : String) : Option Nat := do
  let (start, rest) ← cut? opening word.toList
  let (digits, _) ← cut? closing rest
  if String.ofList start = name then Decimal.read? (String.ofList digits) else none

/-! ### Rows -/

def constant? : List String → Option (String × Nat)
  | ["uint256", "public", "constant", name, "=", value] => (Decimal.read? value).map (name, ·)
  | ["uint256", "constant", name, "=", value] => (Decimal.read? value).map (name, ·)
  | _ => none

/-- The name of the function that is opened. -/
def function? : List String → Option String
  | "function" :: declarator :: _ => some (before '(' declarator)
  | _ => none

/-- A signal has to be below a bound, a number or the name of a constant. -/
structure Limit where
  index : Nat
  bound : String
  /-- The signal that the message names. -/
  signal : String
deriving DecidableEq, Repr

inductive Condition where
  /-- There are as many signals as that constant says. -/
  | count (bound : String)
  | below (l : Limit)
deriving DecidableEq, Repr

def Condition.limit? : Condition → Option Limit
  | .count _ => none
  | .below l => some l

/-- The first word of a message, without the quote. -/
def subject (message : List String) : String :=
  String.ofList ((message.headD "").toList.drop 1)

def condition? : List String → Option Condition
  | "require(signals.length" :: "==" :: bound :: _ => some (.count (before ',' bound))
  | value :: "<" :: bound :: message =>
    (numberIn? '[' ']' "require(signals" value).map fun index =>
      .below ⟨index, before ',' bound, subject message⟩
  | _ => none

/-- How many points the array of the key is made for. -/
def size? : List String → Option Nat
  | ["vk.IC", "=", "new", array] => numberIn? '(' ')' "Pairing.G1Point[]" array
  | _ => none

/-- The place of the array that is assigned to. -/
def entry? : List String → Option Nat
  | target :: "=" :: _ => numberIn? '[' ']' "vk.IC" target
  | _ => none

/-- The name of a constant that says where a signal stands. -/
def isPlaceName (name : String) : Bool :=
  "_INDEX".toList.isSuffixOf name.toList

/-! ### Contracts -/

def constants (code : String) : List (String × Nat) :=
  (rows code).filterMap constant?

/-- The rows of a function, out of those of a contract. -/
def bodyIn (f : String) (rs : List (List String)) : List (List String) :=
  (rs.dropWhile (function? · != some f)).tail.takeWhile (· != ["\x7d"])

def body (f code : String) : List (List String) :=
  bodyIn f (rows code)

/-- What the check of the public signals requires, if all of it can be read. -/
def conditions? (code : String) : Option (List Condition) :=
  (body "checkPublicSignals" code).mapM condition?

def limits (code : String) : List Limit :=
  ((conditions? code).getD []).filterMap Condition.limit?

/-- The sizes that the array of the key is made with. -/
def keySizes (code : String) : List Nat :=
  (body "verifyingKey" code).filterMap size?

/-- The places of the array in the order in which they are filled. -/
def keyEntries (code : String) : List Nat :=
  (body "verifyingKey" code).filterMap entry?

/-- What a word stands for: a number, or the value of a constant. -/
def value? (constants : List (String × Nat)) (word : String) : Option Nat :=
  match Decimal.read? word with
  | some n => some n
  | none => (constants.find? (·.1 == word)).map (·.2)

/-- The condition holds of the signals. A place behind the last one is an error on chain. -/
def Condition.Holds (constants : List (String × Nat)) (signals : List Nat) : Condition → Prop
  | .count bound => value? constants bound = some signals.length
  | .below l => ∃ n b, signals[l.index]? = some n ∧ value? constants l.bound = some b ∧ n < b

/-- The contract does not refuse these public signals. -/
def Accepts (code : String) (signals : List Nat) : Prop :=
  ∃ conditions, conditions? code = some conditions ∧
    ∀ c ∈ conditions, c.Holds (constants code) signals

/-! ### Reading words -/

/-- The first word of a line that goes on behind it. -/
theorem head?_words {a : List Char} (hne : a ≠ []) (hblank : ' ' ∉ a) (hsemicolon : ';' ∉ a) (b : List Char) :
    (words (a ++ ' ' :: b)).head? = some (String.ofList a) := by
  have hpass : ∀ c ∈ a, (c != ';') = true := fun c hc => bne_iff_ne.2 fun he => hsemicolon (he ▸ hc)
  rw [words, List.takeWhile_append_of_pos hpass, List.takeWhile_cons_of_pos (by decide),
    wordsOf_append_blank, wordsOf_word hne hblank]
  rfl

theorem before_append {mark : Char} {word : String} (h : mark ∉ word.toList) (rest : List Char) :
    before mark (String.ofList (word.toList ++ mark :: rest)) = word := by
  rw [before, String.toList_ofList, Circuit.Source.takeWhile_bne h, String.ofList_toList]

theorem numberIn?_append {opening closing : Char} {name : String} (hname : opening ∉ name.toList)
    (hclosing : closing.isDigit = false) (n : Nat) (rest : List Char) :
    numberIn? opening closing name
      (String.ofList (name.toList ++ opening :: (n.repr.toList ++ closing :: rest))) = some n := by
  have hdigits : closing ∉ n.repr.toList := (Circuit.spelled_repr n).not_mem hclosing
  have hread : Decimal.read? n.repr = some n := Decimal.read?_toString n
  simp only [numberIn?, String.toList_ofList, Text.cut?_append hname, Text.cut?_append hdigits,
    String.ofList_toList, hread, Option.bind_eq_bind, Option.bind_some, if_true]

theorem numberIn?_of_not_mem {opening closing : Char} {name word : String} (h : opening ∉ word.toList) :
    numberIn? opening closing name word = none := by
  rw [numberIn?, Text.cut?_of_not_mem h]
  rfl

/-! ### Reading rows -/

theorem constant?_of_head? {row : List String} (h : row.head? ≠ some "uint256") : constant? row = none := by
  unfold constant?
  split
  · exact absurd rfl h
  · exact absurd rfl h
  · rfl

theorem function?_of_head? {row : List String} (h : row.head? ≠ some "function") : function? row = none := by
  unfold function?
  split
  · exact absurd rfl h
  · rfl

theorem bodyIn_eq {f : String} {front inner : List (List String)} {header : List String}
    (hfront : ∀ row ∈ front, function? row ≠ some f) (hheader : function? header = some f)
    (hinner : ["\x7d"] ∉ inner) (rest : List (List String)) :
    bodyIn f (front ++ header :: (inner ++ ["\x7d"] :: rest)) = inner := by
  have hskip : ∀ row ∈ front, (function? row != some f) = true := fun row hrow =>
    bne_iff_ne.2 (hfront row hrow)
  rw [bodyIn, List.dropWhile_append_of_pos hskip, List.dropWhile_cons_of_neg (by simp [hheader]),
    List.tail_cons, Circuit.Source.takeWhile_bne hinner]

theorem value?_toString (constants : List (String × Nat)) (n : Nat) :
    value? constants (toString n) = some n := by
  rw [value?, Decimal.read?_toString]

end Vouch.Groth16.Source

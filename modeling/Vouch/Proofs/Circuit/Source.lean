import Vouch.Proofs.Text.Parts

/-! Circuit source read back.

A circuit leaves this library as text, so what it declares and assigns is what its text
says. A line of source counts up to its semicolon, and its words tell whether it declares
an input, an output or a component, assigns to a wire, equates two values or does none of
this (`clauseOf`). Nothing here knows how sources are written. -/
namespace Vouch.Circuit

open Text (splitOn cut? splitOn_append_cons splitOn_of_not_mem)

namespace Source

/-! ### Reading -/

/-- What a line of source says. -/
inductive Clause where
  | input (name : String) (length : Option Nat)
  | output (name : String)
  | component (name gadget : String)
  /-- The words on both sides of `<==`. -/
  | assign (target value : List String)
  /-- The words on both sides of `===`. -/
  | equate (left right : List String)
  | other
deriving DecidableEq, Repr

def wordsOf (cs : List Char) : List String :=
  ((splitOn ' ' cs).filter (!·.isEmpty)).map String.ofList

/-- The words of a line up to its semicolon. -/
def words (line : List Char) : List String :=
  wordsOf (line.takeWhile (· != ';'))

/-- `name` or `name[length]`. -/
def declared (declarator : String) : String × Option Nat :=
  match cut? '[' declarator.toList with
  | none => (declarator, none)
  | some (name, length) => (String.ofList name, some (Decimal.value (length.takeWhile Char.isDigit)))

/-- The words left and right of a mark. -/
def sides (mark : String) (ws : List String) : List String × List String :=
  (ws.takeWhile (· != mark), (ws.dropWhile (· != mark)).tail)

def clauseOf (ws : List String) : Clause :=
  if ws.head? = some "//" then .other
  else if "<==" ∈ ws then .assign (sides "<==" ws).1 (sides "<==" ws).2
  else if "===" ∈ ws then .equate (sides "===" ws).1 (sides "===" ws).2
  else
    match ws with
    | ["signal", "input", declarator] => .input (declared declarator).1 (declared declarator).2
    | ["signal", "output", name] => .output name
    | ["component", name, "=", gadget] => .component name gadget
    | _ => .other

def lines (code : String) : List (List Char) :=
  splitOn '\n' code.toList

def clausesOf (ls : List (List Char)) : List Clause :=
  ls.map fun line => clauseOf (words line)

def clauses (code : String) : List Clause :=
  clausesOf (lines code)

def opening : List Char := "template Main() \x7b".toList

def closing : List Char := "\x7d".toList

/-- The clauses inside the main template. -/
def mainClauses (code : String) : List Clause :=
  clausesOf ((((lines code).dropWhile (· != opening)).tail).takeWhile (· != closing))

namespace Clause

def input? : Clause → Option (String × Option Nat)
  | .input name length => some (name, length)
  | _ => none

/-- The gadget of a component of that name. -/
def gadgetOf? (component : String) : Clause → Option String
  | .component name gadget => if name = component then some gadget else none
  | _ => none

/-- An assignment of one word to a wire that begins so. -/
def assignedUnder? (start : String) : Clause → Option (String × String)
  | .assign [target] [value] =>
    if start.toList.isPrefixOf target.toList then some (target, value) else none
  | _ => none

/-- The identifier that a clause declares. -/
def identifier? : Clause → Option String
  | .input name _ => some name
  | .output name => some name
  | .component name _ => some name
  | _ => none

end Clause

/-- The inputs that a source declares, each with its length if it is an array. -/
def inputs (code : String) : List (String × Option Nat) :=
  (clauses code).filterMap Clause.input?

/-- The identifiers that the main template declares. -/
def identifiers (code : String) : List String :=
  (mainClauses code).filterMap Clause.identifier?

/-! ### Words -/

@[simp] theorem wordsOf_nil : wordsOf [] = [] := rfl

theorem wordsOf_append_blank (a b : List Char) : wordsOf (a ++ ' ' :: b) = wordsOf a ++ wordsOf b := by
  simp [wordsOf, splitOn_append_cons]

theorem wordsOf_word {a : List Char} (hne : a ≠ []) (h : ' ' ∉ a) : wordsOf a = [String.ofList a] := by
  simp [wordsOf, splitOn_of_not_mem h, hne]

theorem wordsOf_blanks (n : Nat) (a : List Char) : wordsOf (List.replicate n ' ' ++ a) = wordsOf a := by
  induction n with
  | zero => rfl
  | succ n ih =>
    rw [List.replicate_succ, List.cons_append, ← List.nil_append (' ' :: _), wordsOf_append_blank, ih]
    rfl

theorem takeWhile_bne {α : Type} [BEq α] [LawfulBEq α] {x : α} {a : List α} (h : x ∉ a) (b : List α) :
    (a ++ x :: b).takeWhile (· != x) = a := by
  have hpass : ∀ c ∈ a, (c != x) = true := fun c hc => bne_iff_ne.2 fun he => h (he ▸ hc)
  rw [List.takeWhile_append_of_pos hpass]
  simp

theorem dropWhile_bne {α : Type} [BEq α] [LawfulBEq α] {x : α} {a : List α} (h : x ∉ a) (b : List α) :
    (a ++ x :: b).dropWhile (· != x) = x :: b := by
  have hpass : ∀ c ∈ a, (c != x) = true := fun c hc => bne_iff_ne.2 fun he => h (he ▸ hc)
  rw [List.dropWhile_append_of_pos hpass]
  simp

theorem words_semicolon {a : List Char} (h : ';' ∉ a) : words (a ++ [';']) = wordsOf a := by
  rw [words, takeWhile_bne h]

theorem sides_append {mark : String} {left : List String} (h : mark ∉ left) (right : List String) :
    sides mark (left ++ mark :: right) = (left, right) := by
  rw [sides, takeWhile_bne h, dropWhile_bne h, List.tail_cons]

theorem words_blanks (n : Nat) (a : List Char) : words (List.replicate n ' ' ++ a) = words a := by
  rw [words, List.takeWhile_append_of_pos, wordsOf_blanks, words]
  intro c hc
  rw [List.eq_of_mem_replicate hc]
  rfl

/-- The words of parts put together with blanks. -/
theorem wordsOf_intercalate (parts : List String) :
    wordsOf (" ".intercalate parts).toList = parts.flatMap fun s => wordsOf s.toList := by
  induction parts with
  | nil => simp
  | cons s rest ih =>
    cases rest with
    | nil => simp
    | cons t rest =>
      rw [String.intercalate_cons_cons, String.toList_append, String.toList_append, List.append_assoc,
        List.flatMap_cons, ← ih]
      exact wordsOf_append_blank s.toList (" ".intercalate (t :: rest)).toList

theorem not_mem_intercalate {c : Char} (hc : c ≠ ' ') {parts : List String}
    (h : ∀ s ∈ parts, c ∉ s.toList) : c ∉ (" ".intercalate parts).toList := by
  induction parts with
  | nil => simp
  | cons s rest ih =>
    have ⟨hs, hrest⟩ := List.forall_mem_cons.1 h
    cases rest with
    | nil => simpa using hs
    | cons t rest =>
      rw [String.intercalate_cons_cons, String.toList_append, String.toList_append, List.mem_append,
        List.mem_append, not_or, not_or]
      exact ⟨⟨hs, by simpa using hc⟩, ih hrest⟩

/-- A line that ends in a semicolon, part by part. -/
theorem words_sentence {parts : List String} (h : ∀ s ∈ parts, ';' ∉ s.toList) (n : Nat) :
    words (List.replicate n ' ' ++ (" ".intercalate parts ++ ";").toList) =
      parts.flatMap fun s => wordsOf s.toList := by
  rw [words_blanks, String.toList_append]
  exact (words_semicolon (not_mem_intercalate (by decide) h)).trans (wordsOf_intercalate parts)

end Source

end Vouch.Circuit

import Vouch.Listing
import Vouch.Proofs.Circuit.Source

/-! Listings read back.

The lines of a listing are its items, one line each, and their words do not depend on how
far they are indented (`rows_text`). -/
namespace Vouch

open Circuit.Source (words words_blanks)
open Text (splitOn)

namespace Listing

/-- The words of a source, line by line. -/
def rows (source : String) : List (List String) :=
  (splitOn '\n' source.toList).map words

namespace Item

/-- The characters of an item, not indented. -/
def chars : Item → List Char
  | .line text => text.toList
  | .blank => []
  | .enter header => header.toList ++ [' ', '\x7b']
  | .leave => ['\x7d']

/-- The words of an item. -/
def row (i : Item) : List String :=
  words i.chars

/-- The item is written on one line. -/
def OneLine (i : Item) : Prop :=
  '\n' ∉ i.chars

instance (i : Item) : Decidable i.OneLine :=
  inferInstanceAs (Decidable (¬ _))

end Item

/-! ### Literals

A literal is a list of characters to the kernel, but its own characters are decoded from bytes.
What is said about a literal is therefore looked at in the list. -/

theorem oneLine_line {cs : List Char} (h : '\n' ∉ cs) : (Item.line (String.ofList cs)).OneLine := by
  rwa [Item.OneLine, Item.chars, String.toList_ofList]

theorem oneLine_enter {cs : List Char} (h : '\n' ∉ cs) : (Item.enter (String.ofList cs)).OneLine := by
  rw [Item.OneLine, Item.chars, String.toList_ofList, List.mem_append, not_or]
  exact ⟨h, by decide⟩

theorem row_line (cs : List Char) : (Item.line (String.ofList cs)).row = words cs := by
  rw [Item.row, Item.chars, String.toList_ofList]

theorem row_enter (cs : List Char) : (Item.enter (String.ofList cs)).row = words (cs ++ [' ', '\x7b']) := by
  rw [Item.row, Item.chars, String.toList_ofList]

/-! ### Lines -/

/-- A line that is indented, without its end. -/
theorem exists_indented (depth : Nat) (text : String) (h : '\n' ∉ text.toList) :
    ∃ line, indented depth text = String.ofList (line ++ ['\n']) ∧ '\n' ∉ line ∧
      words line = words text.toList := by
  refine ⟨List.replicate (4 * depth) ' ' ++ text.toList, ?_, ?_, words_blanks _ _⟩
  · simp [indented, ← String.toList_inj]
  · simp [h]

/-- Each item is one line. -/
theorem exists_line (i : Item) (rest : List Item) (depth : Nat) (h : i.OneLine) :
    ∃ line depth', linesFrom depth (i :: rest) = String.ofList (line ++ ['\n']) :: linesFrom depth' rest ∧
      '\n' ∉ line ∧ words line = i.row := by
  cases i with
  | line text =>
    obtain ⟨line, htext, hline⟩ := exists_indented depth text h
    exact ⟨line, depth, by rw [linesFrom, htext], hline⟩
  | blank => exact ⟨[], depth, rfl, List.not_mem_nil, rfl⟩
  | enter header =>
    have hchars : (header ++ " \x7b").toList = (Item.enter header).chars := String.toList_append
    obtain ⟨line, htext, hline⟩ := exists_indented depth (header ++ " \x7b") (hchars ▸ h)
    rw [hchars] at hline
    exact ⟨line, depth + 1, by rw [linesFrom, htext], hline⟩
  | leave =>
    obtain ⟨line, htext, hline⟩ := exists_indented (depth - 1) "\x7d" (by decide)
    exact ⟨line, depth - 1, by rw [linesFrom, htext], hline⟩

theorem exists_lines (items : List Item) (depth : Nat) (h : ∀ i ∈ items, i.OneLine) :
    ∃ lines : List (List Char), linesFrom depth items = lines.map (fun line => String.ofList (line ++ ['\n'])) ∧
      (∀ line ∈ lines, '\n' ∉ line) ∧ lines.map words = items.map Item.row := by
  induction items generalizing depth with
  | nil => exact ⟨[], rfl, nofun, rfl⟩
  | cons i rest ih =>
    obtain ⟨hi, hrest⟩ := List.forall_mem_cons.1 h
    obtain ⟨line, depth', hfirst, hline, hrow⟩ := exists_line i rest depth hi
    obtain ⟨lines, htext, hlines, hrows⟩ := ih depth' hrest
    refine ⟨line :: lines, ?_, List.forall_mem_cons.2 ⟨hline, hlines⟩, ?_⟩
    · rw [hfirst, htext, List.map_cons]
    · rw [List.map_cons, List.map_cons, hrow, hrows]

/-- **The words of a listing are those of its items**, and nothing stands behind the last line. -/
theorem rows_text (items : List Item) (h : ∀ i ∈ items, i.OneLine) :
    rows (text items) = items.map Item.row ++ [[]] := by
  obtain ⟨lines, htext, hlines, hrows⟩ := exists_lines items 0 h
  have hchars : (text items).toList = lines.flatMap (· ++ ['\n']) := by
    rw [text, String.toList_join, htext, List.flatMap_map]
    simp only [String.toList_ofList]
  rw [rows, hchars, Text.splitOn_flatMap hlines, List.map_append, hrows]
  rfl

end Listing

end Vouch

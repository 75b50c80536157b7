import Vouch.Circuit
import Vouch.Proofs.Circuit.Source
import Vouch.Proofs.Circuit.Spelling

/-! Templates and their source.

Lines whose names are identifiers read back as they were written (`clauseOf_line`). A
source is the lines of its template between a preamble and an ending that say nothing, so
what it says inside the main template is what the lines say (`clauses_text`,
`mainClauses_text`). -/
namespace Vouch.Circuit

open Text (splitOn splitOn_append_cons splitOn_of_not_mem mem_of_mem_splitOn cut?_append cut?_of_not_mem)
open Listing (Item)

namespace Source

/-! ### Lines -/

theorem wordsOf_spelled {word : String} (hne : word.toList ≠ []) (h : Spelled isWordChar word) :
    wordsOf word.toList = [word] := by
  rw [wordsOf_word hne (h.not_mem (by decide)), String.ofList_toList]

theorem wordsOf_name {name : String} (h : IsName name) : wordsOf name.toList = [name] :=
  wordsOf_spelled h.toList_ne_nil h.word

theorem wordsOf_wire {w : Wire} (h : w.Named) : wordsOf w.text.toList = [w.text] :=
  wordsOf_spelled (Wire.toList_text_ne_nil h) (Wire.word h)

/-- A word with a character that no expression has does not occur in one. -/
theorem not_mem_wordsOf {text : String} (h : Spelled isExprChar text) (word : String)
    (hword : ¬ Spelled isExprChar word) : word ∉ wordsOf text.toList := by
  intro hmem
  obtain ⟨part, hpart, rfl⟩ := List.mem_map.1 hmem
  refine hword fun c hc => h c (mem_of_mem_splitOn (List.mem_filter.1 hpart).1 ?_)
  rwa [String.toList_ofList] at hc

end Source

/-- What a line of a template says once it is written. -/
def Line.clause : Line → Source.Clause
  | .blank | .comment _ => .other
  | .input name length => .input name length
  | .output name => .output name
  | .component name gadget => .component name gadget.text
  | .assign target value => .assign [target.text] (Source.wordsOf value.text.toList)
  | .equate left right => .equate (Source.wordsOf left.text.toList) (Source.wordsOf right.text.toList)

namespace Source

/-- The characters of an item inside that many blocks. -/
def written (depth : Nat) : Item → List Char
  | .line text => List.replicate (4 * depth) ' ' ++ text.toList
  | _ => []

theorem declared_name {name : String} (h : IsName name) : declared name = (name, none) := by
  rw [declared, cut?_of_not_mem (h.spelled.not_mem (by decide))]

theorem declared_array {name : String} (h : IsName name) (length : Nat) :
    declared (name ++ "[" ++ length.repr ++ "]") = (name, some length) := by
  have htext : (name ++ "[" ++ length.repr ++ "]").toList =
      name.toList ++ '[' :: (length.repr.toList ++ [']']) := by
    simp
  have hdigits : (length.repr.toList ++ [']']).takeWhile Char.isDigit = length.repr.toList := by
    rw [List.takeWhile_append_of_pos (spelled_repr length)]
    simp
  have hvalue : Decimal.value length.repr.toList = length := by
    simp [Decimal.value]
  rw [declared, htext, cut?_append (h.spelled.not_mem (by decide))]
  simp only [String.ofList_toList, hdigits, hvalue]

theorem clauseOf_input {declarator : String} (h : Spelled isWordChar declarator) :
    clauseOf ["signal", "input", declarator] =
      .input (declared declarator).1 (declared declarator).2 := by
  have hassign := h.ne "<==" (by decide)
  have hequate := h.ne "===" (by decide)
  simp [clauseOf, hassign.symm, hequate.symm]

theorem clauseOf_output {name : String} (h : Spelled isWordChar name) :
    clauseOf ["signal", "output", name] = .output name := by
  have hassign := h.ne "<==" (by decide)
  have hequate := h.ne "===" (by decide)
  simp [clauseOf, hassign.symm, hequate.symm]

theorem clauseOf_component {name gadget : String} (hname : Spelled isWordChar name)
    (hgadget : Spelled isWordChar gadget) :
    clauseOf ["component", name, "=", gadget] = .component name gadget := by
  have hassign := hname.ne "<==" (by decide)
  have hassign' := hgadget.ne "<==" (by decide)
  have hequate := hname.ne "===" (by decide)
  have hequate' := hgadget.ne "===" (by decide)
  simp [clauseOf, hassign.symm, hequate.symm, hassign'.symm, hequate'.symm]

theorem clauseOf_assign {target : String} (htarget : Spelled isWordChar target) (value : List String) :
    clauseOf ([target] ++ "<==" :: value) = .assign [target] value := by
  have hcomment := htarget.ne "//" (by decide)
  have hmark := htarget.ne "<==" (by decide)
  have hsides : sides "<==" ([target] ++ "<==" :: value) = ([target], value) :=
    sides_append (by simpa using hmark.symm) value
  unfold clauseOf
  rw [if_neg (by simpa using hcomment), if_pos (by simp), hsides]

theorem clauseOf_equate {left right : List String} (hcomment : "//" ∉ left)
    (hassign : "<==" ∉ left ++ "===" :: right) (hmark : "===" ∉ left) :
    clauseOf (left ++ "===" :: right) = .equate left right := by
  have hhead : (left ++ "===" :: right).head? ≠ some "//" := by
    cases left with
    | nil => simp
    | cons first rest => simpa using fun he : first = "//" => hcomment (he ▸ List.mem_cons_self)
  unfold clauseOf
  rw [if_neg hhead, if_neg hassign, if_pos (by simp), sides_append hmark]

theorem clauseOf_comment {ws : List String} (h : ws.head? = some "//") : clauseOf ws = .other := by
  unfold clauseOf
  rw [if_pos h]

theorem head?_words_comment (n : Nat) (text : List Char) :
    (words (List.replicate n ' ' ++ '/' :: '/' :: ' ' :: text)).head? = some "//" := by
  have htake : ('/' :: '/' :: ' ' :: text).takeWhile (· != ';') =
      ['/', '/'] ++ ' ' :: text.takeWhile (· != ';') := by
    simp
  rw [words_blanks, words, htake, wordsOf_append_blank, wordsOf_word (by decide) (by decide)]
  rfl

/-- A part of a line that is a single word. -/
def IsPart (s : String) : Prop :=
  ';' ∉ s.toList ∧ wordsOf s.toList = [s]

instance (s : String) : Decidable (IsPart s) :=
  inferInstanceAs (Decidable (_ ∧ _))

theorem words_phrase {parts : List String} (h : ∀ s ∈ parts, IsPart s)
    (n : Nat) : words (List.replicate n ' ' ++ (" ".intercalate parts ++ ";").toList) = parts := by
  rw [words_sentence fun s hs => (h s hs).1]
  induction parts with
  | nil => rfl
  | cons s rest ih =>
    have ⟨hs, hrest⟩ := List.forall_mem_cons.1 h
    rw [List.flatMap_cons, hs.2, ih hrest]
    rfl

theorem isPart_of_spelled {word : String} (hne : word.toList ≠ []) (h : Spelled isWordChar word) :
    IsPart word :=
  ⟨h.not_mem (by decide), wordsOf_spelled hne h⟩

theorem clauseOf_commentLine (text : String) (depth : Nat) :
    clauseOf (words (written depth (Line.comment text).item)) = .other := by
  have htext : written depth (Line.comment text).item =
      List.replicate (4 * depth) ' ' ++ '/' :: '/' :: ' ' :: text.toList := by
    simp [Line.item, written, toString]
  rw [htext, clauseOf_comment (head?_words_comment _ _)]

theorem words_input {declarator : String} (hne : declarator.toList ≠ [])
    (h : Spelled isWordChar declarator) (depth : Nat) :
    words (written depth (.line (" ".intercalate ["signal", "input", declarator] ++ ";"))) =
      ["signal", "input", declarator] := by
  have hsignal : IsPart "signal" := by decide
  have hinput : IsPart "input" := by decide
  exact words_phrase (by simp [hsignal, hinput, isPart_of_spelled hne h]) (4 * depth)

theorem clauseOf_inputLine {name : String} (h : IsName name) (length : Option Nat) (depth : Nat) :
    clauseOf (words (written depth (Line.input name length).item)) = .input name length := by
  have hword := h.word
  cases length with
  | none =>
    have htext : (Line.input name none).item =
        .line (" ".intercalate ["signal", "input", name] ++ ";") := by
      simp [Line.item, toString, ← String.toList_inj]
    rw [htext, words_input h.toList_ne_nil hword, clauseOf_input hword, declared_name h]
  | some length =>
    have htext : (Line.input name (some length)).item =
        .line (" ".intercalate ["signal", "input", name ++ "[" ++ length.repr ++ "]"] ++ ";") := by
      simp [Line.item, toString, ← String.toList_inj]
    have hspelled : Spelled isWordChar (name ++ "[" ++ length.repr ++ "]") := by
      simp [hword, word_repr]
    rw [htext, words_input (by simp) hspelled, clauseOf_input hspelled, declared_array h]

theorem clauseOf_outputLine {name : String} (h : IsName name) (depth : Nat) :
    clauseOf (words (written depth (Line.output name).item)) = .output name := by
  have hsignal : IsPart "signal" := by decide
  have houtput : IsPart "output" := by decide
  have hname := isPart_of_spelled h.toList_ne_nil h.word
  have htext : (Line.output name).item =
      .line (" ".intercalate ["signal", "output", name] ++ ";") := by
    simp [Line.item, toString, ← String.toList_inj]
  rw [htext, written, words_phrase (by simp [hsignal, houtput, hname]), clauseOf_output h.word]

theorem clauseOf_componentLine {name : String} (h : IsName name) (gadget : Gadget) (depth : Nat) :
    clauseOf (words (written depth (Line.component name gadget).item)) =
      .component name gadget.text := by
  have hcomponent : IsPart "component" := by decide
  have hequals : IsPart "=" := by decide
  have hname := isPart_of_spelled h.toList_ne_nil h.word
  have hgadget := isPart_of_spelled gadget.toList_text_ne_nil gadget.word
  have htext : (Line.component name gadget).item =
      .line (" ".intercalate ["component", name, "=", gadget.text] ++ ";") := by
    simp [Line.item, toString, ← String.toList_inj]
  rw [htext, written, words_phrase (by simp [hcomponent, hname, hequals, hgadget]),
    clauseOf_component h.word gadget.word]

/-- The words of two sides with a mark between them. -/
theorem words_sides {left mark right : String} (hleft : ';' ∉ left.toList) (hmark : IsPart mark)
    (hright : ';' ∉ right.toList) (depth : Nat) :
    words (written depth (.line (" ".intercalate [left, mark, right] ++ ";"))) =
      wordsOf left.toList ++ mark :: wordsOf right.toList := by
  have hsemi : ∀ s ∈ [left, mark, right], ';' ∉ s.toList := by
    simp [hleft, hmark.1, hright]
  rw [written, words_sentence hsemi, List.flatMap_cons, List.flatMap_cons, hmark.2, List.flatMap_cons,
    List.flatMap_nil, List.append_nil]
  rfl

theorem clauseOf_assignLine {target : Wire} {value : Expr} (htarget : target.Named)
    (hvalue : value.Named) (depth : Nat) :
    clauseOf (words (written depth (Line.assign target value).item)) =
      .assign [target.text] (wordsOf value.text.toList) := by
  have hword := Wire.word htarget
  have hspelled : Spelled isExprChar value.text := Expr.spelled hvalue false
  have htext : (Line.assign target value).item =
      .line (" ".intercalate [target.text, "<==", value.text] ++ ";") := by
    simp [Line.item, toString, ← String.toList_inj]
  rw [htext, words_sides (hword.not_mem (by decide)) (by decide) (hspelled.not_mem (by decide)),
    wordsOf_wire htarget]
  exact clauseOf_assign hword _

theorem clauseOf_equateLine {left right : Expr} (hleft : left.Named) (hright : right.Named)
    (depth : Nat) :
    clauseOf (words (written depth (Line.equate left right).item)) =
      .equate (wordsOf left.text.toList) (wordsOf right.text.toList) := by
  have hl : Spelled isExprChar left.text := Expr.spelled hleft false
  have hr : Spelled isExprChar right.text := Expr.spelled hright false
  have htext : (Line.equate left right).item =
      .line (" ".intercalate [left.text, "===", right.text] ++ ";") := by
    simp [Line.item, toString, ← String.toList_inj]
  have hassign : "<==" ∉ wordsOf left.text.toList ++ "===" :: wordsOf right.text.toList := by
    simp [not_mem_wordsOf hl "<==" (by decide), not_mem_wordsOf hr "<==" (by decide)]
  rw [htext, words_sides (hl.not_mem (by decide)) (by decide) (hr.not_mem (by decide))]
  exact clauseOf_equate (not_mem_wordsOf hl "//" (by decide)) hassign
    (not_mem_wordsOf hl "===" (by decide))

/-- **A line reads back as what was written.** -/
theorem clauseOf_line {l : Line} (h : l.Named) (depth : Nat) :
    clauseOf (words (written depth l.item)) = l.clause := by
  cases l with
  | blank => rfl
  | comment text => exact clauseOf_commentLine text depth
  | input name length => exact clauseOf_inputLine h length depth
  | output name => exact clauseOf_outputLine h depth
  | component name gadget => exact clauseOf_componentLine h gadget depth
  | assign target value => exact clauseOf_assignLine h.1 h.2 depth
  | equate left right => exact clauseOf_equateLine h.1 h.2 depth

/-! ### Whole sources -/

/-- An item that neither enters nor leaves a block, on one line. -/
def IsFlat : Item → Prop
  | .line text => '\n' ∉ text.toList
  | .blank => True
  | _ => False

theorem newline_not_mem_written {i : Item} (h : IsFlat i) (depth : Nat) : '\n' ∉ written depth i := by
  cases i with
  | line text =>
    have htext : '\n' ∉ text.toList := h
    simpa [written] using htext
  | _ => simp [written]

theorem linesFrom_append {items : List Item} (h : ∀ i ∈ items, IsFlat i) (depth : Nat)
    (rest : List Item) :
    Listing.linesFrom depth (items ++ rest) =
      (items.map fun i => String.ofList (written depth i ++ ['\n'])) ++
        Listing.linesFrom depth rest := by
  induction items with
  | nil => rfl
  | cons i items ih =>
    have ⟨hi, hitems⟩ := List.forall_mem_cons.1 h
    cases i with
    | line text =>
      have : Listing.indented depth text = String.ofList (written depth (.line text) ++ ['\n']) := by
        simp [Listing.indented, written, ← String.toList_inj]
      rw [List.cons_append, Listing.linesFrom, ih hitems, this]
      rfl
    | blank =>
      rw [List.cons_append, Listing.linesFrom, ih hitems]
      rfl
    | enter header => exact hi.elim
    | leave => exact hi.elim

theorem isFlat_line {l : Line} (h : l.Named) : IsFlat l.item := by
  have hname {name : String} (h : IsName name) : '\n' ∉ name.toList := h.spelled.not_mem (by decide)
  cases l with
  | blank => trivial
  | comment text =>
    have htext : '\n' ∉ text.toList := h
    simp [Line.item, IsFlat, toString, htext]
  | input name length =>
    cases length with
    | none => simp [Line.item, IsFlat, toString, hname h]
    | some length => simp [Line.item, IsFlat, toString, hname h, newline_not_mem_toDigits]
  | output name => simp [Line.item, IsFlat, toString, hname h]
  | component name gadget =>
    simp [Line.item, IsFlat, toString, hname h, gadget.word.not_mem (c := '\n') (by decide)]
  | assign target value =>
    simp [Line.item, IsFlat, toString, (Wire.word h.1).not_mem (c := '\n') (by decide), Expr.text,
      (Expr.spelled h.2 false).not_mem (c := '\n') (by decide)]
  | equate left right =>
    simp [Line.item, IsFlat, toString, Expr.text,
      (Expr.spelled h.1 false).not_mem (c := '\n') (by decide),
      (Expr.spelled h.2 false).not_mem (c := '\n') (by decide)]

/-- What stands before the main template. -/
def preamble (t : Template) : List Item :=
  [.line s!"pragma circom {Template.languageVersion};", .blank,
    .line s!"include \"{Template.library}\";", .blank, .line t.heading]

/-- What stands after its body. -/
def ending : List (List Char) :=
  [closing, [], "component main = Main();".toList]

theorem newline_not_mem_heading (t : Template) : '\n' ∉ t.heading.toList := by
  unfold Template.heading
  cases t.depth <;> simp [toString, newline_not_mem_toDigits]

theorem isFlat_preamble (t : Template) : ∀ i ∈ preamble t, IsFlat i := by
  simp only [preamble, List.forall_mem_cons]
  exact ⟨by unfold IsFlat; decide, trivial, by unfold IsFlat; decide, trivial,
    newline_not_mem_heading t, nofun⟩

/-- The lines of a template's text. -/
def linesOf (t : Template) : List (List Char) :=
  (preamble t).map (written 0) ++ opening :: t.body.map (fun l => written 1 l.item) ++ ending

theorem items_eq (t : Template) :
    t.items = preamble t ++ Listing.block "template Main()" (t.body.map Line.item) ++
      [Item.blank, Item.line "component main = Main();"] := by
  unfold Template.items preamble
  rfl

theorem linesFrom_items {t : Template} (h : ∀ l ∈ t.body, l.Named) :
    Listing.linesFrom 0 t.items = (linesOf t).map fun l => String.ofList (l ++ ['\n']) := by
  have hbody : ∀ i ∈ t.body.map Line.item, IsFlat i := by
    intro i hi
    obtain ⟨l, hl, rfl⟩ := List.mem_map.1 hi
    exact isFlat_line (h l hl)
  have hopening : Listing.indented 0 ("template Main()" ++ " \x7b") =
      String.ofList (opening ++ ['\n']) := by decide
  have hending : Listing.linesFrom 1 [.leave, .blank, .line "component main = Main();"] =
      ending.map fun l => String.ofList (l ++ ['\n']) := by
    decide
  rw [items_eq, Listing.block, List.append_assoc, linesFrom_append (isFlat_preamble t),
    List.append_assoc, List.cons_append, Listing.linesFrom, hopening, linesFrom_append hbody,
    List.singleton_append, hending]
  simp only [linesOf, List.map_append, List.map_cons, List.map_map, List.append_assoc, List.cons_append,
    Function.comp_def]

theorem lines_text {t : Template} (h : ∀ l ∈ t.body, l.Named) : lines t.text = linesOf t ++ [[]] := by
  have hflat : ∀ l ∈ linesOf t, '\n' ∉ l := by
    simp only [linesOf, List.mem_append, List.mem_map, List.mem_cons]
    rintro l ((⟨i, hi, rfl⟩ | rfl | ⟨line, hline, rfl⟩) | hl)
    · exact newline_not_mem_written (isFlat_preamble t i hi) 0
    · decide
    · exact newline_not_mem_written (isFlat_line (h line hline)) 1
    · revert l
      decide
  have htext : t.text.toList = (linesOf t).flatMap (· ++ ['\n']) := by
    rw [Template.text, Listing.text, String.toList_join, linesFrom_items h, List.flatMap_map]
    simp only [String.toList_ofList]
  rw [lines, htext, Text.splitOn_flatMap hflat]

theorem clausesOf_body {body : List Line} (h : ∀ l ∈ body, l.Named) (depth : Nat) :
    clausesOf (body.map fun l => written depth l.item) = body.map Line.clause := by
  rw [clausesOf, List.map_map]
  exact List.map_congr_left fun l hl => clauseOf_line (h l hl) depth

/-- Lines outside of any template say the same. -/
theorem clauses_listing {ls : List Line} (h : ∀ l ∈ ls, l.Named) :
    clauses (Listing.text (ls.map Line.item)) = ls.map Line.clause ++ [.other] := by
  have hflat : ∀ i ∈ ls.map Line.item, IsFlat i := List.forall_mem_map.2 fun l hl => isFlat_line (h l hl)
  have hlines : lines (Listing.text (ls.map Line.item)) = ls.map (fun l => written 0 l.item) ++ [[]] := by
    have htext : (Listing.text (ls.map Line.item)).toList =
        (ls.map fun l => written 0 l.item).flatMap (· ++ ['\n']) := by
      rw [Listing.text, String.toList_join, ← List.append_nil (ls.map Line.item), linesFrom_append hflat,
        Listing.linesFrom, List.append_nil, List.flatMap_map, List.flatMap_map, List.flatMap_map]
      simp only [String.toList_ofList]
    rw [lines, htext, Text.splitOn_flatMap]
    exact List.forall_mem_map.2 fun l hl => newline_not_mem_written (isFlat_line (h l hl)) 0
  have hlast : clauseOf (words []) = .other := by decide
  rw [clauses, hlines, clausesOf, List.map_append, ← clausesOf, clausesOf_body h, List.map_singleton, hlast]

theorem written_heading (t : Template) :
    ∃ text, written 0 (.line t.heading) = '/' :: '/' :: ' ' :: text := by
  obtain ⟨id, claims, depth, body⟩ := t
  cases depth <;> exact ⟨_, by simp [written, Template.heading, toString]; rfl⟩

theorem clausesOf_preamble (t : Template) :
    clausesOf ((preamble t).map (written 0)) = List.replicate 5 .other := by
  obtain ⟨text, htext⟩ := written_heading t
  have hheading : clauseOf (words (written 0 (.line t.heading))) = .other := by
    rw [htext]
    exact clauseOf_comment (head?_words_comment 0 text)
  simp only [preamble, clausesOf, List.map_cons, List.map_nil, hheading]
  decide

/-- **A source says what the lines of its template say**, and that it starts with that template. -/
theorem clauses_text {t : Template} (h : ∀ l ∈ t.body, l.Named) :
    clauses t.text = List.replicate 6 .other ++ t.body.map Line.clause ++
      [.other, .other, .component "main" "Main()", .other] := by
  have hopening : clauseOf (words opening) = .other := by decide
  have hending : clausesOf (ending ++ [[]]) = [.other, .other, .component "main" "Main()", .other] := by
    decide
  have hbody := clausesOf_body h 1
  have hpreamble := clausesOf_preamble t
  rw [clauses, lines_text h, linesOf, List.append_assoc _ ending, ← hending, ← hbody]
  simp only [clausesOf, List.map_append, List.map_cons] at hpreamble ⊢
  rw [hpreamble, hopening]
  rfl

theorem opening_not_mem_preamble (t : Template) : opening ∉ (preamble t).map (written 0) := by
  obtain ⟨text, htext⟩ := written_heading t
  have hhead : opening.head? ≠ some '/' := by decide
  have hheading : opening ≠ '/' :: '/' :: ' ' :: text := fun he => hhead (he ▸ rfl)
  simp only [preamble, List.map_cons, List.map_nil, htext, List.mem_cons, not_or]
  exact ⟨by decide, by decide, by decide, by decide, hheading, List.not_mem_nil⟩

theorem closing_not_mem_body (body : List Line) : closing ∉ body.map fun l => written 1 l.item := by
  intro hmem
  obtain ⟨l, -, hl⟩ := List.mem_map.1 hmem
  cases hi : l.item <;> simp [hi, written, closing] at hl

theorem mainClauses_text {t : Template} (h : ∀ l ∈ t.body, l.Named) :
    mainClauses t.text = t.body.map Line.clause := by
  rw [mainClauses, lines_text h, linesOf, List.append_assoc, List.append_assoc, List.cons_append,
    dropWhile_bne (opening_not_mem_preamble t), List.tail_cons, ending, List.cons_append,
    takeWhile_bne (closing_not_mem_body t.body), clausesOf_body h]

end Source

end Vouch.Circuit

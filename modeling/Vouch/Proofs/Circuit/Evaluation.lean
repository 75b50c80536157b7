import Vouch.Proofs.Circuit.Meaning
import Vouch.Proofs.Circuit.Written

/-! What written source says of values.

A template's expressions are written with brackets around a sum that is an operand, and so they are
read with the value that they have (`value?_text`). Gadgets are known by how their components are
written (`gadget?_text`). A line therefore holds of the same valuations as what it says once it is
written (`holds_clause`). -/
namespace Vouch.Circuit

open Text (cut?_append cut?_of_not_mem)

namespace Source

/-! ### Tokens of what is written -/

theorem spaced_append (a b : List Char) : spaced (a ++ b) = spaced a ++ spaced b :=
  List.flatMap_append

theorem spaced_of_forall {cs : List Char} (h : ∀ c ∈ cs, isMark c = false) : spaced cs = cs := by
  rw [spaced, List.flatMap_congr fun c hc => if_neg (by simp [h c hc]), List.flatMap_singleton']

/-- Where a blank stands, tokens end. -/
theorem tokensOf_blank (a b : List Char) : tokensOf (a ++ ' ' :: b) = tokensOf a ++ tokensOf b := by
  have hblank : spaced (' ' :: b) = ' ' :: spaced b := rfl
  rw [tokensOf, spaced_append, hblank, wordsOf_append_blank, List.map_append]
  rfl

/-- A mark is a token. -/
theorem tokensOf_mark {c : Char} (h : isMark c = true) (a b : List Char) :
    tokensOf (a ++ c :: b) = tokensOf a ++ Token.ofWord (String.ofList [c]) :: tokensOf b := by
  have hmark : spaced (c :: b) = ' ' :: ([c] ++ ' ' :: spaced b) := by
    rw [spaced, List.flatMap_cons, if_pos h]
    rfl
  have hblank : ' ' ∉ [c] := fun hc => by
    rw [← List.mem_singleton.1 hc] at h
    revert h
    decide
  have hword : wordsOf [c] = [String.ofList [c]] := wordsOf_word (List.cons_ne_nil _ _) hblank
  rw [tokensOf, spaced_append, hmark, wordsOf_append_blank, wordsOf_append_blank, hword]
  simp [tokensOf]

theorem tokens_append (a b : List String) : tokens (a ++ b) = tokens a ++ tokens b :=
  List.flatMap_append

/-- The words of a text have its tokens. -/
theorem tokens_wordsOf (cs : List Char) : tokens (wordsOf cs) = tokensOf cs := by
  have hword {a : List Char} (h : ' ' ∉ a) : tokens (wordsOf a) = tokensOf a := by
    by_cases hne : a = []
    · rw [hne]
      rfl
    · rw [wordsOf_word hne h, tokens, List.flatMap_singleton, String.toList_ofList]
  by_cases h : ' ' ∈ cs
  · obtain ⟨a, b, hcs, ha⟩ := List.eq_append_cons_of_mem h
    have hshorter : b.length < cs.length := by
      rw [hcs, List.length_append, List.length_cons]
      omega
    rw [hcs, wordsOf_append_blank, tokens_append, hword ha, tokens_wordsOf b, tokensOf_blank]
  · exact hword h
termination_by cs.length

/-! ### Operands that are written -/

theorem isMark_of_isNameRest (c : Char) (h : Claim.isNameRest c = true) : isMark c = false := by
  have hmarks : ∀ mark ∈ ['(', ')', '+', '-', '*'], Claim.isNameRest mark = false := by
    simp only [List.forall_mem_cons]
    exact ⟨rfl, rfl, rfl, rfl, rfl, List.forall_mem_nil _⟩
  refine Bool.eq_false_iff.2 fun hc => ?_
  rw [hmarks c (List.contains_iff_mem.1 hc)] at h
  cases h

/-- A word without brackets and signs is an operand. -/
theorem tokensOf_operand {word : String} (hne : word.toList ≠ []) (hblank : ' ' ∉ word.toList)
    (h : Spelled (!isMark ·) word) : tokensOf word.toList = [.operand word] := by
  have hplain : ∀ c ∈ word.toList, isMark c = false := fun c hc => by simpa using h c hc
  have hopening := h.ne "(" (by decide)
  have hclosing := h.ne ")" (by decide)
  have hplus := h.ne "+" (by decide)
  have hminus := h.ne "-" (by decide)
  have htimes := h.ne "*" (by decide)
  rw [tokensOf, spaced_of_forall hplain, wordsOf_word hne hblank, String.ofList_toList, List.map_singleton,
    Token.ofWord, if_neg hopening, if_neg hclosing, if_neg hplus, if_neg hminus, if_neg htimes]

theorem IsName.plain {name : String} (h : IsName name) : Spelled (!isMark ·) name :=
  h.spelled.mono fun c hc => by simp [isMark_of_isNameRest c hc]

theorem repr_plain (n : Nat) : Spelled (!isMark ·) n.repr :=
  (spelled_repr n).mono fun c hc => by
    simp [isMark_of_isNameRest c (by simp [Claim.isNameRest, hc])]

theorem Wire.plain {w : Wire} (h : w.Named) : Spelled (!isMark ·) w.text := by
  have hdot : Spelled (!isMark ·) "." := by decide
  have hopening : Spelled (!isMark ·) "[" := by decide
  have hclosing : Spelled (!isMark ·) "]" := by decide
  cases w with
  | signal name => exact IsName.plain h
  | pin component name => simp [Wire.text, toString, IsName.plain h.1, IsName.plain h.2, hdot]
  | pinAt component name index =>
    simp [Wire.text, toString, IsName.plain h.1, IsName.plain h.2, repr_plain, hdot, hopening, hclosing]

theorem tokensOf_wire {w : Wire} (h : w.Named) : tokensOf w.text.toList = [.operand w.text] :=
  tokensOf_operand (Wire.toList_text_ne_nil h) ((Wire.word h).not_mem (by decide)) (Wire.plain h)

theorem tokensOf_repr (n : Nat) : tokensOf n.repr.toList = [.operand n.repr] :=
  tokensOf_operand (by simp) ((spelled_repr n).not_mem (by decide)) (repr_plain n)

/-- A wire is read as itself. -/
theorem wireOf_text {w : Wire} (h : w.Named) : wireOf w.text = w := by
  cases w with
  | signal name =>
    have hdot : '.' ∉ name.toList := (IsName.spelled h).not_mem (by decide)
    rw [wireOf, Wire.text, cut?_of_not_mem hdot]
  | pin component name =>
    have htext : (Wire.pin component name).text.toList = component.toList ++ '.' :: name.toList := by
      simp [Wire.text, toString]
    rw [wireOf, htext, cut?_append (h.1.spelled.not_mem (by decide))]
    simp only [String.ofList_toList, declared_name h.2]
  | pinAt component name index =>
    have htext : (Wire.pinAt component name index).text.toList =
        component.toList ++ '.' :: (name ++ "[" ++ index.repr ++ "]").toList := by
      simp [Wire.text, toString]
    rw [wireOf, htext, cut?_append (h.1.spelled.not_mem (by decide))]
    simp only [String.ofList_toList, declared_array h.2]

theorem isDigit_of_isNameStart (c : Char) (h : Claim.isNameStart c = true) : c.isDigit = false := by
  have hstart := Claim.toNat_of_isNameStart h
  refine Bool.eq_false_iff.2 fun hdigit => ?_
  have hbounds : 48 ≤ c.toNat ∧ c.toNat ≤ 57 := Char.isDigit_iff_toNat.1 hdigit
  omega

/-- A name begins with no digit. -/
theorem exists_not_isDigit {name : String} (h : IsName name) : ∃ c ∈ name.toList, c.isDigit = false := by
  unfold IsName Claim.isIdentifier at h
  split at h
  · cases h
  · rename_i c rest hname
    rw [Bool.and_eq_true] at h
    exact ⟨c, by rw [hname]; exact List.mem_cons_self, isDigit_of_isNameStart c h.1⟩

/-- A wire is no number. -/
theorem read?_wire {w : Wire} (h : w.Named) : Decimal.read? w.text = none := by
  have hchar : ∃ c ∈ w.text.toList, c.isDigit = false := by
    cases w with
    | signal name => exact exists_not_isDigit h
    | pin component name =>
      obtain ⟨c, hc, hdigit⟩ := exists_not_isDigit h.1
      exact ⟨c, by simp [Wire.text, toString, hc], hdigit⟩
    | pinAt component name index =>
      obtain ⟨c, hc, hdigit⟩ := exists_not_isDigit h.1
      exact ⟨c, by simp [Wire.text, toString, hc], hdigit⟩
  obtain ⟨c, hc, hdigit⟩ := hchar
  refine if_neg fun hdigits => ?_
  rw [(Decimal.isDigits_iff.1 hdigits).2 c hc] at hdigit
  cases hdigit

theorem operandValue_wire (ρ : Valuation) {w : Wire} (h : w.Named) : operandValue ρ w.text = ρ w := by
  rw [operandValue, read?_wire h, wireOf_text h]

theorem operandValue_repr (ρ : Valuation) (n : Nat) : operandValue ρ n.repr = Field.reduce n := by
  have hread : Decimal.read? n.repr = some n := Decimal.read?_toString n
  rw [operandValue, hread]

/-! ### Expressions that are written -/

/-- Tokens in brackets where they are needed. -/
def bracketed (needed : Bool) (ts : List Token) : List Token :=
  if needed then .opening :: ts ++ [.closing] else ts

end Source

open Source in
/-- The tokens of an expression as an operand of a product (`inProduct`) or on its own. -/
def Expr.tokensIn (inProduct : Bool) : Expr → List Token
  | .wire w => [.operand w.text]
  | .const n => [.operand n.repr]
  | .add a b => bracketed inProduct (a.tokensIn false ++ .plus :: b.tokensIn true)
  | .sub a b => bracketed inProduct (a.tokensIn false ++ .minus :: b.tokensIn true)
  | .mul a b => a.tokensIn true ++ .times :: b.tokensIn true

namespace Source

theorem tokensOf_sign {sign : Char} (h : isMark sign = true) (a b : List Char) :
    tokensOf (a ++ ' ' :: sign :: ' ' :: b) =
      tokensOf a ++ Token.ofWord (String.ofList [sign]) :: tokensOf b := by
  have hsign := tokensOf_mark h [] (' ' :: b)
  have hblank := tokensOf_blank [] b
  rw [List.nil_append] at hsign hblank
  rw [tokensOf_blank, hsign, hblank]
  rfl

theorem tokensOf_brackets (needed : Bool) (text : String) :
    tokensOf (Expr.brackets needed text).toList = bracketed needed (tokensOf text.toList) := by
  cases needed with
  | false => rfl
  | true =>
    have htext : (Expr.brackets true text).toList = '(' :: (text.toList ++ [')']) := by
      simp [Expr.brackets, toString]
    have hopening := tokensOf_mark (c := '(') (by decide) [] (text.toList ++ [')'])
    have hclosing := tokensOf_mark (c := ')') (by decide) text.toList []
    rw [List.nil_append] at hopening
    rw [htext, hopening, hclosing]
    rfl

theorem tokensOf_textIn {e : Expr} (h : e.Named) (inProduct : Bool) :
    tokensOf (e.textIn inProduct).toList = e.tokensIn inProduct := by
  induction e generalizing inProduct with
  | wire w => exact tokensOf_wire h
  | const n => exact tokensOf_repr n
  | add a b iha ihb =>
    have htext : (s!"{a.textIn false} + {b.textIn true}").toList =
        (a.textIn false).toList ++ ' ' :: '+' :: ' ' :: (b.textIn true).toList := by
      simp [toString]
    rw [Expr.textIn, tokensOf_brackets, htext, tokensOf_sign (by decide), iha h.1, ihb h.2]
    rfl
  | sub a b iha ihb =>
    have htext : (s!"{a.textIn false} - {b.textIn true}").toList =
        (a.textIn false).toList ++ ' ' :: '-' :: ' ' :: (b.textIn true).toList := by
      simp [toString]
    rw [Expr.textIn, tokensOf_brackets, htext, tokensOf_sign (by decide), iha h.1, ihb h.2]
    rfl
  | mul a b iha ihb =>
    have htext : (s!"{a.textIn true} * {b.textIn true}").toList =
        (a.textIn true).toList ++ ' ' :: '*' :: ' ' :: (b.textIn true).toList := by
      simp [toString]
    rw [Expr.textIn, htext, tokensOf_sign (by decide), iha h.1, ihb h.2]
    rfl

/-! ### Values of what is written -/

/-- The tokens are an operand of a product, of that value. -/
def IsFactor (ρ : Valuation) (ts : List Token) (v : Felt) : Prop :=
  ∀ s outer, ts.foldlM (Reading.step ρ) ⟨true, s, outer⟩ = some ⟨false, s.times v, outer⟩

/-- The tokens are an expression on its own, of that value. -/
def IsSum (ρ : Valuation) (ts : List Token) (v : Felt) : Prop :=
  ∃ s : OpenSum, s.value = v ∧ ∀ outer, ts.foldlM (Reading.step ρ) ⟨true, .empty, outer⟩ = some ⟨false, s, outer⟩

section

variable {ρ : Valuation} {a b : List Token} {x y : Felt}

theorem isFactor_operand (word : String) : IsFactor ρ [.operand word] (operandValue ρ word) :=
  fun _ _ => rfl

theorem IsFactor.isSum (h : IsFactor ρ a x) : IsSum ρ a x := by
  refine ⟨OpenSum.empty.times x, ?_, fun outer => h .empty outer⟩
  show 0 + 1 * x = x
  rw [Fin.one_mul, Fin.zero_add]

theorem IsFactor.times (ha : IsFactor ρ a x) (hb : IsFactor ρ b y) :
    IsFactor ρ (a ++ .times :: b) (x * y) := by
  intro s outer
  have hproduct : (s.times x).times y = s.times (x * y) := by
    simp only [OpenSum.times, Fin.mul_assoc]
  rw [List.foldlM_append, ha, ← hproduct, ← hb]
  rfl

theorem IsSum.plus (ha : IsSum ρ a x) (hb : IsFactor ρ b y) : IsSum ρ (a ++ .plus :: b) (x + y) := by
  obtain ⟨s, rfl, hs⟩ := ha
  refine ⟨(s.next false).times y, ?_, fun outer => ?_⟩
  · show s.value + 1 * y = s.value + y
    rw [Fin.one_mul]
  · rw [List.foldlM_append, hs, ← hb]
    rfl

theorem IsSum.minus (ha : IsSum ρ a x) (hb : IsFactor ρ b y) : IsSum ρ (a ++ .minus :: b) (x - y) := by
  obtain ⟨s, rfl, hs⟩ := ha
  refine ⟨(s.next true).times y, ?_, fun outer => ?_⟩
  · show s.value - 1 * y = s.value - y
    rw [Fin.one_mul]
  · rw [List.foldlM_append, hs, ← hb]
    rfl

/-- What stands in brackets is an operand. -/
theorem IsSum.bracketed (h : IsSum ρ a x) : IsFactor ρ (bracketed true a) x := by
  obtain ⟨s, rfl, hs⟩ := h
  intro sum outer
  have hinner := hs (sum :: outer)
  show (Token.opening :: (a ++ [.closing])).foldlM (Reading.step ρ) ⟨true, sum, outer⟩ = _
  rw [List.foldlM_cons]
  show (a ++ [Token.closing]).foldlM (Reading.step ρ) ⟨true, .empty, sum :: outer⟩ = _
  rw [List.foldlM_append, hinner]
  rfl

end

/-- An expression has its value in both places. A product needs no brackets in another one, and what
stands on its own begins an empty sum. -/
theorem tokensIn_value (ρ : Valuation) {e : Expr} (h : e.Named) :
    IsFactor ρ (e.tokensIn true) (e.eval ρ) ∧ IsSum ρ (e.tokensIn false) (e.eval ρ) := by
  induction e with
  | wire w =>
    have hfactor : IsFactor ρ [.operand w.text] (ρ w) := operandValue_wire ρ h ▸ isFactor_operand w.text
    exact ⟨hfactor, hfactor.isSum⟩
  | const n =>
    have hfactor : IsFactor ρ [.operand n.repr] (Field.reduce n) := operandValue_repr ρ n ▸ isFactor_operand n.repr
    exact ⟨hfactor, hfactor.isSum⟩
  | add a b iha ihb =>
    have hsum := (iha h.1).2.plus (ihb h.2).1
    exact ⟨hsum.bracketed, hsum⟩
  | sub a b iha ihb =>
    have hsum := (iha h.1).2.minus (ihb h.2).1
    exact ⟨hsum.bracketed, hsum⟩
  | mul a b iha ihb =>
    have hproduct := (iha h.1).1.times (ihb h.2).1
    exact ⟨hproduct, hproduct.isSum⟩

/-- **An expression that is written has its value.** -/
theorem value?_text (ρ : Valuation) {e : Expr} (h : e.Named) :
    value? ρ (wordsOf e.text.toList) = some (e.eval ρ) := by
  obtain ⟨s, hvalue, hread⟩ := (tokensIn_value ρ h).2
  rw [value?, tokens_wordsOf, Expr.text, tokensOf_textIn h, Reading.start, hread, Option.bind_some, ← hvalue]
  rfl

/-- Brackets count: with and without them, the same words have different values. -/
example : value? (fun _ => 3) ["v", "*", "(v", "-", "1)"] = some 6 ∧
    value? (fun _ => 3) ["v", "*", "v", "-", "1"] = some 8 := by
  decide

/-! ### Lines that are written -/

theorem call?_text (start : String) (h : '(' ∉ start.toList) (n : Nat) :
    call? (start ++ "(" ++ n.repr ++ ")") = some (start, some n) := by
  have htext : (start ++ "(" ++ n.repr ++ ")").toList = start.toList ++ '(' :: (n.repr.toList ++ [')']) := by
    simp
  have hclosing : ')' ∉ n.repr.toList := (spelled_repr n).not_mem (by decide)
  have hread : Decimal.read? n.repr = some n := Decimal.read?_toString n
  simp only [call?, htext, cut?_append h, Option.map_some, takeWhile_bne hclosing, String.ofList_toList, hread]

/-- **A gadget is known by the text of its component.** -/
theorem gadget?_text (g : Gadget) : gadget? g.text = some g := by
  cases g with
  | bodyHash limbs =>
    have hcall : call? (Gadget.bodyHash limbs).text = some ("BodyHash", some limbs) :=
      call?_text "BodyHash" (by decide) limbs
    rw [gadget?, hcall]
    rfl
  | core depth =>
    have hcall : call? (Gadget.core depth).text = some ("CredentialCore", some depth) :=
      call?_text "CredentialCore" (by decide) depth
    rw [gadget?, hcall]
    rfl
  | range width =>
    have hcall : call? (Gadget.range width).text = some ("RangeCheck", some width) :=
      call?_text "RangeCheck" (by decide) width
    rw [gadget?, hcall]
    rfl
  | wideRange => decide
  | isEqual => decide

theorem balanced_iff {ρ : Valuation} {left right : List String} {x y : Felt} (hleft : value? ρ left = some x)
    (hright : value? ρ right = some y) : Balanced ρ left right ↔ x = y := by
  simp only [Balanced, hleft, hright, Option.some.injEq, exists_eq_left', eq_comm]

/-- **A line holds exactly if what it says once it is written does.** -/
theorem holds_clause {ρ : Valuation} {line : Line} (h : line.Named) : line.clause.Holds ρ ↔ line.Holds ρ := by
  cases line with
  | blank | comment _ | input _ _ | output _ => exact Iff.rfl
  | component name g =>
    show (∃ found, gadget? g.text = some found ∧ found.Holds ρ name) ↔ g.Holds ρ name
    simp only [gadget?_text, Option.some.injEq, exists_eq_left']
  | assign target value =>
    have hwire : (Expr.wire target).Named := h.1
    have htext : (Expr.wire target).text = target.text := rfl
    have htarget := value?_text ρ hwire
    rw [htext, wordsOf_wire h.1] at htarget
    exact balanced_iff htarget (value?_text ρ h.2)
  | equate left right => exact balanced_iff (value?_text ρ h.1) (value?_text ρ h.2)

end Source

namespace Valuation

variable {ρ : Valuation} {lines : List Line} (h : ∀ line ∈ lines, line.Named)

include h

theorem satisfies_clauses : ρ.Satisfies (lines.map Line.clause) ↔ ∀ line ∈ lines, line.Holds ρ := by
  rw [Satisfies, List.forall_mem_map]
  exact forall₂_congr fun line hline => Source.holds_clause (h line hline)

/-- The source of some lines asks what the lines ask. -/
theorem satisfies_listing :
    ρ.Satisfies (Source.clauses (Listing.text (lines.map Line.item))) ↔ ∀ line ∈ lines, line.Holds ρ := by
  rw [Source.clauses_listing h, Satisfies, List.forall_mem_append, List.forall_mem_singleton]
  exact (and_iff_left trivial).trans (satisfies_clauses h)

end Valuation

end Vouch.Circuit

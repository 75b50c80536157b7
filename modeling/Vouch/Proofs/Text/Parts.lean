import Mathlib.Data.List.DropRight
import Mathlib.Data.List.TakeDrop
import Vouch.Text.Blank
import Vouch.Text.Decimal

/-! Texts taken apart and put together.

A text falls into parts at every separator in one way (`splitOn_eq_iff`), and in two at
the first one (`cut?_eq_some_iff`). What has no blank at its ends stands between blanks
exactly if trimming gives it (`padded_iff`). A number is written with any zeros in front
of its digits (`Numeral`), and so it is read (`numeral_iff`). -/
namespace Vouch

namespace Text

/-! ### Separators -/

theorem splitOn_append_cons (separator : Char) (a b : List Char) :
    splitOn separator (a ++ separator :: b) = splitOn separator a ++ splitOn separator b := by
  induction a with
  | nil => simp [splitOn]
  | cons c a ih =>
    by_cases hc : c = separator
    · simp [splitOn, hc, ih]
    · obtain ⟨part, parts, ha⟩ := List.exists_cons_of_ne_nil (splitOn_ne_nil separator a)
      simp [splitOn, hc, ih, ha]

theorem splitOn_of_not_mem {separator : Char} {a : List Char} (h : separator ∉ a) :
    splitOn separator a = [a] := by
  induction a with
  | nil => rfl
  | cons c a ih =>
    rw [List.mem_cons, not_or] at h
    simp [splitOn, Ne.symm h.1, ih h.2]

theorem mem_of_mem_splitOn {separator c : Char} {a part : List Char} (h : part ∈ splitOn separator a)
    (hc : c ∈ part) : c ∈ a := by
  induction a generalizing part with
  | nil =>
    rw [splitOn, List.mem_singleton] at h
    rwa [h] at hc
  | cons d a ih =>
    by_cases hd : d = separator
    · simp only [splitOn, hd, if_true, List.mem_cons] at h
      rcases h with rfl | h
      · cases hc
      · exact List.mem_cons_of_mem _ (ih h hc)
    · obtain ⟨first, parts, ha⟩ := List.exists_cons_of_ne_nil (splitOn_ne_nil separator a)
      simp only [splitOn, hd, if_false, ha, List.mem_cons] at h
      rcases h with rfl | h
      · rcases List.mem_cons.1 hc with rfl | hc
        · exact List.mem_cons_self
        · exact List.mem_cons_of_mem _ (ih (ha ▸ List.mem_cons_self) hc)
      · exact List.mem_cons_of_mem _ (ih (ha ▸ List.mem_cons_of_mem _ h) hc)

theorem splitOn_eq (separator : Char) (cs : List Char) : splitOn separator cs = cs.splitOn separator := by
  induction cs with
  | nil => rfl
  | cons c cs ih =>
    obtain ⟨part, parts, h⟩ := List.exists_cons_of_ne_nil (List.splitOn_ne_nil separator cs)
    rw [splitOn, ih, List.splitOn_cons_eq_if_modifyHead, h]
    by_cases hc : c = separator
    · simp [hc]
    · simp [hc]

theorem not_mem_of_mem_splitOn {separator : Char} {cs part : List Char} (h : part ∈ splitOn separator cs) :
    separator ∉ part := by
  induction cs generalizing part with
  | nil =>
    obtain rfl := List.mem_singleton.1 h
    exact List.not_mem_nil
  | cons c cs ih =>
    by_cases hc : c = separator
    · simp only [splitOn, hc, if_true] at h
      rcases List.mem_cons.1 h with rfl | h
      · exact List.not_mem_nil
      · exact ih h
    · obtain ⟨first, parts, hcs⟩ := List.exists_cons_of_ne_nil (splitOn_ne_nil separator cs)
      simp only [splitOn, hc, if_false, hcs] at h ih
      rcases List.mem_cons.1 h with rfl | h
      · exact List.not_mem_cons_of_ne_of_not_mem (Ne.symm hc) (ih List.mem_cons_self)
      · exact ih (List.mem_cons_of_mem _ h)

/-- The parts of a text are those without a separator that give the text with separators between
them. -/
theorem splitOn_eq_iff {separator : Char} {cs : List Char} {parts : List (List Char)} :
    splitOn separator cs = parts ↔
      parts ≠ [] ∧ (∀ part ∈ parts, separator ∉ part) ∧ cs = [separator].intercalate parts := by
  constructor
  · rintro rfl
    refine ⟨splitOn_ne_nil separator cs, fun part => not_mem_of_mem_splitOn, ?_⟩
    rw [splitOn_eq, List.intercalate_splitOn]
  · rintro ⟨hne, hparts, rfl⟩
    rw [splitOn_eq]
    exact List.splitOn_intercalate separator hparts hne

/-- Parts that each end in the separator, and what is behind the last one. -/
theorem splitOn_flatMap {separator : Char} {parts : List (List Char)} (h : ∀ part ∈ parts, separator ∉ part) :
    splitOn separator (parts.flatMap (· ++ [separator])) = parts ++ [[]] := by
  induction parts with
  | nil => rfl
  | cons part parts ih =>
    have ⟨hpart, hparts⟩ := List.forall_mem_cons.1 h
    rw [List.flatMap_cons, List.append_assoc, List.singleton_append, splitOn_append_cons,
      splitOn_of_not_mem hpart, ih hparts]
    rfl

theorem cut?_append {separator : Char} {a : List Char} (h : separator ∉ a) (b : List Char) :
    cut? separator (a ++ separator :: b) = some (a, b) := by
  induction a with
  | nil => simp [cut?]
  | cons c a ih =>
    rw [List.mem_cons, not_or] at h
    simp [cut?, Ne.symm h.1, ih h.2]

theorem cut?_of_not_mem {separator : Char} {a : List Char} (h : separator ∉ a) :
    cut? separator a = none := by
  induction a with
  | nil => rfl
  | cons c a ih =>
    rw [List.mem_cons, not_or] at h
    simp [cut?, Ne.symm h.1, ih h.2]

/-- The text is cut at the first separator. -/
theorem cut?_eq_some_iff {separator : Char} {cs a b : List Char} :
    cut? separator cs = some (a, b) ↔ separator ∉ a ∧ cs = a ++ separator :: b := by
  constructor
  · intro h
    by_cases hmem : separator ∈ cs
    · obtain ⟨before, after, rfl, hbefore⟩ := List.eq_append_cons_of_mem hmem
      rw [cut?_append hbefore] at h
      cases h
      exact ⟨hbefore, rfl⟩
    · rw [cut?_of_not_mem hmem] at h
      cases h
  · rintro ⟨ha, rfl⟩
    exact cut?_append ha b

/-- The longest beginning of such characters, and the rest. -/
theorem span_eq_iff {p : Char → Bool} {cs a b : List Char} :
    cs.span p = (a, b) ↔ (∀ c ∈ a, p c = true) ∧ (∀ c ∈ b.head?, p c = false) ∧ cs = a ++ b := by
  rw [List.span_eq_takeWhile_dropWhile, Prod.mk.injEq]
  constructor
  · rintro ⟨rfl, rfl⟩
    refine ⟨fun _ => List.mem_takeWhile_imp, fun c hc => ?_, List.takeWhile_append_dropWhile.symm⟩
    have hfirst := List.head?_dropWhile_not p cs
    rw [hc] at hfirst
    exact hfirst
  · rintro ⟨ha, hb, rfl⟩
    rw [List.takeWhile_append_of_pos ha, List.dropWhile_append_of_pos ha]
    cases b with
    | nil => exact ⟨List.append_nil a, rfl⟩
    | cons c b =>
      have hc : ¬ p c = true := by rw [hb c rfl]; exact Bool.false_ne_true
      rw [List.takeWhile_cons_of_neg hc, List.dropWhile_cons_of_neg hc]
      exact ⟨List.append_nil a, rfl⟩

/-! ### Blanks -/

/-- Nothing but blanks. -/
def Blank (cs : List Char) : Prop :=
  ∀ c ∈ cs, isBlank c = true

/-- There is no blank at either end. -/
def Tight (cs : List Char) : Prop :=
  (∀ c ∈ cs.head?, isBlank c = false) ∧ ∀ c ∈ cs.getLast?, isBlank c = false

/-- One of these texts between blanks. -/
def Padded (P : List Char → Prop) (cs : List Char) : Prop :=
  ∃ before inner after, Blank before ∧ P inner ∧ Blank after ∧ cs = before ++ inner ++ after

theorem blank_nil : Blank [] := nofun

theorem padded_self {P : List Char → Prop} {cs : List Char} (h : P cs) : Padded P cs :=
  ⟨[], cs, [], blank_nil, h, blank_nil, (List.append_nil cs).symm⟩

theorem trimLeft_append {before : List Char} (h : Blank before) (cs : List Char) :
    trimLeft (before ++ cs) = trimLeft cs :=
  List.dropWhile_append_of_pos h

theorem exists_trimLeft (cs : List Char) : ∃ before, Blank before ∧ cs = before ++ trimLeft cs :=
  ⟨cs.takeWhile isBlank, fun _ => List.mem_takeWhile_imp, List.takeWhile_append_dropWhile.symm⟩

theorem trimLeft_of_head? {cs : List Char} (h : ∀ c ∈ cs.head?, isBlank c = false) : trimLeft cs = cs := by
  cases cs with
  | nil => rfl
  | cons c cs => exact List.dropWhile_cons_of_neg (by simp [h c rfl])

theorem head?_trimLeft (cs : List Char) : ∀ c ∈ (trimLeft cs).head?, isBlank c = false := by
  intro c hc
  have hfirst := List.head?_dropWhile_not isBlank cs
  rw [show (cs.dropWhile isBlank).head? = some c from hc] at hfirst
  exact hfirst

/-- The first character that is not blank, and the rest. -/
theorem trimLeft_eq_cons_iff {c : Char} {cs rest : List Char} :
    trimLeft cs = c :: rest ↔ isBlank c = false ∧ ∃ before, Blank before ∧ cs = before ++ c :: rest := by
  constructor
  · intro h
    obtain ⟨before, hbefore, hcs⟩ := exists_trimLeft cs
    rw [h] at hcs
    exact ⟨head?_trimLeft cs c (by rw [h]; rfl), before, hbefore, hcs⟩
  · rintro ⟨hc, before, hbefore, rfl⟩
    rw [trimLeft_append hbefore]
    exact trimLeft_of_head? fun d hd => Option.some.inj hd ▸ hc

theorem Blank.reverse {cs : List Char} (h : Blank cs) : Blank cs.reverse :=
  fun c hc => h c (List.mem_reverse.1 hc)

/-- Blanks around a text are trimmed. -/
theorem trim_append {before inner after : List Char} (hbefore : Blank before) (hinner : Tight inner)
    (hafter : Blank after) : trim (before ++ inner ++ after) = inner := by
  rw [List.append_assoc, trim, trimLeft_append hbefore]
  by_cases hne : inner = []
  · have hnone := trimLeft_append hafter []
    rw [List.append_nil] at hnone
    rw [hne, List.nil_append, hnone]
    rfl
  · have hfront : trimLeft (inner ++ after) = inner ++ after :=
      trimLeft_of_head? (by rw [List.head?_append_of_ne_nil _ hne]; exact hinner.1)
    have hback : trimLeft inner.reverse = inner.reverse :=
      trimLeft_of_head? (by rw [List.head?_reverse]; exact hinner.2)
    rw [hfront, List.reverse_append, trimLeft_append hafter.reverse, hback, List.reverse_reverse]

/-- What is trimmed off are blanks. -/
theorem exists_trim (cs : List Char) :
    ∃ before after, Blank before ∧ Blank after ∧ cs = before ++ trim cs ++ after := by
  obtain ⟨before, hbefore, hcs⟩ := exists_trimLeft cs
  obtain ⟨after, hafter, hrest⟩ := exists_trimLeft (trimLeft cs).reverse
  refine ⟨before, after.reverse, hbefore, hafter.reverse, ?_⟩
  rw [List.append_assoc, trim, ← List.reverse_append, ← hrest, List.reverse_reverse]
  exact hcs

theorem tight_trim (cs : List Char) : Tight (trim cs) := by
  obtain ⟨after, -, hrest⟩ := exists_trimLeft (trimLeft cs).reverse
  have hleft : trimLeft cs = trim cs ++ after.reverse := by
    rw [trim, ← List.reverse_append, ← hrest, List.reverse_reverse]
  refine ⟨fun c hc => head?_trimLeft cs c ?_, fun c hc => head?_trimLeft (trimLeft cs).reverse c ?_⟩
  · rw [hleft]
    exact List.mem_head?_append_of_mem_head? hc
  · rw [trim, List.getLast?_reverse] at hc
    exact hc

/-- What has no blanks at its ends stands between blanks exactly if trimming gives it. -/
theorem padded_iff {P : List Char → Prop} (h : ∀ inner, P inner → Tight inner) {cs : List Char} :
    Padded P cs ↔ P (trim cs) := by
  constructor
  · rintro ⟨before, inner, after, hbefore, hinner, hafter, rfl⟩
    rwa [trim_append hbefore (h inner hinner) hafter]
  · intro hcs
    obtain ⟨before, after, hbefore, hafter, heq⟩ := exists_trim cs
    exact ⟨before, trim cs, after, hbefore, hcs, hafter, heq⟩

theorem tight_nil : Tight [] := ⟨nofun, nofun⟩

theorem Tight.append {a b : List Char} (ha : Tight a) (hane : a ≠ []) (hb : Tight b) (hbne : b ≠ [])
    (between : List Char) : Tight (a ++ between ++ b) := by
  constructor
  · rw [List.append_assoc, List.head?_append_of_ne_nil _ hane]
    exact ha.1
  · rw [List.getLast?_append_of_ne_nil _ hbne]
    exact hb.2

theorem trim_eq_nil_iff {cs : List Char} : trim cs = [] ↔ Blank cs := by
  constructor
  · intro h
    obtain ⟨before, after, hbefore, hafter, heq⟩ := exists_trim cs
    rw [h, List.append_nil] at heq
    rw [heq]
    exact List.forall_mem_append.2 ⟨hbefore, hafter⟩
  · intro h
    have htrim := trim_append h tight_nil blank_nil
    rwa [List.append_nil, List.append_nil] at htrim

/-- More blanks make no difference. -/
theorem Padded.append {P : List Char → Prop} {before cs after : List Char} (hbefore : Blank before)
    (h : Padded P cs) (hafter : Blank after) : Padded P (before ++ cs ++ after) := by
  obtain ⟨first, inner, last, hfirst, hinner, hlast, rfl⟩ := h
  refine ⟨before ++ first, inner, last ++ after, List.forall_mem_append.2 ⟨hbefore, hfirst⟩, hinner,
    List.forall_mem_append.2 ⟨hlast, hafter⟩, ?_⟩
  simp only [List.append_assoc]

/-- A text without blanks. -/
theorem tight_of_forall {cs : List Char} (h : ∀ c ∈ cs, isBlank c = false) : Tight cs :=
  ⟨fun c hc => h c (List.mem_of_mem_head? hc), fun c hc => h c (List.mem_of_mem_getLast? hc)⟩

/-- No blanks stand at the end of such a text. -/
theorem Tight.eq_nil_of_append {cs gap : List Char} (h : Tight (cs ++ gap)) (hgap : Blank gap) : gap = [] := by
  cases hlast : gap.getLast? with
  | none => exact List.getLast?_eq_none_iff.1 hlast
  | some c =>
    have hc := h.2 c (by rw [List.getLast?_append, hlast]; rfl)
    exact absurd (hgap c (List.mem_of_getLast? hlast)) (by rw [hc]; exact Bool.false_ne_true)

end Text

/-! ### Numbers -/

namespace Decimal

/-- The digits of a number, perhaps behind zeros. -/
def Numeral (n : Nat) (cs : List Char) : Prop :=
  ∃ zeros, cs = List.replicate zeros '0' ++ Nat.toDigits 10 n

theorem numeral_toDigits (n : Nat) : Numeral n (Nat.toDigits 10 n) :=
  ⟨0, rfl⟩

theorem isDigits_iff {cs : List Char} : isDigits cs = true ↔ cs ≠ [] ∧ ∀ c ∈ cs, c.isDigit = true := by
  simp [isDigits]

theorem exists_digitChar {c : Char} (h : c.isDigit = true) : ∃ d < 10, c = Nat.digitChar d := by
  obtain ⟨hlower, hupper⟩ : 48 ≤ c.toNat ∧ c.toNat ≤ 57 := by
    simpa [Char.isDigit, Char.le_def, UInt32.le_iff_toNat_le] using h
  refine ⟨c.toNat - 48, by omega, Char.toNat_inj.1 ?_⟩
  rw [Nat.toNat_digitChar_of_lt_ten (by omega)]
  omega

theorem value_append_digitChar {d : Nat} (h : d < 10) (cs : List Char) :
    value (cs ++ [Nat.digitChar d]) = 10 * value cs + d := by
  rw [value, Nat.ofDigitChars_append, Nat.ofDigitChars_cons_digitChar_of_lt_ten h]
  rfl

theorem value_replicate (zeros : Nat) (cs : List Char) : value (List.replicate zeros '0' ++ cs) = value cs := by
  induction zeros with
  | zero => rfl
  | succ zeros ih => exact ih

/-- Of digits the last one counts once, those before it ten times. -/
theorem numeral_value {cs : List Char} (hne : cs ≠ []) (h : ∀ c ∈ cs, c.isDigit = true) :
    Numeral (value cs) cs := by
  induction cs using List.reverseRecOn with
  | nil => exact absurd rfl hne
  | append_singleton cs c ih =>
    obtain ⟨hcs, hc⟩ := List.forall_mem_append.1 h
    obtain ⟨d, hd, rfl⟩ := exists_digitChar (hc c (List.mem_singleton_self c))
    have hlast : Nat.toDigits 10 d = [Nat.digitChar d] := Nat.toDigits_of_lt_base hd
    rw [value_append_digitChar hd]
    by_cases hnil : cs = []
    · have hvalue : 10 * value cs + d = d := by rw [hnil]; exact Nat.zero_add d
      rw [hvalue, hnil]
      exact ⟨0, hlast.symm⟩
    · obtain ⟨zeros, hzeros⟩ := ih hnil hcs
      generalize value cs = n at hzeros
      by_cases hn : n = 0
      · have hzero : Nat.toDigits 10 0 = ['0'] := rfl
        refine ⟨zeros + 1, ?_⟩
        rw [hzeros, hn, hzero, Nat.mul_zero, Nat.zero_add, hlast, List.replicate_succ']
      · refine ⟨zeros, ?_⟩
        rw [hzeros, ← hlast, List.append_assoc, Nat.toDigits_append_toDigits (by decide) (by omega) hd]

/-- A number is read from its numerals and from nothing else. -/
theorem numeral_iff {n : Nat} {cs : List Char} : Numeral n cs ↔ isDigits cs = true ∧ value cs = n := by
  rw [isDigits_iff]
  constructor
  · rintro ⟨zeros, rfl⟩
    have ⟨hne, hdigits⟩ := isDigits_iff.1 (isDigits_toDigits n)
    refine ⟨⟨List.append_ne_nil_of_right_ne_nil _ hne, List.forall_mem_append.2 ⟨?_, hdigits⟩⟩, ?_⟩
    · intro c hc
      rw [List.eq_of_mem_replicate hc]
      rfl
    · rw [value_replicate]
      exact Nat.ofDigitChars_toDigits (by decide) (by decide)
  · rintro ⟨⟨hne, hdigits⟩, rfl⟩
    exact numeral_value hne hdigits

end Decimal

end Vouch

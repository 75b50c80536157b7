import Mathlib.Data.List.TakeDrop
import Vouch.Json.Basic
import Vouch.Json.Written

/-! The compact text of a value, taken apart again.

`Json.text` writes a value, and `Written.ofText?` takes a text apart by the grammar. On
what was written it finds the written form of the value (`written`): every string with
the escapes that the writer chose for it, every integer with its digits.
`ofText?_text` says so for every value whose numbers are integers, however deep and
however broad. A zero of the doubles, which has a sign, counts among them.

A value stands in front of the rest of its document, so each step is about a text with
a rest behind it. A string and a container bring their own end; the digits of a number go
on until something else comes (`Ends`). -/
namespace Vouch.Json

/-! ### Strings -/

/-- The piece that a character is written as: a control without a letter of its own by its
number. -/
def pieceOf (c : Char) : Piece :=
  if c.toNat < 0x20 ∧ c.toNat ∉ [8, 9, 10, 12, 13] then .unit c.toNat else .plain c

theorem hexValue?_digitChar {n : Nat} (h : n < 16) : hexValue? (Nat.digitChar n) = some n := by
  have hall : ∀ k : Fin 16, hexValue? (Nat.digitChar k.val) = some k.val := by decide
  exact hall ⟨n, h⟩

theorem stringBody_fourHex {n : Nat} (h : n < 2 ^ 16) (rest : List Char) :
    stringBody ('\\' :: 'u' :: (fourHex n ++ rest)) =
      (stringBody rest).map fun (pieces, rest) => (.unit n :: pieces, rest) := by
  have hsum : (n / 4096 % 16 * 16 + n / 256 % 16) * 256 + (n / 16 % 16 * 16 + n % 16) = n := by omega
  simp only [fourHex, List.cons_append, List.nil_append, stringBody]
  rw [hexValue?_digitChar (Nat.mod_lt _ (by decide)), hexValue?_digitChar (Nat.mod_lt _ (by decide)),
    hexValue?_digitChar (Nat.mod_lt _ (by decide)), hexValue?_digitChar (Nat.mod_lt _ (by decide))]
  simp only [Option.bind_eq_bind, Option.bind_some, hsum]
  cases stringBody rest <;> rfl

theorem stringBody_plain {c : Char} (hquote : c ≠ '"') (hslash : c ≠ '\\') (hc : ¬ c.toNat < 0x20)
    (rest : List Char) :
    stringBody (c :: rest) = (stringBody rest).map fun (pieces, rest) => (.plain c :: pieces, rest) := by
  rw [stringBody.eq_def]
  split
  · rename_i h
    cases h
  · rename_i h
    exact absurd (List.cons.inj h).1 hquote
  · rename_i h
    exact absurd (List.cons.inj h).1 hslash
  · rename_i h
    exact absurd (List.cons.inj h).1 hslash
  · rename_i h
    obtain ⟨rfl, rfl⟩ := List.cons.inj h
    rw [if_neg hc]
    cases stringBody rest <;> rfl

theorem stringBody_short {c e : Char} (h : shortEscape? c = some e) (rest : List Char) :
    stringBody ('\\' :: c :: rest) =
      (stringBody rest).map fun (pieces, rest) => (.plain e :: pieces, rest) := by
  have hu : c ≠ 'u' := by
    rintro rfl
    have hnone : shortEscape? 'u' = none := by decide
    exact nomatch hnone.symm.trans h
  rw [stringBody]
  · rw [h, Option.bind_eq_bind, Option.bind_some]
    cases stringBody rest <;> rfl
  · intro _ _ _ _ _ hc
    exact absurd hc hu

/-- The three ways to write a character: by a letter, by its number, and by itself. -/
theorem escaped_cases (c : Char) :
    (∃ l, shortEscape? l = some c ∧ escaped c = ['\\', l] ∧ pieceOf c = .plain c) ∨
      (c.toNat < 0x20 ∧ escaped c = '\\' :: 'u' :: fourHex c.toNat ∧ pieceOf c = .unit c.toNat) ∨
      (c ≠ '"' ∧ c ≠ '\\' ∧ ¬ c.toNat < 0x20 ∧ escaped c = [c] ∧ pieceOf c = .plain c) := by
  have hofNat : ∀ n : Nat, c.toNat = n → c = Char.ofNat n := fun n h => h ▸ (Char.ofNat_toNat c).symm
  by_cases hquote : c = '"'
  · subst hquote
    exact .inl ⟨'"', by decide⟩
  by_cases hslash : c = '\\'
  · subst hslash
    exact .inl ⟨'\\', by decide⟩
  by_cases hb : c.toNat = 8
  · obtain rfl := hofNat 8 hb
    exact .inl ⟨'b', by decide⟩
  by_cases ht : c = '\t'
  · subst ht
    exact .inl ⟨'t', by decide⟩
  by_cases hn : c = '\n'
  · subst hn
    exact .inl ⟨'n', by decide⟩
  by_cases hf : c.toNat = 12
  · obtain rfl := hofNat 12 hf
    exact .inl ⟨'f', by decide⟩
  by_cases hr : c = '\r'
  · subst hr
    exact .inl ⟨'r', by decide⟩
  have hescaped : escaped c = if c.toNat < 0x20 then '\\' :: 'u' :: fourHex c.toNat else [c] := by
    rw [escaped, if_neg (not_or.2 ⟨hquote, hslash⟩), if_neg hb, if_neg ht, if_neg hn, if_neg hf, if_neg hr]
  by_cases hc : c.toNat < 0x20
  · have hletter : c.toNat ∉ [8, 9, 10, 12, 13] := by
      simp only [List.mem_cons, List.not_mem_nil, or_false]
      rintro (h | h | h | h | h)
      · exact hb h
      · exact ht (hofNat 9 h)
      · exact hn (hofNat 10 h)
      · exact hf h
      · exact hr (hofNat 13 h)
    exact .inr (.inl ⟨hc, by rw [hescaped, if_pos hc], if_pos ⟨hc, hletter⟩⟩)
  · exact .inr (.inr ⟨hquote, hslash, hc, by rw [hescaped, if_neg hc], if_neg fun h => hc h.1⟩)

/-- One character of a string is read back as one piece. -/
theorem stringBody_escaped (c : Char) (rest : List Char) :
    stringBody (escaped c ++ rest) =
      (stringBody rest).map fun (pieces, rest) => (pieceOf c :: pieces, rest) := by
  rcases escaped_cases c with ⟨l, hl, he, hp⟩ | ⟨hc, he, hp⟩ | ⟨hquote, hslash, hc, he, hp⟩
  · rw [he, hp]
    exact stringBody_short hl rest
  · rw [he, hp]
    exact stringBody_fourHex (by omega) rest
  · rw [he, hp]
    exact stringBody_plain hquote hslash hc rest

theorem stringBody_flatMap (cs rest : List Char) :
    stringBody (cs.flatMap escaped ++ '"' :: rest) = some (cs.map pieceOf, rest) := by
  induction cs with
  | nil => rfl
  | cons c cs ih => rw [List.flatMap_cons, List.append_assoc, stringBody_escaped, ih]; rfl

theorem pieceChars?_unit {n : Nat} (h : n < 0xd800) (pieces : List Piece) :
    pieceChars? (.unit n :: pieces) = (pieceChars? pieces).map (Char.ofNat n :: ·) := by
  have hhigh : isHighSurrogate n = false := by
    simp only [isHighSurrogate, Bool.and_eq_false_iff, decide_eq_false_iff_not]
    omega
  have hlow : isLowSurrogate n = false := by
    simp only [isLowSurrogate, Bool.and_eq_false_iff, decide_eq_false_iff_not]
    omega
  rcases pieces with _ | ⟨p | l, rest⟩ <;> simp [pieceChars?, hhigh, hlow]

theorem pieceChars?_pieceOf (c : Char) (pieces : List Piece) :
    pieceChars? (pieceOf c :: pieces) = (pieceChars? pieces).map (c :: ·) := by
  unfold pieceOf
  split
  · rename_i h
    rw [pieceChars?_unit (by omega), Char.ofNat_toNat]
  · rw [pieceChars?]

theorem pieceText?_pieceOf (s : String) : pieceText? (s.toList.map pieceOf) = some s := by
  have hchars : ∀ cs : List Char, pieceChars? (cs.map pieceOf) = some cs := by
    intro cs
    induction cs with
    | nil => rfl
    | cons c cs ih => rw [List.map_cons, pieceChars?_pieceOf, ih]; rfl
  rw [pieceText?, hchars, Option.map_some, String.ofList_toList]

/-! ### Integers -/

theorem ne_of_isDigit {c x : Char} (hc : c.isDigit = true) (hx : x.isDigit = false) : c ≠ x := by
  rintro rfl
  exact nomatch hc.symm.trans hx

/-- Nothing that would go on with a number. -/
def Ends (rest : List Char) : Prop :=
  ∀ c ∈ rest.head?, c.isDigit = false ∧ c ≠ '.' ∧ c ≠ 'e' ∧ c ≠ 'E'

theorem ends_cons {c : Char} (h : c = ',' ∨ c = ']' ∨ c = '}') (rest : List Char) : Ends (c :: rest) := by
  intro d hd
  cases hd
  rcases h with rfl | rfl | rfl <;> decide

/-- An integer begins with a digit, and with a zero only if that is all of it. -/
theorem exists_toDigits (n : Nat) :
    ∃ d ds, Nat.toDigits 10 n = d :: ds ∧ d.isDigit = true ∧ (d = '0' → ds = []) := by
  induction n using Nat.strongRecOn with
  | ind n ih =>
    by_cases hn : n < 10
    · refine ⟨n.digitChar, [], Nat.toDigits_of_lt_base hn, ?_, fun _ => rfl⟩
      rw [Nat.isDigit_digitChar, decide_eq_true hn]
    · obtain ⟨d, ds, hdigits, hd, hzero⟩ := ih (n / 10) (by omega)
      refine ⟨d, ds ++ [(n % 10).digitChar], ?_, hd, fun h => ?_⟩
      · rw [Nat.toDigits_of_base_le (by decide) (by omega), hdigits, List.cons_append]
      · -- A lone zero in front would be the digits of zero.
        have hlone : Nat.toDigits 10 (n / 10) = Nat.toDigits 10 0 := by rw [hdigits, h, hzero h]; rfl
        have hdiv : n / 10 = 0 := by
          rw [← Nat.ofDigitChars_toDigits (b := 10) (n := n / 10) (by decide) (by decide), hlone,
            Nat.ofDigitChars_toDigits (by decide) (by decide)]
        omega

theorem digits?_append {ds rest : List Char} (hne : ds ≠ []) (hds : ∀ d ∈ ds, d.isDigit = true)
    (hrest : Ends rest) : digits? (ds ++ rest) = some (ds, rest) := by
  have hstop : rest.takeWhile Char.isDigit = [] ∧ rest.dropWhile Char.isDigit = rest := by
    cases rest with
    | nil => exact ⟨rfl, rfl⟩
    | cons c cs =>
      have hc : ¬ c.isDigit = true := by simp [(hrest c rfl).1]
      exact ⟨List.takeWhile_cons_of_neg hc, List.dropWhile_cons_of_neg hc⟩
  rw [digits?, List.span_eq_takeWhile_dropWhile, List.takeWhile_append_of_pos hds,
    List.dropWhile_append_of_pos hds, hstop.1, hstop.2, List.append_nil]
  exact if_neg (by simpa using hne)

theorem whole?_toDigits (n : Nat) {rest : List Char} (hrest : Ends rest) :
    whole? (Nat.toDigits 10 n ++ rest) = some (Nat.toDigits 10 n, rest) := by
  have hall : ∀ d ∈ Nat.toDigits 10 n, d.isDigit = true := fun d hd =>
    Nat.isDigit_of_mem_toDigits (by decide) (by decide) hd
  obtain ⟨d, ds, hdigits, -, hzero⟩ := exists_toDigits n
  by_cases hd : d = '0'
  · rw [hdigits, hzero hd, hd]
    rfl
  · rw [← digits?_append Nat.toDigits_ne_nil hall hrest, hdigits, List.cons_append, whole?]
    intro _ h
    exact hd (List.cons.inj h).1

theorem fraction?_ends {rest : List Char} (hrest : Ends rest) : fraction? rest = some (none, rest) := by
  unfold fraction?
  split
  · exact absurd rfl (hrest '.' rfl).2.1
  · rfl

theorem exponent?_ends {rest : List Char} (hrest : Ends rest) : exponent? rest = some (none, rest) := by
  cases rest with
  | nil => rfl
  | cons c cs => exact if_neg (not_or.2 (hrest c rfl).2.2)

theorem literal?_natural (n : Nat) {rest : List Char} (hrest : Ends rest) :
    literal? (Nat.toDigits 10 n ++ rest) = some (⟨false, Nat.toDigits 10 n, none, none⟩, rest) := by
  obtain ⟨d, ds, hdigits, hd, -⟩ := exists_toDigits n
  have hwhole := whole?_toDigits n hrest
  rw [hdigits, List.cons_append] at hwhole ⊢
  unfold literal?
  split
  rename_i negative cs hsign
  split at hsign
  · rename_i h
    exact absurd (List.cons.inj h).1 (ne_of_isDigit hd rfl)
  · cases hsign
    simp only [hwhole, fraction?_ends hrest, exponent?_ends hrest, Option.bind_eq_bind, Option.bind_some]
    rfl

theorem literal?_negative (n : Nat) {rest : List Char} (hrest : Ends rest) :
    literal? ('-' :: (Nat.toDigits 10 n ++ rest)) = some (⟨true, Nat.toDigits 10 n, none, none⟩, rest) := by
  simp only [literal?, whole?_toDigits n hrest, fraction?_ends hrest, exponent?_ends hrest,
    Option.bind_eq_bind, Option.bind_some]
  rfl

/-- The text of a zero of the doubles. -/
theorem literal?_zero (isNegative : Bool) {rest : List Char} (hrest : Ends rest) :
    literal? ((if isNegative then ['-'] else []) ++ '0' :: '.' :: '0' :: rest) =
      some (⟨isNegative, ['0'], some ['0'], none⟩, rest) := by
  have hfraction : fraction? ('.' :: '0' :: rest) = some (some ['0'], rest) := by
    have hdigits : digits? (['0'] ++ rest) = some (['0'], rest) := digits?_append (by simp) (by simp) hrest
    rw [fraction?, ← List.singleton_append, hdigits, Option.map_some]
  have hwhole : literal? ((if isNegative then ['-'] else []) ++ '0' :: '.' :: '0' :: rest) =
      (fraction? ('.' :: '0' :: rest)).bind fun f =>
        (exponent? f.2).bind fun e => some (⟨isNegative, ['0'], f.1, e.1⟩, e.2) := by
    cases isNegative <;> rfl
  simp only [hwhole, hfraction, exponent?_ends hrest, Option.bind_some]

/-! ### Values -/

mutual

/-- The written form of a value. Doubles but zero are left out: they have the form of no value. -/
def written : Json → Written
  | .null => .null
  | .bool b => .bool b
  | .number (.natural n) => .number ⟨false, Nat.toDigits 10 n, none, none⟩
  | .number (.negative n) => .number ⟨true, Nat.toDigits 10 n, none, none⟩
  | .number (.real isNegative x) =>
    if x.mantissa = 0 then .number ⟨isNegative, ['0'], some ['0'], none⟩ else .null
  | .string s => .string (s.toList.map pieceOf)
  | .array items => .array (writtenItems items)
  | .members fields => .object (writtenFields fields)

def writtenItems : List Json → List Written
  | [] => []
  | j :: rest => written j :: writtenItems rest

def writtenFields : List (String × Json) → List (List Piece × Written)
  | [] => []
  | (name, j) :: rest => (name.toList.map pieceOf, written j) :: writtenFields rest

end

theorem writtenItems_eq_map (items : List Json) : writtenItems items = items.map written := by
  induction items with
  | nil => rfl
  | cons j rest ih => rw [writtenItems, ih, List.map_cons]

theorem writtenFields_eq_map (fields : List (String × Json)) :
    writtenFields fields = fields.map fun (name, j) => (name.toList.map pieceOf, written j) := by
  induction fields with
  | nil => rfl
  | cons f rest ih => rw [writtenFields, ih, List.map_cons]

/-- The numbers of the value are integers. -/
inductive Integral : Json → Prop
  | null : Integral .null
  | bool (b : Bool) : Integral (.bool b)
  | natural (n : Nat) : Integral (.number (.natural n))
  | negative (n : Nat) : Integral (.number (.negative n))
  | zero (isNegative : Bool) {x : Number.Magnitude} (h : x.mantissa = 0) : Integral (.number (.real isNegative x))
  | string (s : String) : Integral (.string s)
  | array {items : List Json} (h : ∀ j ∈ items, Integral j) : Integral (.array items)
  | members {fields : List (String × Json)} (h : ∀ f ∈ fields, Integral f.2) : Integral (.members fields)

/-- The parser takes the value off the front of a text and leaves what stands behind it. -/
def Reads (j : Json) : Prop :=
  ∀ (fuel : Nat) (rest : List Char), j.chars.length ≤ fuel → Ends rest →
    value? fuel (j.chars ++ rest) = some (written j, rest)

theorem isSpace_of_isDigit {c : Char} (h : c.isDigit = true) : isSpace c = false := by
  simp [isSpace, ne_of_isDigit h (x := ' ') rfl, ne_of_isDigit h (x := '\t') rfl,
    ne_of_isDigit h (x := '\n') rfl, ne_of_isDigit h (x := '\r') rfl]

/-- A value begins with no space, and not like the end of an array. -/
theorem exists_chars {j : Json} (h : Integral j) :
    ∃ c cs, j.chars = c :: cs ∧ isSpace c = false ∧ c ≠ ']' := by
  cases h with
  | null => exact ⟨'n', _, rfl, by decide⟩
  | bool b => cases b <;> exact ⟨_, _, rfl, by decide⟩
  | natural n =>
    obtain ⟨d, ds, hdigits, hd, -⟩ := exists_toDigits n
    exact ⟨d, ds, hdigits, isSpace_of_isDigit hd, ne_of_isDigit hd rfl⟩
  | negative n => exact ⟨'-', _, rfl, by decide⟩
  | zero isNegative h =>
    rw [chars, Number.text, if_pos h]
    cases isNegative <;> exact ⟨_, _, rfl, by decide⟩
  | string s => exact ⟨'"', _, rfl, by decide⟩
  | array _ => exact ⟨'[', _, rfl, by decide⟩
  | members _ => exact ⟨'{', _, rfl, by decide⟩

theorem exists_itemChars {j : Json} (h : Integral j) (items : List Json) :
    ∃ c cs, itemChars (j :: items) = c :: cs ∧ isSpace c = false ∧ c ≠ ']' := by
  obtain ⟨c, cs, hchars, hc⟩ := exists_chars h
  cases items with
  | nil => exact ⟨c, cs ++ [']'], by rw [itemChars, hchars, List.cons_append], hc⟩
  | cons k items =>
    refine ⟨c, cs ++ ',' :: itemChars (k :: items), ?_, hc⟩
    simp only [itemChars, hchars, List.cons_append]

theorem exists_fieldChars (f : String × Json) (fields : List (String × Json)) :
    ∃ cs, fieldChars (f :: fields) = '"' :: cs := by
  cases fields <;> exact ⟨_, rfl⟩

theorem skipSpace_cons {c : Char} (h : isSpace c = false) (cs : List Char) :
    skipSpace (c :: cs) = c :: cs :=
  List.dropWhile_cons_of_neg (by simp [h])

/-- What begins like a number is read as one. -/
theorem value?_number {c : Char} {cs rest : List Char} {l : Literal} (fuel : Nat)
    (hc : c = '-' ∨ c.isDigit = true) (hl : literal? (c :: cs) = some (l, rest)) :
    value? (fuel + 1) (c :: cs) = some (.number l, rest) := by
  have hne : ∀ x : Char, x ≠ '-' → x.isDigit = false → c ≠ x := by
    intro x hminus hx
    rcases hc with rfl | hc
    · exact hminus.symm
    · exact ne_of_isDigit hc hx
  have hspace : isSpace c = false := by
    rcases hc with rfl | hc
    · decide
    · exact isSpace_of_isDigit hc
  rw [value?, skipSpace_cons hspace]
  split
  case h_7 => rw [hl, Option.map_some]
  all_goals
    rename_i h
    exact absurd (List.cons.inj h).1 (hne _ (by decide) (by decide))

/-- A text that is not empty comes with a step to spend. -/
theorem reads_of_succ {j : Json} (hne : j.chars ≠ [])
    (h : ∀ (fuel : Nat) (rest : List Char), j.chars.length ≤ fuel + 1 → Ends rest →
      value? (fuel + 1) (j.chars ++ rest) = some (written j, rest)) : Reads j := by
  intro fuel rest hfuel hrest
  cases fuel with
  | zero => exact absurd (List.length_eq_zero_iff.1 (Nat.le_zero.1 hfuel)) hne
  | succ fuel => exact h fuel rest hfuel hrest

theorem items?_itemChars {items : List Json} (hne : items ≠ []) (hitems : ∀ j ∈ items, Reads j)
    {fuel : Nat} (hfuel : (itemChars items).length ≤ fuel) (rest : List Char) :
    items? fuel (itemChars items ++ rest) = some (writtenItems items, rest) := by
  induction items generalizing fuel with
  | nil => exact absurd rfl hne
  | cons j items ih =>
    obtain ⟨hj, hitems⟩ := List.forall_mem_cons.1 hitems
    cases items with
    | nil =>
      simp only [itemChars, List.length_append, List.length_singleton] at hfuel
      obtain ⟨fuel, rfl⟩ : ∃ n, fuel = n + 1 := ⟨fuel - 1, by omega⟩
      have hvalue := hj fuel (']' :: rest) (by omega) (ends_cons (by decide) rest)
      simp only [itemChars, List.append_assoc, List.singleton_append, items?, hvalue,
        skipSpace_cons (c := ']') rfl, Option.bind_eq_bind, Option.bind_some]
      rfl
    | cons k items =>
      simp only [itemChars, List.length_append, List.length_cons] at hfuel
      obtain ⟨fuel, rfl⟩ : ∃ n, fuel = n + 1 := ⟨fuel - 1, by omega⟩
      have hvalue := hj fuel (',' :: (itemChars (k :: items) ++ rest)) (by omega)
        (ends_cons (by decide) _)
      have hlength : (itemChars (k :: items)).length ≤ fuel := by omega
      have hitems := ih (List.cons_ne_nil _ _) hitems hlength
      simp only [itemChars, List.append_assoc, List.cons_append, items?, hvalue,
        skipSpace_cons (c := ',') rfl, Option.bind_eq_bind, Option.bind_some, hitems]
      rfl

theorem fields?_fieldChars {fields : List (String × Json)} (hne : fields ≠ [])
    (hfields : ∀ f ∈ fields, Reads f.2) {fuel : Nat} (hfuel : (fieldChars fields).length ≤ fuel)
    (rest : List Char) :
    fields? fuel (fieldChars fields ++ rest) = some (writtenFields fields, rest) := by
  induction fields generalizing fuel with
  | nil => exact absurd rfl hne
  | cons f fields ih =>
    obtain ⟨name, j⟩ := f
    obtain ⟨hj, hfields⟩ : Reads j ∧ ∀ g ∈ fields, Reads g.2 := List.forall_mem_cons.1 hfields
    cases fields with
    | nil =>
      simp only [fieldChars, List.length_append, List.length_cons] at hfuel
      obtain ⟨fuel, rfl⟩ : ∃ n, fuel = n + 1 := ⟨fuel - 1, by omega⟩
      have hvalue := hj fuel ('}' :: rest) (by omega) (ends_cons (by decide) rest)
      have hname := stringBody_flatMap name.toList (':' :: (j.chars ++ '}' :: rest))
      simp only [fieldChars, stringText, List.append_assoc, List.cons_append, List.nil_append, fields?,
        skipSpace_cons (c := '"') rfl, hname, skipSpace_cons (c := ':') rfl, hvalue,
        skipSpace_cons (c := '}') rfl, Option.bind_eq_bind, Option.bind_some]
      rfl
    | cons g fields =>
      simp only [fieldChars, List.length_append, List.length_cons] at hfuel
      obtain ⟨fuel, rfl⟩ : ∃ n, fuel = n + 1 := ⟨fuel - 1, by omega⟩
      have hvalue := hj fuel (',' :: (fieldChars (g :: fields) ++ rest)) (by omega)
        (ends_cons (by decide) _)
      have hname := stringBody_flatMap name.toList
        (':' :: (j.chars ++ ',' :: (fieldChars (g :: fields) ++ rest)))
      have hlength : (fieldChars (g :: fields)).length ≤ fuel := by omega
      have hfields := ih (List.cons_ne_nil _ _) hfields hlength
      simp only [fieldChars, stringText, List.append_assoc, List.cons_append, List.nil_append, fields?,
        skipSpace_cons (c := '"') rfl, hname, skipSpace_cons (c := ':') rfl, hvalue,
        skipSpace_cons (c := ',') rfl, hfields, Option.bind_eq_bind, Option.bind_some]
      rfl

/-- The induction is on the value; a container hands the fuel on to what is in it. -/
theorem reads_of_integral {j : Json} (h : Integral j) : Reads j := by
  induction h with
  | null => exact reads_of_succ (List.cons_ne_nil _ _) fun _ _ _ _ => rfl
  | bool b => cases b <;> exact reads_of_succ (List.cons_ne_nil _ _) fun _ _ _ _ => rfl
  | natural n =>
    refine reads_of_succ Nat.toDigits_ne_nil fun fuel rest _ hrest => ?_
    obtain ⟨d, ds, hdigits, hd, -⟩ := exists_toDigits n
    have hliteral := literal?_natural n hrest
    rw [written, chars, Number.text]
    rw [hdigits] at hliteral ⊢
    exact value?_number fuel (.inr hd) hliteral
  | negative n =>
    refine reads_of_succ (List.cons_ne_nil _ _) fun fuel rest _ hrest => ?_
    exact value?_number fuel (.inl rfl) (literal?_negative n hrest)
  | zero isNegative hzero =>
    refine reads_of_succ (by simp [chars, Number.text, hzero]) fun fuel rest _ hrest => ?_
    have hliteral := literal?_zero isNegative hrest
    rw [written, if_pos hzero, chars, Number.text, if_pos hzero, List.append_assoc]
    cases isNegative
    · exact value?_number fuel (.inr rfl) hliteral
    · exact value?_number fuel (.inl rfl) hliteral
  | string s =>
    refine reads_of_succ (List.cons_ne_nil _ _) fun fuel rest _ _ => ?_
    simp only [chars, stringText, List.append_assoc, List.cons_append, List.nil_append, value?,
      skipSpace_cons (c := '"') rfl, stringBody_flatMap, Option.map_some, written]
  | @array items h ih =>
    refine reads_of_succ (List.cons_ne_nil _ _) fun fuel rest hfuel _ => ?_
    cases items with
    | nil => rfl
    | cons j items =>
      have hlength : (itemChars (j :: items)).length ≤ fuel := by simpa [chars] using hfuel
      have hitems := items?_itemChars (List.cons_ne_nil j items) ih hlength rest
      obtain ⟨c, cs, hchars, hspace, hc⟩ := exists_itemChars (h j (List.mem_cons_self ..)) items
      rw [hchars, List.cons_append] at hitems
      rw [chars, hchars, List.cons_append, List.cons_append, value?, skipSpace_cons rfl]
      simp only [skipSpace_cons hspace]
      split
      · rename_i heq
        exact absurd (List.cons.inj heq).1 hc
      · rw [hitems, Option.map_some, written]
  | @members fields h ih =>
    refine reads_of_succ (List.cons_ne_nil _ _) fun fuel rest hfuel _ => ?_
    cases fields with
    | nil => rfl
    | cons f fields =>
      have hlength : (fieldChars (f :: fields)).length ≤ fuel := by simpa [chars] using hfuel
      have hfields := fields?_fieldChars (List.cons_ne_nil f fields) ih hlength rest
      obtain ⟨cs, hchars⟩ := exists_fieldChars f fields
      rw [hchars, List.cons_append] at hfields
      rw [chars, hchars, List.cons_append, List.cons_append, value?, skipSpace_cons rfl]
      simp only [skipSpace_cons (c := '"') rfl]
      split
      · rename_i heq
        exact absurd (List.cons.inj heq).1 (by decide)
      · rw [hfields, Option.map_some, written]

/-- What is written is taken apart into the written form. -/
theorem ofText?_text {j : Json} (h : Integral j) : Written.ofText? j.text = some (written j) := by
  have hvalue := reads_of_integral h (2 * j.chars.length + 2) [] (by omega) (by intro c hc; cases hc)
  rw [List.append_nil] at hvalue
  simp only [Written.ofText?, text, String.toList_ofList, hvalue, Option.bind_eq_bind, Option.bind_some]
  rfl

end Vouch.Json

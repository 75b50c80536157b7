import Mathlib.Data.List.Forall2
import Vouch.Proofs.Circuit.Spelling
import Vouch.Proofs.Text.Parts
import Vouch.Schema

/-! The grammar of schemas.

What the texts of a schema are, said without a reader: segments ended by semicolons, each of
them blank, a pragma or a claim. Names and numbers may stand between blanks, and numbers
behind zeros. Which names, widths, counts and depths are valid is in the types already, so
the grammar only says how they are written.

A segment is as good as what trimming leaves of it, and the first character of that tells
which of the three it is (`Entry.written_of_pragma`, `Entry.written_of_claim`). -/
namespace Vouch

open Text (Blank Tight Padded trim tight_of_forall padded_iff)
open Decimal (Numeral)

/-! ### Words and brackets -/

/-- Only characters that names have. -/
def Plain (cs : List Char) : Prop :=
  ∀ c ∈ cs, Claim.isNameRest c = true

/-- A word and something in brackets, perhaps some blanks apart. -/
def Bracketed (word : String) (opening closing : Char) (inner cs : List Char) : Prop :=
  ∃ gap, Blank gap ∧ cs = word.toList ++ gap ++ opening :: inner ++ [closing]

theorem toNat_of_isNameRest {c : Char} (h : Claim.isNameRest c = true) : 48 ≤ c.toNat ∧ c.toNat ≤ 122 := by
  rcases Bool.or_eq_true_iff.1 h with hstart | hdigit
  · have hbounds := Claim.toNat_of_isNameStart hstart
    omega
  · have hbounds : 48 ≤ c.toNat ∧ c.toNat ≤ 57 := Char.isDigit_iff_toNat.1 hdigit
    omega

/-- No name holds a blank. -/
theorem isBlank_of_isNameRest {c : Char} (h : Claim.isNameRest c = true) : Text.isBlank c = false := by
  have hbounds := toNat_of_isNameRest h
  simp only [Text.isBlank, Bool.or_eq_false_iff, Bool.and_eq_false_iff, decide_eq_false_iff_not,
    beq_eq_false_iff_ne]
  omega

theorem isNameRest_of_isBlank {c : Char} (h : Text.isBlank c = true) : Claim.isNameRest c = false := by
  by_contra hname
  rw [Bool.not_eq_false] at hname
  exact Bool.false_ne_true ((isBlank_of_isNameRest hname).symm.trans h)

theorem Plain.tight {cs : List Char} (h : Plain cs) : Tight cs :=
  tight_of_forall fun c hc => isBlank_of_isNameRest (h c hc)

theorem Plain.of_eq {word : List Char} (h : Plain word) (cs : List Char) (he : cs = word) : Plain cs :=
  he ▸ h

/-- Only blanks and characters that names have. -/
def Loose (cs : List Char) : Prop :=
  ∀ c ∈ cs, Text.isBlank c = true ∨ Claim.isNameRest c = true

theorem loose_of_padded {P : List Char → Prop} (hP : ∀ inner, P inner → Plain inner) {cs : List Char}
    (h : Padded P cs) : Loose cs := by
  obtain ⟨before, inner, after, hbefore, hinner, hafter, rfl⟩ := h
  refine List.forall_mem_append.2 ⟨List.forall_mem_append.2 ⟨?_, ?_⟩, ?_⟩
  · exact fun c hc => .inl (hbefore c hc)
  · exact fun c hc => .inr (hP inner hinner c hc)
  · exact fun c hc => .inl (hafter c hc)

/-- Every other character is a mark, which such texts do not have. -/
theorem Loose.not_mem {cs : List Char} (h : Loose cs) {mark : Char} (hblank : Text.isBlank mark = false)
    (hname : Claim.isNameRest mark = false) : mark ∉ cs := by
  intro hmem
  rcases h mark hmem with hc | hc
  · exact Bool.false_ne_true (hblank.symm.trans hc)
  · exact Bool.false_ne_true (hname.symm.trans hc)

theorem padded_plain_iff {P : List Char → Prop} (h : ∀ inner, P inner → Plain inner) {cs : List Char} :
    Padded P cs ↔ P (trim cs) :=
  padded_iff fun inner hinner => (h inner hinner).tight

theorem plain_numeral (n : Nat) (cs : List Char) (h : Numeral n cs) : Plain cs := by
  intro c hc
  have hdigit := (Decimal.isDigits_iff.1 (Decimal.numeral_iff.1 h).1).2 c hc
  simp [Claim.isNameRest, hdigit]

theorem plain_hashName (hash : PropertyHash) : Plain hash.name.toList := by
  cases hash with
  | keccak256 => exact List.all_eq_true.1 rfl
  | custom => exact List.all_eq_true.1 rfl

theorem plain_identifier {cs : List Char} (h : Claim.isIdentifier cs = true) : Plain cs := by
  have hname : Circuit.IsName (String.ofList cs) := by rwa [Circuit.IsName, String.toList_ofList]
  intro c hc
  exact hname.spelled c (by rwa [String.toList_ofList])

theorem plain_claimName (c : Claim) : Plain c.name.toList :=
  plain_identifier c.validName.1

theorem Bracketed.tight {word : String} {opening closing : Char} {inner cs : List Char}
    (hword : ∃ first rest, word.toList = first :: rest ∧ Text.isBlank first = false)
    (hclosing : Text.isBlank closing = false) (h : Bracketed word opening closing inner cs) : Tight cs := by
  obtain ⟨first, rest, hword, hfirst⟩ := hword
  obtain ⟨gap, -, rfl⟩ := h
  constructor
  · simp [hword, hfirst]
  · rw [List.getLast?_concat]
    simp [hclosing]

/-! ### Types -/

/-- The expressions of a type. -/
inductive ClaimType.Written : ClaimType → List Char → Prop
  | integer {width : Nat} (valid : ValidWidth greatestIntegerWidth width) {parameter cs : List Char} :
      Padded (Numeral width) parameter → Bracketed "uint" '<' '>' parameter cs →
        Written (.integer width valid) cs
  | property (p : PropertyType) {width hash checks cs : List Char} :
      Padded (Numeral p.width) width → Padded (· = p.hash.name.toList) hash →
        Padded (Numeral p.checks) checks →
          Bracketed "prop" '<' '>' (width ++ ',' :: hash ++ ',' :: checks) cs → Written (.property p) cs
  | boolean : Written .boolean "bool".toList
  | booleanEmpty {inner cs : List Char} :
      Blank inner → Bracketed "bool" '<' '>' inner cs → Written .boolean cs

theorem ClaimType.Written.tight {t : ClaimType} {cs : List Char} (h : t.Written cs) : Tight cs := by
  cases h with
  | integer _ _ h => exact h.tight ⟨'u', _, rfl, rfl⟩ rfl
  | property _ _ _ _ h => exact h.tight ⟨'p', _, rfl, rfl⟩ rfl
  | boolean => exact Plain.tight (List.all_eq_true.1 rfl)
  | booleanEmpty _ h => exact h.tight ⟨'b', _, rfl, rfl⟩ rfl

theorem ClaimType.Written.ne_nil {t : ClaimType} {cs : List Char} (h : t.Written cs) : cs ≠ [] := by
  cases h with
  | integer _ _ h | property _ _ _ _ h | booleanEmpty _ h =>
    obtain ⟨gap, -, rfl⟩ := h
    exact List.append_ne_nil_of_right_ne_nil _ (List.cons_ne_nil _ _)
  | boolean => decide

/-! ### Segments -/

/-- The pragma that makes credentials revocable. -/
def DepthWritten (depth : Nat) (cs : List Char) : Prop :=
  ∃ argument, Padded (Numeral depth) argument ∧ Bracketed "@revocable" '(' ')' argument cs

/-- A name, a colon and a type expression. -/
def Claim.Written (c : Claim) (cs : List Char) : Prop :=
  ∃ name expression, Padded (· = c.name.toList) name ∧ Padded c.type.Written expression ∧
    cs = name ++ ':' :: expression

/-- What a segment is. -/
inductive Entry where
  | blank
  | depth (d : Nat)
  | claim (c : Claim)

namespace Entry

def Written : Entry → List Char → Prop
  | .blank => Blank
  | .depth d => Padded (DepthWritten d)
  | .claim c => c.Written

def depth? : Entry → Option Nat
  | .depth d => some d
  | _ => none

def claim? : Entry → Option Claim
  | .claim c => some c
  | _ => none

end Entry

/-- The segments are these claims and these pragmas, each in their order, and blank otherwise. -/
def SegmentsWritten (claims : List Claim) (depths : List Nat) (segments : List (List Char)) : Prop :=
  ∃ entries, List.Forall₂ (fun segment (e : Entry) => e.Written segment) segments entries ∧
    entries.filterMap Entry.claim? = claims ∧ entries.filterMap Entry.depth? = depths

/-- The text is the claims in order and a pragma somewhere, if there is a depth. It cannot say the
id. -/
structure Schema.Written (s : Schema) (text : String) : Prop where
  segments : SegmentsWritten s.claims s.depth.toList (text.toList.splitOn ';')
  id : s.id = 0

/-! ### Trimming -/

theorem DepthWritten.tight (d : Nat) (cs : List Char) (h : DepthWritten d cs) : Tight cs := by
  obtain ⟨argument, -, h⟩ := h
  exact h.tight ⟨'@', _, rfl, rfl⟩ rfl

theorem DepthWritten.head? {d : Nat} {cs : List Char} (h : DepthWritten d cs) : cs.head? = some '@' := by
  obtain ⟨argument, -, gap, -, rfl⟩ := h
  rfl

/-- A name does not start like a pragma. -/
theorem Claim.Written.head? {c : Claim} {cs : List Char} (h : c.Written cs) :
    ∃ first, cs.head? = some first ∧ first ≠ '@' := by
  obtain ⟨name, expression, hname, -, rfl⟩ := h
  have hat : '@' ∉ name := (loose_of_padded (plain_claimName c).of_eq hname).not_mem rfl rfl
  cases name with
  | nil => exact ⟨':', rfl, by decide⟩
  | cons first rest => exact ⟨first, rfl, fun he => hat (he ▸ List.mem_cons_self)⟩

theorem Claim.written_trim_iff {c : Claim} {cs : List Char} : c.Written (trim cs) ↔ c.Written cs := by
  constructor
  · rintro ⟨name, expression, hname, hexpression, htrim⟩
    obtain ⟨before, after, hbefore, hafter, hcs⟩ := Text.exists_trim cs
    have hname' := hname.append hbefore Text.blank_nil
    have hexpression' := hexpression.append Text.blank_nil hafter
    refine ⟨_, _, hname', hexpression', ?_⟩
    rw [hcs, htrim]
    simp
  · rintro ⟨name, expression, ⟨before, _, gap, hbefore, rfl, hgap, rfl⟩,
      ⟨gap', inner, after, hgap', hinner, hafter, rfl⟩, rfl⟩
    have hne : c.name.toList ≠ [] := Circuit.IsName.toList_ne_nil c.validName.1
    have htight : Tight (c.name.toList ++ (gap ++ ':' :: gap') ++ inner) :=
      (plain_claimName c).tight.append hne hinner.tight hinner.ne_nil _
    have htrim := Text.trim_append hbefore htight hafter
    refine ⟨c.name.toList ++ gap, gap' ++ inner, ⟨[], _, gap, Text.blank_nil, rfl, hgap, rfl⟩,
      ⟨gap', inner, [], hgap', hinner, Text.blank_nil, (List.append_nil _).symm⟩, ?_⟩
    rw [show before ++ c.name.toList ++ gap ++ ':' :: (gap' ++ inner ++ after) =
      before ++ (c.name.toList ++ (gap ++ ':' :: gap') ++ inner) ++ after by simp, htrim]
    simp

namespace Entry

theorem written_blank_iff {segment : List Char} : Entry.blank.Written segment ↔ trim segment = [] :=
  Text.trim_eq_nil_iff.symm

theorem written_depth_iff {d : Nat} {segment : List Char} :
    (Entry.depth d).Written segment ↔ DepthWritten d (trim segment) :=
  padded_iff (DepthWritten.tight d)

theorem written_claim_iff {c : Claim} {segment : List Char} :
    (Entry.claim c).Written segment ↔ c.Written (trim segment) :=
  Claim.written_trim_iff.symm

variable {e : Entry} {segment : List Char}

theorem written_of_blank (h : trim segment = []) : e.Written segment ↔ e = .blank := by
  cases e with
  | blank => exact iff_of_true (written_blank_iff.2 h) rfl
  | depth d =>
    refine iff_of_false (fun hd => ?_) nofun
    have hfirst := (written_depth_iff.1 hd).head?
    rw [h] at hfirst
    cases hfirst
  | claim c =>
    refine iff_of_false (fun hc => ?_) nofun
    obtain ⟨first, hfirst, -⟩ := (written_claim_iff.1 hc).head?
    rw [h] at hfirst
    cases hfirst

theorem written_of_pragma (h : (trim segment).head? = some '@') :
    e.Written segment ↔ ∃ d, e = .depth d ∧ DepthWritten d (trim segment) := by
  cases e with
  | blank =>
    refine iff_of_false (fun hb => ?_) nofun
    rw [written_blank_iff.1 hb] at h
    cases h
  | depth d => simp [written_depth_iff]
  | claim c =>
    refine iff_of_false (fun hc => ?_) nofun
    obtain ⟨first, hfirst, hne⟩ := (written_claim_iff.1 hc).head?
    exact hne (Option.some.inj (hfirst.symm.trans h))

theorem written_of_claim (hne : trim segment ≠ []) (h : (trim segment).head? ≠ some '@') :
    e.Written segment ↔ ∃ c, e = .claim c ∧ c.Written (trim segment) := by
  cases e with
  | blank => exact iff_of_false (fun hb => hne (written_blank_iff.1 hb)) nofun
  | depth d => exact iff_of_false (fun hd => h (written_depth_iff.1 hd).head?) nofun
  | claim c => simp [written_claim_iff]

end Entry

/-! ### Segment by segment -/

section

variable {segment : List Char} {segments : List (List Char)} {claims : List Claim} {depths : List Nat}

theorem segmentsWritten_nil_iff : SegmentsWritten claims depths [] ↔ claims = [] ∧ depths = [] := by
  simp only [SegmentsWritten, List.forall₂_nil_left_iff]
  constructor
  · rintro ⟨_, rfl, rfl, rfl⟩
    exact ⟨rfl, rfl⟩
  · rintro ⟨rfl, rfl⟩
    exact ⟨[], rfl, rfl, rfl⟩

theorem segmentsWritten_cons_iff : SegmentsWritten claims depths (segment :: segments) ↔
    ∃ e rest, Entry.Written e segment ∧
      List.Forall₂ (fun segment (e : Entry) => e.Written segment) segments rest ∧
      (e :: rest).filterMap Entry.claim? = claims ∧ (e :: rest).filterMap Entry.depth? = depths := by
  simp only [SegmentsWritten, List.forall₂_cons_left_iff]
  constructor
  · rintro ⟨_, ⟨e, rest, he, hrest, rfl⟩, hclaims, hdepths⟩
    exact ⟨e, rest, he, hrest, hclaims, hdepths⟩
  · rintro ⟨e, rest, he, hrest, hclaims, hdepths⟩
    exact ⟨e :: rest, ⟨e, rest, he, hrest, rfl⟩, hclaims, hdepths⟩

theorem segmentsWritten_blank_iff (h : trim segment = []) :
    SegmentsWritten claims depths (segment :: segments) ↔ SegmentsWritten claims depths segments := by
  simp only [segmentsWritten_cons_iff, Entry.written_of_blank h]
  constructor
  · rintro ⟨_, rest, rfl, hrest, hclaims, hdepths⟩
    exact ⟨rest, hrest, hclaims, hdepths⟩
  · rintro ⟨rest, hrest, hclaims, hdepths⟩
    exact ⟨_, rest, rfl, hrest, hclaims, hdepths⟩

theorem segmentsWritten_pragma_iff (h : (trim segment).head? = some '@') :
    SegmentsWritten claims depths (segment :: segments) ↔
      ∃ d rest, DepthWritten d (trim segment) ∧ SegmentsWritten claims rest segments ∧ depths = d :: rest := by
  simp only [segmentsWritten_cons_iff, Entry.written_of_pragma h]
  constructor
  · rintro ⟨_, rest, ⟨d, rfl, hd⟩, hrest, hclaims, rfl⟩
    exact ⟨d, _, hd, ⟨rest, hrest, hclaims, rfl⟩, rfl⟩
  · rintro ⟨d, _, hd, ⟨rest, hrest, hclaims, rfl⟩, rfl⟩
    exact ⟨_, rest, ⟨d, rfl, hd⟩, hrest, hclaims, rfl⟩

theorem segmentsWritten_claim_iff (hne : trim segment ≠ []) (h : (trim segment).head? ≠ some '@') :
    SegmentsWritten claims depths (segment :: segments) ↔
      ∃ c rest, Claim.Written c (trim segment) ∧ SegmentsWritten rest depths segments ∧ claims = c :: rest := by
  simp only [segmentsWritten_cons_iff, Entry.written_of_claim hne h]
  constructor
  · rintro ⟨_, rest, ⟨c, rfl, hc⟩, hrest, rfl, hdepths⟩
    exact ⟨c, _, hc, ⟨rest, hrest, rfl, hdepths⟩, rfl⟩
  · rintro ⟨c, _, hc, ⟨rest, hrest, rfl, hdepths⟩, rfl⟩
    exact ⟨_, rest, ⟨c, rfl, hc⟩, hrest, rfl, hdepths⟩

end

end Vouch

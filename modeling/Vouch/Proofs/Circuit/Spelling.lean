import Vouch.Circuit.Body

/-! The characters of template lines.

Names are identifiers, and so a wire is spelled without blanks and an expression without
the marks that stand between expressions. Lines are `Named` if all their names are
identifiers. -/
namespace Vouch

namespace Claim

theorem toNat_of_isUpper {c : Char} (h : c.isUpper = true) : 65 ≤ c.toNat ∧ c.toNat ≤ 90 :=
  of_decide_eq_true h

theorem toNat_of_isLower {c : Char} (h : c.isLower = true) : 97 ≤ c.toNat ∧ c.toNat ≤ 122 :=
  have ⟨hleast, hgreatest⟩ := Bool.and_eq_true_iff.1 h
  ⟨of_decide_eq_true hleast, of_decide_eq_true hgreatest⟩

theorem toNat_of_isNameStart {c : Char} (h : isNameStart c = true) : 65 ≤ c.toNat ∧ c.toNat ≤ 122 := by
  rcases Bool.or_eq_true_iff.1 h with hletter | hunderscore
  · rcases Bool.or_eq_true_iff.1 hletter with hupper | hlower
    · have hbounds := toNat_of_isUpper hupper
      omega
    · have hbounds := toNat_of_isLower hlower
      omega
  · rw [beq_iff_eq.1 hunderscore]
    decide

end Claim

namespace Circuit

/-- Every character of the text is one of these. -/
def Spelled (p : Char → Bool) (text : String) : Prop :=
  ∀ c ∈ text.toList, p c = true

instance (p : Char → Bool) (text : String) : Decidable (Spelled p text) :=
  decidable_of_iff (text.toList.all p = true) List.all_eq_true

theorem Spelled.not_mem {p : Char → Bool} {text : String} (h : Spelled p text) {c : Char}
    (hc : p c = false) : c ∉ text.toList :=
  fun hmem => Bool.false_ne_true (hc.symm.trans (h c hmem))

theorem Spelled.mono {p q : Char → Bool} {text : String} (h : Spelled p text)
    (hpq : ∀ c, p c = true → q c = true) : Spelled q text :=
  fun c hc => hpq c (h c hc)

theorem Spelled.ne {p : Char → Bool} {text : String} (h : Spelled p text) (other : String)
    (hother : ¬ Spelled p other) : text ≠ other :=
  fun he => hother (he ▸ h)

@[simp] theorem spelled_append {p : Char → Bool} {a b : String} :
    Spelled p (a ++ b) ↔ Spelled p a ∧ Spelled p b := by
  simp only [Spelled, String.toList_append, List.mem_append, or_imp, forall_and]

theorem spelled_repr (n : Nat) : Spelled Char.isDigit n.repr := by
  intro c hc
  rw [Nat.toList_repr] at hc
  exact Nat.isDigit_of_mem_toDigits (by decide) (by decide) hc

theorem newline_not_mem_toDigits (n : Nat) : '\n' ∉ Nat.toDigits 10 n := by
  rw [← Nat.toList_repr]
  exact (spelled_repr n).not_mem (by decide)

def IsName (name : String) : Prop :=
  Claim.isIdentifier name.toList = true

instance (name : String) : Decidable (IsName name) :=
  inferInstanceAs (Decidable (_ = true))

theorem IsName.spelled {name : String} (h : IsName name) : Spelled Claim.isNameRest name := by
  unfold IsName Claim.isIdentifier at h
  intro c hc
  split at h
  · cases h
  · rename_i first rest hname
    rw [Bool.and_eq_true, List.all_eq_true] at h
    rw [hname] at hc
    rcases List.mem_cons.1 hc with rfl | hc
    · simp [Claim.isNameRest, h.1]
    · exact h.2 c hc

theorem IsName.toList_ne_nil {name : String} (h : IsName name) : name.toList ≠ [] := by
  intro hname
  rw [IsName, hname] at h
  cases h

/-- A character of a wire or of a gadget. -/
def isWordChar (c : Char) : Bool :=
  Claim.isNameRest c || ['.', '[', ']', '(', ')'].contains c

/-- A character of an expression. -/
def isExprChar (c : Char) : Bool :=
  isWordChar c || [' ', '+', '-', '*'].contains c

theorem isWordChar_of_isNameRest (c : Char) (h : Claim.isNameRest c = true) : isWordChar c = true := by
  simp [isWordChar, h]

theorem isExprChar_of_isWordChar (c : Char) (h : isWordChar c = true) : isExprChar c = true := by
  simp [isExprChar, h]

theorem IsName.word {name : String} (h : IsName name) : Spelled isWordChar name :=
  h.spelled.mono isWordChar_of_isNameRest

theorem word_repr (n : Nat) : Spelled isWordChar n.repr :=
  (spelled_repr n).mono fun c hc => isWordChar_of_isNameRest c (by simp [Claim.isNameRest, hc])

@[simp] theorem word_dot : Spelled isWordChar "." := by decide

@[simp] theorem word_opening : Spelled isWordChar "[" := by decide

@[simp] theorem word_closing : Spelled isWordChar "]" := by decide

/-! ### Names in lines -/

/-- Its names are identifiers. -/
def Wire.Named : Wire → Prop
  | .signal name => IsName name
  | .pin component name => IsName component ∧ IsName name
  | .pinAt component name _ => IsName component ∧ IsName name

def Expr.Named : Expr → Prop
  | .wire w => w.Named
  | .const _ => True
  | .add a b | .sub a b | .mul a b => a.Named ∧ b.Named

/-- The names of a line are identifiers, and a comment is one line. -/
def Line.Named : Line → Prop
  | .blank => True
  | .comment text => '\n' ∉ text.toList
  | .input name _ | .output name | .component name _ => IsName name
  | .assign target value => target.Named ∧ value.Named
  | .equate left right => left.Named ∧ right.Named

theorem Wire.word {w : Wire} (h : w.Named) : Spelled isWordChar w.text := by
  cases w with
  | signal name => exact IsName.word h
  | pin component name => simp [Wire.text, toString, h.1.word, h.2.word]
  | pinAt component name index => simp [Wire.text, toString, h.1.word, h.2.word, word_repr]

theorem Wire.toList_text_ne_nil {w : Wire} (h : w.Named) : w.text.toList ≠ [] := by
  cases w with
  | signal name => exact IsName.toList_ne_nil h
  | pin component name => simp [Wire.text, toString]
  | pinAt component name index => simp [Wire.text, toString]

/-- A gadget with a number as its parameter. -/
theorem word_call {start : String} (h : Spelled isWordChar start) (n : Nat) :
    Spelled isWordChar (start ++ n.repr ++ ")") := by
  have hclose : Spelled isWordChar ")" := by decide
  exact spelled_append.2 ⟨spelled_append.2 ⟨h, word_repr n⟩, hclose⟩

theorem Gadget.word (g : Gadget) : Spelled isWordChar g.text := by
  cases g with
  | bodyHash limbs =>
    have h : Spelled isWordChar "BodyHash(" := by decide
    exact word_call h limbs
  | core depth =>
    have h : Spelled isWordChar "CredentialCore(" := by decide
    exact word_call h depth
  | range width =>
    have h : Spelled isWordChar "RangeCheck(" := by decide
    exact word_call h width
  | wideRange => decide
  | isEqual => decide

theorem toList_call_ne_nil (start : String) (n : Nat) : (start ++ n.repr ++ ")").toList ≠ [] := by
  simp

theorem Gadget.toList_text_ne_nil (g : Gadget) : g.text.toList ≠ [] := by
  cases g with
  | bodyHash limbs => exact toList_call_ne_nil "BodyHash(" limbs
  | core depth => exact toList_call_ne_nil "CredentialCore(" depth
  | range width => exact toList_call_ne_nil "RangeCheck(" width
  | wideRange => decide
  | isEqual => decide

theorem Expr.spelled_brackets {needed : Bool} {text : String} (h : Spelled isExprChar text) :
    Spelled isExprChar (brackets needed text) := by
  have hopen : Spelled isExprChar "(" := by decide
  have hclose : Spelled isExprChar ")" := by decide
  unfold brackets
  split
  · simp [toString, h, hopen, hclose]
  · exact h

theorem Expr.spelled {e : Expr} (h : e.Named) (inProduct : Bool) :
    Spelled isExprChar (e.textIn inProduct) := by
  induction e generalizing inProduct with
  | wire w => exact (Wire.word h).mono isExprChar_of_isWordChar
  | const n => exact (word_repr n).mono isExprChar_of_isWordChar
  | add a b iha ihb =>
    have hsign : Spelled isExprChar " + " := by decide
    exact spelled_brackets (by simp [toString, iha h.1, ihb h.2, hsign])
  | sub a b iha ihb =>
    have hsign : Spelled isExprChar " - " := by decide
    exact spelled_brackets (by simp [toString, iha h.1, ihb h.2, hsign])
  | mul a b iha ihb =>
    have hsign : Spelled isExprChar " * " := by decide
    simp [Expr.textIn, toString, iha h.1, ihb h.2, hsign]

end Circuit

end Vouch

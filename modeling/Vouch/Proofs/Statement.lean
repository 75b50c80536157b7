import Vouch.Proofs.Presentation

/-! What a statement discloses.

A statement made for the type of a claim concerns every value of that type
(`MadeFor.concerns`), and it admits them all unless it is a range. Then it discloses its
outputs, which a circuit makes public, and what the check of the presentation returns
beside them (`check_eq_ok_iff_admits`). Two values that agree where a statement looks have
the same outputs (`outputs_eq_of_alike`). -/
namespace Vouch

theorem RangeStatement.make_eq_ok_iff {width lower upper : Nat} {r : RangeStatement} :
    RangeStatement.make width lower upper = .ok r ↔ r.width = width ∧ r.lower = lower ∧ r.upper = upper := by
  unfold make
  constructor
  · intro h
    split at h
    · split at h
      · cases h
        exact ⟨rfl, rfl, rfl⟩
      · cases h
    · cases h
  · rintro ⟨rfl, rfl, rfl⟩
    rw [dif_pos r.ordered, dif_pos r.fits]

theorem RangeStatement.make_self (r : RangeStatement) :
    RangeStatement.make r.width r.lower r.upper = .ok r :=
  make_eq_ok_iff.2 ⟨rfl, rfl, rfl⟩

theorem EqualityStatement.make_eq_ok_iff {p : PropertyType} {constants : List Nat} {e : EqualityStatement} :
    EqualityStatement.make p constants = .ok e ↔ e.type = p ∧ e.constants = constants := by
  unfold make
  constructor
  · intro h
    split at h
    · split at h
      · cases h
      · cases h
        exact ⟨rfl, rfl⟩
    · cases h
  · rintro ⟨rfl, rfl⟩
    rw [dif_pos e.complete]
    split
    · next k hk =>
      have hwide := List.find?_some hk
      exact absurd (e.fit k (List.mem_of_find?_eq_some hk)) (by simpa using hwide)
    · rfl

theorem EqualityStatement.make_self (e : EqualityStatement) :
    EqualityStatement.make e.type e.constants = .ok e :=
  make_eq_ok_iff.2 ⟨rfl, rfl⟩

namespace Statement

/-- Somebody made the statement for claims of this type. -/
def MadeFor (t : Statement) (c : ClaimType) : Prop :=
  (∃ lower upper, makeRange c lower upper = .ok t) ∨ (∃ constants, makeEquality c constants = .ok t) ∨
    (c = .boolean ∧ ∃ shown, t = .reveal shown)

/-- The statement and the value are of one kind and size. -/
inductive Concerns : Statement → ClaimValue → Prop
  | range {r : RangeStatement} {i : IntegerValue} (width : i.width = r.width) :
    Concerns (.range r) (.integer i)
  | equality {e : EqualityStatement} {p : PropertyValue} (type : p.type = e.type) :
    Concerns (.equality e) (.property p)
  | reveal (shown b : Bool) : Concerns (.reveal shown) (.boolean b)

theorem Concerns.exists_range {t : Statement} {v : ClaimValue} (h : t.Concerns v) {width : Nat}
    {valid : ValidWidth greatestIntegerWidth width} (hv : v.type = .integer width valid) :
    ∃ r i, t = .range r ∧ v = .integer i := by
  cases h with
  | range => exact ⟨_, _, rfl, rfl⟩
  | equality => cases hv
  | reveal => cases hv

theorem Concerns.exists_equality {t : Statement} {v : ClaimValue} (h : t.Concerns v) {p : PropertyType}
    (hv : v.type = .property p) : ∃ e q, t = .equality e ∧ v = .property q ∧ e.type = p := by
  cases h with
  | range => cases hv
  | equality type =>
    cases hv
    exact ⟨_, _, rfl, rfl, type.symm⟩
  | reveal => cases hv

theorem Concerns.exists_reveal {t : Statement} {v : ClaimValue} (h : t.Concerns v)
    (hv : v.type = .boolean) : ∃ shown b, t = .reveal shown ∧ v = .boolean b := by
  cases h with
  | range => cases hv
  | equality => cases hv
  | reveal shown b => exact ⟨shown, b, rfl, rfl⟩

theorem concerns_of_makeRange {c : ClaimType} {lower upper : Nat} {t : Statement} {v : ClaimValue}
    (h : makeRange c lower upper = .ok t) (hv : v.type = c) : t.Concerns v := by
  subst hv
  cases v with
  | integer i =>
    obtain ⟨r, hr, h⟩ := Result.bind_eq_ok_iff.1 h
    obtain rfl := Except.ok.inj h
    exact .range (RangeStatement.make_eq_ok_iff.1 hr).1.symm
  | property p => cases h
  | boolean b => cases h

theorem concerns_of_makeEquality {c : ClaimType} {constants : List Nat} {t : Statement}
    {v : ClaimValue} (h : makeEquality c constants = .ok t) (hv : v.type = c) : t.Concerns v := by
  subst hv
  cases v with
  | integer i => cases h
  | property p =>
    obtain ⟨e, he, h⟩ := Result.bind_eq_ok_iff.1 h
    obtain rfl := Except.ok.inj h
    exact .equality (EqualityStatement.make_eq_ok_iff.1 he).1.symm
  | boolean b => cases h

theorem MadeFor.concerns {t : Statement} {c : ClaimType} {v : ClaimValue} (h : t.MadeFor c)
    (hv : v.type = c) : t.Concerns v := by
  rcases h with ⟨lower, upper, h⟩ | ⟨constants, h⟩ | ⟨rfl, shown, rfl⟩
  · exact concerns_of_makeRange h hv
  · exact concerns_of_makeEquality h hv
  · cases v with
    | integer i => cases hv
    | property p => cases hv
    | boolean b => exact .reveal shown b

/-! ### Outcomes -/

/-- The value lies where the statement says; what is not a range excludes nothing. -/
def Admits : Statement → ClaimValue → Prop
  | .range r, .integer i => r.lower ≤ i.n ∧ i.n ≤ r.upper
  | _, _ => True

/-- What a proof of the statement makes public: the bounds, in two limbs if the integer has
two; twice each constant, plus one where the hash is equal; twice the truth value plus one,
or zero where it is hidden. -/
def outputs : Statement → ClaimValue → List Nat
  | .range r, _ =>
    if r.width = greatestIntegerWidth then
      [r.lower / 2 ^ 128, r.lower % 2 ^ 128, r.upper / 2 ^ 128, r.upper % 2 ^ 128]
    else [r.lower, r.upper]
  | .equality e, .property p => e.constants.map fun k => 2 * k + if p.hash = k then 1 else 0
  | .reveal true, .boolean b => [2 * b.toNat + 1]
  | .reveal false, .boolean _ => [0]
  | _, _ => []

/-- What a check returns: whether an output is odd, or the truth value if it is revealed. -/
def aside : Statement → ClaimValue → List Nat
  | .equality e, v => [if ∃ out ∈ outputs (.equality e) v, out % 2 = 1 then 1 else 0]
  | .reveal true, .boolean b => [b.toNat]
  | _, _ => []

/-- An output is odd exactly if the hash is one of the constants. -/
theorem exists_odd_output_iff (e : EqualityStatement) (p : PropertyValue) :
    (∃ out ∈ outputs (.equality e) (.property p), out % 2 = 1) ↔ e.holds p.hash = true := by
  rw [EqualityStatement.holds_iff, outputs]
  constructor
  · intro ⟨out, hout, h⟩
    obtain ⟨k, hk, rfl⟩ := List.mem_map.1 hout
    by_cases hhash : p.hash = k
    · exact hhash ▸ hk
    · rw [if_neg hhash] at h
      omega
  · intro h
    refine ⟨_, List.mem_map_of_mem h, ?_⟩
    rw [if_pos rfl]
    omega

theorem aside_equality (e : EqualityStatement) (p : PropertyValue) :
    aside (.equality e) (.property p) = [(e.holds p.hash).toNat] := by
  cases hholds : e.holds p.hash <;> simp [aside, exists_odd_output_iff, hholds]

/-- **A value of its kind passes a statement exactly if it is admitted.** -/
theorem check_eq_ok_iff_admits {t : Statement} {v : ClaimValue} {disclosed : List Nat} :
    t.check v = .ok disclosed ↔ t.Concerns v ∧ t.Admits v ∧ disclosed = t.aside v := by
  rw [check_eq_ok_iff]
  constructor
  · rintro (⟨r, i, rfl, rfl, hwidth, hlower, hupper, rfl⟩ | ⟨e, p, rfl, rfl, htype, rfl⟩ |
      ⟨shown, b, rfl, rfl, rfl⟩)
    · exact ⟨.range hwidth, ⟨hlower, hupper⟩, rfl⟩
    · exact ⟨.equality htype, trivial, (aside_equality e p).symm⟩
    · refine ⟨.reveal shown b, trivial, ?_⟩
      cases shown <;> rfl
  · rintro ⟨hconcerns, hadmits, rfl⟩
    cases hconcerns with
    | range hwidth => exact .inl ⟨_, _, rfl, rfl, hwidth, hadmits.1, hadmits.2, rfl⟩
    | equality htype => exact .inr (.inl ⟨_, _, rfl, rfl, htype, aside_equality _ _⟩)
    | reveal shown b =>
      refine .inr (.inr ⟨shown, b, rfl, rfl, ?_⟩)
      cases shown <;> rfl

theorem exists_check_iff_admits {t : Statement} {v : ClaimValue} (h : t.Concerns v) :
    (∃ disclosed, t.check v = .ok disclosed) ↔ t.Admits v := by
  simp only [check_eq_ok_iff_admits, h, true_and, exists_and_left, exists_eq, and_true]

/-- Of the values of its kind only an integer out of its range is refused. -/
theorem check_eq_error_iff {t : Statement} {v : ClaimValue} {e : Error} (h : t.Concerns v) :
    t.check v = .error e ↔ ∃ r i, t = .range r ∧ v = .integer i ∧ ¬ (r.lower ≤ i.n ∧ i.n ≤ r.upper) ∧
      e = .check (.outOfRange i.n r.lower r.upper) := by
  cases h with
  | @range r i width =>
    rw [check, if_pos width, RangeStatement.check]
    by_cases hbounds : r.lower ≤ i.n ∧ i.n ≤ r.upper
    · rw [if_pos hbounds]
      refine iff_of_false (fun he => ?_) ?_
      · cases he
      · rintro ⟨_, _, ⟨⟩, ⟨⟩, hout, -⟩
        exact hout hbounds
    · rw [if_neg hbounds]
      constructor
      · intro he
        exact ⟨r, i, rfl, rfl, hbounds, (Except.error.inj he).symm⟩
      · rintro ⟨_, _, ⟨⟩, ⟨⟩, -, rfl⟩
        rfl
  | equality type => simp [check, type]
  | reveal shown b => simp [check]

/-! ### What the outputs depend on -/

/-- Two values that a statement cannot tell apart: revealed ones are equal, and so are, for each
constant, the outcomes of the comparison. -/
def Alike : Statement → ClaimValue → ClaimValue → Prop
  | .equality e, .property p, .property q => ∀ k ∈ e.constants, p.hash = k ↔ q.hash = k
  | .reveal true, .boolean a, .boolean b => a = b
  | _, _, _ => True

theorem outputs_eq_of_alike {t : Statement} {v w : ClaimValue} (hv : t.Concerns v) (hw : t.Concerns w)
    (h : t.Alike v w) : t.outputs v = t.outputs w := by
  cases hv with
  | range width =>
    cases hw with
    | range width' => rfl
  | equality type =>
    cases hw with
    | equality type' => exact List.map_congr_left fun k hk => by simp only [h k hk]
  | reveal shown a =>
    cases hw with
    | reveal _ b =>
      cases shown with
      | true => rw [show a = b from h]
      | false => rfl

end Statement

end Vouch

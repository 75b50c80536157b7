import Mathlib.Data.List.Forall2
import Vouch.Error

/-! Steps that can fail.

The steps of a list succeed together exactly if each one does by itself
(`mapM_eq_ok_iff`). Checks that always answer do so in sequence (`Answers.and`), and steps that
fail with errors of certain kinds only fail so in sequence (`FailsWith.bind`). Steps with
requirements obey all of them in order (`Obeys.bind`). -/
namespace Vouch.Result

variable {α β : Type}

/-! ### Lists of steps -/

theorem mapM_eq_ok_iff {f : α → Result β} {xs : List α} {ys : List β} :
    xs.mapM f = .ok ys ↔ List.Forall₂ (fun x y => f x = .ok y) xs ys := by
  induction xs generalizing ys with
  | nil =>
    rw [List.mapM_nil, List.forall₂_nil_left_iff]
    exact ⟨fun h => (Except.ok.inj h).symm, fun h => congrArg Except.ok h.symm⟩
  | cons x xs ih =>
    rw [List.mapM_cons, bind_eq_ok_iff, List.forall₂_cons_left_iff]
    constructor
    · intro ⟨y, hy, h⟩
      obtain ⟨rest, hrest, h⟩ := bind_eq_ok_iff.1 h
      exact ⟨y, rest, hy, ih.1 hrest, (Except.ok.inj h).symm⟩
    · rintro ⟨y, rest, hy, hrest, rfl⟩
      exact ⟨y, hy, bind_eq_ok_iff.2 ⟨rest, ih.2 hrest, rfl⟩⟩

theorem exists_mapM_eq_ok_iff {f : α → Result β} {xs : List α} :
    (∃ ys, xs.mapM f = .ok ys) ↔ ∀ x ∈ xs, ∃ y, f x = .ok y := by
  induction xs with
  | nil => simp [pure, Except.pure]
  | cons x xs ih =>
    rw [List.forall_mem_cons, ← ih]
    simp only [mapM_eq_ok_iff, List.forall₂_cons_left_iff]
    constructor
    · rintro ⟨_, y, rest, hy, hrest, rfl⟩
      exact ⟨⟨y, hy⟩, rest, hrest⟩
    · intro ⟨⟨y, hy⟩, rest, hrest⟩
      exact ⟨y :: rest, y, rest, hy, hrest, rfl⟩

theorem bind_eq_error_iff {r : Result α} {f : α → Result β} {e : Error} :
    r >>= f = .error e ↔ r = .error e ∨ ∃ a, r = .ok a ∧ f a = .error e := by
  cases r <;> simp [bind, Except.bind]

theorem within_eq_error_iff {part : String} {r : Result α} {e : Error} :
    r.within part = .error e ↔ ∃ e', r = .error e' ∧ e = e'.within part := by
  cases r <;> simp [within, eq_comm]

/-- A failure is that of the first step that fails. -/
theorem exists_of_mapM_eq_error {f : α → Result β} {xs : List α} {e : Error} (h : xs.mapM f = .error e) :
    ∃ before x after, xs = before ++ x :: after ∧ (∀ y ∈ before, ∃ b, f y = .ok b) ∧ f x = .error e := by
  induction xs with
  | nil => cases h
  | cons x xs ih =>
    rw [List.mapM_cons] at h
    rcases bind_eq_error_iff.1 h with hx | ⟨b, hx, h⟩
    · exact ⟨[], x, xs, rfl, nofun, hx⟩
    · rcases bind_eq_error_iff.1 h with hxs | ⟨bs, -, h⟩
      · obtain ⟨before, y, after, rfl, hbefore, hy⟩ := ih hxs
        exact ⟨x :: before, y, after, rfl, List.forall_mem_cons.2 ⟨⟨b, hx⟩, hbefore⟩, hy⟩
      · cases h

theorem forM_eq_ok_iff {f : α → Result Unit} {xs : List α} :
    xs.forM f = .ok () ↔ ∀ x ∈ xs, f x = .ok () := by
  induction xs with
  | nil => exact iff_of_true rfl nofun
  | cons x xs ih =>
    rw [List.forall_mem_cons, ← ih, List.forM_eq_forM, List.forM_cons, bind_eq_ok_iff]
    exact ⟨fun ⟨_, hx, hxs⟩ => ⟨hx, hxs⟩, fun ⟨hx, hxs⟩ => ⟨(), hx, hxs⟩⟩

/-- A value that is returned if it passes. -/
theorem checked_eq_ok_iff {c : Prop} [Decidable c] {a b : α} {e : Error} :
    (if c then .ok a else .error e : Result α) = .ok b ↔ b = a ∧ c := by
  split <;> simp [*, eq_comm]

theorem exists_eq_ok_iff {r : Result Unit} : (∃ a, r = .ok a) ↔ r = .ok () :=
  ⟨fun ⟨_, h⟩ => h, fun h => ⟨(), h⟩⟩

/-- Steps that cannot fail are taken one after another. -/
theorem foldlM_eq_ok {f : β → α → Result β} {g : β → α → β} {xs : List α}
    (h : ∀ x ∈ xs, ∀ b, f b x = .ok (g b x)) (b : β) : xs.foldlM f b = .ok (xs.foldl g b) := by
  induction xs generalizing b with
  | nil => rfl
  | cons x xs ih =>
    obtain ⟨hx, hxs⟩ := List.forall_mem_cons.1 h
    rw [List.foldlM_cons, hx]
    exact ih hxs (g b x)

/-- A step on what may be missing succeeds if it is missing, or the step does. -/
theorem optionMapM_eq_ok_iff {f : α → Result β} {a? : Option α} {b? : Option β} :
    a?.mapM f = .ok b? ↔ Option.Rel (fun a b => f a = .ok b) a? b? := by
  cases a? with
  | none =>
    constructor
    · intro h
      cases h
      exact .none
    · intro h
      cases h
      rfl
  | some a =>
    rw [Option.mapM_some]
    constructor
    · intro h
      obtain ⟨b, hb, h⟩ := bind_eq_ok_iff.1 h
      cases h
      exact .some hb
    · intro h
      cases h with
      | some hb => exact bind_eq_ok_iff.2 ⟨_, hb, rfl⟩

/-! ### Outcomes that are decided -/

theorem eq_ok_of_toOption {r : Result α} {a : α} (h : r.toOption = some a) : r = .ok a := by
  cases r with
  | ok b => exact congrArg Except.ok (Option.some.inj h)
  | error e => cases h

theorem exists_error_of_toOption {r : Result α} (h : r.toOption = none) : ∃ e, r = .error e := by
  cases r with
  | ok a => cases h
  | error e => exact ⟨e, rfl⟩

/-! ### Checks that cannot fail -/

/-- The check says whether something is the case. -/
def Answers (r : Result Bool) (P : Prop) : Prop :=
  ∃ b, r = .ok b ∧ (b = true ↔ P)

namespace Answers

variable {P Q : Prop} {r r' : Result Bool}

theorem congr (h : r.Answers P) (hiff : P ↔ Q) : r.Answers Q :=
  let ⟨b, hb, hP⟩ := h
  ⟨b, hb, hP.trans hiff⟩

/-- One check, and another one if the first says yes. -/
theorem and (h : r.Answers P) (h' : r'.Answers Q) :
    Result.Answers (do if ← r then r' else return false) (P ∧ Q) := by
  obtain ⟨b, rfl, hP⟩ := h
  obtain ⟨b', rfl, hQ⟩ := h'
  cases b with
  | true => exact ⟨b', rfl, hQ.trans (and_iff_right (hP.1 rfl)).symm⟩
  | false => exact ⟨false, rfl, iff_of_false (by decide) fun hand => absurd (hP.2 hand.1) (by decide)⟩

theorem eq_ok_true_iff (h : r.Answers P) : r = .ok true ↔ P := by
  obtain ⟨b, rfl, hP⟩ := h
  rw [Except.ok.injEq, hP]

theorem eq_ok_false_iff (h : r.Answers P) : r = .ok false ↔ ¬ P := by
  obtain ⟨b, rfl, hP⟩ := h
  rw [Except.ok.injEq, ← hP, Bool.not_eq_true]

end Answers

/-! ### Kinds of failure -/

/-- An error of this outcome is of one of the kinds. -/
def FailsWith (kinds : List FaultKind) (r : Result α) : Prop :=
  ∀ e, r = .error e → e.kind ∈ kinds

namespace FailsWith

variable {kinds : List FaultKind} {r : Result α}

theorem ok (a : α) : FailsWith kinds (.ok a) := nofun

theorem error {e : Error} (h : e.kind ∈ kinds) : FailsWith kinds (.error e : Result α) :=
  fun _ he => Except.error.inj he ▸ h

theorem own (e : Error) : FailsWith [e.kind] (.error e : Result α) :=
  error (List.mem_singleton_self _)

theorem bind {f : α → Result β} (hr : FailsWith kinds r) (hf : ∀ a, FailsWith kinds (f a)) :
    FailsWith kinds (r >>= f) := by
  cases r with
  | ok a => exact hf a
  | error e => exact error (hr e rfl)

/-- Where an error was met does not change its kind. -/
theorem within (part : String) (h : FailsWith kinds r) : FailsWith kinds (r.within part) := by
  cases r with
  | ok a => exact ok a
  | error e => exact error (h e rfl)

theorem reported {kind : FaultKind} (h : kind ∈ kinds) (r : Result α) :
    FailsWith kinds (r.reported kind) := by
  cases r with
  | ok a => exact ok a
  | error e => exact error h

theorem optionMapM {f : α → Result β} (hf : ∀ a, FailsWith kinds (f a)) (a? : Option α) :
    FailsWith kinds (a?.mapM f) := by
  cases a? with
  | none => exact ok none
  | some a => exact bind (hf a) fun b => ok (some b)

theorem mapM {f : α → Result β} (hf : ∀ a, FailsWith kinds (f a)) (as : List α) :
    FailsWith kinds (as.mapM f) := by
  induction as with
  | nil => exact ok []
  | cons a as ih =>
    rw [List.mapM_cons]
    exact bind (hf a) fun b => bind ih fun bs => ok (b :: bs)

theorem forM {f : α → Result Unit} (hf : ∀ a, FailsWith kinds (f a)) (as : List α) :
    FailsWith kinds (as.forM f) := by
  induction as with
  | nil => exact ok ()
  | cons a as ih =>
    rw [List.forM_eq_forM, List.forM_cons]
    exact bind (hf a) fun _ => ih

theorem mono {more : List FaultKind} (hmore : kinds ⊆ more) (h : FailsWith kinds r) : FailsWith more r :=
  fun e he => hmore (h e he)

end FailsWith

/-! ### Requirements in order -/

/-- The outcome is a success if all requirements are met, and else an error of the kind that stands
beside the first one that is not. -/
def Obeys : List (Prop × FaultKind) → Result α → Prop
  | [], r => ∃ a, r = .ok a
  | (p, kind) :: rest, r => (p → Obeys rest r) ∧ (¬ p → ∃ e, r = .error e ∧ e.kind = kind)

namespace Obeys

variable {requirements more : List (Prop × FaultKind)} {r : Result α}

/-- A step with one requirement. -/
theorem single {p : Prop} {kind : FaultKind} (hok : (∃ a, r = .ok a) ↔ p) (hfails : FailsWith [kind] r) :
    Obeys [(p, kind)] r := by
  refine ⟨hok.2, fun hp => ?_⟩
  cases r with
  | ok a => exact absurd (hok.1 ⟨a, rfl⟩) hp
  | error e => exact ⟨e, rfl, List.mem_singleton.1 (hfails e rfl)⟩

/-- The requirements of two steps, where those of the second one need the first to have succeeded. -/
theorem bind {f : α → Result β} (hr : Obeys requirements r)
    (hf : ∀ a, r = .ok a → Obeys more (f a)) : Obeys (requirements ++ more) (r >>= f) := by
  induction requirements with
  | nil =>
    obtain ⟨a, rfl⟩ := hr
    exact hf a rfl
  | cons q rest ih =>
    refine ⟨fun hq => ih (hr.1 hq), fun hq => ?_⟩
    obtain ⟨e, rfl, hkind⟩ := hr.2 hq
    exact ⟨e, rfl, hkind⟩

theorem exists_eq_ok_iff (h : Obeys requirements r) : (∃ a, r = .ok a) ↔ ∀ q ∈ requirements, q.1 := by
  induction requirements with
  | nil => exact iff_of_true h nofun
  | cons q rest ih =>
    rw [List.forall_mem_cons]
    by_cases hq : q.1
    · rw [ih (h.1 hq), and_iff_right hq]
    · obtain ⟨e, rfl, -⟩ := h.2 hq
      exact iff_of_false (fun ⟨_, ha⟩ => nomatch ha) fun hall => hq hall.1

theorem exists_error {q : Prop × FaultKind} (h : Obeys (requirements ++ q :: more) r)
    (hmet : ∀ m ∈ requirements, m.1) (hq : ¬ q.1) : ∃ e, r = .error e ∧ e.kind = q.2 := by
  induction requirements with
  | nil => exact h.2 hq
  | cons m rest ih =>
    obtain ⟨hm, hrest⟩ := List.forall_mem_cons.1 hmet
    exact ih (h.1 hm) hrest

theorem failsWith (h : Obeys requirements r) : FailsWith (requirements.map Prod.snd) r := by
  induction requirements with
  | nil =>
    obtain ⟨a, rfl⟩ := h
    exact .ok a
  | cons q rest ih =>
    by_cases hq : q.1
    · exact (ih (h.1 hq)).mono (List.subset_cons_self ..)
    · obtain ⟨e, rfl, hkind⟩ := h.2 hq
      exact .error (hkind ▸ List.mem_cons_self ..)

end Obeys

end Vouch.Result

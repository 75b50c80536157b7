import Mathlib.Data.List.Prime
import Mathlib.NumberTheory.LucasPrimality
import Mathlib.Tactic.NormNum.Prime
import Vouch.Curve.Edwards
import Vouch.Proofs.Repeated

/-! The orders of the field and of the generator are primes.

A number is prime if some witness has the order `p - 1` modulo it, which is looked up at the
prime factors of `p - 1`. A chain of entries proves the factors first, from small primes on
(`prime_of_check`). -/
namespace Vouch.Modular

/-- A number, a witness and the factors of the number before it, each with its exponent. -/
structure Entry where
  p : Nat
  witness : Nat
  factors : List (Nat × Nat)

namespace Entry

/-- A power modulo the number. -/
def power (e : Entry) (k : Nat) : Nat :=
  repeated (fun a b => a * b % e.p) 1 k e.witness

/-- The witness has no smaller order than `p - 1`. -/
def check (e : Entry) (primes : List Nat) : Bool :=
  1 < e.p && e.factors.all (fun f => decide (f.1 ∈ primes)) &&
    (e.factors.map fun f => f.1 ^ f.2).prod == e.p - 1 && e.power (e.p - 1) == 1 &&
    e.factors.all fun f => e.power ((e.p - 1) / f.1) % e.p != 1

theorem natCast_power (e : Entry) (k : Nat) : (e.power k : ZMod e.p) = (e.witness : ZMod e.p) ^ k := by
  refine repeated_rel (R := fun (a : Nat) (m : ZMod e.p) => (a : ZMod e.p) = m) Nat.cast_one ?_ rfl k
  rintro a b _ _ rfl rfl
  rw [ZMod.natCast_mod, Nat.cast_mul]

theorem prime_of_check {e : Entry} {primes : List Nat} (hprimes : ∀ q ∈ primes, q.Prime)
    (h : e.check primes = true) : e.p.Prime := by
  simp only [check, Bool.and_eq_true, decide_eq_true_eq, List.all_eq_true, beq_iff_eq, bne_iff_ne] at h
  obtain ⟨⟨⟨⟨hp, hfactors⟩, hproduct⟩, hone⟩, hne⟩ := h
  refine lucas_primality e.p e.witness ?_ fun q hq hdvd => ?_
  · rw [← natCast_power, hone, Nat.cast_one]
  · rw [← hproduct] at hdvd
    obtain ⟨x, hx, hqx⟩ := (Prime.dvd_prod_iff hq.prime).1 hdvd
    obtain ⟨f, hf, rfl⟩ := List.mem_map.1 hx
    have hprime : f.1.Prime := hprimes _ (hfactors f hf)
    obtain rfl : q = f.1 := (Nat.prime_dvd_prime_iff_eq hq hprime).1 (hq.dvd_of_dvd_pow hqx)
    intro hpower
    rw [← natCast_power] at hpower
    have hmod := (ZMod.natCast_eq_natCast_iff' _ 1 e.p).1 (hpower.trans Nat.cast_one.symm)
    exact hne f hf (hmod.trans (Nat.mod_eq_of_lt hp))

end Entry

/-- Every entry is checked with the primes before it. -/
def check : (primes : List Nat) → List Entry → Bool
  | _, [] => true
  | primes, e :: rest => e.check primes && check (e.p :: primes) rest

theorem prime_of_check {primes : List Nat} {es : List Entry} (hprimes : ∀ q ∈ primes, q.Prime)
    (h : check primes es = true) : ∀ e ∈ es, e.p.Prime := by
  induction es generalizing primes with
  | nil => exact nofun
  | cons e rest ih =>
    obtain ⟨hfirst, hrest⟩ := Bool.and_eq_true_iff.1 h
    have hp := Entry.prime_of_check hprimes hfirst
    exact List.forall_mem_cons.2 ⟨hp, ih (List.forall_mem_cons.2 ⟨hp, hprimes⟩) hrest⟩

/-- Primes that need no certificate. -/
def smallPrimes : List Nat :=
  [2, 3, 5, 7, 11, 13, 17, 19, 23, 29, 31, 37, 83, 107, 109, 139, 229, 257, 349, 379, 449, 521, 661, 823, 853, 967,
    983, 1061, 1637, 2837, 3691, 4139, 4999, 6323, 11003, 27743, 33409, 41927, 43189]

theorem prime_of_mem_smallPrimes : ∀ q ∈ smallPrimes, q.Prime := by
  simp only [smallPrimes, List.forall_mem_cons]
  norm_num

/-- The factors of `fieldOrder - 1` and those that they take, then the order itself. -/
def fieldEntries : List Entry :=
  [⟨237073, 15, [(2, 4), (3, 1), (11, 1), (449, 1)]⟩,
    ⟨405928799, 22, [(2, 1), (11, 1), (3691, 1), (4999, 1)]⟩,
    ⟨93001, 14, [(2, 3), (3, 1), (5, 3), (31, 1)]⟩,
    ⟨12048837557, 2, [(2, 2), (7, 2), (661, 1), (93001, 1)]⟩,
    ⟨5156902474397, 2, [(2, 2), (107, 1), (12048837557, 1)]⟩,
    ⟨1670836401704629, 2, [(2, 2), (3, 4), (5156902474397, 1)]⟩,
    ⟨1593227, 2, [(2, 1), (19, 1), (41927, 1)]⟩,
    ⟨639533339, 2, [(2, 1), (229, 1), (853, 1), (1637, 1)]⟩,
    ⟨65865678001877903, 5, [(2, 1), (83, 1), (379, 1), (1637, 1), (639533339, 1)]⟩,
    ⟨13818364434197438864469338081, 3, [(2, 5), (5, 1), (823, 1), (1593227, 1), (65865678001877903, 1)]⟩,
    ⟨fieldOrder, 5, [(2, 28), (3, 2), (13, 1), (29, 1), (983, 1), (11003, 1), (237073, 1), (405928799, 1),
      (1670836401704629, 1), (13818364434197438864469338081, 1)]⟩]

/-- The same for the order of the generator. -/
def groupEntries : List Entry :=
  [⟨295049, 3, [(2, 3), (13, 1), (2837, 1)]⟩,
    ⟨25485742523, 2, [(2, 1), (43189, 1), (295049, 1)]⟩,
    ⟨202795150404015601, 7, [(2, 4), (3, 1), (5, 2), (19, 1), (349, 1), (25485742523, 1)]⟩,
    ⟨431548080059745198929, 3, [(2, 4), (7, 1), (19, 1), (202795150404015601, 1)]⟩,
    ⟨32151195060611136810608359, 3, [(2, 1), (3, 2), (4139, 1), (431548080059745198929, 1)]⟩,
    ⟨336157, 2, [(2, 2), (3, 1), (109, 1), (257, 1)]⟩,
    ⟨128437, 5, [(2, 2), (3, 1), (7, 1), (11, 1), (139, 1)]⟩,
    ⟨513749, 2, [(2, 2), (128437, 1)]⟩,
    ⟨10206821, 2, [(2, 2), (5, 1), (13, 1), (37, 1), (1061, 1)]⟩,
    ⟨81654569, 3, [(2, 3), (10206821, 1)]⟩,
    ⟨27892051421815855583579, 2, [(2, 1), (23, 1), (521, 1), (27743, 1), (513749, 1), (81654569, 1)]⟩,
    ⟨1863691091902891838383581623, 5, [(2, 1), (33409, 1), (27892051421815855583579, 1)]⟩,
    ⟨178259130663561045147472537592047227885001, 14,
      [(2, 3), (3, 2), (5, 4), (6323, 1), (336157, 1), (1863691091902891838383581623, 1)]⟩,
    ⟨Edwards.order, 31, [(2, 4), (3, 1), (5, 1), (11, 2), (17, 1), (967, 1), (32151195060611136810608359, 1),
      (178259130663561045147472537592047227885001, 1)]⟩]

theorem prime_fieldOrder : fieldOrder.Prime := by
  have hcheck : check smallPrimes fieldEntries = true := by decide +kernel
  exact prime_of_check prime_of_mem_smallPrimes hcheck _ (List.mem_of_getElem? (i := 10) rfl)

theorem prime_order : Edwards.order.Prime := by
  have hcheck : check smallPrimes groupEntries = true := by decide +kernel
  exact prime_of_check prime_of_mem_smallPrimes hcheck _ (List.mem_of_getElem? (i := 13) rfl)

instance : Fact fieldOrder.Prime := ⟨prime_fieldOrder⟩

end Vouch.Modular

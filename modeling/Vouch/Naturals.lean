/-! The arithmetic of the natural numbers that definitions compute with.

A power of naturals is the one that evaluation knows, and their zero is the numeral, also
where a larger algebraic structure on them is in scope: a definition and a statement about
it then speak of one operation. -/
namespace Vouch

attribute [instance (high), default_instance high] instPowNat

instance (priority := high) zeroNat : Zero Nat := ⟨0⟩

end Vouch

import Vouch.Circuit.Template
import Vouch.Field

/-! Values on the wires of a template, and the lines that hold of them.

Expressions are computed in the field. A line that assigns holds if its target has the
value of its expression, and a component holds if its pins are related as its gadget
says: a range check compares integers, of one limb or joined from two, and a comparison
puts out whether its pins are equal. The gadgets of the body digest and of the core bind
signals of no claim, so that here they leave their pins free. -/
namespace Vouch.Circuit

abbrev Valuation := Wire → Felt

/-- The value of a signal. -/
def Valuation.signal (ρ : Valuation) (name : String) : Felt :=
  ρ (.signal name)

def Expr.eval (ρ : Valuation) : Expr → Felt
  | .wire w => ρ w
  | .const n => Field.reduce n
  | .add a b => a.eval ρ + b.eval ρ
  | .sub a b => a.eval ρ - b.eval ρ
  | .mul a b => a.eval ρ * b.eval ρ

/-- The integer on two pins of a component, the high limb first. -/
def Valuation.joined (ρ : Valuation) (component pin : String) (i : Nat) : Nat :=
  Field.join (ρ (.pinAt component pin i)).val (ρ (.pinAt component pin (i + 1))).val

/-- How a component called `name` relates its pins. -/
def Gadget.Holds (ρ : Valuation) (name : String) : Gadget → Prop
  | .bodyHash _ | .core _ => True
  | .range _ =>
    (ρ (.pin name "lb")).val ≤ (ρ (.pin name "value")).val ∧
      (ρ (.pin name "value")).val ≤ (ρ (.pin name "ub")).val
  | .wideRange =>
    ρ.joined name "bounds" 0 ≤ ρ.joined name "value" 0 ∧
      ρ.joined name "value" 0 ≤ ρ.joined name "bounds" 2
  | .isEqual =>
    ρ (.pin name "out") = if ρ (.pinAt name "in" 0) = ρ (.pinAt name "in" 1) then 1 else 0

instance (ρ : Valuation) (name : String) : (g : Gadget) → Decidable (g.Holds ρ name)
  | .bodyHash _ | .core _ => isTrue trivial
  | .range _ | .wideRange => inferInstanceAs (Decidable (_ ∧ _))
  | .isEqual => inferInstanceAs (Decidable (_ = _))

def Line.Holds (ρ : Valuation) : Line → Prop
  | .component name gadget => gadget.Holds ρ name
  | .assign target value => ρ target = value.eval ρ
  | .equate left right => left.eval ρ = right.eval ρ
  | .blank | .comment _ | .input _ _ | .output _ => True

instance (ρ : Valuation) : (line : Line) → Decidable (line.Holds ρ)
  | .component name gadget => inferInstanceAs (Decidable (gadget.Holds ρ name))
  | .assign _ _ | .equate _ _ => inferInstanceAs (Decidable (_ = _))
  | .blank | .comment _ | .input _ _ | .output _ => isTrue trivial

end Vouch.Circuit

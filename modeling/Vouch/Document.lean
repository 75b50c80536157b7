import Vouch.Error
import Vouch.Json.Reading
import Vouch.Text.Decimal

/-! Texts that callers hand in.

A document is a JSON text of known shape, an integer a text of decimal digits; what
has another form is an error of its own kind. -/
namespace Vouch

/-- Reads a decimal integer of any size. -/
def readDecimal (s : String) : Result Nat :=
  match Decimal.read? s with
  | some n => .ok n
  | none => .error (.document (.notDecimal s))

/-- Reads a whole document. -/
def readDocument {α : Type} (reader : Json.Place → Option α) (s : String) : Result α :=
  match Json.read? reader s with
  | some a => .ok a
  | none => .error (.document .undecodable)

def FaultKind.read (p : Json.Place) : Option FaultKind :=
  p.oneOf? FaultKind.tag FaultKind.all

end Vouch

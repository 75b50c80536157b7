import Vouch.Credential.Body
import Vouch.Statement

/-! What a holder proves about a credential.

A presentation has a statement for every claim, in order, and two that every circuit
has: the signature does not expire before a given time, and the id of the credential is
compared with a given one. -/
namespace Vouch

/-- Bits of an id; the output that compares it has one more, for the outcome. -/
def idWidth : Nat := 248

structure Presentation where
  /-- The earliest expiration that is proven. -/
  expirationLb : UInt64
  /-- The id that the credential's is compared with. -/
  idEqualsTo : Nat
  statements : List Statement
  idFits : idEqualsTo < 2 ^ idWidth
deriving DecidableEq

namespace Presentation

def make (expirationLb : UInt64) (idEqualsTo : Nat) (statements : List Statement) :
    Result Presentation :=
  if h : idEqualsTo < 2 ^ idWidth then .ok ⟨expirationLb, idEqualsTo, statements, h⟩
  else
    let e : Error := .query (.constantTooWide idEqualsTo idWidth)
    .error (e.within "id_equals_to")

/-- The statement that an expiration is late enough. -/
def expiration (p : Presentation) : RangeStatement :=
  { width := 64
    lower := p.expirationLb.toNat
    upper := Field.mask 64
    ordered := Nat.le_sub_one_of_lt p.expirationLb.toNat_lt
    fits := by decide }

def checkExpiration (p : Presentation) (expiredAt : UInt64) : Result Unit :=
  (p.expiration.check expiredAt.toNat).within "expiration_lb"

def idMatches (p : Presentation) (id : Nat) : Bool :=
  p.idEqualsTo == id

/-- Checks every statement against its claim, in order; gives what each one discloses. -/
def checkBody (p : Presentation) (b : Body) : Result (Keyed (List Nat)) :=
  if p.statements.length = b.values.length then do
    let disclosed ← (b.entries.zip p.statements).mapM fun ((claim, value), statement) => do
      let aux ← (statement.check value).within s!"claim {claim.name}"
      return (claim.name, aux)
    return .ofList disclosed
  else .error (.check (.count p.statements.length b.values.length))

end Presentation

end Vouch

import Vouch.Error
import Vouch.Json.Reading
import Vouch.Text.Blank
import Vouch.Text.Decimal

/-! Making claim types, and reading type expressions.

`uint<64>`, `prop<248,keccak256,2>` and `bool`: a lower-case word and, in angle
brackets, as many parameters as it takes. The parameters are read from left to right
before their bounds are looked at. -/
namespace Vouch

open Text (trim splitOn isBlank)

def PropertyHash.ofName (name : String) : Result PropertyHash :=
  match PropertyHash.all.find? (·.name == name) with
  | some h => .ok h
  | none => .error (.type (.hash name))

def PropertyHash.read (p : Json.Place) : Option PropertyHash :=
  p.oneOf? PropertyHash.name PropertyHash.all

namespace ClaimType

def makeInteger (width : Nat) : Result ClaimType :=
  if h : ValidWidth greatestIntegerWidth width then .ok (.integer width h)
  else .error (.type (.width width greatestIntegerWidth))

def makeProperty (width : Nat) (hash : PropertyHash) (checks : Nat) : Result ClaimType :=
  if hw : ValidWidth greatestPropertyWidth width then
    if hc : ValidCheckCount checks then .ok (.property ⟨width, hash, checks, hw, hc⟩)
    else .error (.type (.checkCount checks))
  else .error (.type (.width width greatestPropertyWidth))

/-- A decimal parameter of at most 32 bits. -/
def readParameter (cs : List Char) : Result Nat :=
  let text := String.ofList cs
  if Decimal.isDigits cs then
    if Decimal.value cs < 2 ^ 32 then .ok (Decimal.value cs) else .error (.type (.tooLarge text))
  else .error (.type (.notDecimal text))

/-- The word of a type expression, and the text between its brackets if it has them. -/
def splitExpression? (cs : List Char) : Option (List Char × Option (List Char)) :=
  let (word, rest) := cs.span Char.isLower
  if word.isEmpty then none
  else
    match rest.dropWhile isBlank with
    | [] => some (word, none)
    | '<' :: rest =>
      match rest.span fun c => c != '<' && c != '>' with
      | (inner, ['>']) => some (word, some inner)
      | _ => none
    | _ => none

/-- The parameters between the brackets; blank ones are none. -/
def parametersOf : Option (List Char) → List (List Char)
  | none => []
  | some inner => if inner.all isBlank then [] else (splitOn ',' inner).map trim

/-- Reads a type expression. -/
def parse (expression : String) : Result ClaimType :=
  match splitExpression? expression.toList with
  | none => .error (.type (.expression expression))
  | some (word, inner) =>
    let name := String.ofList word
    let parameters := parametersOf inner
    let arity (expected : Nat) : Result ClaimType :=
      .error (.type (.arity name expected parameters.length))
    match name with
    | "uint" =>
      match parameters with
      | [width] => do makeInteger (← readParameter width)
      | _ => arity 1
    | "prop" =>
      match parameters with
      | [width, hash, checks] => do
        let width ← readParameter width
        let hash ← PropertyHash.ofName (String.ofList hash)
        let checks ← readParameter checks
        makeProperty width hash checks
      | _ => arity 3
    | "bool" => if parameters.isEmpty then .ok .boolean else arity 0
    | _ => .error (.type (.unknown name))

end ClaimType

end Vouch

import Vouch.Schema

/-! Schemas as text.

A text is a list of lines, each ended by a semicolon. A line that starts with `@` is a
pragma, every other one a claim, `name:type`. Pragmas may stand anywhere and are all
read before the claims; blank lines and blanks around the parts do not count.
`Schema.text` writes the pragma first and the claims in order. -/
namespace Vouch

open Text (trim splitOn isBlank cut?)

namespace Schema

def claimText (c : Claim) : String :=
  s!"{c.name}:{c.type.text};"

def depthText : Option Nat → String
  | none => ""
  | some depth => s!"@revocable({depth});"

/-- The text of a schema; the id is not part of it. -/
def text (s : Schema) : String :=
  depthText s.depth ++ String.join (s.claims.map claimText)

/-! ### Lines -/

/-- The lines that are not blank, trimmed. -/
def linesOf (cs : List Char) : List (List Char) :=
  ((splitOn ';' cs).map trim).filter (!·.isEmpty)

def isPragma (line : List Char) : Bool :=
  line.head? == some '@'

/-! ### Pragmas -/

/-- The name of a pragma and the text between its parentheses, trimmed. -/
def splitPragma? : List Char → Option (List Char × List Char)
  | '@' :: rest =>
    let (name, rest) := rest.span Claim.isNameRest
    if Claim.isIdentifier name then
      match rest.dropWhile isBlank with
      | '(' :: rest =>
        match rest.span fun c => c != '(' && c != ')' with
        | (arguments, [')']) => some (name, trim arguments)
        | _ => none
      | _ => none
    else none
  | _ => none

/-- A depth too large for 32 bits counts as the largest of them, which is out of bounds too. -/
def readDepth (cs : List Char) : Result Nat :=
  if Decimal.isDigits cs then
    let depth := min (Decimal.value cs) (2 ^ 32 - 1)
    if ValidDepth depth then .ok depth else .error (.pragma (depthFault depth))
  else .error (.pragma (.depthNotDecimal (String.ofList cs)))

/-- Reads the pragmas in order, on top of the depth that is set so far. -/
def readPragmas (depth : Option Nat) : List (List Char) → Result (Option Nat)
  | [] => .ok depth
  | line :: rest =>
    match splitPragma? line with
    | none => .error (.pragma (.form (String.ofList line)))
    | some (name, arguments) =>
      if String.ofList name = "revocable" then
        if depth.isSome then .error (.pragma .repeatedRevocable)
        else do
          let d ← readDepth arguments
          readPragmas (some d) rest
      else .error (.pragma (.unknown (String.ofList name)))

/-! ### Claims -/

/-- Reads a claim. Its type is looked at before its name. -/
def readClaim (line : List Char) : Result Claim :=
  match cut? ':' line with
  | none => .error (.type (.claimForm (String.ofList line)))
  | some (name, expression) => do
    let type ← ClaimType.parse (String.ofList (trim expression))
    Claim.make (String.ofList (trim name)) type

/-- Reads a schema, unregistered. The first error ends the reading. -/
def parse (text : String) : Result Schema := do
  let lines := linesOf text.toList
  let depth ← readPragmas none (lines.filter isPragma)
  let claims ← (lines.filter (!isPragma ·)).mapM readClaim
  make claims depth

end Schema

end Vouch

import Vouch.Json.Number
import Vouch.Keyed

/-! JSON values and their compact text.

The members of an object stand in ascending order of their names, each name once, so
that a value has one text. `Json.object` puts them in that order; given a name twice
it keeps the later member. -/
namespace Vouch

inductive Json where
  | null
  | bool (b : Bool)
  | number (n : Json.Number)
  | string (s : String)
  | array (items : List Json)
  | members (fields : List (String × Json))

namespace Json

def object (fields : List (String × Json)) : Json :=
  .members (fields.foldl (fun done (name, value) => Keyed.place name value done) [])

/-- The integer as a decimal string. -/
def decimal (n : Nat) : Json :=
  .string (toString n)

def natural (n : Nat) : Json :=
  .number (.natural n)

/-! ### Looking into a value -/

def asString? : Json → Option String
  | .string s => some s
  | _ => none

def asArray? : Json → Option (List Json)
  | .array items => some items
  | _ => none

/-- The member of that name, if the value is an object that has one. -/
def member? (j : Json) (name : String) : Option Json :=
  match j with
  | .members fields => Keyed.lookup name fields
  | _ => none

/-- The member of that name, or null. -/
def member (j : Json) (name : String) : Json :=
  (j.member? name).getD .null

/-! ### Compact text -/

/-- Four digits of a code point below `2 ^ 16`. -/
def fourHex (n : Nat) : List Char :=
  [Nat.digitChar (n / 4096 % 16), Nat.digitChar (n / 256 % 16), Nat.digitChar (n / 16 % 16),
    Nat.digitChar (n % 16)]

/-- A quote, a backslash and the controls of ASCII are escaped, the common ones by a letter. -/
def escaped (c : Char) : List Char :=
  if c = '"' ∨ c = '\\' then ['\\', c]
  else if c.toNat = 8 then ['\\', 'b']
  else if c = '\t' then ['\\', 't']
  else if c = '\n' then ['\\', 'n']
  else if c.toNat = 12 then ['\\', 'f']
  else if c = '\r' then ['\\', 'r']
  else if c.toNat < 0x20 then '\\' :: 'u' :: fourHex c.toNat
  else [c]

def stringText (s : String) : List Char :=
  '"' :: s.toList.flatMap escaped ++ ['"']

mutual

def chars : Json → List Char
  | .null => ['n', 'u', 'l', 'l']
  | .bool true => ['t', 'r', 'u', 'e']
  | .bool false => ['f', 'a', 'l', 's', 'e']
  | .number n => n.text
  | .string s => stringText s
  | .array items => '[' :: itemChars items
  | .members fields => '{' :: fieldChars fields

/-- The items of an array from its opening bracket on. -/
def itemChars : List Json → List Char
  | [] => [']']
  | [j] => chars j ++ [']']
  | j :: rest => chars j ++ ',' :: itemChars rest

/-- The members of an object from its opening brace on. -/
def fieldChars : List (String × Json) → List Char
  | [] => ['}']
  | [(name, j)] => stringText name ++ ':' :: chars j ++ ['}']
  | (name, j) :: rest => stringText name ++ ':' :: chars j ++ ',' :: fieldChars rest

end

def text (j : Json) : String :=
  String.ofList j.chars

end Json

end Vouch

import Vouch.Text.Unprintable
import Vouch.Text.Combining

/-! Text shown between double quotes inside a message.

A quote and a backslash take a backslash, the common controls their short letters,
and every other character that would be invisible, or would join the one before
it, its code point in braces. All else stands for itself, so a message holds no
character that changes how its neighbours are shown. -/
namespace Vouch.Text

/-- The code point in lower-case hexadecimal, unpadded, in braces. -/
def codePoint (c : Char) : List Char :=
  '\\' :: 'u' :: '{' :: Nat.toDigits 16 c.toNat ++ ['}']

def escaped (c : Char) : List Char :=
  if c = '"' ∨ c = '\\' then ['\\', c]
  else if c = '\t' then ['\\', 't']
  else if c = '\n' then ['\\', 'n']
  else if c = '\r' then ['\\', 'r']
  else if c.toNat = 0 then ['\\', '0']
  else if isCombining c || isUnprintable c then codePoint c
  else [c]

def quoted (s : String) : String :=
  String.ofList ('"' :: s.toList.flatMap escaped ++ ['"'])

end Vouch.Text

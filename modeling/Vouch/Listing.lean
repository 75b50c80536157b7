/-! Source listings: lines in nested blocks.

A listing is a sequence of items; entering a block writes its header and an opening
brace and indents what follows, leaving one writes the closing brace. The indentation
is that of the blocks entered and not left, and leaving with none open stays at the
margin. -/
namespace Vouch

namespace Listing

inductive Item where
  | line (text : String)
  | blank
  | enter (header : String)
  | leave
deriving DecidableEq, Repr

/-- Four blanks for each open block. -/
def indented (depth : Nat) (text : String) : String :=
  String.ofList (List.replicate (4 * depth) ' ') ++ text ++ "\n"

/-- The lines of a listing inside `depth` open blocks. -/
def linesFrom (depth : Nat) : List Item → List String
  | [] => []
  | .line text :: rest => indented depth text :: linesFrom depth rest
  | .blank :: rest => "\n" :: linesFrom depth rest
  | .enter header :: rest => indented depth (header ++ " \x7b") :: linesFrom (depth + 1) rest
  | .leave :: rest => indented (depth - 1) "\x7d" :: linesFrom (depth - 1) rest

/-- The text of a whole listing. -/
def text (items : List Item) : String :=
  String.join (linesFrom 0 items)

/-- The items of a block. -/
def block (header : String) (items : List Item) : List Item :=
  .enter header :: items ++ [.leave]

end Listing

end Vouch

import NamedSql.Template.Item
import NamedSql.Text.Quoting

/-!
A template cut for filling: stretches of text with slots between them. A named
slot is quoted when the letters next to it on both sides are quotes. Its value is
then the inside of a text literal, and the only place where doubling applies.
-/
namespace NamedSql

inductive Piece where
  | text (letters : List Char)
  | named (key : String) (quoted : Bool)
  | blank
  deriving DecidableEq, Repr

namespace Piece

/-- Puts a letter in front, into the first stretch of text if there is one. -/
def prepend (letter : Char) : List Piece → List Piece
  | .text letters :: rest => .text (letter :: letters) :: rest
  | pieces => .text [letter] :: pieces

def startsWithMark : List Item → Bool
  | .plain letter :: _ => letter == Quoting.mark
  | _ => false

/-- The pieces of the items that follow a quote, or do not. -/
def group (afterMark : Bool) : List Item → List Piece
  | [] => []
  | .plain letter :: rest => prepend letter (group (letter == Quoting.mark) rest)
  | .named key :: rest =>
      .named (String.ofList key) (afterMark && startsWithMark rest) :: group false rest
  | .blank :: rest => .blank :: group false rest

def ofItems (items : List Item) : List Piece := group false items

def key? : Piece → Option String
  | .named key _ => some key
  | _ => none

def isBlank : Piece → Bool
  | .blank => true
  | _ => false

end Piece

end NamedSql

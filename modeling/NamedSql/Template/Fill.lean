import NamedSql.Template.Piece
import NamedSql.Traced

/-!
Templates: text with slots, read once and filled for every call. Filling writes
each piece once and never reads what it wrote, so braces and quotes of a value
are inert. Slots that the given values cannot fill write nothing.
-/
namespace NamedSql

structure Template where
  text : String
  slots : Slots
  pieces : List Piece
  deriving DecidableEq, Repr

namespace Template

def read (slots : Slots) (text : String) : Except Fault Template :=
  match Item.read slots text with
  | .ok items => .ok ⟨text, slots, Piece.ofItems items⟩
  | .error defect => .error (.malformedTemplate text defect)

/-- The keys of the named slots in order, repeats included. -/
def keys (template : Template) : List String := template.pieces.filterMap Piece.key?

def arity (template : Template) : Nat := template.pieces.countP Piece.isBlank

/-- Text for a template, with each brace written twice. -/
def escape (text : String) : String :=
  String.ofList (text.toList.flatMap fun letter => (Item.plain letter).write)

def writeNamed (keywords : Record) (quoting : Quoting) :
    List Piece → Except String (List Char)
  | [] => .ok []
  | .text letters :: rest => (writeNamed keywords quoting rest).map (letters ++ ·)
  | .blank :: rest => writeNamed keywords quoting rest
  | .named key quoted :: rest =>
      match keywords.get? key with
      | none => .error key
      | some value =>
          let written := if quoted then quoting.apply value.render else value.render
          (writeNamed keywords quoting rest).map (written.toList ++ ·)

/-- Every key needs a value, and the first one without is the fault. Values of
other names are ignored. -/
def fillNamed (template : Template) (keywords : Record) (quoting : Quoting) :
    Except Fault String :=
  match writeNamed keywords quoting template.pieces with
  | .ok letters => .ok (String.ofList letters)
  | .error key => .error (.missingKeyword key template.text)

def writePositional : List Piece → List Value → List Char
  | [], _ => []
  | .text letters :: rest, values => letters ++ writePositional rest values
  | .named _ _ :: rest, values => writePositional rest values
  | .blank :: rest, [] => writePositional rest []
  | .blank :: rest, value :: values => value.render.toList ++ writePositional rest values

/-- Blanks take the values in order. Too few are a fault, and surplus values are
reported and ignored. -/
def fillPositional (template : Template) (values : List Value) : Traced String :=
  let given := values.length
  let filled := String.ofList (writePositional template.pieces values)
  if given < template.arity then .fail (.tooFewValues template.text template.arity given)
  else if template.arity < given then do
    .emit (.surplusIgnored (given - template.arity) template.text)
    return filled
  else .ok filled

end Template

end NamedSql

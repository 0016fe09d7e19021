import NamedSql.Record

/-!
What a query is called with. Each query takes one shape of arguments, or none.
-/
namespace NamedSql

inductive Shape where
  | nothing
  | id
  | record
  | keywords
  | positional
  deriving DecidableEq, Repr, Inhabited

namespace Shape

def text : Shape → String
  | .nothing => "no arguments"
  | .id => "an id"
  | .record => "an instance"
  | .keywords => "keyword arguments"
  | .positional => "positional arguments"

end Shape

inductive Arguments where
  | nothing
  | id (value : Value)
  | record (record : Record)
  | keywords (values : Record)
  | positional (values : List Value)

namespace Arguments

def shape : Arguments → Shape
  | .nothing => .nothing
  | .id _ => .id
  | .record _ => .record
  | .keywords _ => .keywords
  | .positional _ => .positional

end Arguments

end NamedSql

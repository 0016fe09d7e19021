import NamedSql.Value
import NamedSql.Text.Quoting

/-!
One column of a table: how it is declared, and how a value is written for it. The
declared type decides the writing. A value of a `text` column stands between
quotes, whatever kind of value it is; a null never does.
-/
namespace NamedSql

structure Column where
  name : String
  type : String
  /-- Written directly before the name, with nothing between. -/
  lead : Option String := none
  /-- Written after the type, such as `PRIMARY KEY`. -/
  constraint : Option String := none
  /-- The target of a foreign key, as `table(column)`. -/
  foreignKey : Option String := none
  deriving DecidableEq, Repr, Inhabited

namespace Column

/-- The name of the column that tells the rows of a table apart. -/
def idName : String := "id"

def isId (column : Column) : Bool := column.name == idName

def isText (column : Column) : Bool := column.type == "text"

def description (column : Column) : String :=
  let constraint := match column.constraint with
    | some constraint => " " ++ constraint
    | none => ""
  let key := match column.foreignKey with
    | some target => ",\nFOREIGN KEY (" ++ column.name ++ ") REFERENCES " ++ target
    | none => ""
  column.lead.getD "" ++ column.name ++ " " ++ column.type ++ constraint ++ key

def literal (column : Column) (value : Value) (quoting : Quoting) : String :=
  if column.isText && !value.isNull then "'" ++ quoting.apply value.render ++ "'"
  else value.render

end Column

end NamedSql

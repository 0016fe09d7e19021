import NamedSql.Table

/-!
The six queries every table has. Those that write a record go through the columns
in order and leave out the id. Saving and counting use the columns that hold a
value. Updating uses those that are set, so that a null can be written.
-/
namespace NamedSql

inductive Standard where
  | fetch
  | list
  | save
  | count
  | update
  | delete
  deriving DecidableEq, Repr, Inhabited

namespace Standard

def name : Standard → String
  | .fetch => "sql_get_one"
  | .list => "sql_find_all"
  | .save => "sql_save"
  | .count => "sql_exists"
  | .update => "sql_update"
  | .delete => "sql_delete_by_id"

def all : List Standard := [.fetch, .list, .save, .count, .update, .delete]

def ofName? (name : String) : Option Standard :=
  all.find? fun which => which.name == name

def shape : Standard → Shape
  | .fetch => .id
  | .list => .nothing
  | .save => .record
  | .count => .record
  | .update => .record
  | .delete => .id

end Standard

namespace Table

variable (table : Table) (record : Record) (quoting : Quoting)

def idLiteral (id : Value) : String :=
  match table.idColumn? with
  | some column => column.literal id quoting
  | none => id.render

/-- Columns other than the id, with the literals of their values. -/
def literals (value? : String → Option Value) : List (String × String) :=
  (table.columns.filter fun column => !column.isId).filterMap fun column =>
    (value? column.name).map fun value => (column.name, column.literal value quoting)

/-- The columns that hold a value other than null. -/
def filled : List (String × String) := table.literals quoting record.present?

/-- The columns that are set, to null or not. -/
def assigned : List (String × String) := table.literals quoting record.get?

def fetchText (id : Value) : String :=
  s!"SELECT * FROM {table.name}\nWHERE id = {table.idLiteral quoting id}\nLIMIT 1;"

def listText : String := s!"SELECT * FROM {table.name};"

def saveText : String :=
  match table.filled record quoting with
  | [] => s!"INSERT INTO {table.name} DEFAULT VALUES"
  | pairs =>
      s!"INSERT INTO {table.name}(" ++ ",".intercalate (pairs.map (·.1)) ++ ")\nVALUES (" ++
        ",".intercalate (pairs.map (·.2)) ++ ")"

def countText : String :=
  match table.filled record quoting with
  | [] => s!"SELECT count(*) FROM {table.name};"
  | pairs =>
      s!"SELECT count(*) FROM {table.name} WHERE " ++
        " AND ".intercalate (pairs.map fun pair => pair.1 ++ " = " ++ pair.2) ++ ";"

/-- The record must hold an id and set another column, and lacking the id is told
first. -/
def updateText : Except Fault String :=
  match record.present? Column.idName, table.assigned record quoting with
  | none, _ => .error (.updateWithoutId table.name)
  | some _, [] => .error (.nothingToUpdate table.name)
  | some id, pairs =>
      .ok (s!"UPDATE {table.name} SET " ++
        ", ".intercalate (pairs.map fun pair => pair.1 ++ "=" ++ pair.2) ++
        s!"\nWHERE id={table.idLiteral quoting id}")

def deleteText (id : Value) : String :=
  s!"DELETE FROM {table.name}\nWHERE id={table.idLiteral quoting id}"

/-- The text of a standard query, which takes one shape of arguments only. -/
def standard (table : Table) (quoting : Quoting) :
    Standard → Arguments → Except Fault String
  | .fetch, .id id => .ok (table.fetchText quoting id)
  | .list, .nothing => .ok table.listText
  | .save, .record record => .ok (table.saveText record quoting)
  | .count, .record record => .ok (table.countText record quoting)
  | .update, .record record => table.updateText record quoting
  | .delete, .id id => .ok (table.deleteText quoting id)
  | which, arguments => .error (.wrongShape which.name arguments.shape)

end Table

end NamedSql

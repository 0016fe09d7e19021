import NamedSql.Column
import NamedSql.Traced

/-!
A table as it is declared: a name and columns in order. The order decides how
values are bound, inserted and listed. Columns are found by name, and of columns
with one name the first is found.
-/
namespace NamedSql

structure Table where
  name : String
  columns : List Column
  deriving DecidableEq, Repr, Inhabited

namespace Table

/-- The names met a second time, given those met before. A third time counts no
more. -/
def repeated : List String → List String → List String
  | _, [] => []
  | seen, name :: rest =>
      if seen.count name = 1 then name :: repeated (name :: seen) rest
      else repeated (name :: seen) rest

/-- A table needs a name and a column. Each name that columns share is reported
once. -/
def define (name : String) (columns : List Column) : Traced Table :=
  if name = "" then .fail .unnamedTable
  else if columns = [] then .fail (.noColumns name)
  else
    let shared := repeated [] (columns.map (·.name))
    ⟨shared.map (.repeatedColumn name) ++ [.tableDefined name columns.length],
      .ok ⟨name, columns⟩⟩

def column? (table : Table) (name : String) : Option Column :=
  table.columns.find? fun column => column.name == name

def idColumn? (table : Table) : Option Column := table.column? Column.idName

theorem column?_eq_some {table : Table} (name : String) (column : Column)
    (found : table.column? name = some column) : column ∈ table.columns ∧ column.name = name :=
  ⟨List.mem_of_find?_eq_some found, by simpa using List.find?_some found⟩

theorem column?_isSome_iff {table : Table} (name : String) :
    (table.column? name).isSome ↔ name ∈ table.columns.map (·.name) := by
  simp [column?]

theorem exists_column? {table : Table} (name : String)
    (listed : name ∈ table.columns.map (·.name)) : ∃ column, table.column? name = some column :=
  Option.isSome_iff_exists.mp ((column?_isSome_iff name).mpr listed)

theorem column?_eq_none_iff {table : Table} (name : String) :
    table.column? name = none ↔ name ∉ table.columns.map (·.name) := by
  rw [← column?_isSome_iff, Option.not_isSome_iff_eq_none]

def createText (table : Table) : String :=
  s!"CREATE TABLE IF NOT EXISTS {table.name}(" ++
    ",\n".intercalate (table.columns.map Column.description) ++ ")"

def reference (table : Table) (name : String) : Except Fault String :=
  match table.column? name with
  | some column => .ok s!"{table.name}({column.name})"
  | none => .error (.unknownColumn table.name name)

/-- Values for the columns in order, as many as are given. -/
def bind (table : Table) (values : List Value) : Except Fault Record :=
  if table.columns.length < values.length then
    .error (.tooManyValues table.name table.columns.length)
  else .ok (Record.ofPairs ((table.columns.map (·.name)).zip values))

end Table

end NamedSql

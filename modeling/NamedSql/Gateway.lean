import NamedSql.Query

/-!
A table with the queries that may be called on it by name: the standard ones and
then the declared ones, each compiled when the gateway is defined.
-/
namespace NamedSql

structure Gateway where
  table : Table
  quoting : Quoting
  queries : List (String × Query)
  deriving DecidableEq, Repr

namespace Gateway

def standardQueries : List (String × Query) :=
  Standard.all.map fun which => (which.name, .standard which)

/-- Adds declarations in order. A name that is taken is refused before its query
is compiled. -/
def register (table : Table) :
    List (String × Query) → List Declaration → Traced (List (String × Query))
  | queries, [] => .ok queries
  | queries, declaration :: rest =>
      if declaration.name ∈ queries.map (·.1) then
        .fail (.redeclared declaration.name table.name)
      else do
        let query ← declaration.compile table
        register table (queries ++ [(declaration.name, query)]) rest

/-- A gateway needs a table with exactly one id column. It begins with raw
quoting. -/
def define (table : Table) (declarations : List Declaration) : Traced Gateway :=
  match table.columns.countP Column.isId with
  | 0 => .fail (.missingId table.name)
  | 1 => do
      let queries ← register table standardQueries declarations
      .emit (.gatewayDefined table.name queries.length)
      return ⟨table, .raw, queries⟩
  | count => .fail (.repeatedId table.name count)

def withQuoting (gateway : Gateway) (quoting : Quoting) : Gateway := { gateway with quoting }

def names (gateway : Gateway) : List String := gateway.queries.map (·.1)

def query (gateway : Gateway) (name : String) : Except Fault Query :=
  match gateway.queries.lookup name with
  | some query => .ok query
  | none => .error (.unknownQuery name gateway.table.name)

def call (gateway : Gateway) (name : String) (arguments : Arguments) : Traced String := do
  .emit (.queryCalled name arguments.shape)
  let query ← .ofResult (gateway.query name)
  query.format gateway.table gateway.quoting arguments

variable (gateway : Gateway)

def createText : String := gateway.table.createText

def fetch (id : Value) : String := gateway.table.fetchText gateway.quoting id

def list : String := gateway.table.listText

def save (record : Record) : String := gateway.table.saveText record gateway.quoting

def count (record : Record) : String := gateway.table.countText record gateway.quoting

def update (record : Record) : Except Fault String :=
  gateway.table.updateText record gateway.quoting

def delete (id : Value) : String := gateway.table.deleteText gateway.quoting id

end Gateway

end NamedSql

import NamedSql.Settings
import NamedSql.Table

/-!
A database as it is described before it is opened: where it is, how many
connections it may have, and its tables. There is always at least one connection.
-/
namespace NamedSql

structure Database where
  path : String
  maxConnections : Nat := 1
  tables : List Table
  deriving DecidableEq, Repr

namespace Database

def withMaxConnections (database : Database) (limit : Nat) : Database :=
  { database with maxConnections := max limit 1 }

def ofSettings (settings : Settings) (tables : List Table) : Database :=
  withMaxConnections { path := settings.path, tables } settings.maxConnections

end Database

end NamedSql

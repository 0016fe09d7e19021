import NamedSql.Fault
import NamedSql.Text.Blank

/-!
Settings of a database, from two variables of the environment. Either may be
absent, and a limit that is empty counts as absent. A path is kept as it is.
-/
namespace NamedSql

structure Settings where
  path : String := "sqlite::memory:"
  /-- Each connection to a database in memory would open one of its own, so the
  limit is one unless set. -/
  maxConnections : Nat := 1
  deriving DecidableEq, Repr, Inhabited

namespace Settings

def limitBound : Nat := 0xFFFFFFFF

/-- White space around a limit is ignored. -/
def readLimit (text : String) : Except Fault Nat :=
  let letters := Text.trim text.toList
  match Decimal.readBounded limitBound letters with
  | .ok limit => .ok limit
  | .error reason => .error (.badLimit (String.ofList letters) reason)

def read (path? limit? : Option String) : Except Fault Settings :=
  let initial : Settings := {}
  let path := path?.getD initial.path
  match limit?.filter (· ≠ "") with
  | none => .ok { initial with path }
  | some text => (readLimit text).map fun maxConnections => ⟨path, maxConnections⟩

end Settings

end NamedSql

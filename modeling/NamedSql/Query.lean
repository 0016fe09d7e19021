import NamedSql.Inferred
import NamedSql.Standard

/-!
Declared queries before and after compilation. A name alone is a query to infer. A
name with text is that text, as a template with blanks.
-/
namespace NamedSql

inductive Declaration where
  | inferred (name : String)
  | literal (name text : String)
  deriving DecidableEq, Repr

inductive Query where
  | standard (which : Standard)
  | inferred (template : Template)
  | literal (template : Template)
  deriving DecidableEq, Repr

namespace Declaration

def name : Declaration → String
  | .inferred name => name
  | .literal name _ => name

def compile (table : Table) : Declaration → Traced Query
  | .inferred name => do return .inferred (← table.inferred name)
  | .literal _ text => do return .literal (← .ofResult (Template.read .positional text))

end Declaration

namespace Query

/-- The text of a query for arguments. Without arguments a template is filled from
no values. -/
def format (table : Table) (quoting : Quoting) : Query → Arguments → Traced String
  | .standard which, arguments => .ofResult (table.standard quoting which arguments)
  | .inferred template, .nothing => .ofResult (template.fillNamed ∅ quoting)
  | .inferred template, .keywords values => .ofResult (template.fillNamed values quoting)
  | .inferred template, arguments => .fail (.wrongShape template.text arguments.shape)
  | .literal template, .nothing => template.fillPositional []
  | .literal template, .positional values => template.fillPositional values
  | .literal template, arguments => .fail (.wrongShape template.text arguments.shape)

end Query

end NamedSql

import NamedSql.Name.Phrase
import NamedSql.Table
import NamedSql.Template.Fill
import NamedSql.Text.Blank

/-!
Queries built from their names. After the opening each control word writes its
clause and each reference writes a condition on the column it names. The text so
written is read as a template whose slots carry the names of those columns.
-/
namespace NamedSql

namespace Inferred

/-- What every name of an inferred query begins with. -/
def opening : String := "sql_"

/-- What follows the opening of a name that has one, unless nothing does. -/
def body? (name : String) : Option String :=
  match opening.toList.isPrefixOf? name.toList with
  | some (first :: rest) => some (String.ofList (first :: rest))
  | _ => none

/-- A name deletes when its very first word says so. -/
def deletes : List Token → Bool
  | ⟨.control .delete, _⟩ :: _ => true
  | _ => false

/-- The table's name is text, whatever braces it has. Where a name deletes, the
clause of deletion names the table and `all` adds nothing. -/
def clause (table : String) (deleting : Bool) : Keyword → String
  | .select => "SELECT "
  | .find => "SELECT "
  | .all => if deleting then "" else s!"* FROM {Template.escape table} "
  | .whose => "WHERE "
  | .and => "AND "
  | .delete => s!"DELETE FROM {Template.escape table} "

/-- A column compared with the slot of its name, between quotes for text. -/
def condition (column : Column) : String :=
  let slot := "\x7b" ++ column.name ++ "\x7d"
  column.name ++ " = " ++ (if column.isText then "'" ++ slot ++ "'" else slot) ++ " "

/-- The text of phrases in order, up to the first reference that no column answers. -/
def write (table : Table) (query : String) (deleting : Bool) : List Phrase → Traced String
  | [] => .ok ""
  | .control keyword :: rest => do
      .emit (.keywordRead query keyword)
      let after ← write table query deleting rest
      return clause table.name deleting keyword ++ after
  | .reference name span :: rest =>
      match table.column? name with
      | none => .fail (.unresolved query name (span.shift opening.utf8ByteSize))
      | some column => do
          let after ← write table query deleting rest
          return condition column ++ after

end Inferred

open Inferred in
def Table.inferred (table : Table) (query : String) : Traced Template :=
  match body? query with
  | none => .fail (.notConvention query)
  | some body => do
      let words := tokens body
      let text ← write table query (deletes words) (phrases words)
      let template ← .ofResult (Template.read .named (String.ofList (Text.trimEnd text.toList)))
      .emit (.queryCompiled query template.text)
      return template

end NamedSql

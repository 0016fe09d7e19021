import NamedSql.Fault
import NamedSql.Name.Keyword

/-!
What definitions and calls report on the way, by cause, each with its level and
its message.
-/
namespace NamedSql

inductive Level where
  | trace
  | debug
  | warning
  deriving DecidableEq, Repr, Inhabited

inductive Event where
  | repeatedColumn (table column : String)
  | tableDefined (table : String) (columns : Nat)
  | keywordRead (query : String) (keyword : Keyword)
  | queryCompiled (query text : String)
  | gatewayDefined (table : String) (queries : Nat)
  | queryCalled (query : String) (shape : Shape)
  | surplusIgnored (count : Nat) (text : String)
  deriving DecidableEq, Repr

namespace Event

def level : Event → Level
  | .repeatedColumn _ _ => .warning
  | .tableDefined _ _ => .debug
  | .keywordRead _ _ => .trace
  | .queryCompiled _ _ => .debug
  | .gatewayDefined _ _ => .debug
  | .queryCalled _ _ => .trace
  | .surplusIgnored _ _ => .debug

def message : Event → String
  | .repeatedColumn table column =>
      s!"Model `{table}` declares `{column}` more than once, the first one wins"
  | .tableDefined table columns => s!"Defined model `{table}` with {columns} fields"
  | .keywordRead query keyword => s!"`{query}`: keyword `{keyword.text}`"
  | .queryCompiled query text => s!"Compiled `{query}` into `{text}`"
  | .gatewayDefined table queries =>
      s!"Defined data-access object for `{table}` with {queries} queries"
  | .queryCalled query shape => s!"Calling `{query}` with {shape.text}"
  | .surplusIgnored count text => s!"Ignoring {count} surplus arguments for `{text}`"

/-- How weighty an event is, and what it says. -/
def shown (event : Event) : Level × String := (event.level, event.message)

end Event

end NamedSql

import NamedSql.Arguments
import NamedSql.Decimal.Bounded
import NamedSql.Name.Token
import NamedSql.Template.Item

/-!
Everything that can go wrong, by cause. Each cause belongs to one category, and its
message is the heading of that category followed by what happened.
-/
namespace NamedSql

inductive Fault where
  | notConvention (query : String)
  | unnamedTable
  | noColumns (table : String)
  | malformedTemplate (text : String) (defect : Defect)
  | missingId (table : String)
  | repeatedId (table : String) (count : Nat)
  | redeclared (query table : String)
  | unresolved (query column : String) (span : Span)
  | unknownColumn (table column : String)
  | missingKeyword (key text : String)
  | unknownQuery (query table : String)
  | updateWithoutId (table : String)
  | tooManyValues (table : String) (limit : Nat)
  | tooFewValues (text : String) (arity given : Nat)
  | wrongShape (query : String) (shape : Shape)
  | nothingToUpdate (table : String)
  | badLimit (text : String) (reason : Decimal.Misread)
  deriving DecidableEq, Repr

namespace Fault

inductive Category where
  | convention
  | reference
  | lookup
  | format
  | assignment
  | settings
  deriving DecidableEq, Repr, Inhabited

def Category.heading : Category → String
  | .convention => "Convention violation: "
  | .lookup => "Lookup error: "
  | .format => "Format error: "
  | .settings => "Configuration error: "
  | .reference => ""
  | .assignment => ""

def category : Fault → Category
  | .notConvention _ => .convention
  | .unnamedTable => .convention
  | .noColumns _ => .convention
  | .malformedTemplate _ _ => .convention
  | .missingId _ => .convention
  | .repeatedId _ _ => .convention
  | .redeclared _ _ => .convention
  | .unresolved _ _ _ => .reference
  | .unknownColumn _ _ => .lookup
  | .missingKeyword _ _ => .lookup
  | .unknownQuery _ _ => .lookup
  | .updateWithoutId _ => .lookup
  | .tooManyValues _ _ => .format
  | .tooFewValues _ _ _ => .format
  | .wrongShape _ _ => .format
  | .nothingToUpdate _ => .assignment
  | .badLimit _ _ => .settings

def detail : Fault → String
  | .notConvention query =>
      s!"`{query}` is neither a literal query nor a `sql_<words>` name"
  | .unnamedTable => "model declaration has no table name"
  | .noColumns table => s!"model `{table}` declares no fields"
  | .malformedTemplate text defect => s!"invalid template `{text}`: {defect.message}"
  | .missingId table => s!"model `{table}` needs an `id` field to get a data-access object"
  | .repeatedId table count => s!"model `{table}` declares `id` {count} times"
  | .redeclared query table => s!"`{query}` is declared more than once on `{table}`"
  | .unresolved query column span =>
      s!"Cannot build `{query}`: model has no field `{column}` (bytes {span.start}..{span.stop})"
  | .unknownColumn table column => s!"model `{table}` has no field `{column}`"
  | .missingKeyword key text => s!"missing keyword argument `{key}` for `{text}`"
  | .unknownQuery query table => s!"no query `{query}` on `{table}`"
  | .updateWithoutId table => s!"cannot update `{table}` without an `id` value"
  | .tooManyValues table limit => s!"model `{table}` takes at most {limit} values"
  | .tooFewValues text arity given =>
      s!"`{text}` takes {arity} positional arguments, got {given}"
  | .wrongShape query shape => s!"`{query}` cannot be called with {shape.text}"
  | .nothingToUpdate table => s!"Nothing to update in `{table}`: no field besides `id` is set"
  | .badLimit text reason =>
      "failed to deserialize value `Config::max_connections` from environment variable " ++
        s!"`DAOGEN_MAX_CONNECTIONS`: invalid value '{text}' for type u32: {reason.message}"

def message (fault : Fault) : String := fault.category.heading ++ fault.detail

theorem error_eq_iff {α : Type} (own fault : Fault) :
    (.error own : Except Fault α) = .error fault ↔
      fault = own ∧ fault.category = own.category := by
  constructor
  · intro same
    obtain rfl := Except.error.inj same
    exact ⟨rfl, rfl⟩
  · rintro ⟨rfl, -⟩
    rfl

end Fault

/-- An outcome that is a fault, with the category that the fault is reported under. -/
structure Fails {α : Type} (outcome : Except Fault α) (fault : Fault)
    (category : Fault.Category) : Prop where
  outcome : outcome = .error fault
  category : fault.category = category

end NamedSql

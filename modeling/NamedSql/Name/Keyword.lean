/-!
The six words that steer a query built from its name. A word counts only in this
exact spelling; in any other it belongs to the name of a column.
-/
namespace NamedSql

inductive Keyword where
  | select
  | find
  | all
  | whose
  | and
  | delete
  deriving DecidableEq, Repr, Inhabited

namespace Keyword

def text : Keyword → String
  | .select => "select"
  | .find => "find"
  | .all => "all"
  | .whose => "by"
  | .and => "and"
  | .delete => "delete"

def listed : List Keyword := [.select, .find, .all, .whose, .and, .delete]

def ofText? (text : String) : Option Keyword :=
  listed.find? fun keyword => keyword.text == text

theorem mem_listed (keyword : Keyword) : keyword ∈ listed := by
  cases keyword <;> decide

@[simp] theorem ofText?_text (keyword : Keyword) : ofText? keyword.text = some keyword := by
  cases keyword <;> decide

theorem ofText?_eq_some_iff {text : String} {keyword : Keyword} :
    ofText? text = some keyword ↔ keyword.text = text := by
  constructor
  · intro found
    simpa using List.find?_some found
  · rintro rfl
    exact ofText?_text keyword

theorem ofText?_eq_none (text : String) (other : ∀ keyword : Keyword, keyword.text ≠ text) :
    ofText? text = none := by
  cases found : ofText? text with
  | none => rfl
  | some keyword => exact absurd (ofText?_eq_some_iff.mp found) (other keyword)

end Keyword

end NamedSql

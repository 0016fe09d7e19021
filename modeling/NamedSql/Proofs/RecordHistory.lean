import NamedSql.Standard
import Mathlib.Data.List.Basic

/-!
Records as they come about. A record is set and unset name by name, and of all that happens to
a name only the last change is left in it. Standard queries look at a record under the names of
the columns and under the id. Its history enters their text by the last change of each of those
names, so not by the order among names, by what was overwritten, or by any other name.
-/
namespace NamedSql

inductive Change where
  | set (name : String) (value : Value)
  | unset (name : String)

namespace Change

def name : Change → String
  | .set name _ => name
  | .unset name => name

/-- What the name holds afterwards. -/
def value? : Change → Option Value
  | .set _ value => some value
  | .unset _ => none

def apply (record : Record) : Change → Record
  | .set name value => record.set name value
  | .unset name => record.unset name

def ofName (name : String) (changes : List Change) : List Change :=
  changes.filter fun change => change.name == name

/-- What the last change of a name leaves in it, which is nothing if there is none. -/
def final? (changes : List Change) (name : String) : Option Value :=
  (ofName name changes).getLast?.bind value?

@[simp] theorem ofName_append (name : String) (left right : List Change) :
    ofName name (left ++ right) = ofName name left ++ ofName name right :=
  List.filter_append left right

theorem ofName_cons (name : String) (change : Change) (rest : List Change) :
    ofName name (change :: rest) =
      if change.name = name then change :: ofName name rest else ofName name rest := by
  simp only [ofName, List.filter_cons, beq_iff_eq]

theorem ofName_eq_nil_iff (name : String) (changes : List Change) :
    ofName name changes = [] ↔ ∀ change ∈ changes, change.name ≠ name := by
  simp [ofName, List.filter_eq_nil_iff]

theorem final?_of_untouched (name : String) (changes : List Change)
    (others : ∀ change ∈ changes, change.name ≠ name) : final? changes name = none := by
  rw [final?, (ofName_eq_nil_iff name changes).mpr others]
  rfl

theorem final?_of_last (front back : List Change) (change : Change)
    (others : ∀ later ∈ back, later.name ≠ change.name) :
    final? (front ++ change :: back) change.name = change.value? := by
  have none := (ofName_eq_nil_iff change.name back).mpr others
  rw [final?, ofName_append, ofName_cons, if_pos rfl, none, List.getLast?_append]
  rfl

end Change

namespace Record

open Change (ofName final?)

variable {record : Record} {name : String}

def after (changes : List Change) : Record := changes.foldl Change.apply ∅

theorem get?_apply (change : Change) :
    (change.apply record).get? name =
      if change.name = name then change.value? else record.get? name := by
  cases change with
  | set own value => exact get?_set
  | unset own => exact get?_unset

theorem get?_foldl_apply (changes : List Change) :
    (changes.foldl Change.apply record).get? name =
      (ofName name changes).getLast?.elim (record.get? name) Change.value? := by
  induction changes generalizing record with
  | nil => rfl
  | cons change rest ih =>
      rw [List.foldl_cons, ih, get?_apply, Change.ofName_cons]
      by_cases own : change.name = name
      · rw [if_pos own, if_pos own, List.getLast?_cons]
        cases (ofName name rest).getLast? <;> rfl
      · rw [if_neg own, if_neg own]

theorem get?_after (changes : List Change) : (after changes).get? name = final? changes name := by
  rw [after, get?_foldl_apply, get?_empty, final?]
  cases (ofName name changes).getLast? <;> rfl

theorem ofPairs_after (pairs : List (String × Value)) :
    ofPairs pairs = after (pairs.map fun pair => .set pair.1 pair.2) := by
  rw [ofPairs, after, List.foldl_map]
  rfl

theorem get?_ofPairs_none (pairs : List (String × Value))
    (others : ∀ pair ∈ pairs, pair.1 ≠ name) : (ofPairs pairs).get? name = none := by
  rw [ofPairs_after, get?_after]
  apply Change.final?_of_untouched
  rw [List.forall_mem_map]
  exact others

theorem get?_ofPairs_last (front back : List (String × Value)) (value : Value)
    (others : ∀ pair ∈ back, pair.1 ≠ name) :
    (ofPairs (front ++ (name, value) :: back)).get? name = some value := by
  rw [ofPairs_after, get?_after, List.map_append, List.map_cons]
  apply Change.final?_of_last _ _ (.set name value)
  rw [List.forall_mem_map]
  exact others

end Record

namespace Table

variable {table : Table} {quoting : Quoting}

/-- The names under which standard queries look at a record. The id is one of them whether it
is a column or not. -/
def Reads (table : Table) (name : String) : Prop :=
  name ∈ table.columns.map (·.name) ∨ name = Column.idName

instance (name : String) : Decidable (table.Reads name) :=
  inferInstanceAs (Decidable (_ ∨ _))

/-- All that is written from two records is the same, and so is what fails. -/
structure SameTexts (table : Table) (quoting : Quoting) (left right : Record) : Prop where
  saved : table.saveText left quoting = table.saveText right quoting
  counted : table.countText left quoting = table.countText right quoting
  updated : table.updateText left quoting = table.updateText right quoting

theorem literals_congr (left right : String → Option Value)
    (same : ∀ name, table.Reads name → left name = right name) :
    table.literals quoting left = table.literals quoting right := by
  unfold literals
  apply List.filterMap_congr
  intro column member
  have listed : column.name ∈ table.columns.map (·.name) :=
    List.mem_map_of_mem (List.mem_filter.mp member).1
  rw [same column.name (.inl listed)]

theorem sameTexts_of_reads (left right : Record)
    (same : ∀ name, table.Reads name → left.get? name = right.get? name) :
    table.SameTexts quoting left right := by
  have present (name : String) (reads : table.Reads name) :
      left.present? name = right.present? name := by
    rw [Record.present?, Record.present?, same name reads]
  have filled : table.filled left quoting = table.filled right quoting :=
    literals_congr left.present? right.present? present
  have assigned : table.assigned left quoting = table.assigned right quoting :=
    literals_congr left.get? right.get? same
  have id := present Column.idName (.inr rfl)
  constructor
  · rw [saveText, saveText, filled]
  · rw [countText, countText, filled]
  · rw [updateText, updateText, id, assigned]

theorem sameTexts_after (left right : List Change)
    (same : ∀ name, table.Reads name → Change.final? left name = Change.final? right name) :
    table.SameTexts quoting (Record.after left) (Record.after right) := by
  apply sameTexts_of_reads
  intro name reads
  rw [Record.get?_after, Record.get?_after, same name reads]

end Table

namespace Change

variable {name : String}

theorem final?_overwritten (front middle back : List Change) (change later : Change)
    (again : later.name = change.name) :
    final? (front ++ change :: (middle ++ later :: back)) name =
      final? (front ++ (middle ++ later :: back)) name := by
  unfold final?
  simp only [ofName_append, ofName_cons, again]
  by_cases own : change.name = name
  · simp [own, List.getLast?_append, List.getLast?_cons]
  · simp [own]

theorem final?_seen (table : Table) (changes : List Change) (reads : table.Reads name) :
    final? (changes.filter fun change => decide (table.Reads change.name)) name =
      final? changes name := by
  unfold final? ofName
  rw [List.filter_filter]
  congr 2
  apply List.filter_congr
  intro change member
  by_cases own : change.name = name
  · simp [own, reads]
  · simp [own]

end Change

-- The last three parts name what two histories may differ in: the order of changes of different
-- names, changes that are made again later, and changes of names that nothing reads.
theorem texts_from_last_changes (table : Table) (quoting : Quoting) :
    (∀ changes name, (Record.after changes).get? name = Change.final? changes name) ∧
    (∀ left right : List Change,
      (∀ name, table.Reads name → Change.final? left name = Change.final? right name) →
      table.SameTexts quoting (Record.after left) (Record.after right)) ∧
    (∀ left right : List Change,
      (∀ name, Change.ofName name left = Change.ofName name right) →
      table.SameTexts quoting (Record.after left) (Record.after right)) ∧
    (∀ (front middle back : List Change) (change later : Change), later.name = change.name →
      table.SameTexts quoting (Record.after (front ++ change :: (middle ++ later :: back)))
        (Record.after (front ++ (middle ++ later :: back)))) ∧
    ∀ changes : List Change, table.SameTexts quoting (Record.after changes)
      (Record.after (changes.filter fun change => decide (table.Reads change.name))) := by
  refine ⟨fun changes name => Record.get?_after changes, Table.sameTexts_after, ?_, ?_, ?_⟩
  · intro left right same
    apply Table.sameTexts_after
    intro name _
    rw [Change.final?, Change.final?, same name]
  · intro front middle back change later again
    apply Table.sameTexts_after
    intro name _
    exact Change.final?_overwritten front middle back change later again
  · intro changes
    apply Table.sameTexts_after
    intro name reads
    exact (Change.final?_seen table changes reads).symm

theorem texts_from_last_people :
    let people : Table := ⟨"people", [{ name := "id", type := "integer" },
      { name := "name", type := "text" }, { name := "age", type := "integer" }]⟩
    let long : List Change := [.set "age" (.integer 8), .set "name" (.text "Bob"),
      .set "note" (.text "x"), .set "id" (.integer 1), .unset "age", .set "name" (.text "Ann"),
      .unset "id", .set "id" (.integer 7)]
    let short : List Change := [.set "id" (.integer 7), .set "name" (.text "Ann")]
    (∀ name, people.Reads name → Change.final? long name = Change.final? short name) ∧
    people.SameTexts .escaped (Record.after long) (Record.after short) ∧
    people.updateText (Record.after long) .escaped =
      .ok "UPDATE people SET name='Ann'\nWHERE id=7" := by
  intro people long short
  have same (name : String) (reads : people.Reads name) :
      Change.final? long name = Change.final? short name := by
    simp only [Table.Reads, people, List.map_cons, List.map_nil, List.mem_cons,
      List.not_mem_nil, or_false, Column.idName] at reads
    rcases reads with (rfl | rfl | rfl) | rfl <;> rfl
  obtain ⟨-, agree, -⟩ := texts_from_last_changes people .escaped
  have texts := agree long short same
  refine ⟨same, texts, texts.updated.trans ?_⟩
  decide

end NamedSql

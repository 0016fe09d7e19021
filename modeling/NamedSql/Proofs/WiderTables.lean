import NamedSql.Proofs.FinderConditions
import NamedSql.Proofs.UnresolvedSpans

/-!
Tables that grow. A query looks columns up by the words of its name and takes from the column
it finds only the name and whether it is text, so a table may gain columns, repeat them and
change what else they declare. Both tables are walked through the same phrases. Either the
walks agree to the end, or the smaller table stops at a reference that it cannot answer.
-/
namespace NamedSql

namespace Table

variable {table wider : Table}

/-- Each name that a table answers is answered in the wider one too, by a column that is text
exactly if the first is. -/
structure Within (table wider : Table) : Prop where
  named : wider.name = table.name
  finds : ∀ name column, table.column? name = some column →
    ∃ other, wider.column? name = some other ∧ other.isText = column.isText

-- The first column of a name stays the first, whatever is put behind it.
variable (table) in
theorem within_append (more : List Column) : table.Within ⟨table.name, table.columns ++ more⟩ where
  named := rfl
  finds := by
    intro name column found
    refine ⟨column, ?_, rfl⟩
    rw [column?] at found ⊢
    rw [List.find?_append, found, Option.some_or]

theorem within_perm (distinct : (table.columns.map (·.name)).Nodup) (columns : List Column)
    (reordered : columns.Perm table.columns) : table.Within ⟨table.name, columns⟩ where
  named := rfl
  finds := by
    intro name column found
    obtain ⟨member, rfl⟩ := column?_eq_some name column found
    have moved : column ∈ columns := reordered.mem_iff.mpr member
    have still : (columns.map (·.name)).Nodup := (reordered.map _).nodup_iff.mpr distinct
    have again : (Table.mk table.name columns).column? column.name = some column :=
      column?_of_distinct still column moved
    exact ⟨column, again, rfl⟩

/-- Each query that compiles for a table compiles for the other, to the same template and with
the same events. -/
def Keeps (table other : Table) : Prop :=
  ∀ query template, (table.inferred query).result = .ok template →
    (other.inferred query).result = .ok template ∧
      (other.inferred query).events = (table.inferred query).events

end Table

namespace Inferred

variable {table wider : Table} {query : String}

theorem condition_congr (column other : Column) (named : other.name = column.name)
    (typed : other.isText = column.isText) : condition other = condition column := by
  rw [condition, condition, named, typed]

theorem condition_within (within : table.Within wider) (name : String)
    (present : name ∈ table.columns.map (·.name)) :
    (wider.column? name).map condition = (table.column? name).map condition := by
  obtain ⟨column, found⟩ := Table.exists_column? name present
  obtain ⟨other, answered, typed⟩ := within.finds name column found
  have same : other.name = column.name :=
    (Table.column?_eq_some name other answered).2.trans
      (Table.column?_eq_some name column found).2.symm
  rw [found, answered, Option.map_some, Option.map_some, condition_congr column other same typed]

-- The two runs part only at a reference that the smaller table has no column for.
variable (query) in
theorem inferred_within (within : table.Within wider) :
    (∃ column span, (table.inferred query).result = .error (.unresolved query column span)) ∨
      wider.inferred query = table.inferred query := by
  by_cases answered : ∀ column ∈ resolved query, column ∈ table.columns.map (·.name)
  · right
    exact inferred_congr wider table within.named query fun column member =>
      condition_within within column (answered column member)
  · left
    cases shape : body? query with
    | none =>
        rw [resolved, shape] at answered
        exact absurd (fun column member => by cases member) answered
    | some body =>
        rw [resolved, shape, List.forall_mem_map] at answered
        obtain ⟨front, column, span, back, order, earlier, missing⟩ :=
          first_unresolved _ fun each => answered ((resolved_sentence body).mp each)
        exact ⟨column, span,
          inferred_unresolved query body shape front back column span order earlier missing⟩

theorem keeps_within (within : table.Within wider) : table.Keeps wider := by
  intro query template compiled
  rcases inferred_within query within with ⟨column, span, failed⟩ | same
  · rw [compiled] at failed
    cases failed
  · rw [same]
    exact ⟨compiled, rfl⟩

theorem unresolved_within (within : table.Within wider) (name column : String) (span : Span)
    (failed : (wider.inferred query).result = .error (.unresolved name column span)) :
    ∃ column span, (table.inferred query).result = .error (.unresolved query column span) := by
  rcases inferred_within query within with stopped | same
  · exact stopped
  · obtain ⟨-, -, rfl, -⟩ := unresolved_reference query failed
    rw [same] at failed
    exact ⟨column, span, failed⟩

end Inferred

-- What compiles once compiles for good. A query that a grown table cannot resolve could not
-- be resolved before it grew.
theorem growth_keeps_queries (table : Table) :
    (∀ wider, table.Within wider → table.Keeps wider ∧
      ∀ query name column span,
        (wider.inferred query).result = .error (.unresolved name column span) →
        ∃ column span, (table.inferred query).result = .error (.unresolved query column span)) ∧
    (∀ more, table.Within ⟨table.name, table.columns ++ more⟩ ∧
      table.Keeps ⟨table.name, table.columns ++ more⟩) ∧
    ∀ columns, (table.columns.map (·.name)).Nodup → columns.Perm table.columns →
      table.Within ⟨table.name, columns⟩ ∧ table.Keeps ⟨table.name, columns⟩ := by
  refine ⟨?_, ?_, ?_⟩
  · intro wider within
    exact ⟨Inferred.keeps_within within, fun query => Inferred.unresolved_within within⟩
  · intro more
    have within := table.within_append more
    exact ⟨within, Inferred.keeps_within within⟩
  · intro columns distinct reordered
    have within := Table.within_perm distinct columns reordered
    exact ⟨within, Inferred.keeps_within within⟩

theorem growth_keeps_people :
    let people : Table := ⟨"people", [{ name := "id", type := "integer" },
      { name := "name", type := "text" }]⟩
    let grown : Table := ⟨"people", [{ name := "name", type := "text", lead := some " " },
      { name := "age", type := "integer" }, { name := "id", type := "bigint" },
      { name := "name", type := "integer" }]⟩
    people.Within grown ∧
    (∃ template, (people.inferred "sql_find_by_name_and_id").result = .ok template ∧
      (grown.inferred "sql_find_by_name_and_id").result = .ok template) ∧
    (grown.inferred "sql_find_by_age_and_x").result =
      .error (.unresolved "sql_find_by_age_and_x" "x" ⟨20, 21⟩) ∧
    ∃ column span, (people.inferred "sql_find_by_age_and_x").result =
      .error (.unresolved "sql_find_by_age_and_x" column span) := by
  intro people grown
  have within : people.Within grown := by
    refine ⟨rfl, ?_⟩
    intro name column found
    obtain ⟨member, rfl⟩ := Table.column?_eq_some name column found
    simp only [people, List.mem_cons, List.not_mem_nil, or_false] at member
    rcases member with rfl | rfl
    · exact ⟨{ name := "id", type := "bigint" }, by decide⟩
    · exact ⟨{ name := "name", type := "text", lead := some " " }, by decide⟩
  obtain ⟨keeps, fails⟩ := (growth_keeps_queries people).1 grown within
  obtain ⟨template, compiled⟩ :=
    exists_ok (people.inferred "sql_find_by_name_and_id").result (by decide)
  have failed : (grown.inferred "sql_find_by_age_and_x").result =
      .error (.unresolved "sql_find_by_age_and_x" "x" ⟨20, 21⟩) := by decide
  exact ⟨within, ⟨template, compiled, (keeps _ template compiled).1⟩, failed,
    fails _ _ _ _ failed⟩

end NamedSql

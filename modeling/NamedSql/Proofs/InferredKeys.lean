import NamedSql.Proofs.InferredMeaning
import NamedSql.Proofs.TemplateGrammar

/-!
The keys of inferred queries. They are not kept from the resolution of a name, they are
read back from the text that was written for it. The name of the table is escaped in that
text and the names of columns are not, so the two agree for a column without braces and
part for every other: a key that is read has no brace. What a name compiles to depends on
no columns but those it refers to, so only those have to be looked at.
-/
namespace NamedSql

namespace Table

variable {table : Table}

def unbraced (table : Table) : Table :=
  ⟨table.name, table.columns.filter fun column => decide (Item.Unbraced column.name.toList)⟩

theorem unbraced_braceless : table.unbraced.Braceless := by
  intro column member
  simpa using (List.mem_filter.mp member).2

theorem column?_unbraced (name : String) (unbraced : Item.Unbraced name.toList) :
    table.unbraced.column? name = table.column? name := by
  simp only [column?, Table.unbraced, List.find?_filter]
  congr 1
  funext column
  by_cases own : column.name = name
  · simp [own, unbraced]
  · simp [own]

end Table

namespace Inferred

variable {table left right : Table} {query : String} {deleting : Bool}

/-- The columns that the words of a name refer to, one for each reference. -/
def resolved (name : String) : List String :=
  match body? name with
  | some body => (references (phrases (tokens body))).map (·.1)
  | none => []

/-! Two tables of one name. A query sees of the columns what lookups of its references
find, and of a column only the condition that is written for it. So where those agree it is
compiled alike, events and faults included. -/
section Agreement

variable (query deleting) in
theorem write_congr (named : left.name = right.name) (sentence : List Phrase)
    (agree : ∀ reference ∈ references sentence,
      (left.column? reference.1).map condition = (right.column? reference.1).map condition) :
    write left query deleting sentence = write right query deleting sentence := by
  induction sentence with
  | nil => rfl
  | cons phrase rest ih =>
      cases phrase with
      | control keyword => rw [write, write, ih agree, named]
      | reference name span =>
          have here := agree (name, span) List.mem_cons_self
          have later := ih fun other member => agree other (List.mem_cons_of_mem _ member)
          rw [write, write, later]
          cases found : left.column? name with
          | none =>
              rw [found, Option.map_none, eq_comm, Option.map_eq_none_iff] at here
              rw [here]
          | some column =>
              rw [found, Option.map_some, eq_comm, Option.map_eq_some_iff] at here
              obtain ⟨other, answered, same⟩ := here
              simp only [answered, same]

variable (left right) in
theorem inferred_congr (named : left.name = right.name) (name : String)
    (agree : ∀ column ∈ resolved name,
      (left.column? column).map condition = (right.column? column).map condition) :
    left.inferred name = right.inferred name := by
  unfold resolved at agree
  unfold Table.inferred
  cases shape : body? name with
  | none => rfl
  | some body =>
      rw [shape, List.forall_mem_map] at agree
      simp only [write_congr name (deletes (tokens body)) named _ agree]

end Agreement

theorem resolved_are_columns (name : String) (template : Template)
    (compiled : (table.inferred name).result = .ok template) :
    ∀ column ∈ resolved name, column ∈ table.columns.map (·.name) := by
  obtain ⟨body, shape⟩ := body_of_compiled name template compiled
  have each := resolved_phrases name body template shape compiled
  rw [resolved, shape]
  intro column member
  obtain ⟨reference, made, rfl⟩ := List.mem_map.mp member
  exact each reference made

theorem read_of_compiled (name : String) (template : Template)
    (compiled : (table.inferred name).result = .ok template) :
    ∃ text, Template.read .named text = .ok template := by
  obtain ⟨body, shape⟩ := body_of_compiled name template compiled
  rw [inferred_result name body shape] at compiled
  cases written : (write table name (deletes (tokens body)) (phrases (tokens body))).result with
  | error fault =>
      rw [written] at compiled
      cases compiled
  | ok text =>
      rw [written, Except.bind] at compiled
      exact ⟨_, compiled⟩

theorem unbraced_keys (name : String) (template : Template)
    (compiled : (table.inferred name).result = .ok template) :
    ∀ key ∈ template.keys, Item.Unbraced key.toList := by
  obtain ⟨text, read⟩ := read_of_compiled name template compiled
  exact Template.keys_unbraced template read

variable (table) in
/-- Columns with braces are out of the way of a query that does not refer to them. -/
theorem inferred_unbraced (name : String)
    (unbraced : ∀ column ∈ resolved name, Item.Unbraced column.toList) :
    table.unbraced.inferred name = table.inferred name :=
  inferred_congr table.unbraced table rfl name fun column member =>
    congrArg (Option.map condition) (Table.column?_unbraced column (unbraced column member))

theorem keys_of_unbraced (name : String) (template : Template)
    (compiled : (table.inferred name).result = .ok template)
    (unbraced : ∀ column ∈ resolved name, Item.Unbraced column.toList) :
    template.keys = resolved name := by
  obtain ⟨body, shape⟩ := body_of_compiled name template compiled
  rw [← inferred_unbraced table name unbraced] at compiled
  have keys := keys_inferred Table.unbraced_braceless name body template shape compiled
  rw [keys, resolved, shape, ← phrases_sentence, references_shifted, List.map_map]
  rfl

-- A key that is read from the text has no brace, so it cannot be a column that has one.
theorem keys_are_columns_iff (table : Table) (name : String) (template : Template)
    (compiled : (table.inferred name).result = .ok template) :
    (∀ column ∈ resolved name, column ∈ table.columns.map (·.name)) ∧
    ((template.keys = resolved name ∧ ∀ key ∈ template.keys, key ∈ table.columns.map (·.name)) ↔
      ∀ column ∈ resolved name, Item.Unbraced column.toList) := by
  have columns := resolved_are_columns name template compiled
  refine ⟨columns, ?_, ?_⟩
  · rintro ⟨same, -⟩ column member
    rw [← same] at member
    exact unbraced_keys name template compiled column member
  · intro unbraced
    have same := keys_of_unbraced name template compiled unbraced
    exact ⟨same, same ▸ columns⟩

theorem keys_beside_braced_columns :
    let people : Table := ⟨"t\x7bx\x7d", [{ name := "id", type := "integer" },
      { name := "\x7bid\x7d", type := "text" }, { name := "name", type := "text" }]⟩
    ∃ template, (people.inferred "sql_find_all_by_name_and_id").result = .ok template ∧
      template.keys = ["name", "id"] ∧
      ∀ key ∈ template.keys, key ∈ people.columns.map (·.name) := by
  intro people
  have spelled : (people.inferred "sql_find_all_by_name_and_id").result.toOption.map (·.keys) =
      some ["name", "id"] := by decide
  obtain ⟨template, found, keys⟩ := Option.map_eq_some_iff.mp spelled
  have compiled := (toOption_eq_some_iff _ _).mp found
  obtain ⟨-, plain⟩ := keys_are_columns_iff people "sql_find_all_by_name_and_id" template compiled
  obtain ⟨-, columns⟩ := plain.mpr (by decide)
  exact ⟨template, compiled, keys, columns⟩

-- A column in braces becomes a slot where its name is to stand, and text in its slot.
theorem braced_column_loses_key :
    let tags : Table := ⟨"t", [{ name := "id", type := "integer" },
      { name := "\x7bx\x7d", type := "integer" }]⟩
    (Table.define tags.name tags.columns).result = .ok tags ∧
    resolved "sql_find_all_by_\x7bx\x7d" = ["\x7bx\x7d"] ∧
    ∃ template, (tags.inferred "sql_find_all_by_\x7bx\x7d").result = .ok template ∧
      template.keys = ["x"] ∧ "x" ∉ tags.columns.map (·.name) := by
  intro tags
  have spelled : (tags.inferred "sql_find_all_by_\x7bx\x7d").result.toOption.map (·.keys) =
      some ["x"] := by decide
  obtain ⟨template, found, keys⟩ := Option.map_eq_some_iff.mp spelled
  have compiled := (toOption_eq_some_iff _ _).mp found
  exact ⟨by simp [Table.define, tags], by decide, template, compiled, keys, by decide⟩

end Inferred

end NamedSql

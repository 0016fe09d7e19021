import NamedSql.Proofs.FinderConditions

/-!
The literal of one value in all places that write it. A statement asks the value whether it is
null before it writes quotes for a text column. A query on the column has its quotes in the
template, where no value is known yet. So the two differ for a null in a text column and for
nothing else: there the query compares with the text that a null is rendered as.
-/
namespace NamedSql

namespace Inferred

variable {quoting : Quoting}

/-- The value as a query on its column writes it. -/
def slotText (column : Column) (value : Value) (quoting : Quoting) : String :=
  if column.isText then "'" ++ quoting.apply value.render ++ "'" else value.render

theorem compared_single (column : Column) (value : Value) :
    compared quoting [(column, value)] = column.name ++ " = " ++ slotText column value quoting := by
  apply String.toList_inj.mp
  cases text : column.isText <;>
    simp [compared, comparison, slotText, text, Segment.toList_text, Segment.write, Quoting.mark,
      Quoting.apply_eq_between]

-- Quotes are not dropped for a null, and then the literal is longer than the word.
theorem slotText_eq_literal_iff (column : Column) (value : Value) :
    slotText column value quoting = column.literal value quoting ↔
      ¬ (column.isText = true ∧ value.isNull = true) := by
  cases text : column.isText with
  | false => simp [slotText, Column.literal, text]
  | true =>
      cases null : value.isNull with
      | false => simp [slotText, Column.literal, text, null]
      | true =>
          have bare : column.literal value quoting = "NULL" :=
            Table.literal_of_null column value null
          simp only [slotText, text, ↓reduceIte, bare, and_self, not_true_eq_false, iff_false]
          intro same
          have letters := congrArg String.toList same
          simp at letters

theorem slotText_of_null (column : Column) (value : Value) (text : column.isText = true)
    (null : value.isNull = true) :
    slotText column value quoting = column.literal (.text "NULL") quoting := by
  cases value with
  | null => simp [slotText, Column.literal, text, Value.isNull, Value.render]
  | _ => cases null

end Inferred

namespace Table

variable {table : Table} {quoting : Quoting}

theorem assigned_literal (column : Column) (first : table.column? column.name = some column)
    (other : column.isId = false) (record : Record) (value : Value)
    (held : record.get? column.name = some value) :
    (column.name, column.literal value quoting) ∈ table.assigned record quoting := by
  have member := (column?_eq_some _ _ first).1
  apply List.mem_filterMap.mpr
  exact ⟨column, List.mem_filter.mpr ⟨member, by simp [other]⟩, by simp [held]⟩

theorem idLiteral_of_id (column : Column) (first : table.column? column.name = some column)
    (own : column.isId = true) (value : Value) :
    table.idLiteral quoting value = column.literal value quoting := by
  have named : column.name = Column.idName := by simpa [Column.isId] using own
  rw [named] at first
  rw [idLiteral, idColumn?, first]

end Table

-- A query on a column writes the literal of the column, except that a null for a text column
-- is compared as the text it is rendered as.
theorem finder_literal_iff (table : Table) (column : Column)
    (first : table.column? column.name = some column)
    (spellable : Inferred.Spellable column.name)
    (barless : column.name.toList.head? ≠ some '_') (value : Value) (keywords : Record)
    (given : keywords.get? column.name = some value) (quoting : Quoting) :
    (∃ template written,
      (table.inferred ("sql_find_all_by_" ++ column.name)).result = .ok template ∧
      template.fillNamed keywords quoting =
        .ok ("SELECT * FROM " ++ table.name ++ " WHERE " ++ column.name ++ " = " ++ written) ∧
      (written = column.literal value quoting ↔
        ¬ (column.isText = true ∧ value.isNull = true)) ∧
      (column.isText = true → value.isNull = true →
        written = column.literal (.text "NULL") quoting)) ∧
    (value.isNull = true → column.literal value quoting = "NULL") ∧
    (column.isId = true → table.idLiteral quoting value = column.literal value quoting) ∧
    (column.isId = false → ∀ record : Record, record.get? column.name = some value →
      (column.name, column.literal value quoting) ∈ table.assigned record quoting) := by
  refine ⟨?_, Table.literal_of_null column value, fun own => Table.idLiteral_of_id column first own
    value, fun other record held => Table.assigned_literal column first other record value held⟩
  have reaches : Inferred.Reaches table keywords (column, value) :=
    ⟨first, given, spellable.nonempty, barless⟩
  have opened := Inferred.find_opening [column.name]
  rw [String.intercalate_singleton] at opened
  obtain ⟨template, compiled, filled⟩ := Inferred.fillNamed_compared false quoting [.find, .all]
    [(column, value)] (List.cons_ne_nil _ _) (by simpa using spellable) (by simpa using reaches)
    (by decide) ("SELECT * FROM " ++ table.name ++ " WHERE ") (by simp [Inferred.spoken])
  refine ⟨template, Inferred.slotText column value quoting, ?_, ?_,
    Inferred.slotText_eq_literal_iff column value, Inferred.slotText_of_null column value⟩
  · rw [opened]
    exact compiled
  · rw [filled, Inferred.compared_single]
    simp only [String.append_assoc]

theorem finder_literal_people :
    let age : Column := { name := "age", type := "integer" }
    let people : Table := ⟨"people", [{ name := "id", type := "integer" }, age]⟩
    people.column? "age" = some age ∧ Inferred.Spellable "age" ∧
    ∃ template written, (people.inferred "sql_find_all_by_age").result = .ok template ∧
      template.fillNamed (Record.ofPairs [("age", .null)]) .escaped =
        .ok ("SELECT * FROM people WHERE age = " ++ written) ∧
      written = age.literal .null .escaped ∧ age.literal .null .escaped = "NULL" := by
  intro age people
  have spellable : Inferred.Spellable "age" := by decide
  obtain ⟨⟨template, written, compiled, filled, same, -⟩, bare, -⟩ := finder_literal_iff people age
    (by decide) spellable (by decide) .null (Record.ofPairs [("age", .null)])
    (by simp [Record.ofPairs, age]) .escaped
  exact ⟨by decide, spellable, template, written, compiled, filled, same.mpr (by decide), bare rfl⟩

-- In a text column a null finds the rows that hold the word.
theorem null_finds_its_word :
    let name : Column := { name := "name", type := "text" }
    let people : Table := ⟨"people", [{ name := "id", type := "integer" }, name]⟩
    (Table.define people.name people.columns).result = .ok people ∧
    people.column? "name" = some name ∧ Inferred.Spellable "name" ∧
    name.literal .null .raw = "NULL" ∧
    ∃ template, (people.inferred "sql_find_all_by_name").result = .ok template ∧
      template.fillNamed (Record.ofPairs [("name", .null)]) .raw =
        .ok "SELECT * FROM people WHERE name = 'NULL'" ∧
      template.fillNamed (Record.ofPairs [("name", .text "NULL")]) .raw =
        .ok "SELECT * FROM people WHERE name = 'NULL'" ∧
      template.fillNamed (Record.ofPairs [("name", .null)]) .raw ≠
        .ok ("SELECT * FROM people WHERE name = " ++ name.literal .null .raw) := by
  intro name people
  have spelled : (people.inferred "sql_find_all_by_name").result.toOption.map (fun template =>
      [Value.null, .text "NULL"].map fun value =>
        (template.fillNamed (Record.ofPairs [("name", value)]) .raw).toOption) =
      some [some "SELECT * FROM people WHERE name = 'NULL'",
        some "SELECT * FROM people WHERE name = 'NULL'"] := by decide
  obtain ⟨template, found, texts⟩ := Option.map_eq_some_iff.mp spelled
  simp only [List.map_cons, List.map_nil, List.cons.injEq, toOption_eq_some_iff] at texts
  obtain ⟨null, word, -⟩ := texts
  refine ⟨by simp [Table.define, people], by decide, by decide, by decide, template,
    (toOption_eq_some_iff _ _).mp found, null, word, ?_⟩
  rw [null]
  decide

end NamedSql

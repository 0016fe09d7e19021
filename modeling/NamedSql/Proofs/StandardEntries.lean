import NamedSql.Proofs.StandardSegments

/-!
The columns that saving, counting and updating write. Each of the three goes through the
columns by itself, with a test, a separator and a case for nothing of its own. Beside them
stands one list of entries, said by which columns it has and in which order: the names and
literals that are saved are those that are counted, and an update adds only the nulls, each
at the place of its column.
-/
namespace NamedSql

/-- A value as it stands in the text of a statement. A null is one word for every column, a
value for a text column is between quotes, and any other is bare. -/
def Value.written (quoting : Quoting) (receiver : Option Column) : Value → String
  | .null => "NULL"
  | value =>
      if takesText receiver then "'" ++ quoting.between value.render ++ "'" else value.render

theorem Column.literal_eq_written (column : Column) (value : Value) (quoting : Quoting) :
    column.literal value quoting = value.written quoting (some column) := by
  cases value with
  | null => simp [literal, Value.written, Value.isNull, Value.render]
  | _ =>
      cases text : column.isText <;>
        simp [literal, Value.written, Value.isNull, text, Quoting.apply_eq_between]

namespace Table

theorem idLiteral_eq_written (table : Table) (id : Value) (quoting : Quoting) :
    table.idLiteral quoting id = id.written quoting (table.receiver "id") := by
  rw [idLiteral, idColumn?_eq_receiver]
  cases table.receiver "id" with
  | some column => exact column.literal_eq_written id quoting
  | none => cases id <;> rfl

variable {table : Table} {record : Record} {quoting : Quoting}

/-- The columns other than the id that a record sets to a wanted value, in the order of the
table and none of them left out, each with that value. -/
structure Lists (table : Table) (record : Record) (wanted : Value → Bool)
    (entries : List (Column × Value)) : Prop where
  columns : entries.map (·.1) =
    table.columns.filter fun column =>
      column.name != "id" && (record.get? column.name).any wanted
  values : ∀ entry ∈ entries, record.get? entry.1.name = some entry.2

def entries (table : Table) (record : Record) (wanted : Value → Bool) : List (Column × Value) :=
  (table.columns.filter fun column => column.name != "id").filterMap fun column =>
    ((record.get? column.name).filter wanted).map fun value => (column, value)

def cell (quoting : Quoting) (entry : Column × Value) : String × String :=
  (entry.1.name, entry.1.literal entry.2 quoting)

theorem cell_eq_written : cell quoting =
    fun entry => (entry.1.name, entry.2.written quoting (some entry.1)) := by
  funext entry
  rw [cell, Column.literal_eq_written]

variable (table record) in
theorem lists_entries (wanted : Value → Bool) :
    table.Lists record wanted (table.entries record wanted) where
  columns := by
    simp only [entries, List.map_filterMap, Option.map_map]
    induction table.columns with
    | nil => rfl
    | cons column rest ih =>
        by_cases own : column.name = "id"
        · simpa [own] using ih
        · cases held : record.get? column.name with
          | none => simpa [own, held] using ih
          | some value => cases fit : wanted value <;> simpa [own, held, fit] using ih
  values := by
    intro entry member
    obtain ⟨column, -, found⟩ := List.mem_filterMap.mp member
    obtain ⟨value, held, rfl⟩ := Option.map_eq_some_iff.mp found
    exact (Option.filter_eq_some_iff.mp held).1

theorem Lists.unique {wanted : Value → Bool} {left right : List (Column × Value)}
    (leftLists : table.Lists record wanted left) (rightLists : table.Lists record wanted right) :
    left = right := by
  have restore (entries : List (Column × Value))
      (values : ∀ entry ∈ entries, record.get? entry.1.name = some entry.2) :
      (entries.map (·.1)).filterMap (fun column =>
        (record.get? column.name).map fun value => (column, value)) = entries := by
    rw [List.filterMap_map]
    induction entries with
    | nil => rfl
    | cons entry rest ih =>
        have own := values entry List.mem_cons_self
        have later := ih fun other member => values other (List.mem_cons_of_mem entry member)
        rw [List.filterMap_cons_some (show _ = some entry by simp [own]), later]
  rw [← restore left leftLists.values, ← restore right rightLists.values, leftLists.columns,
    rightLists.columns]

theorem literals_entries (wanted : Value → Bool) :
    table.literals quoting (fun name => (record.get? name).filter wanted) =
      (table.entries record wanted).map (cell quoting) := by
  simp only [literals, entries, List.map_filterMap, Option.map_map]
  rfl

theorem filled_entries :
    table.filled record quoting = (table.entries record (· != .null)).map (cell quoting) := by
  rw [filled, record.present?_eq_nonNull?]
  exact literals_entries _

theorem assigned_entries :
    table.assigned record quoting = (table.entries record fun _ => true).map (cell quoting) := by
  have every (held : Option Value) : held.filter (fun _ => true) = held := by cases held <;> rfl
  rw [← literals_entries, assigned]
  simp only [every]

variable (table record) in
theorem entries_filter (wanted : Value → Bool) :
    table.entries record wanted =
      (table.entries record fun _ => true).filter fun entry => wanted entry.2 := by
  simp only [entries, List.filter_filterMap]
  congr 1
  funext column
  cases held : record.get? column.name with
  | none => rfl
  | some value => cases fit : wanted value <;> simp [Option.filter, fit]

theorem saveText_pairs (pairs : List (String × String))
    (filled : table.filled record quoting = pairs) :
    table.saveText record quoting =
      if pairs = [] then "INSERT INTO " ++ table.name ++ " DEFAULT VALUES"
      else "INSERT INTO " ++ table.name ++ "(" ++ ",".intercalate (pairs.map (·.1)) ++
        ")\nVALUES (" ++ ",".intercalate (pairs.map (·.2)) ++ ")" := by
  unfold saveText
  rw [filled]
  cases pairs with
  | nil => rfl
  | cons pair rest =>
      rw [if_neg (List.cons_ne_nil pair rest)]
      rfl

theorem countText_pairs (pairs : List (String × String))
    (filled : table.filled record quoting = pairs) :
    table.countText record quoting =
      if pairs = [] then "SELECT count(*) FROM " ++ table.name ++ ";"
      else "SELECT count(*) FROM " ++ table.name ++ " WHERE " ++
        " AND ".intercalate (pairs.map fun pair => pair.1 ++ " = " ++ pair.2) ++ ";" := by
  unfold countText
  rw [filled]
  cases pairs with
  | nil => rfl
  | cons pair rest =>
      rw [if_neg (List.cons_ne_nil pair rest)]
      rfl

-- The letter after the name of the table tells the two forms of each statement apart.
theorem saveText_eq_defaults_iff (pairs : List (String × String))
    (filled : table.filled record quoting = pairs) :
    table.saveText record quoting = "INSERT INTO " ++ table.name ++ " DEFAULT VALUES" ↔
      pairs = [] := by
  rw [saveText_pairs pairs filled]
  by_cases none : pairs = []
  · simp [none]
  · rw [if_neg none]
    refine ⟨fun same => ?_, fun empty => absurd empty none⟩
    have letters := congrArg String.toList same
    simp at letters

theorem countText_eq_whole_iff (pairs : List (String × String))
    (filled : table.filled record quoting = pairs) :
    table.countText record quoting = "SELECT count(*) FROM " ++ table.name ++ ";" ↔
      pairs = [] := by
  rw [countText_pairs pairs filled]
  by_cases none : pairs = []
  · simp [none]
  · rw [if_neg none]
    refine ⟨fun same => ?_, fun empty => absurd empty none⟩
    have letters := congrArg String.toList same
    simp at letters

theorem literal_of_null (column : Column) (value : Value) (null : value.isNull = true) :
    column.literal value quoting = "NULL" := by
  cases value with
  | null => rw [Column.literal_eq_written, Value.written]
  | _ => cases null

theorem updateText_eq_ok_iff (text : String) :
    table.updateText record quoting = .ok text ↔
      (table.entries record fun _ => true) ≠ [] ∧
        ∃ id, record.get? Column.idName = some id ∧ id.isNull = false ∧
          text = "UPDATE " ++ table.name ++ " SET " ++
            ", ".intercalate ((table.entries record fun _ => true).map fun entry =>
              entry.1.name ++ "=" ++ entry.1.literal entry.2 quoting) ++
            "\nWHERE id=" ++ table.idLiteral quoting id := by
  have held (id : Value) : record.present? Column.idName = some id ↔
      record.get? Column.idName = some id ∧ id.isNull = false := by
    simp [Record.present?, Option.filter_eq_some_iff]
  unfold updateText
  rw [assigned_entries]
  simp only [← and_assoc, ← held]
  cases known : record.present? Column.idName with
  | none => simp
  | some id =>
      cases table.entries record fun _ => true with
      | nil => simp
      | cons entry rest =>
          simp [toString_text, String.append_assoc, cell, Function.comp_def, eq_comm]

end Table

-- What is saved is what is counted, column by column and value by value, and what is updated
-- besides is set to null. The id is written once, for the first column that has its name.
theorem texts_share_entries (table : Table) (record : Record) (quoting : Quoting) :
    ∃ held given : List (Column × Value),
      table.Lists record (· != .null) held ∧ table.Lists record (fun _ => true) given ∧
      held = given.filter (fun entry => entry.2 != .null) ∧
      let pairs := held.map fun entry => (entry.1.name, entry.2.written quoting (some entry.1))
      (table.saveText record quoting =
        if pairs = [] then "INSERT INTO " ++ table.name ++ " DEFAULT VALUES"
        else "INSERT INTO " ++ table.name ++ "(" ++ ",".intercalate (pairs.map (·.1)) ++
          ")\nVALUES (" ++ ",".intercalate (pairs.map (·.2)) ++ ")") ∧
      (table.saveText record quoting = "INSERT INTO " ++ table.name ++ " DEFAULT VALUES" ↔
        pairs = []) ∧
      (table.countText record quoting =
        if pairs = [] then "SELECT count(*) FROM " ++ table.name ++ ";"
        else "SELECT count(*) FROM " ++ table.name ++ " WHERE " ++
          " AND ".intercalate (pairs.map fun pair => pair.1 ++ " = " ++ pair.2) ++ ";") ∧
      (table.countText record quoting = "SELECT count(*) FROM " ++ table.name ++ ";" ↔
        pairs = []) ∧
      ∀ text, table.updateText record quoting = .ok text ↔
        given ≠ [] ∧ ∃ id, record.get? "id" = some id ∧ id ≠ .null ∧
          text = "UPDATE " ++ table.name ++ " SET " ++
            ", ".intercalate (given.map fun entry =>
              entry.1.name ++ "=" ++ entry.2.written quoting (some entry.1)) ++
            "\nWHERE id=" ++ id.written quoting (table.receiver "id") := by
  have saved : table.filled record quoting = _ := Table.filled_entries
  rw [Table.cell_eq_written] at saved
  refine ⟨_, _, table.lists_entries record _, table.lists_entries record _,
    table.entries_filter record _, ?_, ?_, ?_, ?_, fun text => ?_⟩
  · exact Table.saveText_pairs _ saved
  · exact Table.saveText_eq_defaults_iff _ saved
  · exact Table.countText_pairs _ saved
  · exact Table.countText_eq_whole_iff _ saved
  · simp only [Table.updateText_eq_ok_iff, Column.literal_eq_written, Table.idLiteral_eq_written,
      Value.isNull_eq_false_iff]
    rfl

theorem texts_share_people :
    let people : Table := ⟨"people", [{ name := "name", type := "text" },
      { name := "age", type := "integer" }, { name := "mail", type := "text" },
      { name := "id", type := "text" }, { name := "note", type := "text" }]⟩
    let ann := Record.ofPairs [("id", .text "7'"), ("name", .text "O'Hara"), ("mail", .null),
      ("age", .integer 40)]
    people.saveText ann .escaped = "INSERT INTO people(name,age)\nVALUES ('O''Hara',40)" ∧
    people.countText ann .escaped =
      "SELECT count(*) FROM people WHERE name = 'O''Hara' AND age = 40;" ∧
    people.updateText ann .escaped =
      .ok "UPDATE people SET name='O''Hara', age=40, mail=NULL\nWHERE id='7'''" ∧
    people.saveText ∅ .raw = "INSERT INTO people DEFAULT VALUES" := by
  intro people ann
  obtain ⟨held, given, saves, sets, rfl, saved, -, counted, -, updated⟩ :=
    texts_share_entries people ann .escaped
  have entries : given = [({ name := "name", type := "text" }, .text "O'Hara"),
      ({ name := "age", type := "integer" }, .integer 40),
      ({ name := "mail", type := "text" }, .null)] :=
    sets.unique ⟨by decide, by simp [ann, Record.ofPairs, Record.get?_set]⟩
  subst entries
  obtain ⟨none, -, nothing, -, -, -, defaults, -⟩ := texts_share_entries people ∅ .raw
  have empty : none = [] := nothing.unique ⟨by decide, by simp⟩
  subst empty
  refine ⟨saved.trans (by decide), counted.trans (by decide),
    (updated _).mpr ⟨by simp, .text "7'", ?_, ?_, by decide⟩, defaults.mpr rfl⟩
  · simp [ann, Record.ofPairs, Record.get?_set]
  · simp

end NamedSql

import NamedSql.Proofs.StandardSegments
import Mathlib.Data.List.Basic

/-!
The elements of a table declaration: column definitions and foreign keys. A column lists its
own foreign key directly after its definition, and the columns are joined as they come. So the
definitions are in the order of the table and so are the keys, but a key stands before the
definitions of all later columns. The two kinds are apart only when no column before the last
one refers to a table.
-/
namespace NamedSql

/-- What stands between two separators of a table declaration. -/
inductive Element where
  | definition (column : Column)
  | foreignKey (name target : String)
  deriving DecidableEq, Repr

namespace Element

def text : Element → String
  | .definition column =>
      column.lead.getD "" ++ column.name ++ " " ++ column.type ++
        match column.constraint with
        | some constraint => " " ++ constraint
        | none => ""
  | .foreignKey name target => "FOREIGN KEY (" ++ name ++ ") REFERENCES " ++ target

@[simp] theorem text_foreignKey (name target : String) :
    text (.foreignKey name target) = "FOREIGN KEY (" ++ name ++ ") REFERENCES " ++ target := rfl

def definition? : Element → Option Column
  | .definition column => some column
  | .foreignKey _ _ => none

def foreignKey? : Element → Option (String × String)
  | .definition _ => none
  | .foreignKey name target => some (name, target)

end Element

namespace Column

def keyElement? (column : Column) : Option Element :=
  column.foreignKey.map (.foreignKey column.name)

def elements (column : Column) : List Element :=
  .definition column :: column.keyElement?.toList

theorem description_definition (column : Column) :
    column.description = (Element.definition column).text ++ match column.foreignKey with
      | some target => ",\nFOREIGN KEY (" ++ column.name ++ ") REFERENCES " ++ target
      | none => "" := rfl

-- The separator is written with the first letters of the key.
theorem description_elements (column : Column) :
    column.description = ",\n".intercalate (column.elements.map Element.text) := by
  have opened : ",\nFOREIGN KEY (" = ",\n" ++ "FOREIGN KEY (" := by decide
  rw [description_definition, elements, keyElement?]
  cases column.foreignKey with
  | none => simp
  | some target =>
      simp only [Option.map_some, Option.toList_some, List.map_cons, List.map_nil,
        String.intercalate_cons_cons, String.intercalate_singleton, Element.text_foreignKey,
        opened, String.append_assoc]

theorem elements_definition (column : Column) :
    column.elements.filterMap Element.definition? = [column] := by
  rw [elements, keyElement?]
  cases column.foreignKey <;> rfl

theorem elements_foreignKey (column : Column) :
    column.elements.filterMap Element.foreignKey? =
      (column.foreignKey.map (column.name, ·)).toList := by
  rw [elements, keyElement?]
  cases column.foreignKey <;> rfl

end Column

theorem intercalate_flatMap {Item : Type} (separator : String) (texts : Item → List String)
    (some : ∀ item, texts item ≠ []) (items : List Item) :
    separator.intercalate (items.flatMap texts) =
      separator.intercalate (items.map fun item => separator.intercalate (texts item)) := by
  induction items with
  | nil => rfl
  | cons item rest ih =>
      cases rest with
      | nil => simp
      | cons next others =>
          have later : (next :: others).flatMap texts ≠ [] := by simp [some next]
          rw [List.flatMap_cons, String.intercalate_append_of_ne_nil (some item) later, ih]
          simp only [List.map_cons, String.intercalate_cons_cons]

namespace Table

variable (table : Table)

def elements : List Element := table.columns.flatMap Column.elements

def definitions : List Element := table.columns.map .definition

def foreignKeys : List Element := table.columns.filterMap Column.keyElement?

theorem createText_elements :
    table.createText = "CREATE TABLE IF NOT EXISTS " ++ table.name ++ "(" ++
      ",\n".intercalate (table.elements.map Element.text) ++ ")" := by
  have joined : ",\n".intercalate (table.columns.map Column.description) =
      ",\n".intercalate (table.elements.map Element.text) := by
    rw [elements, List.map_flatMap, intercalate_flatMap]
    · exact congrArg _ (List.map_congr_left fun column _ => column.description_elements)
    · simp [Column.elements]
  apply String.toList_inj.mp
  unfold createText
  rw [joined]
  simp only [toString_text]

theorem elements_definitions :
    table.elements.filterMap Element.definition? = table.columns := by
  simp [elements, List.filterMap_flatMap, Column.elements_definition]

theorem elements_foreignKeys :
    table.elements.filterMap Element.foreignKey? =
      table.columns.filterMap fun column => column.foreignKey.map (column.name, ·) := by
  rw [elements, List.filterMap_flatMap, List.filterMap_eq_flatMap_toList]
  simp only [Column.elements_foreignKey]

theorem elements_apart_iff :
    table.elements = table.definitions ++ table.foreignKeys ↔
      ∀ column ∈ table.columns.dropLast, column.foreignKey = none := by
  rw [elements, definitions, foreignKeys]
  induction table.columns with
  | nil => simp
  | cons column rest ih =>
      cases rest with
      | nil => cases key : column.foreignKey <;> simp [Column.elements, Column.keyElement?, key]
      | cons next others =>
          rw [List.dropLast_cons_cons, List.forall_mem_cons, ← ih]
          cases key : column.foreignKey <;> simp [Column.elements, Column.keyElement?, key]

end Table

-- The order of the columns keeps all definitions before all keys only if at most the last column
-- has a key.
theorem createText_in_column_order (table : Table) :
    ∃ elements : List Element,
      table.createText = "CREATE TABLE IF NOT EXISTS " ++ table.name ++ "(" ++
        ",\n".intercalate (elements.map Element.text) ++ ")" ∧
      elements = table.columns.flatMap (fun column =>
        .definition column :: (column.foreignKey.map (.foreignKey column.name)).toList) ∧
      elements.filterMap Element.definition? = table.columns ∧
      elements.filterMap Element.foreignKey? =
        table.columns.filterMap (fun column => column.foreignKey.map (column.name, ·)) ∧
      (elements = table.columns.map .definition ++
          table.columns.filterMap (fun column => column.foreignKey.map (.foreignKey column.name)) ↔
        ∀ column ∈ table.columns.dropLast, column.foreignKey = none) :=
  ⟨table.elements, table.createText_elements, rfl, table.elements_definitions,
    table.elements_foreignKeys, table.elements_apart_iff⟩

-- One column after a key is enough for the two orders to differ.
theorem key_before_later_column :
    let replies : Table := ⟨"t", [{ name := "id", type := "integer" },
      { name := "a", type := "integer", foreignKey := some "x(id)" },
      { name := "b", type := "text" }]⟩
    (Table.define replies.name replies.columns).result = .ok replies ∧
    replies.createText = "CREATE TABLE IF NOT EXISTS t(id integer,\na integer,\n" ++
      "FOREIGN KEY (a) REFERENCES x(id),\nb text)" ∧
    replies.createText ≠ "CREATE TABLE IF NOT EXISTS " ++ replies.name ++ "(" ++
      ",\n".intercalate ((replies.definitions ++ replies.foreignKeys).map Element.text) ++ ")" := by
  intro replies
  exact ⟨by simp [Table.define, replies], by decide, by decide⟩

end NamedSql

import NamedSql.Proofs.TextSegments
import NamedSql.Standard

/-!
Standard queries in segments. What a query writes for the columns is one list of
cells, each a column name with the segment of its value, and the text around the cells
depends on their names alone. The quoting has no part in it: success, failure and
every segment are settled before the quoting is known.
-/
namespace NamedSql

/-- The value of a name that is set and not to null. -/
def Record.nonNull? (record : Record) (name : String) : Option Value :=
  (record.get? name).filter (· != .null)

theorem Record.present?_eq_nonNull? (record : Record) : record.present? = record.nonNull? := by
  funext name
  simp [present?, nonNull?]

namespace Segment

def listed (separator : String) (groups : List (List Segment)) : List Segment :=
  List.intercalate [.code separator.toList] groups

@[simp] theorem write_code (quoting : Quoting) (letters : List Char) :
    write quoting (.code letters) = letters := rfl

theorem flatMap_write_listed (quoting : Quoting) (separator : String)
    (groups : List (List Segment)) :
    (listed separator groups).flatMap (write quoting) =
      separator.toList.intercalate (groups.map (List.flatMap (write quoting))) := by
  rw [listed, flatMap_intercalate]
  simp [write]

theorem map_hollow_listed (separator : String) (groups : List (List Segment)) :
    (listed separator groups).map hollow = listed separator (groups.map (List.map hollow)) := by
  rw [listed, map_intercalate]
  rfl

theorem inside_listed (separator : String) (groups : List (List Segment)) :
    (listed separator groups).flatMap inside = groups.flatMap (List.flatMap inside) := by
  rw [listed, flatMap_intercalate]
  have joined (lists : List (List (List Char))) : List.intercalate [] lists = lists.flatten := by
    induction lists with
    | nil => rfl
    | cons first rest ih =>
        cases rest with
        | nil => simp [List.intercalate]
        | cons second more =>
            simp only [List.intercalate, List.intersperse_cons_cons, List.flatten_cons] at ih ⊢
            simp [ih]
  change List.intercalate [] (groups.map (List.flatMap inside)) = _
  rw [joined, List.flatMap_def]

theorem toList_text (quoting : Quoting) (segments : List Segment) :
    (text quoting segments).toList = segments.flatMap (write quoting) := String.toList_ofList

end Segment

namespace Table

open Segment (listed toList_text)

/-- The first column of a name, for which a value of that name is written. -/
def receiver (table : Table) (name : String) : Option Column :=
  table.columns.find? fun column => column.name == name

theorem column?_eq_receiver (table : Table) (name : String) :
    table.column? name = table.receiver name := rfl

theorem idColumn?_eq_receiver (table : Table) : table.idColumn? = table.receiver "id" := rfl

/-- Columns other than the id, with the segments of their values. -/
def cells (table : Table) (value? : String → Option Value) : List (String × Segment) :=
  (table.columns.filter fun column => column.name != "id").filterMap fun column =>
    (value? column.name).map fun value => (column.name, value.segment (some column))

def fetchSegments (table : Table) (id : Value) : List Segment :=
  [.code ("SELECT * FROM " ++ table.name ++ "\nWHERE id = ").toList,
    id.segment (table.receiver "id"), .code "\nLIMIT 1;".toList]

def saveSegments (table : Table) : List (String × Segment) → List Segment
  | [] => [.code ("INSERT INTO " ++ table.name ++ " DEFAULT VALUES").toList]
  | cells =>
      .code ("INSERT INTO " ++ table.name ++ "(").toList ::
        (listed "," (cells.map fun cell => [.code cell.1.toList]) ++
          .code ")\nVALUES (".toList ::
            (listed "," (cells.map fun cell => [cell.2]) ++ [.code ")".toList]))

def countSegments (table : Table) : List (String × Segment) → List Segment
  | [] => [.code ("SELECT count(*) FROM " ++ table.name ++ ";").toList]
  | cells =>
      .code ("SELECT count(*) FROM " ++ table.name ++ " WHERE ").toList ::
        (listed " AND " (cells.map fun cell => [.code (cell.1 ++ " = ").toList, cell.2]) ++
          [.code ";".toList])

def updateSegments (table : Table) (id : Segment) (cells : List (String × Segment)) :
    List Segment :=
  .code ("UPDATE " ++ table.name ++ " SET ").toList ::
    (listed ", " (cells.map fun cell => [.code (cell.1 ++ "=").toList, cell.2]) ++
      [.code "\nWHERE id=".toList, id])

def deleteSegments (table : Table) (id : Value) : List Segment :=
  [.code ("DELETE FROM " ++ table.name ++ "\nWHERE id=").toList, id.segment (table.receiver "id")]

def listSegments (table : Table) : List Segment :=
  [.code ("SELECT * FROM " ++ table.name ++ ";").toList]

def segments (table : Table) : Standard → Arguments → Except Fault (List Segment)
  | .fetch, .id id => .ok (table.fetchSegments id)
  | .list, .nothing => .ok table.listSegments
  | .save, .record record => .ok (table.saveSegments (table.cells record.nonNull?))
  | .count, .record record => .ok (table.countSegments (table.cells record.nonNull?))
  | .update, .record record =>
      match record.nonNull? "id", table.cells record.get? with
      | none, _ => .error (.updateWithoutId table.name)
      | some _, [] => .error (.nothingToUpdate table.name)
      | some id, cells => .ok (table.updateSegments (id.segment (table.receiver "id")) cells)
  | .delete, .id id => .ok (table.deleteSegments id)
  | which, arguments => .error (.wrongShape which.name arguments.shape)

variable {table : Table} {quoting : Quoting}

theorem toList_idLiteral (id : Value) :
    (table.idLiteral quoting id).toList = (id.segment (table.receiver "id")).write quoting := by
  rw [idLiteral, idColumn?_eq_receiver]
  cases table.receiver "id" with
  | none => rfl
  | some column => exact column.toList_literal id quoting

theorem literals_cells (value? : String → Option Value) :
    table.literals quoting value? =
      (table.cells value?).map fun cell => (cell.1, String.ofList (cell.2.write quoting)) := by
  simp only [literals, cells, List.map_filterMap, Option.map_map]
  congr 1
  funext column
  congr 1
  funext value
  simp [← Column.toList_literal]

-- Interpolated text is text: what stands between is put in as it is.
theorem toString_text (text : String) : toString text = text := rfl

theorem saveText_segments (record : Record) :
    table.saveText record quoting =
      Segment.text quoting (table.saveSegments (table.cells record.nonNull?)) := by
  apply String.toList_inj.mp
  unfold saveText filled
  rw [record.present?_eq_nonNull?, literals_cells, toList_text]
  cases table.cells record.nonNull? with
  | nil =>
      simp only [List.map_nil, saveSegments, List.flatMap_cons, List.flatMap_nil, List.append_nil,
        Segment.write_code, toString_text]
  | cons cell rest =>
      simp only [List.map_cons, List.map_map, saveSegments, List.flatMap_cons, List.flatMap_nil,
        List.flatMap_append, List.append_nil, Segment.write_code, Segment.flatMap_write_listed,
        toString_text, String.toList_append, String.toList_intercalate, String.toList_ofList,
        List.append_assoc, Function.comp_def]

theorem countText_segments (record : Record) :
    table.countText record quoting =
      Segment.text quoting (table.countSegments (table.cells record.nonNull?)) := by
  apply String.toList_inj.mp
  unfold countText filled
  rw [record.present?_eq_nonNull?, literals_cells, toList_text]
  cases table.cells record.nonNull? with
  | nil =>
      simp only [List.map_nil, countSegments, List.flatMap_cons, List.flatMap_nil, List.append_nil,
        Segment.write_code, toString_text]
  | cons cell rest =>
      simp only [List.map_cons, List.map_map, countSegments, List.flatMap_cons, List.flatMap_nil,
        List.flatMap_append, List.append_nil, Segment.write_code, Segment.flatMap_write_listed,
        toString_text, String.toList_append, String.toList_intercalate, String.toList_ofList,
        List.append_assoc, Function.comp_def]

theorem updateText_segments (record : Record) :
    table.updateText record quoting =
      (table.segments .update (.record record)).map (Segment.text quoting) := by
  unfold updateText assigned
  rw [literals_cells, segments, record.present?_eq_nonNull?, Column.idName]
  cases record.nonNull? "id" with
  | none => simp only [Except.map]
  | some id =>
      cases table.cells record.get? with
      | nil => simp only [List.map_nil, Except.map]
      | cons cell rest =>
          refine congrArg Except.ok (String.toList_inj.mp ?_)
          simp only [List.map_cons, List.map_map, updateSegments, toList_text, List.flatMap_cons,
            List.flatMap_nil, List.flatMap_append, List.append_nil, Segment.write_code,
            Segment.flatMap_write_listed, toString_text, toList_idLiteral, String.toList_append,
            String.toList_intercalate, String.toList_ofList, List.append_assoc, Function.comp_def]

theorem listText_segments :
    table.listText = Segment.text quoting table.listSegments := by
  apply String.toList_inj.mp
  unfold listText listSegments
  rw [toList_text]
  simp only [List.flatMap_cons, List.flatMap_nil, List.append_nil, Segment.write_code,
    toString_text]

theorem fetchText_segments (id : Value) :
    table.fetchText quoting id = Segment.text quoting (table.fetchSegments id) := by
  apply String.toList_inj.mp
  unfold fetchText fetchSegments
  rw [toList_text]
  simp only [List.flatMap_cons, List.flatMap_nil, List.append_nil, Segment.write_code,
    toString_text, toList_idLiteral, String.toList_append, List.append_assoc]

theorem deleteText_segments (id : Value) :
    table.deleteText quoting id = Segment.text quoting (table.deleteSegments id) := by
  apply String.toList_inj.mp
  unfold deleteText deleteSegments
  rw [toList_text]
  simp only [List.flatMap_cons, List.flatMap_nil, List.append_nil, Segment.write_code,
    toString_text, toList_idLiteral, String.toList_append, List.append_assoc]

-- One equation for all six queries and all shapes of arguments. The segments on the
-- right are the same for both quotings, and so are the faults.
theorem standard_segments (which : Standard) (arguments : Arguments) :
    table.standard quoting which arguments =
      (table.segments which arguments).map (Segment.text quoting) := by
  cases which with
  | fetch =>
      cases arguments with
      | id id => exact congrArg Except.ok (fetchText_segments id)
      | _ => rfl
  | list =>
      cases arguments with
      | nothing => exact congrArg Except.ok (listText_segments)
      | _ => rfl
  | save =>
      cases arguments with
      | record record => exact congrArg Except.ok (saveText_segments record)
      | _ => rfl
  | count =>
      cases arguments with
      | record record => exact congrArg Except.ok (countText_segments record)
      | _ => rfl
  | update =>
      cases arguments with
      | record record => exact updateText_segments record
      | _ => rfl
  | delete =>
      cases arguments with
      | id id => exact congrArg Except.ok (deleteText_segments id)
      | _ => rfl

end Table

end NamedSql

import Mathlib.Data.List.Basic
import NamedSql.Proofs.StandardSegments

/-!
Confinement of text values under escaped quoting. Whatever strings a text column is
given, the finished text has one literal for each of them, with that string as its
content, and the code around the literals is what it would be for any other strings.
Names must have no quotes, because they are code, and so must the values of columns
that are no text. Both are needed: they are written as they are.
-/
namespace NamedSql

/-! What a value leaves in the text that receives it: its own segment, a literal of its
rendering or code that is its rendering. -/
section Values

open Quoting (mark)

theorem inside_segment (value : Value) (receiver : Option Column) :
    Segment.inside (value.segment receiver) =
      if takesText receiver && value != .null then [value.render.toList] else [] := by
  unfold Value.segment
  split <;> rfl

theorem segment_apart (value : Value) (receiver : Option Column)
    (bare : Value.Bare receiver value) : Segment.Apart [value.segment receiver] := by
  unfold Value.segment
  split
  · exact ⟨by simp [Segment.Unmarked], trivial⟩
  · next code =>
      refine ⟨?_, trivial⟩
      cases text : takesText receiver with
      | false => exact bare text
      | true =>
          cases value <;> simp_all [Value.isNull]
          decide

/-- Values that only a text literal can tell apart: both null or neither, and equal
unless they are received as text. -/
def Value.Alike (receiver : Option Column) (left right : Value) : Prop :=
  (left = .null ↔ right = .null) ∧ (takesText receiver = false → left = right)

theorem Value.Alike.bne_null {receiver : Option Column} {left right : Value}
    (alike : Value.Alike receiver left right) : (left != .null) = (right != .null) := by
  have nulls := alike.1
  cases left <;> cases right <;> simp_all [Value.isNull]

theorem hollow_segment (receiver : Option Column) (left right : Value)
    (alike : Value.Alike receiver left right) :
    (left.segment receiver).hollow = (right.segment receiver).hollow := by
  cases text : takesText receiver with
  | false => rw [alike.2 text]
  | true =>
      by_cases null : left = .null
      · rw [null, alike.1.mp null]
      · have written (value : Value) (given : value ≠ .null) :
            (value.segment receiver).hollow = .literal "" := by
          cases value <;> simp_all [Value.segment, Value.isNull, Segment.hollow]
        rw [written left null, written right fun other => null (alike.1.mpr other)]

end Values

/-! Standard queries. -/
namespace Table

open Quoting (mark)
open Segment (Apart apart_before_code listed hollow inside)

variable {table : Table}

def Quoteless (table : Table) : Prop :=
  mark ∉ table.name.toList ∧ ∀ column ∈ table.columns, mark ∉ column.name.toList

instance : Decidable table.Quoteless :=
  inferInstanceAs (Decidable (mark ∉ table.name.toList ∧
    ∀ column ∈ table.columns, mark ∉ column.name.toList))

/-- The values for columns other than the id, with the columns that receive them. -/
def received (table : Table) (value? : String → Option Value) : List (Option Column × Value) :=
  (table.columns.filter fun column => column.name != "id").filterMap fun column =>
    (value? column.name).map fun value => (some column, value)

/-- The values that a standard query writes, in the order of its text. -/
def writes (table : Table) : Standard → Arguments → List (Option Column × Value)
  | .fetch, .id id => [(table.receiver "id", id)]
  | .save, .record record => table.received record.nonNull?
  | .count, .record record => table.received record.nonNull?
  | .update, .record record =>
      table.received record.get? ++
        (record.nonNull? "id").toList.map fun id => (table.receiver "id", id)
  | .delete, .id id => [(table.receiver "id", id)]
  | _, _ => []

def Bare (table : Table) (which : Standard) (arguments : Arguments) : Prop :=
  ∀ cell ∈ table.writes which arguments, Value.Bare cell.1 cell.2

instance (which : Standard) (arguments : Arguments) : Decidable (table.Bare which arguments) :=
  inferInstanceAs (Decidable (∀ cell ∈ table.writes which arguments, Value.Bare cell.1 cell.2))

theorem inside_cells (value? : String → Option Value) :
    (table.cells value?).flatMap (fun cell => inside cell.2) =
      (table.received value?).flatMap fun cell => inside (cell.2.segment cell.1) := by
  unfold cells received
  induction table.columns.filter fun column => column.name != "id" with
  | nil => rfl
  | cons column rest ih => cases given : value? column.name <;> simp [given, ih]

def Clean (cells : List (String × Segment)) : Prop :=
  ∀ cell ∈ cells, mark ∉ cell.1.toList ∧ Apart [cell.2]

theorem cells_clean (quoteless : table.Quoteless) (value? : String → Option Value)
    (bare : ∀ cell ∈ table.received value?, Value.Bare cell.1 cell.2) :
    Clean (table.cells value?) := by
  intro cell member
  obtain ⟨column, listed, given⟩ := List.mem_filterMap.mp member
  obtain ⟨value, found, rfl⟩ := Option.map_eq_some_iff.mp given
  have declared := (List.mem_filter.mp listed).1
  have received : (some column, value) ∈ table.received value? :=
    List.mem_filterMap.mpr ⟨column, listed, by simp [found]⟩
  exact ⟨quoteless.2 column declared, segment_apart value (some column) (bare _ received)⟩

theorem clean_around (table : Table) (named : mark ∉ table.name.toList) (before after : String)
    (opened : mark ∉ before.toList) (closed : mark ∉ after.toList) :
    mark ∉ (before ++ table.name ++ after).toList := by
  simp [opened, named, closed]

theorem saveSegments_apart (named : mark ∉ table.name.toList) (cells : List (String × Segment))
    (clean : Clean cells) : Apart (table.saveSegments cells) := by
  cases cells with
  | nil =>
      exact ⟨table.clean_around named _ _ (by decide) (by decide), trivial⟩
  | cons cell rest =>
      have names : Apart (listed "," ((cell :: rest).map fun cell => [.code cell.1.toList])) := by
        refine Segment.apart_intercalate _ _ (by decide) (by decide) fun group member => ?_
        obtain ⟨entry, inside, rfl⟩ := List.mem_map.mp member
        exact ⟨(clean entry inside).1, trivial⟩
      have values : Apart (listed "," ((cell :: rest).map fun cell => [cell.2])) := by
        refine Segment.apart_intercalate _ _ (by decide) (by decide) fun group member => ?_
        obtain ⟨entry, inside, rfl⟩ := List.mem_map.mp member
        exact (clean entry inside).2
      have closed := apart_before_code _ ")".toList (by decide) (by decide) [] values trivial
      have valued := apart_before_code _ ")\nVALUES (".toList (by decide) (by decide) _ names closed
      exact ⟨table.clean_around named _ _ (by decide) (by decide), valued⟩

theorem pairs_apart (separator between : String) (cells : List (String × Segment))
    (apartSeparator : mark ∉ separator.toList) (wide : separator.toList ≠ [])
    (apartBetween : mark ∉ between.toList) (clean : Clean cells) :
    Apart (listed separator
      (cells.map fun cell => [.code (cell.1 ++ between).toList, cell.2])) := by
  refine Segment.apart_intercalate _ _ apartSeparator wide fun group member => ?_
  obtain ⟨entry, inside, rfl⟩ := List.mem_map.mp member
  obtain ⟨name, value⟩ := clean entry inside
  refine ⟨?_, value⟩
  simp [name, apartBetween]

theorem countSegments_apart (named : mark ∉ table.name.toList) (cells : List (String × Segment))
    (clean : Clean cells) : Apart (table.countSegments cells) := by
  cases cells with
  | nil =>
      exact ⟨table.clean_around named _ _ (by decide) (by decide), trivial⟩
  | cons cell rest =>
      have conditions := pairs_apart " AND " " = " (cell :: rest) (by decide) (by decide)
        (by decide) clean
      have closed := apart_before_code _ ";".toList (by decide) (by decide) [] conditions trivial
      exact ⟨table.clean_around named _ _ (by decide) (by decide), closed⟩

theorem updateSegments_apart (named : mark ∉ table.name.toList) (id : Segment)
    (idApart : Apart [id]) (cells : List (String × Segment)) (clean : Clean cells) :
    Apart (table.updateSegments id cells) := by
  have assignments := pairs_apart ", " "=" cells (by decide) (by decide) (by decide) clean
  have chosen := apart_before_code _ "\nWHERE id=".toList (by decide) (by decide) [id]
    assignments idApart
  exact ⟨table.clean_around named _ _ (by decide) (by decide), chosen⟩

/-- Arguments that tell text columns different strings and everything else the same. A
record also holds the id of a table without id column, which is written as it is. -/
def Alike (table : Table) : Arguments → Arguments → Prop
  | .id left, .id right => Value.Alike (table.receiver "id") left right
  | .record left, .record right =>
      (∀ column ∈ table.columns, Option.Rel (Value.Alike (some column))
        (left.get? column.name) (right.get? column.name)) ∧
      (table.receiver "id" = none → left.get? "id" = right.get? "id")
  | _, _ => False

theorem segments_ok (which : Standard) (arguments : Arguments) (segments : List Segment)
    (success : table.segments which arguments = .ok segments) :
    (∃ id, which = .fetch ∧ arguments = .id id ∧ segments = table.fetchSegments id) ∨
    (which = .list ∧ arguments = .nothing ∧ segments = table.listSegments) ∨
    (∃ record, which = .save ∧ arguments = .record record ∧
      segments = table.saveSegments (table.cells record.nonNull?)) ∨
    (∃ record, which = .count ∧ arguments = .record record ∧
      segments = table.countSegments (table.cells record.nonNull?)) ∨
    (∃ record id, which = .update ∧ arguments = .record record ∧
      record.nonNull? "id" = some id ∧ segments =
        table.updateSegments (id.segment (table.receiver "id")) (table.cells record.get?)) ∨
    (∃ id, which = .delete ∧ arguments = .id id ∧ segments = table.deleteSegments id) := by
  cases which <;> cases arguments <;> simp only [Table.segments, Except.ok.injEq, reduceCtorEq]
    at success
  case fetch.id id => exact .inl ⟨id, rfl, rfl, success.symm⟩
  case list.nothing => exact .inr (.inl ⟨rfl, rfl, success.symm⟩)
  case save.record record => exact .inr (.inr (.inl ⟨record, rfl, rfl, success.symm⟩))
  case count.record record => exact .inr (.inr (.inr (.inl ⟨record, rfl, rfl, success.symm⟩)))
  case update.record record =>
    split at success
    · cases success
    · cases success
    · next id held set =>
        exact .inr (.inr (.inr (.inr (.inl
          ⟨record, id, rfl, rfl, held, (Except.ok.inj success).symm⟩))))
  case delete.id id => exact .inr (.inr (.inr (.inr (.inr ⟨id, rfl, rfl, success.symm⟩))))

theorem segments_apart (quoteless : table.Quoteless) (which : Standard) (arguments : Arguments)
    (segments : List Segment) (success : table.segments which arguments = .ok segments)
    (bare : table.Bare which arguments) : Apart segments := by
  have named := quoteless.1
  rcases segments_ok which arguments segments success with
    ⟨id, rfl, rfl, rfl⟩ | ⟨rfl, rfl, rfl⟩ | ⟨record, rfl, rfl, rfl⟩ | ⟨record, rfl, rfl, rfl⟩ |
      ⟨record, id, rfl, rfl, held, rfl⟩ | ⟨id, rfl, rfl, rfl⟩
  · have idApart := segment_apart id (table.receiver "id") (bare _ (List.mem_singleton_self _))
    have limited := apart_before_code _ "\nLIMIT 1;".toList (by decide) (by decide) []
      idApart trivial
    exact ⟨table.clean_around named _ _ (by decide) (by decide), limited⟩
  · exact ⟨table.clean_around named _ _ (by decide) (by decide), trivial⟩
  · exact saveSegments_apart named _ (cells_clean quoteless _ bare)
  · exact countSegments_apart named _ (cells_clean quoteless _ bare)
  · have cellsBare : ∀ cell ∈ table.received record.get?, Value.Bare cell.1 cell.2 :=
      fun cell member => bare cell (List.mem_append_left _ member)
    have idBare : Value.Bare (table.receiver "id") id :=
      bare (table.receiver "id", id) (List.mem_append_right _ (by simp [held]))
    exact updateSegments_apart named _ (segment_apart id _ idBare) _
      (cells_clean quoteless _ cellsBare)
  · have idApart := segment_apart id (table.receiver "id") (bare _ (List.mem_singleton_self _))
    exact ⟨table.clean_around named _ _ (by decide) (by decide), idApart⟩

theorem inside_segments (which : Standard) (arguments : Arguments) (segments : List Segment)
    (success : table.segments which arguments = .ok segments) :
    segments.flatMap inside =
      (table.writes which arguments).flatMap fun cell => inside (cell.2.segment cell.1) := by
  have code (letters : List Char) : inside (.code letters) = [] := rfl
  rcases segments_ok which arguments segments success with
    ⟨id, rfl, rfl, rfl⟩ | ⟨rfl, rfl, rfl⟩ | ⟨record, rfl, rfl, rfl⟩ | ⟨record, rfl, rfl, rfl⟩ |
      ⟨record, id, rfl, rfl, held, rfl⟩ | ⟨id, rfl, rfl, rfl⟩
  · simp [fetchSegments, writes, code]
  · simp [listSegments, writes, code]
  · rw [writes, ← inside_cells]
    cases table.cells record.nonNull? with
    | nil => rfl
    | cons cell rest =>
        simp [saveSegments, code, Segment.inside_listed, List.flatMap_map]
  · rw [writes, ← inside_cells]
    cases table.cells record.nonNull? with
    | nil => rfl
    | cons cell rest =>
        simp [countSegments, code, Segment.inside_listed, List.flatMap_map]
  · rw [writes, List.flatMap_append, ← inside_cells, held]
    simp [updateSegments, code, Segment.inside_listed, List.flatMap_map]
  · simp [deleteSegments, writes, code]

/-! Two runs. Arguments that are alike give segments of one outline, which is all that
the code around the literals is made of. Statements depend on cells through names and
segments alone, so the outline of a statement is the statement of outlined cells. -/
section TwoRuns

def outlined (cells : List (String × Segment)) : List (String × Segment) :=
  cells.map fun cell => (cell.1, cell.2.hollow)

theorem nonNull?_alike (receiver : Option Column) (left right : Record) (name : String)
    (alike : Option.Rel (Value.Alike receiver) (left.get? name) (right.get? name)) :
    Option.Rel (Value.Alike receiver) (left.nonNull? name) (right.nonNull? name) := by
  unfold Record.nonNull?
  revert alike
  generalize left.get? name = first
  generalize right.get? name = second
  intro alike
  cases alike with
  | none => exact .none
  | @some first second same =>
      rw [Option.filter_some, Option.filter_some, same.bne_null]
      split
      · exact .some same
      · exact .none

theorem outlined_cells (left right : String → Option Value)
    (alike : ∀ column ∈ table.columns,
      Option.Rel (Value.Alike (some column)) (left column.name) (right column.name)) :
    outlined (table.cells left) = outlined (table.cells right) := by
  simp only [outlined, cells, List.map_filterMap, Option.map_map]
  refine List.filterMap_congr fun column member => ?_
  have same := alike column (List.mem_filter.mp member).1
  revert same
  generalize left column.name = first
  generalize right column.name = second
  intro same
  cases same with
  | none => rfl
  | some agreed =>
      have outline := hollow_segment (some column) _ _ agreed
      simp [outline]

theorem outlined_saveSegments (cells : List (String × Segment)) :
    (table.saveSegments cells).map hollow = table.saveSegments (outlined cells) := by
  cases cells with
  | nil => rfl
  | cons cell rest =>
      simp [saveSegments, outlined, Segment.map_hollow_listed, hollow, Function.comp_def]

theorem outlined_countSegments (cells : List (String × Segment)) :
    (table.countSegments cells).map hollow = table.countSegments (outlined cells) := by
  cases cells with
  | nil => rfl
  | cons cell rest =>
      simp [countSegments, outlined, Segment.map_hollow_listed, hollow, Function.comp_def]

theorem outlined_updateSegments (id : Segment) (cells : List (String × Segment)) :
    (table.updateSegments id cells).map hollow =
      table.updateSegments id.hollow (outlined cells) := by
  simp [updateSegments, outlined, Segment.map_hollow_listed, hollow, Function.comp_def]

theorem alike_id (left right : Record) (alike : table.Alike (.record left) (.record right)) :
    Option.Rel (Value.Alike (table.receiver "id")) (left.get? "id") (right.get? "id") := by
  obtain ⟨columns, plain⟩ := alike
  cases found : table.receiver "id" with
  | some column =>
      obtain ⟨member, named⟩ := column?_eq_some _ _ found
      simpa [named] using columns column member
  | none =>
      rw [plain found]
      cases right.get? "id" with
      | none => exact .none
      | some value => exact .some ⟨Iff.rfl, fun _ => rfl⟩

theorem outlined_update (left right : Record)
    (alike : table.Alike (.record left) (.record right)) :
    (table.segments .update (.record left)).map (List.map hollow) =
      (table.segments .update (.record right)).map (List.map hollow) := by
  have ids := nonNull?_alike _ left right _ (alike_id left right alike)
  have cells := outlined_cells left.get? right.get? alike.1
  have empty : table.cells left.get? = [] ↔ table.cells right.get? = [] := by
    rw [← List.map_eq_nil_iff, ← outlined, cells, outlined, List.map_eq_nil_iff]
  simp only [segments]
  revert ids
  generalize left.nonNull? "id" = first
  generalize right.nonNull? "id" = second
  intro ids
  cases ids with
  | none => rfl
  | some same =>
      have id := hollow_segment _ _ _ same
      split <;> split <;> simp_all [Except.map, outlined_updateSegments]

theorem outlined_segments (which : Standard) (left right : Arguments)
    (alike : table.Alike left right) :
    (table.segments which left).map (List.map hollow) =
      (table.segments which right).map (List.map hollow) := by
  cases left <;> cases right <;> try exact absurd alike id
  case id.id left right =>
    have id := hollow_segment _ left right alike
    cases which with
    | fetch => simp only [segments, fetchSegments, Except.map, List.map_cons, id]
    | delete => simp only [segments, deleteSegments, Except.map, List.map_cons, id]
    | _ => rfl
  case record.record left right =>
    have shown := outlined_cells left.nonNull? right.nonNull? fun column member =>
      nonNull?_alike _ left right _ (alike.1 column member)
    cases which with
    | save => simp only [segments, Except.map, outlined_saveSegments, shown]
    | count => simp only [segments, Except.map, outlined_countSegments, shown]
    | update => exact outlined_update left right alike
    | _ => rfl

end TwoRuns

theorem standard_succeeds (quoting : Quoting) (which : Standard) (arguments : Arguments)
    (fits : arguments.shape = which.shape) (other : which ≠ .update) :
    ∃ text, table.standard quoting which arguments = .ok text := by
  cases arguments with
  | nothing =>
      cases which with
      | list => exact ⟨_, rfl⟩
      | _ => cases fits
  | id id =>
      cases which with
      | fetch => exact ⟨_, rfl⟩
      | delete => exact ⟨_, rfl⟩
      | _ => cases fits
  | record record =>
      cases which with
      | save => exact ⟨_, rfl⟩
      | count => exact ⟨_, rfl⟩
      | update => exact absurd rfl other
      | _ => cases fits
  | _ => cases which <;> cases fits

theorem read_standard (quoteless : table.Quoteless) (which : Standard) (arguments : Arguments)
    (segments : List Segment) (success : table.segments which arguments = .ok segments)
    (bare : table.Bare which arguments) :
    Literals.read (Segment.text .escaped segments) = some (Segment.reading segments) :=
  Segment.read_text segments (segments_apart quoteless which arguments segments success bare)

theorem flatMap_inside (cells : List (Option Column × Value)) :
    (cells.flatMap fun cell => inside (cell.2.segment cell.1)) =
      (cells.filter fun cell => takesText cell.1 && cell.2 != .null).map fun cell =>
        cell.2.render.toList := by
  induction cells with
  | nil => rfl
  | cons cell rest ih =>
      rw [List.flatMap_cons, ih, inside_segment, List.filter_cons]
      cases takesText cell.1 && cell.2 != .null <;> rfl

-- A blob is no exception: in a text column its own quotes are doubled. The third part compares
-- two runs, and says that the code of a statement tells nothing about its text values.
theorem standard_confined (table : Table) (quoteless : table.Quoteless) (which : Standard) :
    (∀ arguments, arguments.shape = which.shape → which ≠ .update →
      ∃ text, table.standard .escaped which arguments = .ok text) ∧
    (∀ arguments text, table.standard .escaped which arguments = .ok text →
      table.Bare which arguments →
      ∃ literals, Literals.read text = some literals ∧
        literals.contents = ((table.writes which arguments).filter fun cell =>
          takesText cell.1 && cell.2 != .null).map fun cell => cell.2.render.toList) ∧
    ∀ left right, table.Alike left right → table.Bare which left → table.Bare which right →
      (table.standard .escaped which left).map (fun text => (Literals.read text).map (·.skeleton)) =
        (table.standard .escaped which right).map fun text =>
          (Literals.read text).map (·.skeleton) := by
  refine ⟨standard_succeeds .escaped which, ?_, ?_⟩
  · intro arguments text success bare
    rw [standard_segments] at success
    cases made : table.segments which arguments with
    | error fault => simp [made, Except.map] at success
    | ok segments =>
        obtain rfl : Segment.text .escaped segments = text := by
          simpa [made, Except.map] using success
        refine ⟨_, read_standard quoteless which arguments segments made bare, ?_⟩
        rw [← flatMap_inside, ← inside_segments which arguments segments made]
        rfl
  · intro left right alike leftBare rightBare
    have outline := outlined_segments which left right alike
    rw [standard_segments, standard_segments]
    cases leftMade : table.segments which left with
    | error fault =>
        cases rightMade : table.segments which right with
        | error other => simpa [leftMade, rightMade, Except.map] using outline
        | ok segments => simp [leftMade, rightMade, Except.map] at outline
    | ok first =>
        cases rightMade : table.segments which right with
        | error fault => simp [leftMade, rightMade, Except.map] at outline
        | ok second =>
            have same : first.map hollow = second.map hollow := by
              simpa [leftMade, rightMade, Except.map] using outline
            have skeletons := Segment.skeleton_eq_of_hollow first second same
            simp only [Except.map, read_standard quoteless which left first leftMade leftBare,
              read_standard quoteless which right second rightMade rightBare, Option.map_some,
              skeletons]

theorem standard_confined_people :
    let people : Table := ⟨"people", [{ name := "id", type := "text" },
      { name := "name", type := "text" }, { name := "age", type := "integer" },
      { name := "mail", type := "text" }, { name := "note", type := "text" }]⟩
    let hostile := Record.ofPairs [("id", .text "7' OR '1'='1'"), ("name", .text "'; DROP--'"),
      ("age", .integer 40), ("mail", .null), ("note", .blob [0x27])]
    let plain := Record.ofPairs [("id", .text "7"), ("name", .text "Ada"),
      ("age", .integer 40), ("mail", .null), ("note", .text "")]
    let written := "UPDATE people SET name='''; DROP--''', age=40, mail=NULL, note='X''27'''\n" ++
      "WHERE id='7'' OR ''1''=''1'''"
    people.Quoteless ∧ people.Alike (.record hostile) (.record plain) ∧
    people.Bare .update (.record hostile) ∧ people.Bare .update (.record plain) ∧
    people.standard .escaped .update (.record hostile) = .ok written ∧
    (∃ literals, Literals.read written = some literals ∧ literals.contents =
      ["'; DROP--'".toList, "X'27'".toList, "7' OR '1'='1'".toList]) ∧
    (people.standard .escaped .update (.record hostile)).map
        (fun text => (Literals.read text).map (·.skeleton)) =
      (people.standard .escaped .update (.record plain)).map fun text =>
        (Literals.read text).map (·.skeleton) := by
  intro people hostile plain written
  have quoteless : people.Quoteless := by decide
  have alike : people.Alike (.record hostile) (.record plain) := by
    refine ⟨fun column member => ?_, fun none => nomatch none⟩
    simp only [people, List.mem_cons, List.not_mem_nil, or_false] at member
    rcases member with rfl | rfl | rfl | rfl | rfl <;>
      simp [hostile, plain, Record.ofPairs, Record.get?_set, Value.Alike, takesText]
  have bare : people.Bare .update (.record hostile) := by decide
  have plainBare : people.Bare .update (.record plain) := by decide
  have made : people.standard .escaped .update (.record hostile) = .ok written :=
    congrArg Except.ok (by decide)
  obtain ⟨-, confined, alikeRuns⟩ := standard_confined people quoteless .update
  obtain ⟨literals, read, contents⟩ := confined (.record hostile) written made bare
  exact ⟨quoteless, alike, bare, plainBare, made, ⟨literals, read, contents⟩,
    alikeRuns _ _ alike bare plainBare⟩

end Table

end NamedSql

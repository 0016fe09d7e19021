import NamedSql.Proofs.RecordHistory
import NamedSql.Proofs.StandardEntries

/-!
Values bound in the order of the columns. Each value is set under the name of its column, nulls
too, and where a name comes again its value is replaced. So the record holds for each name the
value at its last place among the columns that are given one. With distinct names nothing is
replaced, and an update assigns the very values that were bound.
-/
namespace NamedSql

/-- The last place of a name among the first `count` of some names. -/
structure LastPlace (names : List String) (count : Nat) (name : String) (place : Nat) : Prop where
  here : names[place]? = some name
  given : place < count
  last : ∀ later, place < later → later < count → names[later]? ≠ some name

section Places

variable {names : List String} {values : List Value} {name : String}

variable (names) in
theorem exists_lastPlace (count place : Nat) (here : names[place]? = some name)
    (given : place < count) : ∃ last, LastPlace names count name last := by
  induction count with
  | zero => exact absurd given (Nat.not_lt_zero place)
  | succ count ih =>
      by_cases own : names[count]? = some name
      · exact ⟨count, own, Nat.lt_succ_self count, fun later _ _ => by omega⟩
      · have before : place ≠ count := by
          rintro rfl
          exact own here
        obtain ⟨last, found⟩ := ih (by omega)
        refine ⟨last, found.here, Nat.lt_succ_of_lt found.given, ?_⟩
        intro later beyond within
        by_cases ended : later = count
        · rwa [ended]
        · exact found.last later beyond (by omega)

theorem lastPlace_of_distinct (distinct : names.Nodup) (count place : Nat)
    (here : names[place]? = some name) (given : place < count) :
    LastPlace names count name place where
  here := here
  given := given
  last := by
    intro later beyond _ again
    have listed : place < names.length := (List.getElem?_eq_some_iff.mp here).1
    have same := (List.getElem?_inj listed distinct).mp (here.trans again.symm)
    omega

theorem get?_of_lastPlace (place : Nat) (last : LastPlace names values.length name place) :
    (Record.ofPairs (names.zip values)).get? name = values[place]? := by
  have given := last.given
  have bound : values[place]? = some values[place] := List.getElem?_eq_getElem given
  have entry : (names.zip values)[place]? = some (name, values[place]) :=
    List.getElem?_zip_eq_some.mpr ⟨last.here, bound⟩
  obtain ⟨inside, here⟩ := List.getElem?_eq_some_iff.mp entry
  have whole := List.take_append_drop place (names.zip values)
  rw [List.drop_eq_getElem_cons inside, here] at whole
  rw [← whole, bound]
  apply Record.get?_ofPairs_last
  intro pair member named
  obtain ⟨step, found⟩ := List.mem_iff_getElem?.mp member
  rw [List.getElem?_drop] at found
  obtain ⟨again, later⟩ := List.getElem?_zip_eq_some.mp found
  have within : place + 1 + step < values.length := (List.getElem?_eq_some_iff.mp later).1
  exact last.last _ (by omega) within (named ▸ again)

theorem get?_of_unreached (unreached : name ∉ names.take values.length) :
    (Record.ofPairs (names.zip values)).get? name = none := by
  apply Record.get?_ofPairs_none
  intro pair member own
  obtain ⟨place, found⟩ := List.mem_iff_getElem?.mp member
  obtain ⟨here, bound⟩ := List.getElem?_zip_eq_some.mp found
  have given : place < values.length := (List.getElem?_eq_some_iff.mp bound).1
  apply unreached
  rw [← own, List.mem_iff_getElem?]
  exact ⟨place, by rw [List.getElem?_take, if_pos given, here]⟩

theorem lastPlace_of_reached (reached : name ∈ names.take values.length) :
    ∃ place, LastPlace names values.length name place := by
  obtain ⟨place, found⟩ := List.mem_iff_getElem?.mp reached
  rw [List.getElem?_take] at found
  split at found
  next given => exact exists_lastPlace names values.length place found given
  next => cases found

end Places

namespace Table

variable {table : Table} {values : List Value} {name : String}

def recordOf (table : Table) (values : List Value) : Record :=
  Record.ofPairs ((table.columns.map (·.name)).zip values)

/-- The columns that are given a value, each with it, but for the id. -/
def bound (table : Table) (values : List Value) : List (Column × Value) :=
  (table.columns.zip values).filter fun entry => entry.1.name != "id"

theorem bind_eq_error_iff (fault : Fault) :
    table.bind values = .error fault ↔ table.columns.length < values.length ∧
      fault = .tooManyValues table.name table.columns.length := by
  unfold bind
  split
  next many => simp [many, eq_comm]
  next few => simp [few]

theorem bind_fitting (fits : values.length ≤ table.columns.length) :
    table.bind values = .ok (table.recordOf values) :=
  if_neg (Nat.not_lt.mpr fits)

theorem recordOf_reached (reached : name ∈ (table.columns.take values.length).map (·.name)) :
    ∃ place, LastPlace (table.columns.map (·.name)) values.length name place ∧
      (table.recordOf values).get? name = values[place]? := by
  rw [List.map_take] at reached
  obtain ⟨place, last⟩ := lastPlace_of_reached reached
  exact ⟨place, last, get?_of_lastPlace place last⟩

theorem isSet_recordOf : (table.recordOf values).isSet name = true ↔
    name ∈ (table.columns.take values.length).map (·.name) := by
  constructor
  · intro set
    by_contra unreached
    rw [List.map_take] at unreached
    rw [Record.isSet, recordOf, get?_of_unreached unreached] at set
    cases set
  · intro reached
    obtain ⟨place, last, held⟩ := recordOf_reached reached
    rw [Record.isSet, held, List.getElem?_eq_getElem last.given]
    rfl

/-! Columns of distinct names. What is bound is what is set, in the order of the columns. -/
section Distinct

variable (distinct : (table.columns.map (·.name)).Nodup)

include distinct

theorem get?_recordOf (place : Nat) (column : Column) (value : Value)
    (here : table.columns[place]? = some column) (given : values[place]? = some value) :
    (table.recordOf values).get? column.name = some value := by
  have within : place < values.length := (List.getElem?_eq_some_iff.mp given).1
  have named : (table.columns.map (·.name))[place]? = some column.name := by
    rw [List.getElem?_map, here, Option.map_some]
  have last := lastPlace_of_distinct distinct values.length place named within
  rw [recordOf, get?_of_lastPlace place last, given]

theorem set_columns : table.columns.filter (fun column =>
    (table.recordOf values).isSet column.name) = table.columns.take values.length := by
  have whole := List.take_append_drop values.length table.columns
  have apart := distinct
  rw [← whole, List.map_append, List.nodup_append] at apart
  have front : (table.columns.take values.length).filter (fun column =>
      (table.recordOf values).isSet column.name) = table.columns.take values.length :=
    List.filter_eq_self.mpr fun column member => isSet_recordOf.mpr (List.mem_map_of_mem member)
  have back : (table.columns.drop values.length).filter (fun column =>
      (table.recordOf values).isSet column.name) = [] :=
    List.filter_eq_nil_iff.mpr fun column member set =>
      apart.2.2 _ (isSet_recordOf.mp set) _ (List.mem_map_of_mem member) rfl
  have split := congrArg (List.filter fun column =>
    (table.recordOf values).isSet column.name) whole
  rw [List.filter_append, front, back, List.append_nil] at split
  exact split.symm

theorem lists_bound (fits : values.length ≤ table.columns.length) :
    table.Lists (table.recordOf values) (fun _ => true) (table.bound values) where
  columns := by
    have columns : (table.columns.zip values).map (·.1) = table.columns.take values.length := by
      rw [List.zip_eq_zip_take_min, Nat.min_eq_right fits, List.take_length]
      apply List.map_fst_zip
      rw [List.length_take]
      exact Nat.min_le_left _ _
    have set (column : Column) : ((table.recordOf values).get? column.name).any (fun _ => true) =
        (table.recordOf values).isSet column.name := by
      rw [Record.isSet]
      cases (table.recordOf values).get? column.name <;> rfl
    simp only [set]
    rw [← List.filter_filter, set_columns distinct, ← columns, List.filter_map]
    rfl
  values := by
    intro entry member
    obtain ⟨place, found⟩ := List.mem_iff_getElem?.mp (List.mem_filter.mp member).1
    obtain ⟨here, given⟩ := List.getElem?_zip_eq_some.mp found
    exact get?_recordOf distinct place entry.1 entry.2 here given

theorem entries_bound (fits : values.length ≤ table.columns.length) :
    table.entries (table.recordOf values) (fun _ => true) = table.bound values :=
  (table.lists_entries _ _).unique (lists_bound distinct fits)

end Distinct

theorem Lists.ne_nil {record : Record} {entries : List (Column × Value)}
    (lists : table.Lists record (fun _ => true) entries) (column : Column)
    (member : column ∈ table.columns) (other : column.name ≠ "id")
    (set : record.isSet column.name = true) : entries ≠ [] := by
  rintro rfl
  have none := List.filter_eq_nil_iff.mp lists.columns.symm column member
  obtain ⟨value, held⟩ := Option.isSome_iff_exists.mp set
  apply none
  simp [other, held]

theorem updateText_recordOf (quoting : Quoting) (id : Value)
    (held : (table.recordOf values).get? "id" = some id) (present : id.isNull = false)
    (column : Column) (member : column ∈ table.columns.take values.length)
    (other : column.name ≠ "id") :
    table.updateText (table.recordOf values) quoting =
      .ok ("UPDATE " ++ table.name ++ " SET " ++
        ", ".intercalate ((table.entries (table.recordOf values) fun _ => true).map fun entry =>
          entry.1.name ++ "=" ++ entry.1.literal entry.2 quoting) ++
        "\nWHERE id=" ++ table.idLiteral quoting id) := by
  have lists := table.lists_entries (table.recordOf values) fun _ => true
  have set := isSet_recordOf.mpr (List.mem_map_of_mem member)
  rw [updateText_eq_ok_iff]
  exact ⟨lists.ne_nil column (List.mem_of_mem_take member) other set, id, held, present, rfl⟩

end Table

-- Of columns that share a name the last that is reached decides, although everywhere else the
-- first of them counts.
theorem bind_in_column_order (table : Table) (values : List Value) :
    ((∃ fault, table.bind values = .error fault ∧ fault.category = .format) ↔
      table.columns.length < values.length) ∧
    (values.length ≤ table.columns.length → ∃ record, table.bind values = .ok record ∧
      (∀ name, record.isSet name = true ↔
        name ∈ (table.columns.take values.length).map (·.name)) ∧
      (∀ name ∈ (table.columns.take values.length).map (·.name), ∃ place,
        LastPlace (table.columns.map (·.name)) values.length name place ∧
          record.get? name = values[place]?) ∧
      ((table.columns.map (·.name)).Nodup → ∀ (place : Nat) (column : Column) (value : Value),
        table.columns[place]? = some column → values[place]? = some value →
          record.get? column.name = some value) ∧
      ∀ (quoting : Quoting) (id : Value), record.get? "id" = some id → id.isNull = false →
        (∃ column ∈ table.columns.take values.length, column.name ≠ "id") →
        ∃ entries, table.Lists record (fun _ => true) entries ∧
          ((table.columns.map (·.name)).Nodup →
            entries = (table.columns.zip values).filter fun entry => entry.1.name != "id") ∧
          table.updateText record quoting = .ok ("UPDATE " ++ table.name ++ " SET " ++
            ", ".intercalate (entries.map fun entry =>
              entry.1.name ++ "=" ++ entry.1.literal entry.2 quoting) ++
            "\nWHERE id=" ++ table.idLiteral quoting id)) := by
  constructor
  · simp only [Table.bind_eq_error_iff]
    constructor
    · rintro ⟨fault, ⟨many, -⟩, -⟩
      exact many
    · intro many
      exact ⟨_, ⟨many, rfl⟩, rfl⟩
  · intro fits
    refine ⟨table.recordOf values, Table.bind_fitting fits, fun name => Table.isSet_recordOf,
      fun name => Table.recordOf_reached, Table.get?_recordOf, ?_⟩
    rintro quoting id held present ⟨column, member, other⟩
    exact ⟨_, table.lists_entries _ _, fun distinct => Table.entries_bound distinct fits,
      Table.updateText_recordOf quoting id held present column member other⟩

theorem bind_people :
    let pages : Table := ⟨"pages", [{ name := "id", type := "integer" },
      { name := "tag", type := "text" }, { name := "tag", type := "integer" }]⟩
    let people : Table := ⟨"people", [{ name := "name", type := "text" },
      { name := "id", type := "integer" }, { name := "age", type := "integer" },
      { name := "note", type := "text" }]⟩
    (∃ page, pages.bind [.integer 1, .text "x", .null] = .ok page ∧ page.get? "tag" = some .null) ∧
    ∃ ann, people.bind [.text "O'Hara", .integer 7, .null] = .ok ann ∧
      people.updateText ann .escaped =
        .ok "UPDATE people SET name='O''Hara', age=NULL\nWHERE id=7" := by
  intro pages people
  constructor
  · obtain ⟨page, made, -, held, -⟩ :=
      (bind_in_column_order pages [.integer 1, .text "x", .null]).2 (by decide)
    obtain ⟨place, last, value⟩ := held "tag" (by decide)
    have third : place = 2 := by
      have given : place < 3 := last.given
      have first : place ≠ 0 := by
        rintro rfl
        exact absurd last.here (by decide)
      have second : place ≠ 1 := by
        rintro rfl
        exact last.last 2 (by decide) (by decide) (by decide)
      omega
    subst third
    exact ⟨page, made, value⟩
  · obtain ⟨ann, made, -, -, placed, updates⟩ :=
      (bind_in_column_order people [.text "O'Hara", .integer 7, .null]).2 (by decide)
    have seven : ann.get? "id" = some (.integer 7) :=
      placed (by decide) 1 { name := "id", type := "integer" } (.integer 7) rfl rfl
    obtain ⟨entries, -, bound, updated⟩ := updates .escaped (.integer 7) seven rfl
      ⟨{ name := "age", type := "integer" }, by decide, by decide⟩
    refine ⟨ann, made, updated.trans ?_⟩
    rw [bound (by decide)]
    decide

end NamedSql

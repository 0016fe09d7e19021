import NamedSql.Table
import Mathlib.Data.List.Nodup

/-!
Columns that share a name. A table may have them, and its definition reports each such name
once, when the scan meets it for the second time. So the report is in the order of second
places, which need not be the order of first ones: a name that begins later may come again
sooner. Of the columns that share a name only the first is found by it, so every column is
found when nothing was reported.
-/
namespace NamedSql

namespace Table

/-- The name stands here, and at exactly one place before. -/
def SecondAt (names : List String) (name : String) (place : Nat) : Prop :=
  ∃ front between back, names = front ++ name :: between ++ name :: back ∧
    name ∉ front ∧ name ∉ between ∧ place = (front ++ name :: between).length

theorem secondAt_of_count (before after : List String) (name : String)
    (once : before.count name = 1) :
    SecondAt (before ++ name :: after) name before.length := by
  have met : name ∈ before := List.count_pos_iff.mp (by omega)
  obtain ⟨front, between, rfl, fresh⟩ := List.eq_append_cons_of_mem met
  rw [List.count_append, List.count_cons_self] at once
  have alone : name ∉ between := List.count_eq_zero.mp (by omega)
  exact ⟨front, between, after, rfl, fresh, alone, rfl⟩

/-! One pass over the names, with those met before at hand. What it reports of the rest is
settled by the whole list, in which the rest stands behind them. -/
section Scan

variable (seen rest : List String)

-- Met once before, a name is reported if it comes again. Otherwise it has to come twice.
theorem count_repeated (name : String) :
    (repeated seen rest).count name =
      if seen.count name ≤ 1 ∧ 2 ≤ seen.count name + rest.count name then 1 else 0 := by
  induction rest generalizing seen with
  | nil =>
      have few : ¬(seen.count name ≤ 1 ∧ 2 ≤ seen.count name + 0) := by omega
      exact (if_neg few).symm
  | cons first rest ih =>
      have later := ih (first :: seen)
      by_cases same : first = name
      · subst same
        rw [List.count_cons_self] at later
        by_cases once : seen.count first = 1
        · rw [repeated, if_pos once, List.count_cons_self, List.count_cons_self, later]
          grind
        · rw [repeated, if_neg once, List.count_cons_self, later]
          grind
      · rw [List.count_cons_of_ne same] at later
        rw [repeated, List.count_cons_of_ne same, ← later]
        split
        · exact List.count_cons_of_ne same
        · rfl

theorem repeated_places : ∃ places,
    List.Forall₂ (SecondAt (seen.reverse ++ rest)) (repeated seen rest) places ∧
    places.Pairwise (· < ·) ∧ ∀ place ∈ places, seen.length ≤ place := by
  induction rest generalizing seen with
  | nil => exact ⟨[], .nil, .nil, by simp⟩
  | cons first rest ih =>
      obtain ⟨places, seconds, ascending, behind⟩ := ih (first :: seen)
      rw [List.reverse_cons, List.append_assoc, List.singleton_append] at seconds
      rw [List.length_cons] at behind
      have later : ∀ place ∈ places, seen.length ≤ place :=
        fun place member => Nat.le_of_succ_le (behind place member)
      by_cases once : seen.count first = 1
      · have here := secondAt_of_count seen.reverse rest first (by simpa using once)
        rw [List.length_reverse] at here
        rw [repeated, if_pos once]
        exact ⟨seen.length :: places, .cons here seconds, .cons behind ascending,
          List.forall_mem_cons.mpr ⟨Nat.le_refl _, later⟩⟩
      · rw [repeated, if_neg once]
        exact ⟨places, seconds, ascending, later⟩

end Scan

theorem count_repeated_all (names : List String) (name : String) :
    (repeated [] names).count name = if 2 ≤ names.count name then 1 else 0 := by
  simpa using count_repeated [] names name

theorem repeated_eq_nil_iff (names : List String) : repeated [] names = [] ↔ names.Nodup := by
  rw [List.nodup_iff_count_le_one, List.eq_nil_iff_forall_not_mem]
  refine forall_congr' fun name => ?_
  rw [← List.count_eq_zero, count_repeated_all]
  split <;> omega

theorem define_eq (name : String) (columns : List Column) (named : name ≠ "")
    (filled : columns ≠ []) : define name columns =
      ⟨(repeated [] (columns.map (·.name))).map (.repeatedColumn name) ++
        [.tableDefined name columns.length], .ok ⟨name, columns⟩⟩ := by
  rw [define, if_neg named, if_neg filled]

theorem unwarned_iff (name : String) (count : Nat) (shared : List String) :
    (∀ event ∈ shared.map (Event.repeatedColumn name) ++ [.tableDefined name count],
      event.level ≠ .warning) ↔ shared = [] := by
  cases shared with
  | nil => simp [Event.level]
  | cons own rest => simp [Event.level]

variable {table : Table}

theorem column?_eq_some_iff (name : String) (column : Column) :
    table.column? name = some column ↔ column.name = name ∧ ∃ front back,
      table.columns = front ++ column :: back ∧ ∀ earlier ∈ front, earlier.name ≠ name := by
  simp [column?, List.find?_eq_some_iff_append]

theorem column?_of_distinct (distinct : (table.columns.map (·.name)).Nodup) (column : Column)
    (member : column ∈ table.columns) : table.column? column.name = some column := by
  obtain ⟨other, found⟩ := exists_column? column.name (List.mem_map_of_mem member)
  obtain ⟨also, named⟩ := column?_eq_some column.name other found
  rw [found, List.inj_on_of_nodup_map distinct also member named]

-- The names decide the report alone, so columns may differ in type and yet be reported.
theorem define_reports_repeats (name : String) (columns : List Column) (named : name ≠ "")
    (filled : columns ≠ []) :
    let names := columns.map (·.name)
    let table : Table := ⟨name, columns⟩
    (define name columns).result = .ok table ∧
    (∃ shared places,
      (define name columns).events =
        shared.map (.repeatedColumn name) ++ [.tableDefined name columns.length] ∧
      (∀ own, shared.count own = if 2 ≤ names.count own then 1 else 0) ∧
      List.Forall₂ (SecondAt names) shared places ∧ places.Pairwise (· < ·)) ∧
    ((∀ event ∈ (define name columns).events, event.level ≠ .warning) ↔ names.Nodup) ∧
    (names.Nodup → ∀ column ∈ columns, table.column? column.name = some column) ∧
    (∀ own column, table.column? own = some column ↔ column.name = own ∧ ∃ front back,
      columns = front ++ column :: back ∧ ∀ earlier ∈ front, earlier.name ≠ own) ∧
    (∀ own, (Event.repeatedColumn name own).shown = (.warning, "Model `" ++ name ++
      "` declares `" ++ own ++ "` more than once, the first one wins")) ∧
    ∀ count, (Event.tableDefined name count).shown =
      (.debug, "Defined model `" ++ name ++ "` with " ++ toString count ++ " fields") := by
  intro names table
  rw [define_eq name columns named filled]
  refine ⟨rfl, ?_, ?_, ?_, ?_, ?_, ?_⟩
  · obtain ⟨places, seconds, ascending, -⟩ := repeated_places [] names
    exact ⟨repeated [] names, places, rfl, count_repeated_all names, seconds, ascending⟩
  · rw [unwarned_iff, repeated_eq_nil_iff]
  · exact fun distinct column member => column?_of_distinct distinct column member
  · exact column?_eq_some_iff
  · exact fun _ => rfl
  · exact fun _ => rfl

theorem define_reports_repeats_people :
    let columns : List Column := [{ name := "name", type := "text" },
      { name := "id", type := "integer" }, { name := "id", type := "text" },
      { name := "name", type := "text" }, { name := "id", type := "real" }]
    let people : Table := ⟨"people", columns⟩
    (define "people" columns).result = .ok people ∧
    (define "people" columns).events = [.repeatedColumn "people" "id",
      .repeatedColumn "people" "name", .tableDefined "people" 5] ∧
    (¬∀ event ∈ (define "people" columns).events, event.level ≠ .warning) ∧
    people.column? "id" = some { name := "id", type := "integer" } := by
  intro columns people
  obtain ⟨defined, -, unwarned, -, found, -⟩ :=
    define_reports_repeats "people" columns (by decide) (by decide)
  have shared : ¬(columns.map (·.name)).Nodup := by decide
  have first := (found "id" { name := "id", type := "integer" }).mpr
    ⟨rfl, [{ name := "name", type := "text" }], columns.drop 2, rfl, by decide⟩
  exact ⟨defined, by decide, unwarned.not.mpr shared, first⟩

end Table

end NamedSql

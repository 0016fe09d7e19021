import NamedSql.Proofs.StandardEntries
import Mathlib.Data.List.Nodup

/-!
The assignments of an update, name by name. A column counts as set when the record has a value
under its name, so columns that share a name are set together and each of them is assigned,
with the literal of its own type. The first column of the name comes first. An update assigns
every name once exactly when no name is shared by two columns that are set.
-/
namespace NamedSql

namespace Table

variable {table : Table} {record : Record} {quoting : Quoting}

/-- For each name other than the id that the table has and the record sets, one pair of the
name and the literal of the first column of that name. -/
structure AssignsOnce (table : Table) (record : Record) (quoting : Quoting)
    (pairs : List (String × String)) : Prop where
  distinct : (pairs.map (·.1)).Nodup
  names : ∀ name, name ∈ pairs.map (·.1) ↔
    name ∈ table.columns.map (·.name) ∧ name ≠ Column.idName ∧ record.isSet name = true
  literals : ∀ pair ∈ pairs, ∃ column value, table.column? pair.1 = some column ∧
    record.get? pair.1 = some value ∧ pair.2 = column.literal value quoting

theorem AssignsOnce.mem_of_mem {left right : List (String × String)}
    (leftOnce : table.AssignsOnce record quoting left)
    (rightOnce : table.AssignsOnce record quoting right) (pair : String × String)
    (member : pair ∈ left) : pair ∈ right := by
  have named : pair.1 ∈ right.map (·.1) := by
    rw [rightOnce.names, ← leftOnce.names]
    exact List.mem_map_of_mem member
  obtain ⟨other, otherMember, same⟩ := List.mem_map.mp named
  obtain ⟨column, value, found, held, literal⟩ := leftOnce.literals pair member
  obtain ⟨otherColumn, otherValue, otherFound, otherHeld, otherLiteral⟩ :=
    rightOnce.literals other otherMember
  rw [same] at otherFound otherHeld
  cases found.symm.trans otherFound
  cases held.symm.trans otherHeld
  have equal : other = pair := Prod.ext same (otherLiteral.trans literal.symm)
  exact equal ▸ otherMember

theorem AssignsOnce.perm {left right : List (String × String)}
    (leftOnce : table.AssignsOnce record quoting left)
    (rightOnce : table.AssignsOnce record quoting right) : left.Perm right := by
  apply (List.perm_ext_iff_of_nodup (List.Nodup.of_map _ leftOnce.distinct)
    (List.Nodup.of_map _ rightOnce.distinct)).mpr
  intro pair
  exact ⟨leftOnce.mem_of_mem rightOnce pair, rightOnce.mem_of_mem leftOnce pair⟩

def assigns (record : Record) (name : String) : Bool :=
  name != Column.idName && record.isSet name

theorem assigns_iff (name : String) :
    assigns record name = true ↔ name ≠ Column.idName ∧ record.isSet name = true := by
  simp [assigns]

theorem Lists.assigned_columns {entries : List (Column × Value)}
    (lists : table.Lists record (fun _ => true) entries) :
    entries.map (·.1) = table.columns.filter fun column => assigns record column.name :=
  lists.columns

theorem Lists.assigned_names {entries : List (Column × Value)}
    (lists : table.Lists record (fun _ => true) entries) :
    (entries.map (cell quoting)).map (·.1) =
      (table.columns.map (·.name)).filter (assigns record) := by
  have columns := congrArg (List.map (·.name)) lists.assigned_columns
  rw [List.map_map] at columns
  rw [List.filter_map, List.map_map]
  exact columns

theorem Lists.assigned_count {entries : List (Column × Value)}
    (lists : table.Lists record (fun _ => true) entries) (name : String) :
    ((entries.map (cell quoting)).map (·.1)).count name =
      if name ≠ Column.idName ∧ record.isSet name = true then
        (table.columns.map (·.name)).count name
      else 0 := by
  rw [lists.assigned_names]
  by_cases wanted : name ≠ Column.idName ∧ record.isSet name = true
  · rw [if_pos wanted, List.count_filter ((assigns_iff name).mpr wanted)]
  · rw [if_neg wanted, List.count_eq_zero, List.mem_filter, assigns_iff]
    exact fun member => wanted member.2

theorem Lists.assigned_first {entries : List (Column × Value)}
    (lists : table.Lists record (fun _ => true) entries) (column : Column) (value : Value)
    (first : table.column? column.name = some column) (other : column.name ≠ Column.idName)
    (held : record.get? column.name = some value) :
    (entries.map (cell quoting)).find? (·.1 == column.name) =
      some (column.name, column.literal value quoting) := by
  have wanted : assigns record column.name = true := by
    simp [assigns_iff, other, Record.isSet, held]
  have found : (entries.map (·.1)).find? (·.name == column.name) = some column := by
    rw [lists.assigned_columns, List.find?_filter, ← first, column?]
    congr 1
    funext each
    cases same : each.name == column.name with
    | false => simp
    | true => simp [eq_of_beq same, wanted]
  rw [List.find?_map] at found
  obtain ⟨entry, entryFound, own⟩ := Option.map_eq_some_iff.mp found
  have entryHeld := lists.values entry (List.mem_of_find?_eq_some entryFound)
  rw [own, held] at entryHeld
  cases entryHeld
  rw [List.find?_map]
  exact Option.map_eq_some_iff.mpr ⟨entry, entryFound, by rw [cell, own]⟩

theorem Lists.assigns_once_iff {entries : List (Column × Value)}
    (lists : table.Lists record (fun _ => true) entries) :
    table.AssignsOnce record quoting (entries.map (cell quoting)) ↔
      ∀ name, name ≠ Column.idName → record.isSet name = true →
        (table.columns.map (·.name)).count name ≤ 1 := by
  constructor
  · intro once name other set
    have most := List.nodup_iff_count_le_one.mp once.distinct name
    rwa [lists.assigned_count, if_pos ⟨other, set⟩] at most
  · intro single
    have distinct : ((entries.map (cell quoting)).map (·.1)).Nodup := by
      apply List.nodup_iff_count_le_one.mpr
      intro name
      rw [lists.assigned_count]
      split
      next wanted => exact single name wanted.1 wanted.2
      next => exact Nat.zero_le 1
    refine ⟨distinct, ?_, ?_⟩
    · intro name
      rw [lists.assigned_names, List.mem_filter, assigns_iff]
    · intro pair member
      have named : pair.1 ∈ (table.columns.map (·.name)).filter (assigns record) := by
        rw [← lists.assigned_names]
        exact List.mem_map_of_mem member
      obtain ⟨listed, wanted⟩ := List.mem_filter.mp named
      obtain ⟨other, set⟩ := (assigns_iff pair.1).mp wanted
      obtain ⟨column, first⟩ := exists_column? pair.1 listed
      obtain ⟨value, held⟩ := Option.isSome_iff_exists.mp set
      have same := (column?_eq_some _ _ first).2
      rw [← same] at first other held
      have found : (entries.map (cell quoting)).find? (·.1 == column.name) =
          some (column.name, column.literal value quoting) :=
        lists.assigned_first column value first other held
      have equal := List.inj_on_of_nodup_map distinct member (List.mem_of_find?_eq_some found)
        same.symm
      rw [← same]
      exact ⟨column, value, first, held, congrArg Prod.snd equal⟩

end Table

-- A name is assigned as often as the table has it, and the first time with the literal of its
-- first column. One clause for the id follows all assignments.
theorem update_assigns_once_iff (table : Table) (record : Record) (quoting : Quoting)
    (text : String) (written : table.updateText record quoting = .ok text) :
    ∃ entries id, table.Lists record (fun _ => true) entries ∧
      record.get? "id" = some id ∧ id.isNull = false ∧
      let pairs := entries.map fun entry => (entry.1.name, entry.1.literal entry.2 quoting)
      pairs ≠ [] ∧
      text = "UPDATE " ++ table.name ++ " SET " ++
        ", ".intercalate (pairs.map fun pair => pair.1 ++ "=" ++ pair.2) ++
        "\nWHERE id=" ++ table.idLiteral quoting id ∧
      (∀ name, (pairs.map (·.1)).count name =
        if name ≠ "id" ∧ record.isSet name = true then
          (table.columns.map (·.name)).count name
        else 0) ∧
      (∀ column value, table.column? column.name = some column → column.name ≠ "id" →
        record.get? column.name = some value →
        pairs.find? (·.1 == column.name) = some (column.name, column.literal value quoting)) ∧
      (table.AssignsOnce record quoting pairs ↔
        ∀ name, name ≠ "id" → record.isSet name = true →
          (table.columns.map (·.name)).count name ≤ 1) := by
  obtain ⟨some, id, held, present, rfl⟩ := (Table.updateText_eq_ok_iff text).mp written
  have lists := table.lists_entries record fun _ => true
  refine ⟨_, id, lists, held, present, ?_, ?_, ?_, ?_, ?_⟩
  · simpa using some
  · rw [List.map_map]
    rfl
  · exact lists.assigned_count
  · exact lists.assigned_first
  · exact lists.assigns_once_iff

theorem update_assigns_people :
    let people : Table := ⟨"people", [{ name := "id", type := "integer" },
      { name := "name", type := "text" }, { name := "note", type := "text" },
      { name := "age", type := "integer" }, { name := "note", type := "integer" }]⟩
    let ann := Record.ofPairs [("age", .null), ("id", .integer 7), ("name", .text "Ann")]
    people.updateText ann .raw = .ok "UPDATE people SET name='Ann', age=NULL\nWHERE id=7" ∧
    ∃ pairs, people.AssignsOnce ann .raw pairs ∧
      "UPDATE people SET name='Ann', age=NULL\nWHERE id=7" = "UPDATE people SET " ++
        ", ".intercalate (pairs.map fun pair => pair.1 ++ "=" ++ pair.2) ++
        "\nWHERE id=" ++ people.idLiteral .raw (.integer 7) := by
  intro people ann
  have written :
      people.updateText ann .raw = .ok "UPDATE people SET name='Ann', age=NULL\nWHERE id=7" := by
    decide
  obtain ⟨entries, id, -, held, -, -, text, -, -, once⟩ :=
    update_assigns_once_iff people ann .raw _ written
  have seven : ann.get? "id" = some (.integer 7) := by
    simp [ann, Record.ofPairs, Record.get?_set]
  cases held.symm.trans seven
  refine ⟨written, _, once.mpr ?_, text⟩
  intro name other set
  have known : name = "name" ∨ name = "age" := by
    by_contra unknown
    rw [not_or] at unknown
    simp [ann, Record.isSet, Record.ofPairs, Record.get?_set, Ne.symm other,
      Ne.symm unknown.1, Ne.symm unknown.2] at set
  obtain rfl | rfl := known <;> decide

-- The second column of a name is assigned too, and as a column of its own type.
theorem shared_name_assigned_twice :
    let pages : Table := ⟨"t", [{ name := "id", type := "integer" },
      { name := "a", type := "text" }, { name := "a", type := "integer" }]⟩
    let page := Record.ofPairs [("id", .integer 1), ("a", .text "x")]
    (Table.define pages.name pages.columns).result = .ok pages ∧
    pages.updateText page .raw = .ok "UPDATE t SET a='x', a=x\nWHERE id=1" ∧
    pages.AssignsOnce page .raw [("a", "'x'")] ∧
    ∀ pairs, pages.AssignsOnce page .raw pairs →
      "UPDATE t SET a='x', a=x\nWHERE id=1" ≠ "UPDATE t SET " ++
        ", ".intercalate (pairs.map fun pair => pair.1 ++ "=" ++ pair.2) ++
        "\nWHERE id=" ++ pages.idLiteral .raw (.integer 1) := by
  intro pages page
  have once : pages.AssignsOnce page .raw [("a", "'x'")] := by
    refine ⟨by decide, ?_, ?_⟩
    · intro name
      have set : page.isSet name = true ↔ name = "a" ∨ name = "id" := by
        simp only [page, Record.isSet, Record.ofPairs, List.foldl_cons, List.foldl_nil,
          Record.get?_set]
        grind
      rw [set]
      simp only [pages, List.map_cons, List.map_nil, List.mem_cons, List.not_mem_nil]
      grind [Column.idName]
    · intro pair member
      cases List.mem_singleton.mp member
      exact ⟨{ name := "a", type := "text" }, .text "x", by decide,
        by simp [page, Record.ofPairs], by decide⟩
  refine ⟨by simp [Table.define, pages], by decide, once, ?_⟩
  intro pairs other
  rw [List.perm_singleton.mp (other.perm once)]
  decide

end NamedSql

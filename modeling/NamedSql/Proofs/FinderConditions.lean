import NamedSql.Proofs.FinderKeys
import NamedSql.Proofs.RepeatedColumns
import NamedSql.Proofs.StandardEntries
import Mathlib.Data.List.Nodup
import Mathlib.Data.List.Perm.Subperm

/-!
Conditions of queries on columns. Counting writes the literal of a value for its column.
A query on columns has the quotes in its template, around a slot that knows nothing of
the column. For values that are not null the two give the same text, condition by
condition, so what is counted is what is found and what is deleted.
-/
namespace NamedSql

def conditions (quoting : Quoting) (entries : List (Column × Value)) : String :=
  " AND ".intercalate (entries.map fun entry =>
    entry.1.name ++ " = " ++ entry.1.literal entry.2 quoting)

namespace Inferred

variable {table : Table} {deleting : Bool} {keywords : Record} {quoting : Quoting}

theorem comparison_literal (column : Column) (value : Value) (present : value.isNull = false) :
    (comparison column value).flatMap (Segment.write quoting) =
      (column.name ++ " = " ++ column.literal value quoting).toList := by
  have segment : value.segment (some column) =
      if column.isText then .literal value.render else .code value.render.toList := by
    simp [Value.segment, present]
  rw [String.toList_append, column.toList_literal, segment]
  simp [comparison]

theorem reference_words (start : Nat) (name : String) (nonempty : name ≠ "")
    (barless : name.toList.head? ≠ some '_') :
    ∃ span, Cut.reference start (words name) = [.reference name span] := by
  have whole := (bare_eq_self_iff name).mpr barless
  simp only [Cut.reference, referent_words, whole, nonempty, ↓reduceIte]
  exact ⟨_, rfl⟩

theorem meaning_after_control {rest : List Phrase} {said : List Segment} (keyword : Keyword)
    (wide : said ≠ []) (meant : meaning table deleting keywords rest = said) :
    meaning table deleting keywords (.control keyword :: rest) =
      .code (spoken table.name deleting keyword).toList :: said := by
  subst meant
  exact meaning_control_more keyword wide

/-- Comparisons of columns with values, as a query on columns writes them. -/
def compared (quoting : Quoting) (entries : List (Column × Value)) : String :=
  " AND ".intercalate (entries.map fun entry =>
    Segment.text quoting (comparison entry.1 entry.2))

theorem compared_of_present (entries : List (Column × Value))
    (present : ∀ entry ∈ entries, entry.2.isNull = false) :
    compared quoting entries = conditions quoting entries := by
  have each : ∀ entry ∈ entries, Segment.text quoting (comparison entry.1 entry.2) =
      entry.1.name ++ " = " ++ entry.1.literal entry.2 quoting := by
    intro entry member
    rw [Segment.text, comparison_literal _ _ (present entry member), String.ofList_toList]
  rw [compared, conditions, List.map_congr_left each]

/-- A column that a query on columns reaches and fills, with a null if need be. -/
structure Reaches (table : Table) (keywords : Record) (entry : Column × Value) : Prop where
  found : table.column? entry.1.name = some entry.1
  given : keywords.get? entry.1.name = some entry.2
  nonempty : entry.1.name ≠ ""
  barless : entry.1.name.toList.head? ≠ some '_'

/-- A column with a value that a query on columns is filled with. -/
structure Supplies (table : Table) (keywords : Record) (entry : Column × Value) : Prop
    extends Reaches table keywords entry where
  present : entry.2.isNull = false

theorem Reaches.unbraced {entry : Column × Value} (reaches : Reaches table keywords entry)
    (spellable : Spellable entry.1.name) : Reaches table.unbraced keywords entry := by
  have found := reaches.found
  rw [← Table.column?_unbraced _ spellable.unbraced] at found
  exact { reaches with found }

variable (deleting quoting) in
theorem meaning_compared (start : Nat) (entry : Column × Value) (rest : List (Column × Value))
    (reaches : ∀ other ∈ entry :: rest, Reaches table keywords other) :
    ∃ said ≠ [], meaning table deleting keywords (Cut.phrasesFrom start (words entry.1.name)
        (rest.map fun other => (.and, words other.1.name))) = said ∧
      said.flatMap (Segment.write quoting) = (compared quoting (entry :: rest)).toList := by
  induction rest generalizing start entry with
  | nil =>
      have own := reaches entry List.mem_cons_self
      obtain ⟨span, alone⟩ := reference_words start entry.1.name own.nonempty own.barless
      refine ⟨comparison entry.1 entry.2, by simp [comparison], ?_, ?_⟩
      · rw [List.map_nil, Cut.phrasesFrom, alone]
        exact meaning_reference_last _ span _ _ own.found own.given rfl
      · simp [compared, Segment.toList_text]
  | cons second more ih =>
      have own := reaches entry List.mem_cons_self
      obtain ⟨span, alone⟩ := reference_words start entry.1.name own.nonempty own.barless
      obtain ⟨said, wide, meant, written⟩ :=
        ih (start + Cut.extent (words entry.1.name ++ [Keyword.text .and])) second
          fun other member => reaches other (List.mem_cons_of_mem entry member)
      refine ⟨comparison entry.1 entry.2 ++ .code [' '] :: .code "AND ".toList :: said,
        by simp, ?_, ?_⟩
      · have joined := meaning_after_control .and wide meant
        have after := joined ▸ List.cons_ne_nil _ _
        rw [List.map_cons, Cut.phrasesFrom, alone, List.singleton_append,
          meaning_reference_more _ span _ _ own.found own.given after, joined]
        rfl
      · simp only [List.flatMap_append, List.flatMap_cons, Segment.write_code, written]
        simp [compared, Segment.toList_text]

variable (quoting) in
theorem meaning_lead (lead : List Keyword) (run : List String)
    (later : List (Keyword × List String)) (written : List Char)
    (tail : ∀ start, ∃ said ≠ [], meaning table deleting keywords
      (Cut.phrasesFrom start run later) = said ∧ said.flatMap (Segment.write quoting) = written)
    (start : Nat) :
    ∃ said ≠ [], meaning table deleting keywords (Cut.phrasesFrom start []
        (lead.map (fun keyword => (keyword, [])) ++ (.whose, run) :: later)) = said ∧
      said.flatMap (Segment.write quoting) =
        (lead.flatMap fun keyword => (spoken table.name deleting keyword).toList) ++
          ("WHERE ".toList ++ written) := by
  induction lead generalizing start with
  | nil =>
      obtain ⟨said, wide, meant, rest⟩ := tail (start + Cut.extent [Keyword.text .whose])
      exact ⟨.code "WHERE ".toList :: said, by simp, meaning_after_control .whose wide meant,
        by simp [rest]⟩
  | cons keyword more ih =>
      obtain ⟨said, wide, meant, rest⟩ := ih (start + Cut.extent [keyword.text])
      exact ⟨.code (spoken table.name deleting keyword).toList :: said, by simp,
        meaning_after_control keyword wide meant, by simp [rest]⟩

variable (deleting quoting) in
theorem meaning_finder (lead : List Keyword) (entry : Column × Value)
    (rest : List (Column × Value)) (start : Nat)
    (reaches : ∀ other ∈ entry :: rest, Reaches table keywords other) :
    (meaning table deleting keywords (Cut.phrasesFrom start []
        (lead.map (fun keyword => (keyword, [])) ++ (.whose, words entry.1.name) ::
          rest.map fun other => (.and, words other.1.name)))).flatMap (Segment.write quoting) =
      (lead.flatMap fun keyword => (spoken table.name deleting keyword).toList) ++
        ("WHERE ".toList ++ (compared quoting (entry :: rest)).toList) := by
  obtain ⟨said, -, meant, written⟩ := meaning_lead quoting lead _ _ _
    (fun start => meaning_compared deleting quoting start entry rest reaches) start
  rw [meant, written]

variable (deleting quoting) in
theorem fillNamed_compared (lead : List Keyword) (entries : List (Column × Value))
    (nonempty : entries ≠ []) (spellable : ∀ entry ∈ entries, Spellable entry.1.name)
    (reaches : ∀ entry ∈ entries, Reaches table keywords entry)
    (deletes : ((lead.map Keyword.text).head? == some "delete") = deleting)
    (clauses : String) (leads : lead.flatMap (fun keyword =>
      (spoken table.name deleting keyword).toList) ++ "WHERE ".toList = clauses.toList) :
    ∃ template,
      (table.inferred (opening ++ finder lead (entries.map (·.1.name)))).result = .ok template ∧
      template.fillNamed keywords quoting =
        .ok (clauses ++ compared quoting entries) := by
  have named : ∀ name ∈ entries.map (·.1.name), Spellable name :=
    List.forall_mem_map.mpr spellable
  have barless : ∀ name ∈ entries.map (·.1.name), name.toList.head? ≠ some '_' :=
    List.forall_mem_map.mpr fun entry member => (reaches entry member).barless
  have columns : ∀ name ∈ entries.map (·.1.name), name ∈ table.columns.map (·.name) := by
    rw [List.forall_mem_map]
    intro entry member
    exact List.mem_map_of_mem (Table.column?_eq_some _ _ (reaches entry member).found).1
  have asked : entries.map (·.1.name) ≠ [] := by simpa using nonempty
  obtain ⟨template, compiled, keys⟩ := (finder_outcome lead _ asked named columns).2.2.mpr barless
  refine ⟨template, compiled, ?_⟩
  have given : ∀ key ∈ template.keys, (keywords.get? key).isSome := by
    rw [keys, List.forall_mem_map]
    intro entry member
    rw [(reaches entry member).given]
    rfl
  -- Columns with braces are taken out, since the text of a query is known without them.
  rw [← inferred_unbraced table _ (resolved_unbraced lead _ asked named)] at compiled
  have fewer : ∀ other ∈ entries, Reaches table.unbraced keywords other :=
    fun other member => (reaches other member).unbraced (spellable other member)
  obtain ⟨entry, rest, rfl⟩ := List.exists_cons_of_ne_nil nonempty
  have written := meaning_finder deleting quoting lead entry rest opening.utf8ByteSize fewer
  have front : ((words (finder lead ((entry :: rest).map (·.1.name)))).head? == some "delete") =
      deleting := by
    rw [← deletes, List.map_cons, words_finder]
    cases lead <;> rfl
  rw [fillNamed_inferred Table.unbraced_braceless _ _ template (body?_finder lead _) compiled given,
    front, sentence, Cut.phrases]
  rw [List.map_cons] at named ⊢
  rw [ofWords_finder lead _ _ named, List.map_map]
  refine congrArg Except.ok (String.toList_inj.mp ?_)
  rw [Segment.toList_text]
  refine written.trans ?_
  rw [String.toList_append, ← leads, List.append_assoc]
  rfl

variable (deleting quoting) in
theorem fillNamed_finder (lead : List Keyword) (entries : List (Column × Value))
    (nonempty : entries ≠ []) (spellable : ∀ entry ∈ entries, Spellable entry.1.name)
    (supplies : ∀ entry ∈ entries, Supplies table keywords entry)
    (deletes : ((lead.map Keyword.text).head? == some "delete") = deleting)
    (clauses : String) (leads : lead.flatMap (fun keyword =>
      (spoken table.name deleting keyword).toList) ++ "WHERE ".toList = clauses.toList) :
    ∃ template,
      (table.inferred (opening ++ finder lead (entries.map (·.1.name)))).result = .ok template ∧
      template.fillNamed keywords quoting =
        .ok (clauses ++ conditions quoting entries) := by
  rw [← compared_of_present entries fun entry member => (supplies entry member).present]
  exact fillNamed_compared deleting quoting lead entries nonempty spellable
    (fun entry member => (supplies entry member).toReaches) deletes clauses leads

end Inferred

theorem filter_eq_of_sublist {α : Type} (few many : List α) (inside : few.Sublist many)
    (distinct : many.Nodup) (pick : α → Bool) (picks : ∀ item ∈ many, pick item ↔ item ∈ few) :
    many.filter pick = few := by
  have own : few.filter pick = few :=
    List.filter_eq_self.mpr fun item member => (picks item (inside.subset member)).mpr member
  have shorter : few.Sublist (many.filter pick) := own ▸ inside.filter pick
  have only : many.filter pick ⊆ few := by
    intro item member
    obtain ⟨whole, picked⟩ := List.mem_filter.mp member
    exact (picks item whole).mp picked
  exact (shorter.eq_of_length_le ((distinct.filter pick).subperm only).length_le).symm

namespace Table

variable {table : Table} {record : Record} {quoting : Quoting}

theorem countText_conditions (distinct : (table.columns.map (·.name)).Nodup)
    (entries : List (Column × Value)) (chosen : entries ≠ [])
    (ordered : (entries.map (·.1)).Sublist table.columns)
    (held : ∀ entry ∈ entries, entry.1.isId = false ∧ entry.2.isNull = false)
    (sets : ∀ name value, record.get? name = some value ↔
      (name, value) ∈ entries.map fun entry => (entry.1.name, entry.2)) :
    table.countText record quoting =
      "SELECT count(*) FROM " ++ table.name ++ " WHERE " ++ conditions quoting entries ++ ";" := by
  have values : ∀ entry ∈ entries, record.get? entry.1.name = some entry.2 := by
    intro entry member
    exact (sets _ _).mpr (List.mem_map_of_mem member)
  have wanted : ∀ column ∈ table.columns,
      (column.name != "id" && (record.get? column.name).any (· != .null)) ↔
        column ∈ entries.map (·.1) := by
    intro column whole
    simp only [Bool.and_eq_true, Option.any_eq_true, List.mem_map]
    constructor
    · rintro ⟨-, value, set, -⟩
      obtain ⟨entry, member, same⟩ := List.mem_map.mp ((sets _ _).mp set)
      have inside := ordered.subset (List.mem_map_of_mem member)
      have named : entry.1.name = column.name := congrArg Prod.fst same
      exact ⟨entry, member, List.inj_on_of_nodup_map distinct inside whole named⟩
    · rintro ⟨entry, member, rfl⟩
      obtain ⟨other, present⟩ := held entry member
      exact ⟨bne_iff_ne.mpr (beq_eq_false_iff_ne.mp other), entry.2, values entry member,
        by simp [present]⟩
  have listed : table.Lists record (· != .null) entries :=
    ⟨(filter_eq_of_sublist _ _ ordered distinct.of_map _ wanted).symm, values⟩
  have pairs : table.filled record quoting = entries.map (cell quoting) := by
    rw [filled_entries, (table.lists_entries record _).unique listed]
  rw [countText_pairs _ pairs, if_neg (by simpa using chosen), List.map_map]
  rfl

end Table

/-- What is counted is what a query on the same columns finds or deletes. -/
theorem conditions_shared (table : Table) (distinct : (table.columns.map (·.name)).Nodup)
    (entries : List (Column × Value)) (chosen : entries ≠ [])
    (ordered : (entries.map (·.1)).Sublist table.columns)
    (others : ∀ entry ∈ entries, entry.1.isId = false)
    (spellable : ∀ entry ∈ entries, Inferred.Spellable entry.1.name)
    (barless : ∀ entry ∈ entries, entry.1.name.toList.head? ≠ some '_')
    (present : ∀ entry ∈ entries, entry.2.isNull = false) (record keywords : Record)
    (sets : ∀ name value, record.get? name = some value ↔
      (name, value) ∈ entries.map fun entry => (entry.1.name, entry.2))
    (given : ∀ entry ∈ entries, keywords.get? entry.1.name = some entry.2) (quoting : Quoting) :
    let columns := "_and_".intercalate (entries.map (·.1.name))
    let condition := conditions quoting entries
    table.countText record quoting =
      "SELECT count(*) FROM " ++ table.name ++ " WHERE " ++ condition ++ ";" ∧
    (∃ template, (table.inferred ("sql_find_all_by_" ++ columns)).result = .ok template ∧
      template.fillNamed keywords quoting =
        .ok ("SELECT * FROM " ++ table.name ++ " WHERE " ++ condition)) ∧
    ∃ template, (table.inferred ("sql_delete_by_" ++ columns)).result = .ok template ∧
      template.fillNamed keywords quoting =
        .ok ("DELETE FROM " ++ table.name ++ " WHERE " ++ condition) := by
  have supplies : ∀ entry ∈ entries, Inferred.Supplies table keywords entry := by
    intro entry member
    have inside := ordered.subset (List.mem_map_of_mem member)
    exact {
      found := Table.column?_of_distinct distinct entry.1 inside
      given := given entry member
      present := present entry member
      nonempty := (spellable entry member).nonempty
      barless := barless entry member }
  refine ⟨?_, ?_, ?_⟩
  · exact Table.countText_conditions distinct entries chosen ordered
      (fun entry member => ⟨others entry member, present entry member⟩) sets
  · rw [Inferred.find_opening]
    exact Inferred.fillNamed_finder false quoting [.find, .all] entries chosen spellable supplies
      (by decide) _ (by simp [Inferred.spoken])
  · rw [Inferred.delete_opening]
    exact Inferred.fillNamed_finder true quoting [.delete] entries chosen spellable supplies
      (by decide) _ (by simp [Inferred.spoken])

theorem conditions_shared_people :
    let people : Table := ⟨"people", [{ name := "id", type := "integer" },
      { name := "last_name_", type := "text" }, { name := "note", type := "text" },
      { name := "age", type := "integer" }]⟩
    let values := [("last_name_", Value.text "O'Brien"), ("age", .integer 7)]
    people.countText (Record.ofPairs values) .escaped =
      "SELECT count(*) FROM people WHERE last_name_ = 'O''Brien' AND age = 7;" ∧
    (∃ template, (people.inferred "sql_find_all_by_last_name__and_age").result = .ok template ∧
      template.fillNamed (Record.ofPairs values.reverse) .escaped =
        .ok "SELECT * FROM people WHERE last_name_ = 'O''Brien' AND age = 7") ∧
    ∃ template, (people.inferred "sql_delete_by_last_name__and_age").result = .ok template ∧
      template.fillNamed (Record.ofPairs values.reverse) .escaped =
        .ok "DELETE FROM people WHERE last_name_ = 'O''Brien' AND age = 7" := by
  intro people values
  let entries : List (Column × Value) :=
    [({ name := "last_name_", type := "text" }, .text "O'Brien"),
      ({ name := "age", type := "integer" }, .integer 7)]
  have sets (name : String) (value : Value) :
      (Record.ofPairs values).get? name = some value ↔
        (name, value) ∈ entries.map fun entry => (entry.1.name, entry.2) := by
    simp only [values, entries, Record.ofPairs, List.foldl_cons, List.foldl_nil, List.map_cons,
      List.map_nil, List.mem_cons, List.not_mem_nil, Prod.mk.injEq]
    grind
  exact conditions_shared people (by decide) entries (by decide) (by decide) (by decide)
    (by decide) (by decide) (by decide) _ (Record.ofPairs values.reverse) sets
    (by simp [entries, values, Record.ofPairs, Record.get?_set]) .escaped

end NamedSql

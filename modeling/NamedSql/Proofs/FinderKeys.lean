import NamedSql.Proofs.InferredKeys

/-!
Queries named after columns. The names of columns are put into a name with `and` between
them, cut into words with everything else, and put together again from the words. A name
gets back all its underscores but those it begins with: the words before them are empty,
and empty words are dropped at the front of a reference. So a column whose name begins
with an underscore cannot be reached, and another column may be reached in its place.
-/
namespace NamedSql

/-- A name without the underscores it begins with. -/
def bare (name : String) : String := String.ofList (name.toList.dropWhile (· == '_'))

theorem bare_eq_self_iff (name : String) : bare name = name ↔ name.toList.head? ≠ some '_' := by
  rw [bare, ← String.toList_inj, String.toList_ofList]
  cases name.toList with
  | nil => simp
  | cons letter rest =>
      by_cases bar : letter = '_'
      · subst bar
        simp only [List.dropWhile_cons, beq_self_eq_true, ↓reduceIte, List.head?_cons, ne_eq,
          not_true_eq_false, iff_false]
        intro same
        have shorter := (List.dropWhile_sublist (· == '_') (l := rest)).length_le
        have lengths := congrArg List.length same
        simp only [List.length_cons] at lengths
        omega
      · simp [bar]

theorem bare_unbraced (name : String) (unbraced : Item.Unbraced name.toList) :
    Item.Unbraced (bare name).toList := by
  have kept (letter : Char) (member : letter ∈ (bare name).toList) : letter ∈ name.toList := by
    rw [bare, String.toList_ofList] at member
    exact (List.dropWhile_sublist _).subset member
  exact ⟨fun opened => unbraced.1 (kept _ opened), fun closed => unbraced.2 (kept _ closed)⟩

theorem referent_words (name : String) : Phrase.referent (words name) = bare name := by
  have letters (all : List Char) :
      Phrase.referent ((all.splitOn '_').map String.ofList) =
        String.ofList (all.dropWhile (· == '_')) := by
    induction all with
    | nil => rfl
    | cons letter rest ih =>
        have joined := intercalate_words (String.ofList (letter :: rest))
        rw [words, String.toList_ofList] at joined
        rw [splitOn_cons] at joined ⊢
        by_cases bar : letter = '_'
        · simpa [bar, Phrase.referent] using ih
        · obtain ⟨first, more, pieces⟩ := List.exists_cons_of_ne_nil (List.splitOn_ne_nil '_' rest)
          simpa [bar, pieces, Phrase.referent] using joined
  exact letters name.toList

namespace Inferred

/-- The columns that runs of words refer to. A run of empty words refers to none. -/
def referents (runs : List (List String)) : List String :=
  (runs.map Phrase.referent).filter (· ≠ "")

theorem references_phrasesFrom (start : Nat) (run : List String)
    (later : List (Keyword × List String)) :
    (references (Cut.phrasesFrom start run later)).map (·.1) =
      referents (run :: later.map (·.2)) := by
  have alone (start : Nat) (run : List String) :
      (references (Cut.reference start run)).map (·.1) = referents [run] := by
    by_cases nameless : Phrase.referent run = "" <;>
      simp [Cut.reference, referents, references, Phrase.reference?, nameless]
  have split (run : List String) (runs : List (List String)) :
      referents (run :: runs) = referents [run] ++ referents runs := by
    simp only [referents, List.map_cons, List.map_nil, ← List.filter_append, List.singleton_append]
  induction later generalizing start run with
  | nil => exact alone start run
  | cons part rest ih =>
      rw [Cut.phrasesFrom, references_append, references_control, List.map_append, alone, ih,
        List.map_cons, ← split]

/-- A query on columns after its opening: control words, `by`, and the columns with `and`
between them. -/
def finder (lead : List Keyword) (names : List String) : String :=
  "_".intercalate (lead.map Keyword.text ++ ["by"]) ++ "_" ++ "_and_".intercalate names

theorem words_intercalate_and (first : String) (rest : List String) :
    words ("_and_".intercalate (first :: rest)) =
      words first ++ rest.flatMap fun name => "and" :: words name := by
  induction rest generalizing first with
  | nil => simp
  | cons second more ih =>
      have whole : "_and_".intercalate (first :: second :: more) =
          first ++ "_" ++ "and" ++ "_" ++ "_and_".intercalate (second :: more) := by
        rw [String.intercalate_cons_cons]
        simp [String.append_assoc]
      have single : words "and" = ["and"] := by decide
      rw [whole, words_join, words_join, single, ih]
      simp

theorem words_finder (lead : List Keyword) (first : String) (rest : List String) :
    words (finder lead (first :: rest)) =
      lead.map Keyword.text ++ "by" :: words first ++
        rest.flatMap fun name => "and" :: words name := by
  have unbarred : ∀ text ∈ lead.map Keyword.text ++ ["by"], '_' ∉ text.toList := by
    have each (keyword : Keyword) : '_' ∉ keyword.text.toList := by cases keyword <;> decide
    intro text member
    rcases List.mem_append.mp member with control | last
    · obtain ⟨keyword, -, rfl⟩ := List.mem_map.mp control
      exact each keyword
    · obtain rfl := List.mem_singleton.mp last
      exact each .whose
  rw [finder, words_join, words_intercalate _ (by simp) unbarred, words_intercalate_and]
  simp

/-- A column name that stays together in the name of a query. -/
structure Spellable (name : String) : Prop where
  nonempty : name ≠ ""
  unbraced : Item.Unbraced name.toList
  uncontrolled : ∀ keyword : Keyword, keyword.text ∉ words name

instance (name : String) : Decidable (Spellable name) :=
  decidable_of_iff (name ≠ "" ∧ Item.Unbraced name.toList ∧
      ∀ keyword ∈ Keyword.listed, keyword.text ∉ words name)
    ⟨fun ⟨nonempty, unbraced, uncontrolled⟩ =>
      ⟨nonempty, unbraced, fun keyword => uncontrolled keyword keyword.mem_listed⟩,
    fun ⟨nonempty, unbraced, uncontrolled⟩ =>
      ⟨nonempty, unbraced, fun keyword _ => uncontrolled keyword⟩⟩

theorem ofWords_finder (lead : List Keyword) (first : String) (rest : List String)
    (spellable : ∀ name ∈ first :: rest, Spellable name) :
    Cut.ofWords (words (finder lead (first :: rest))) =
      ⟨[], lead.map (fun keyword => (keyword, [])) ++
        (.whose, words first) :: rest.map fun name => (.and, words name)⟩ := by
  have run (name : String) (named : name ∈ first :: rest) : Cut.Plain (words name) := by
    intro text member
    refine Keyword.ofText?_eq_none text fun keyword spelled => ?_
    exact (spellable name named).uncontrolled keyword (spelled ▸ member)
  rw [Cut.ofWords_eq_iff]
  constructor
  · have last : Keyword.text .whose = "by" := rfl
    have between : Keyword.text .and = "and" := rfl
    simpa [Cut.words, words_finder, List.flatMap_map, last, between] using
      List.map_eq_flatMap.symm
  · refine ⟨by simp [Cut.Plain], ?_⟩
    simp only [List.mem_append, List.mem_map, List.mem_cons]
    rintro part (⟨keyword, -, rfl⟩ | rfl | ⟨name, member, rfl⟩)
    · simp [Cut.Plain]
    · exact run first List.mem_cons_self
    · exact run name (List.mem_cons_of_mem first member)

theorem finder_ne_empty (lead : List Keyword) (names : List String) : finder lead names ≠ "" := by
  intro empty
  have letters := congrArg String.toList empty
  simp [finder] at letters

theorem body?_finder (lead : List Keyword) (names : List String) :
    body? (opening ++ finder lead names) = some (finder lead names) :=
  (body?_eq_some_iff _ _).mpr ⟨rfl, finder_ne_empty lead names⟩

/-- The columns that the names put into a query are taken for. -/
def reached (names : List String) : List String := (names.map bare).filter (· ≠ "")

theorem reached_eq_self_iff (names : List String) (nonempty : ∀ name ∈ names, name ≠ "") :
    reached names = names ↔ ∀ name ∈ names, name.toList.head? ≠ some '_' := by
  simp only [← bare_eq_self_iff]
  constructor
  · intro same
    have whole : reached names = names.map bare := by
      refine List.filter_sublist.eq_of_length ?_
      rw [← reached, same, List.length_map]
    have each : names.map bare = names.map id := by rw [← whole, same, List.map_id]
    exact List.map_inj_left.mp each
  · intro each
    have whole : names.map bare = names :=
      (List.map_inj_left.mpr each).trans (List.map_id names)
    rw [reached, whole]
    exact List.filter_eq_self.mpr (by simpa using nonempty)

variable (lead : List Keyword) (names : List String) (asked : names ≠ [])
  (spellable : ∀ name ∈ names, Spellable name)

include asked spellable in
theorem resolved_finder : resolved (opening ++ finder lead names) = reached names := by
  obtain ⟨first, rest, rfl⟩ := List.exists_cons_of_ne_nil asked
  have empty : (lead.map fun _ => "").filter (· ≠ "") = [] := by simp
  have nothing : Phrase.referent [] = "" := rfl
  simp only [resolved, body?_finder]
  rw [Cut.phrases_tokens, Cut.phrases, ofWords_finder lead first rest spellable,
    references_phrasesFrom]
  simp only [referents, reached, List.map_cons, List.map_append, List.map_map, Function.comp_def,
    referent_words, nothing]
  rw [List.filter_cons_of_neg (by simp), List.filter_append, empty, List.nil_append]

include asked spellable in
theorem resolved_unbraced :
    ∀ column ∈ resolved (opening ++ finder lead names), Item.Unbraced column.toList := by
  intro column member
  rw [resolved_finder lead names asked spellable] at member
  obtain ⟨name, named, rfl⟩ := List.mem_map.mp (List.mem_filter.mp member).1
  exact bare_unbraced name (spellable name named).unbraced

/-! Outcomes. A query whose references have no braces compiles exactly when each of them is
a column, whatever braces other columns have. -/
section Outcomes

variable {table : Table}

variable (table) in
theorem compiles_iff_resolved (name body : String) (shape : body? name = some body)
    (unbraced : ∀ column ∈ resolved name, Item.Unbraced column.toList) :
    (∃ template, (table.inferred name).result = .ok template) ↔
      ∀ column ∈ resolved name, column ∈ table.columns.map (·.name) := by
  constructor
  · rintro ⟨template, compiled⟩
    exact resolved_are_columns name template compiled
  · intro columns
    have present : ∀ column ∈ resolved name, column ∈ table.unbraced.columns.map (·.name) := by
      intro column member
      rw [← Table.column?_isSome_iff, Table.column?_unbraced column (unbraced column member)]
      exact (Table.column?_isSome_iff column).mpr (columns column member)
    simp only [resolved, shape, List.forall_mem_map] at present
    obtain ⟨text, compiled⟩ :=
      inferred_resolved Table.unbraced_braceless name body shape present
    rw [inferred_unbraced table name unbraced] at compiled
    exact ⟨_, compiled⟩

include asked spellable in
theorem finder_outcome (columns : ∀ name ∈ names, name ∈ table.columns.map (·.name)) :
    ((∃ template, (table.inferred (opening ++ finder lead names)).result = .ok template) ↔
      ∀ name ∈ reached names, name ∈ table.columns.map (·.name)) ∧
    (∀ template, (table.inferred (opening ++ finder lead names)).result = .ok template →
      template.keys = reached names) ∧
    ((∃ template, (table.inferred (opening ++ finder lead names)).result = .ok template ∧
        template.keys = names) ↔
      ∀ name ∈ names, name.toList.head? ≠ some '_') := by
  have resolves := resolved_finder lead names asked spellable
  have unbraced := resolved_unbraced lead names asked spellable
  have compiles := compiles_iff_resolved table _ _ (body?_finder lead _) unbraced
  rw [resolves] at compiles
  have keys : ∀ template,
      (table.inferred (opening ++ finder lead names)).result = .ok template →
        template.keys = reached names :=
    fun template compiled => (keys_of_unbraced _ template compiled unbraced).trans resolves
  have whole := reached_eq_self_iff names fun name member =>
    (spellable name member).nonempty
  refine ⟨compiles, keys, ?_, ?_⟩
  · rintro ⟨template, compiled, same⟩
    exact whole.mp ((keys template compiled).symm.trans same)
  · intro barless
    have same := whole.mpr barless
    obtain ⟨template, compiled⟩ := compiles.mpr (same.symm ▸ columns)
    exact ⟨template, compiled, (keys template compiled).trans same⟩

end Outcomes

theorem find_opening (names : List String) :
    "sql_find_all_by_" ++ "_and_".intercalate names = opening ++ finder [.find, .all] names := by
  have spelled : "sql_find_all_by_" = opening ++ ("find_all_by" ++ "_") := by decide
  rw [spelled, String.append_assoc]
  rfl

theorem delete_opening (names : List String) :
    "sql_delete_by_" ++ "_and_".intercalate names = opening ++ finder [.delete] names := by
  have spelled : "sql_delete_by_" = opening ++ ("delete_by" ++ "_") := by decide
  rw [spelled, String.append_assoc]
  rfl

-- The keys are what the words of the names are put together to, so they are the names
-- exactly when no underscore is lost at the front of one.
theorem finder_keys_iff (table : Table) (names : List String) (asked : names ≠ [])
    (columns : ∀ name ∈ names, name ∈ table.columns.map (·.name))
    (spellable : ∀ name ∈ names, Spellable name) :
    ∀ front ∈ ["sql_find_all_by_", "sql_delete_by_"],
      let query := front ++ "_and_".intercalate names
      ((∃ template, (table.inferred query).result = .ok template) ↔
        ∀ name ∈ reached names, name ∈ table.columns.map (·.name)) ∧
      (∀ template, (table.inferred query).result = .ok template →
        template.keys = reached names) ∧
      ((∃ template, (table.inferred query).result = .ok template ∧ template.keys = names) ↔
        ∀ name ∈ names, name.toList.head? ≠ some '_') := by
  intro front member
  rcases List.mem_cons.mp member with rfl | member
  · rw [find_opening]
    exact finder_outcome [.find, .all] names asked spellable columns
  · obtain rfl := List.mem_singleton.mp member
    rw [delete_opening]
    exact finder_outcome [.delete] names asked spellable columns

theorem finder_keys_people :
    let people : Table := ⟨"people", [{ name := "id", type := "integer" },
      { name := "last__name_", type := "text" }]⟩
    (∀ name ∈ ["last__name_", "id"], Spellable name) ∧
    ∃ template, (people.inferred "sql_delete_by_last__name__and_id").result = .ok template ∧
      template.keys = ["last__name_", "id"] := by
  intro people
  have spellable : ∀ name ∈ ["last__name_", "id"], Spellable name := by decide
  obtain ⟨-, -, reaches⟩ := finder_keys_iff people ["last__name_", "id"] (by decide) (by decide)
    spellable "sql_delete_by_" (by decide)
  exact ⟨spellable, reaches.mpr (by decide)⟩

-- The name spells one column, and the query deletes by another.
theorem underscored_column_unreached :
    let tags : Table := ⟨"t", [{ name := "id", type := "integer" },
      { name := "_x", type := "integer" }, { name := "x", type := "integer" }]⟩
    (Table.define tags.name tags.columns).result = .ok tags ∧
    "_x" ∈ tags.columns.map (·.name) ∧ Spellable "_x" ∧
    (∃ template, (tags.inferred "sql_delete_by__x").result = .ok template ∧
      template.keys = ["x"]) ∧
    ¬ ∃ template, (tags.inferred "sql_delete_by__x").result = .ok template ∧
      template.keys = ["_x"] := by
  intro tags
  have spelled : (tags.inferred "sql_delete_by__x").result.toOption.map (·.keys) = some ["x"] := by
    decide
  obtain ⟨template, found, keys⟩ := Option.map_eq_some_iff.mp spelled
  have compiled := (toOption_eq_some_iff _ _).mp found
  refine ⟨by simp [Table.define, tags], by decide, by decide, ⟨template, compiled, keys⟩, ?_⟩
  rintro ⟨other, also, own⟩
  obtain rfl := Except.ok.inj (compiled.symm.trans also)
  rw [keys] at own
  exact absurd own (by decide)

end Inferred

end NamedSql

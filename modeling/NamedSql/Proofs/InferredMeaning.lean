import NamedSql.Proofs.InferredFilling

/-!
The meaning of inferred queries. A name is taken apart at its control words, which leaves
one outcome for it: no convention, a fault at its first reference without a column, or a
template. Filled for any values, the template gives what the phrases of the name say.
-/
namespace NamedSql

namespace Inferred

variable {table : Table} {deleting : Bool} {keywords : Record} {quoting : Quoting}

theorem body?_eq_some_iff (name body : String) :
    body? name = some body ↔ name = opening ++ body ∧ body ≠ "" := by
  unfold body?
  constructor
  · intro found
    split at found
    · next first rest whole =>
        obtain rfl := Option.some.inj found
        have letters := List.isPrefixOf?_eq_some_iff_append_eq.mp whole
        exact ⟨String.toList_inj.mp (by simp [← letters]), by simp⟩
    · cases found
  · rintro ⟨rfl, nonempty⟩
    have letters : body.toList ≠ [] := by simpa using nonempty
    have whole : opening.toList.isPrefixOf? (opening ++ body).toList = some body.toList :=
      List.isPrefixOf?_eq_some_iff_append_eq.mpr (by simp)
    obtain ⟨first, rest, spelled⟩ := List.exists_cons_of_ne_nil letters
    rw [whole, spelled]
    simp only [← spelled, String.ofList_toList]

theorem body?_eq_none (name : String)
    (shapeless : ∀ body, body ≠ "" → name ≠ opening ++ body) : body? name = none := by
  cases found : body? name with
  | none => rfl
  | some body =>
      obtain ⟨shape, nonempty⟩ := (body?_eq_some_iff name body).mp found
      exact absurd shape (shapeless body nonempty)

theorem deletes_tokens (body : String) :
    deletes (tokens body) = ((words body).head? == some "delete") := by
  unfold tokens
  cases words body with
  | nil => rfl
  | cons text rest =>
      simp only [Token.place, Word.ofText, List.head?_cons]
      cases found : Keyword.ofText? text with
      | none =>
          have other : text ≠ "delete" := by
            rintro rfl
            exact absurd found (by decide)
          simp [deletes, other]
      | some keyword =>
          have spelled := Keyword.ofText?_eq_some_iff.mp found
          subst spelled
          cases keyword <;> simp [deletes, Keyword.text]

/-! Places. Tokens are counted from the end of the opening, and faults from the start
of the name. -/
section Places

theorem phrasesFrom_shifted (distance start : Nat) (run : List String)
    (later : List (Keyword × List String)) :
    Cut.phrasesFrom (start + distance) run later =
      (Cut.phrasesFrom start run later).map (shifted distance) := by
  have moved (start : Nat) (run : List String) : Cut.reference (start + distance) run =
      (Cut.reference start run).map (shifted distance) := by
    by_cases nameless : Phrase.referent run = ""
    · simp [Cut.reference, nameless]
    · simp [Cut.reference, nameless, shifted, Span.shift, Nat.add_right_comm]
  induction later generalizing start run with
  | nil => simp [Cut.phrasesFrom, moved]
  | cons part rest ih =>
      simp [Cut.phrasesFrom, moved, shifted, ← ih, Nat.add_right_comm]

theorem references_shifted (distance : Nat) (sentence : List Phrase) :
    references (sentence.map (shifted distance)) =
      (references sentence).map fun reference => (reference.1, reference.2.shift distance) := by
  induction sentence with
  | nil => rfl
  | cons phrase rest ih => cases phrase <;> simp [shifted, ih]

theorem meaning_shifted (distance : Nat) (sentence : List Phrase) :
    meaning table deleting keywords (sentence.map (shifted distance)) =
      meaning table deleting keywords sentence := by
  induction sentence with
  | nil => rfl
  | cons phrase rest ih => cases phrase <;> simp only [List.map_cons, shifted, meaning, ih]

end Places

theorem references_spelled (start : Nat) (run : List String)
    (later : List (Keyword × List String)) :
    ∀ reference ∈ references (Cut.phrasesFrom start run later), reference.1 ≠ "" := by
  have alone (start : Nat) (run : List String) :
      ∀ reference ∈ references (Cut.reference start run), reference.1 ≠ "" := by
    by_cases nameless : Phrase.referent run = "" <;>
      simp [Cut.reference, nameless, references, Phrase.reference?]
  induction later generalizing start run with
  | nil => exact alone start run
  | cons part rest ih =>
      intro reference member
      simp only [Cut.phrasesFrom, references, List.filterMap_append, List.mem_append] at member
      rcases member with here | later
      · exact alone start run reference here
      · exact ih _ _ reference later

/-- What a name says after its opening, with places in the whole name. -/
def sentence (cut : Cut) : List Phrase := cut.phrases opening.utf8ByteSize

theorem phrases_sentence (body : String) :
    (phrases (tokens body)).map (shifted opening.utf8ByteSize) =
      sentence (Cut.ofWords (words body)) := by
  rw [Cut.phrases_tokens, sentence, Cut.phrases, Cut.phrases, ← phrasesFrom_shifted, Nat.zero_add]

/-! Compilation. The three outcomes of a name, each from the phrases of its cut. -/
section Compilation

theorem body_of_compiled (name : String) (template : Template)
    (compiled : (table.inferred name).result = .ok template) : ∃ body, body? name = some body := by
  cases opened : body? name with
  | some body => exact ⟨body, rfl⟩
  | none =>
      rw [Table.inferred, opened] at compiled
      cases compiled

theorem inferred_result (name body : String) (shape : body? name = some body) :
    (table.inferred name).result =
      (write table name (deletes (tokens body)) (phrases (tokens body))).result.bind fun text =>
        Template.read .named (String.ofList (Text.trimEnd text.toList)) := by
  simp only [Table.inferred, shape, Traced.result_bind]
  cases (write table name (deletes (tokens body)) (phrases (tokens body))).result with
  | error fault => simp only [Except.bind]
  | ok text =>
      simp only [Except.bind, Traced.ofResult, Traced.emit]
      cases Template.read .named (String.ofList (Text.trimEnd text.toList)) <;> rfl

theorem inferred_unresolved (name body : String) (shape : body? name = some body)
    (front back : List (String × Span)) (target : String) (span : Span)
    (order : references (sentence (Cut.ofWords (words body))) = front ++ (target, span) :: back)
    (resolved : ∀ reference ∈ front, Resolved table reference)
    (missing : ¬ Resolved table (target, span)) :
    (table.inferred name).result = .error (.unresolved name target span) := by
  rw [← phrases_sentence, references_shifted] at order
  obtain ⟨before, rest, whole, frontMoved, restMoved⟩ := List.map_eq_append_iff.mp order
  obtain ⟨reference, after, rfl, moved, -⟩ := List.map_eq_cons_iff.mp restMoved
  obtain ⟨rfl, rfl⟩ := Prod.mk.inj moved
  have earlier : ∀ other ∈ before, Resolved table other := by
    intro other member
    have present : Resolved table (other.1, other.2.shift opening.utf8ByteSize) := by
      apply resolved
      rw [← frontMoved]
      exact List.mem_map_of_mem member
    exact present
  have stopped := write_unresolved name (deletes (tokens body))
    (phrases (tokens body)) before after reference.1 reference.2 whole earlier missing
  rw [inferred_result name body shape, stopped]
  rfl

theorem inferred_resolved (braceless : table.Braceless) (name body : String)
    (shape : body? name = some body)
    (resolved : ∀ reference ∈ references (phrases (tokens body)), Resolved table reference) :
    ∃ text, (table.inferred name).result = .ok ⟨text, .named,
      Piece.ofItems (Item.trim (items table (deletes (tokens body)) (phrases (tokens body))))⟩ := by
  have spelled : ∀ reference ∈ references (phrases (tokens body)), reference.1 ≠ "" := by
    rw [Cut.phrases_tokens]
    exact references_spelled 0 _ _
  have allowed := items_allowed (deletes (tokens body)) braceless _ spelled
  have written := write_resolved name (deletes (tokens body)) braceless _ resolved
  have parsed := Item.readFrom_flatMap_write .named _ fun item kept =>
    allowed item (Item.mem_of_mem_trim _ item kept)
  rw [inferred_result name body shape, written]
  simp only [Except.bind, String.toList_ofList, Item.trimEnd_flatMap_write, Template.read,
    Item.read, parsed]
  exact ⟨_, rfl⟩

theorem first_unresolved (all : List (String × Span))
    (unresolved : ¬ ∀ reference ∈ all, Resolved table reference) :
    ∃ front target span back, all = front ++ (target, span) :: back ∧
      (∀ reference ∈ front, Resolved table reference) ∧ ¬ Resolved table (target, span) := by
  classical
  cases found : all.find? (fun reference => !decide (Resolved table reference)) with
  | none => exact absurd (by simpa using found) unresolved
  | some reference =>
      obtain ⟨missing, front, back, order, resolved⟩ := List.find?_eq_some_iff_append.mp found
      exact ⟨front, reference.1, reference.2, back, order, by simpa using resolved,
        by simpa using missing⟩

theorem resolved_sentence (body : String) :
    (∀ reference ∈ references (sentence (Cut.ofWords (words body))), Resolved table reference) ↔
      ∀ reference ∈ references (phrases (tokens body)), Resolved table reference := by
  rw [← phrases_sentence, references_shifted]
  simp only [List.forall_mem_map]
  rfl

-- A name that compiles has no reference without a column, or the first would fail it.
theorem resolved_of_compiled (name body : String) (template : Template)
    (shape : body? name = some body) (compiled : (table.inferred name).result = .ok template) :
    ∀ reference ∈ references (sentence (Cut.ofWords (words body))), Resolved table reference := by
  refine Classical.byContradiction fun unresolved => ?_
  obtain ⟨front, target, span, back, order, resolved, missing⟩ := first_unresolved _ unresolved
  have failed := inferred_unresolved name body shape front back target span order resolved missing
  rw [compiled] at failed
  cases failed

theorem resolved_phrases (name body : String) (template : Template)
    (shape : body? name = some body) (compiled : (table.inferred name).result = .ok template) :
    ∀ reference ∈ references (phrases (tokens body)), Resolved table reference :=
  (resolved_sentence body).mp (resolved_of_compiled name body template shape compiled)

theorem keys_inferred (braceless : table.Braceless) (name body : String) (template : Template)
    (shape : body? name = some body) (compiled : (table.inferred name).result = .ok template) :
    template.keys = (references (sentence (Cut.ofWords (words body)))).map (·.1) := by
  have resolved := resolved_phrases name body template shape compiled
  obtain ⟨text, result⟩ := inferred_resolved braceless name body shape resolved
  obtain rfl := Except.ok.inj (compiled.symm.trans result)
  rw [← phrases_sentence, references_shifted, Template.keys, Piece.ofItems, Item.keys_group,
    Item.keys_trim, keys_items _ resolved, List.map_map]
  rfl

theorem supplied_of_keys (braceless : table.Braceless) (name body : String) (template : Template)
    (shape : body? name = some body) (compiled : (table.inferred name).result = .ok template)
    (given : ∀ key ∈ template.keys, (keywords.get? key).isSome) :
    Supplied table keywords (phrases (tokens body)) := by
  have resolved := resolved_phrases name body template shape compiled
  rw [keys_inferred braceless name body template shape compiled, ← phrases_sentence,
    references_shifted, List.map_map] at given
  intro reference member
  obtain ⟨column, found⟩ := Table.exists_column? reference.1 (resolved reference member)
  obtain ⟨value, held⟩ := Option.isSome_iff_exists.mp
    (given reference.1 (List.mem_map_of_mem member))
  exact ⟨column, value, found, held⟩

theorem fillNamed_inferred (braceless : table.Braceless) (name body : String)
    (template : Template) (shape : body? name = some body)
    (compiled : (table.inferred name).result = .ok template)
    (given : ∀ key ∈ template.keys, (keywords.get? key).isSome) :
    template.fillNamed keywords quoting =
      .ok (Segment.text quoting (meaning table ((words body).head? == some "delete") keywords
        (sentence (Cut.ofWords (words body))))) := by
  have supplied := supplied_of_keys braceless name body template shape compiled given
  have resolved := resolved_phrases name body template shape compiled
  obtain ⟨text, result⟩ := inferred_resolved braceless name body shape resolved
  obtain rfl := Except.ok.inj (compiled.symm.trans result)
  have filled := (filled_of_supplied (deletes (tokens body)) quoting _ supplied).2 false
  rw [← Item.writeNamed_group, ← Piece.ofItems] at filled
  simp only [Template.fillNamed, filled]
  rw [← phrases_sentence, meaning_shifted, deletes_tokens]
  rfl

end Compilation

-- Every name has one of three outcomes. The cut names what is looked at: it is the
-- only way to take the words of the name apart at the control words.
theorem inferred_means_its_words (table : Table) (braceless : table.Braceless) (name : String) :
    ((∀ body, body ≠ "" → name ≠ "sql_" ++ body) →
      Fails (table.inferred name).result (.notConvention name) .convention) ∧
    ∀ body, body ≠ "" → name = "sql_" ++ body →
      ∃ cut : Cut, (∀ other : Cut, other.words = words body ∧ other.Maximal ↔ other = cut) ∧
        ((∃ template, (table.inferred name).result = .ok template) ↔
          ∀ reference ∈ references (sentence cut), Resolved table reference) ∧
        (∀ front target span back, references (sentence cut) = front ++ (target, span) :: back →
          (∀ reference ∈ front, Resolved table reference) → ¬ Resolved table (target, span) →
          Fails (table.inferred name).result (.unresolved name target span) .reference) ∧
        ∀ template, (table.inferred name).result = .ok template →
          template.keys = (references (sentence cut)).map (·.1) ∧
          ∀ keywords quoting, (∀ key ∈ template.keys, (keywords.get? key).isSome) →
            template.fillNamed keywords quoting = .ok (Segment.text quoting
              (meaning table (cut.words.head? == some "delete") keywords (sentence cut))) := by
  constructor
  · intro shapeless
    have none := body?_eq_none name shapeless
    refine ⟨?_, rfl⟩
    simp only [Table.inferred, none]
    rfl
  · intro body nonempty shape
    have opened := (body?_eq_some_iff name body).mpr ⟨shape, nonempty⟩
    refine ⟨Cut.ofWords (words body), ?_, ⟨?_, ?_⟩, ?_, fun template compiled => ⟨?_, ?_⟩⟩
    · intro other
      rw [← Cut.ofWords_eq_iff, eq_comm]
    · rintro ⟨template, compiled⟩
      exact resolved_of_compiled name body template opened compiled
    · intro resolved
      obtain ⟨text, result⟩ := inferred_resolved braceless name body opened
        ((resolved_sentence body).mp resolved)
      exact ⟨_, result⟩
    · intro front target span back order resolved missing
      exact ⟨inferred_unresolved name body opened front back target span order resolved missing,
        rfl⟩
    · exact keys_inferred braceless name body template opened compiled
    · intro keywords quoting given
      rw [Cut.ofWords_words]
      exact fillNamed_inferred braceless name body template opened compiled given

theorem inferred_people :
    let people : Table := ⟨"t\x7bx\x7d", [{ name := "id", type := "integer" },
      { name := "last_name", type := "text" }]⟩
    let keywords := Record.ofPairs [("last_name", .text "O'Brien"), ("id", .integer 7)]
    people.Braceless ∧
    (∃ template, (people.inferred "sql_find_all_by__last_name_and_id").result = .ok template ∧
      template.keys = ["last_name", "id"] ∧
      template.fillNamed keywords .escaped =
        .ok "SELECT * FROM t\x7bx\x7d WHERE last_name = 'O''Brien' AND id = 7") ∧
    Fails (people.inferred "sql_delete_by_id_and__last").result
      (.unresolved "sql_delete_by_id_and__last" "last" ⟨21, 26⟩) .reference := by
  intro people keywords
  have braceless : people.Braceless := by decide
  refine ⟨braceless, ?_, ?_⟩
  · obtain ⟨cut, only, compiles, -, filled⟩ :=
      (inferred_means_its_words people braceless "sql_find_all_by__last_name_and_id").2
        "find_all_by__last_name_and_id" (by decide) (by decide)
    obtain rfl := (only _).mp ⟨Cut.ofWords_words _, Cut.ofWords_maximal _⟩
    obtain ⟨template, compiled⟩ := compiles.mpr (by decide)
    obtain ⟨keys, written⟩ := filled template compiled
    have spelled : template.keys = ["last_name", "id"] := keys.trans (by decide)
    refine ⟨template, compiled, spelled, ?_⟩
    rw [written keywords .escaped (by rw [spelled]; decide)]
    exact congrArg Except.ok (by decide)
  · obtain ⟨cut, only, -, fails, -⟩ :=
      (inferred_means_its_words people braceless "sql_delete_by_id_and__last").2
        "delete_by_id_and__last" (by decide) (by decide)
    obtain rfl := (only _).mp ⟨Cut.ofWords_words _, Cut.ofWords_maximal _⟩
    exact fails [("id", ⟨14, 16⟩)] "last" ⟨21, 26⟩ [] (by decide) (by decide) (by decide)

end Inferred

end NamedSql

import NamedSql.Proofs.FinderKeys
import NamedSql.Proofs.TokenPlaces

/-!
Faults that point into a name. A reference without a column is reported with the bytes of
its run, counted in the whole name. They lie behind the opening and inside the name, no
letter is cut by them, and they hold the run as it is spelled, with every underscore. The
column that is reported is the run without the underscores it begins with, so the bytes
read as that column exactly when the run begins with none.
-/
namespace NamedSql

namespace Cut

/-- What stands before some words depends on the words before them alone. -/
theorem intercalate_lead (front : List String) :
    ∃ lead : String, lead.utf8ByteSize = extent front ∧
      ∀ texts, texts ≠ [] → "_".intercalate (front ++ texts) = lead ++ "_".intercalate texts := by
  cases front with
  | nil => exact ⟨"", rfl, by simp⟩
  | cons first rest =>
      refine ⟨"_".intercalate (first :: rest) ++ "_", ?_, fun texts nonempty => ?_⟩
      · rw [extent_intercalate, String.utf8ByteSize_append]
        rfl
      · exact String.intercalate_append_of_ne_nil (by simp) nonempty

theorem intercalate_trail (run back : List String) (nonempty : run ≠ []) :
    ∃ trail : String, "_".intercalate (run ++ back) = "_".intercalate run ++ trail := by
  cases back with
  | nil => exact ⟨"", by simp⟩
  | cons first rest =>
      have joined := String.intercalate_append_of_ne_nil (s := "_") nonempty (m := first :: rest)
        (by simp)
      exact ⟨"_" ++ "_".intercalate (first :: rest), by rw [joined, String.append_assoc]⟩

theorem reads_run (before : String) (front run back : List String) (nonempty : run ≠ []) :
    Span.Reads ⟨before.utf8ByteSize + extent front,
        before.utf8ByteSize + extent front + ("_".intercalate run).utf8ByteSize⟩
      (before ++ "_".intercalate (front ++ run ++ back)) ("_".intercalate run) := by
  obtain ⟨lead, size, leading⟩ := intercalate_lead front
  obtain ⟨trail, trailing⟩ := intercalate_trail run back nonempty
  have whole : "_".intercalate (front ++ run ++ back) = lead ++ "_".intercalate run ++ trail := by
    rw [List.append_assoc, leading _ (by simp [nonempty]), trailing, String.append_assoc]
  have reads := Span.reads_between (before ++ lead) ("_".intercalate run) trail
  rw [String.utf8ByteSize_append, size] at reads
  rw [whole]
  simpa only [String.append_assoc] using reads

end Cut

namespace Inferred

variable {table : Table} {query column : String} {span : Span}

theorem reference_run (start : Nat) (run : List String) (later : List (Keyword × List String)) :
    ∀ reference ∈ references (Cut.phrasesFrom start run later),
      ∃ front texts back, Cut.words ⟨run, later⟩ = front ++ texts ++ back ∧ texts ≠ [] ∧
        reference = (Phrase.referent texts, ⟨start + Cut.extent front,
          start + Cut.extent front + ("_".intercalate texts).utf8ByteSize⟩) := by
  have alone (start : Nat) (run : List String) (reference : String × Span)
      (member : reference ∈ references (Cut.reference start run)) : run ≠ [] ∧
        reference = (Phrase.referent run, ⟨start, start + ("_".intercalate run).utf8ByteSize⟩) := by
    by_cases nameless : Phrase.referent run = ""
    · simp [Cut.reference, nameless, references] at member
    · refine ⟨?_, by simpa [Cut.reference, nameless, references, Phrase.reference?] using member⟩
      rintro rfl
      exact nameless rfl
  induction later generalizing start run with
  | nil =>
      intro reference member
      obtain ⟨nonempty, own⟩ := alone start run reference member
      exact ⟨[], run, [], by simp [Cut.words], nonempty, by simpa using own⟩
  | cons part rest ih =>
      intro reference member
      rw [Cut.phrasesFrom, references_append, references_control] at member
      rcases List.mem_append.mp member with here | after
      · obtain ⟨nonempty, own⟩ := alone start run reference here
        exact ⟨[], run, _, by rw [Cut.words, List.nil_append], nonempty, by simpa using own⟩
      · obtain ⟨front, texts, back, among, nonempty, own⟩ := ih _ _ reference after
        refine ⟨run ++ part.1.text :: front, texts, back, ?_, nonempty, ?_⟩
        · rw [Cut.words] at among ⊢
          rw [List.flatMap_cons, List.cons_append, among]
          simp
        · rw [own]
          simp only [Cut.extent_append, Cut.extent_cons, Cut.extent_nil, Nat.add_assoc,
            Nat.add_zero]

variable (query) in
theorem write_resolved_ok (deleting : Bool) (sentence : List Phrase)
    (resolved : ∀ reference ∈ references sentence, Resolved table reference) :
    ∃ text, (write table query deleting sentence).result = .ok text := by
  induction sentence with
  | nil => exact ⟨"", rfl⟩
  | cons phrase rest ih =>
      cases phrase with
      | control keyword =>
          obtain ⟨after, written⟩ := ih resolved
          refine ⟨clause table.name deleting keyword ++ after, ?_⟩
          simp only [write, Traced.result_bind, written]
          rfl
      | reference name span =>
          obtain ⟨after, written⟩ := ih fun other member =>
            resolved other (List.mem_cons_of_mem _ member)
          obtain ⟨column, found⟩ :=
            Table.exists_column? name (resolved (name, span) List.mem_cons_self)
          refine ⟨condition column ++ after, ?_⟩
          simp only [write, found, Traced.result_bind, written]
          rfl

-- Only a missing column is reported so: the text that is written may be no template, but
-- that fault is another.
theorem unresolved_reference (name : String)
    (failed : (table.inferred name).result = .error (.unresolved query column span)) :
    ∃ body, name = opening ++ body ∧ query = name ∧
      (column, span) ∈ references (sentence (Cut.ofWords (words body))) ∧
      ¬ Resolved table (column, span) := by
  cases shape : body? name with
  | none =>
      rw [Table.inferred, shape] at failed
      cases failed
  | some body =>
      refine ⟨body, ((body?_eq_some_iff name body).mp shape).1, ?_⟩
      by_cases resolved : ∀ reference ∈ references (sentence (Cut.ofWords (words body))),
          Resolved table reference
      · obtain ⟨text, written⟩ := write_resolved_ok name (deletes (tokens body)) _
          ((resolved_sentence body).mp resolved)
        rw [inferred_result name body shape, written, Except.bind] at failed
        obtain ⟨defect, other⟩ := Template.read_eq_error _ failed
        cases other
      · obtain ⟨front, target, place, back, order, earlier, missing⟩ :=
          first_unresolved _ resolved
        have first := inferred_unresolved name body shape front back target place order earlier
          missing
        obtain ⟨rfl, rfl, rfl⟩ :=
          Fault.unresolved.inj (Except.error.inj (failed.symm.trans first))
        exact ⟨rfl, by simp [order], missing⟩

theorem reference_reads (body : String) (reference : String × Span)
    (member : reference ∈ references (sentence (Cut.ofWords (words body)))) :
    ∃ run, reference.2.Reads (opening ++ body) run ∧
      opening.utf8ByteSize ≤ reference.2.start ∧ reference.1 = bare run := by
  obtain ⟨front, texts, back, among, nonempty, rfl⟩ := reference_run _ _ _ reference member
  have whole : words body = front ++ texts ++ back := (Cut.ofWords_words _).symm.trans among
  have unbarred : ∀ text ∈ texts, '_' ∉ text.toList := by
    intro text inside
    exact words_unbarred body text (by simp [whole, inside])
  refine ⟨"_".intercalate texts, ?_, Nat.le_add_right _ _, ?_⟩
  · have reads := Cut.reads_run opening front texts back nonempty
    rwa [← whole, intercalate_words] at reads
  · rw [← referent_words, words_intercalate texts nonempty unbarred]

-- The bytes are those of the run, so they are right for the words that were looked at. They
-- are the bytes of the column too unless underscores of the run are lost in its name.
theorem unresolved_reads_iff (table : Table) (name query column : String) (span : Span)
    (failed : (table.inferred name).result = .error (.unresolved query column span)) :
    query = name ∧ column ∉ table.columns.map (·.name) ∧
    "sql_".utf8ByteSize ≤ span.start ∧ span.stop ≤ name.utf8ByteSize ∧
    ∃ run, span.Reads name run ∧ column = bare run ∧
      (span.Reads name column ↔ run.toList.head? ≠ some '_') := by
  obtain ⟨body, rfl, rfl, member, missing⟩ := unresolved_reference name failed
  obtain ⟨run, reads, opened, stripped⟩ := reference_reads body (column, span) member
  obtain rfl : column = bare run := stripped
  have inside : span.stop ≤ (opening ++ body).utf8ByteSize := reads.closes.le_utf8ByteSize
  refine ⟨rfl, missing, opened, inside, run, reads, rfl, ?_⟩
  rw [← bare_eq_self_iff]
  constructor
  · intro own
    exact own.slice.symm.trans reads.slice
  · intro same
    rwa [same]

theorem unresolved_reads_people :
    let people : Table := ⟨"people", [{ name := "é", type := "text" }]⟩
    let name := "sql_find_by_é_and_ñ_x"
    (people.inferred name).result = .error (.unresolved name "ñ_x" ⟨19, 23⟩) ∧
    "ñ_x" ∉ people.columns.map (·.name) ∧ Span.Reads ⟨19, 23⟩ name "ñ_x" := by
  intro people name
  have failed : (people.inferred name).result = .error (.unresolved name "ñ_x" ⟨19, 23⟩) := by
    decide
  obtain ⟨-, missing, -, -, run, reads, -, own⟩ := unresolved_reads_iff people name _ _ _ failed
  have spelled : run = "ñ_x" := reads.slice.symm.trans (by decide)
  exact ⟨failed, missing, own.mpr (by rw [spelled]; decide)⟩

-- The bytes of the column would be one fewer: the empty word is counted and not spelled.
theorem empty_word_in_span :
    let tags : Table := ⟨"t", [{ name := "id", type := "integer" }]⟩
    let name := "sql_find_all_by__x"
    (Table.define tags.name tags.columns).result = .ok tags ∧
    (tags.inferred name).result = .error (.unresolved name "x" ⟨16, 18⟩) ∧
    Span.Reads ⟨16, 18⟩ name "_x" ∧ ¬ Span.Reads ⟨16, 18⟩ name "x" := by
  intro tags name
  have slice : String.Pos.Raw.extract name ⟨16⟩ ⟨18⟩ = "_x" := by decide
  refine ⟨by simp [Table.define, tags], by decide, ?_, ?_⟩
  · exact Span.reads_between "sql_find_all_by_" "_x" ""
  · intro own
    exact absurd (slice.symm.trans own.slice) (by decide)

end Inferred

end NamedSql

import NamedSql.Proofs.InferredMeaning
import NamedSql.Proofs.StandardConfinement

/-!
Confinement of text values in inferred queries. Here no column writes its own literal:
the quotes stand in the template, and the reader finds out that a slot stands between
them. What a name says is already known in segments, so the argument is about those,
one phrase at a time. Null is no exception here and has a literal of its own.
-/
namespace NamedSql

namespace Inferred

open Quoting (mark)
open Segment (Apart apart_before_code hollow inside)

variable {table : Table} {deleting : Bool} {keywords : Record}

/-- Each reference has a column and a value, and a value that is no text has no quotes. -/
def Fitting (table : Table) (keywords : Record) (sentence : List Phrase) : Prop :=
  ∀ reference ∈ references sentence, ∃ column value,
    table.column? reference.1 = some column ∧ keywords.get? reference.1 = some value ∧
      Value.Bare (some column) value

variable (deleting) in
theorem clean_spoken (quoteless : table.Quoteless) (keyword : Keyword) :
    mark ∉ (spoken table.name deleting keyword).toList := by
  have around := table.clean_around quoteless.1
  cases keyword with
  | select => exact show mark ∉ "SELECT ".toList by decide
  | find => exact show mark ∉ "SELECT ".toList by decide
  | all =>
      cases deleting with
      | true => exact List.not_mem_nil
      | false => exact around "* FROM " " " (by decide) (by decide)
  | whose => exact show mark ∉ "WHERE ".toList by decide
  | and => exact show mark ∉ "AND ".toList by decide
  | delete => exact around "DELETE FROM " " " (by decide) (by decide)

theorem ending_apart (letters : List Char) (clean : mark ∉ letters) : Apart (ending letters) := by
  unfold ending
  split
  · trivial
  · exact ⟨fun member => clean (Text.mem_of_mem_trimEnd _ _ member), trivial⟩

theorem inside_ending (letters : List Char) : (ending letters).flatMap inside = [] := by
  unfold ending
  split <;> rfl

theorem comparison_apart (column : Column) (value : Value) (named : mark ∉ column.name.toList)
    (bare : Value.Bare (some column) value) : Apart (comparison column value) := by
  have opened : mark ∉ (column.name ++ " = ").toList := by simp [named]; decide
  unfold comparison
  cases text : column.isText with
  | true => exact ⟨opened, by simp [Segment.Unmarked], trivial⟩
  | false => exact ⟨opened, bare text, trivial⟩

theorem hollow_comparison (column : Column) (left right : Value)
    (agree : column.isText = false → left = right) :
    (comparison column left).map hollow = (comparison column right).map hollow := by
  unfold comparison
  cases text : column.isText with
  | true => rfl
  | false => rw [agree text]

variable (deleting) in
theorem meaning_apart (quoteless : table.Quoteless) (sentence : List Phrase)
    (fitting : Fitting table keywords sentence) :
    Apart (meaning table deleting keywords sentence) := by
  induction sentence with
  | nil => trivial
  | cons phrase rest ih =>
      cases phrase with
      | control keyword =>
          have later := ih fitting
          have clean := clean_spoken deleting quoteless keyword
          by_cases last : meaning table deleting keywords rest = []
          · rw [meaning_control_last keyword last]
            exact ending_apart _ clean
          · rw [meaning_control_more keyword last]
            exact ⟨clean, later⟩
      | reference name span =>
          obtain ⟨column, value, found, given, bare⟩ := fitting (name, span) List.mem_cons_self
          have later := ih fun other member => fitting other (List.mem_cons_of_mem _ member)
          have named := quoteless.2 column (Table.column?_eq_some name column found).1
          have compared := comparison_apart column value named bare
          by_cases last : meaning table deleting keywords rest = []
          · rw [meaning_reference_last name span column value found given last]
            exact compared
          · rw [meaning_reference_more name span column value found given last]
            exact apart_before_code _ [' '] (by decide) (by decide) _ compared later

/-- The texts that are given for text columns, in the order of the keys. -/
def texts (table : Table) (keywords : Record) (keys : List String) : List (List Char) :=
  (keys.filter fun key => takesText (table.receiver key)).filterMap fun key =>
    (keywords.get? key).map fun value => value.render.toList

theorem texts_cons (key : String) (rest : List String) :
    texts table keywords (key :: rest) =
      texts table keywords [key] ++ texts table keywords rest := by
  simp only [texts, ← List.filterMap_append, ← List.filter_append, List.singleton_append]

variable (deleting) in
theorem inside_meaning (sentence : List Phrase) (fitting : Fitting table keywords sentence) :
    (meaning table deleting keywords sentence).flatMap inside =
      texts table keywords ((references sentence).map (·.1)) := by
  induction sentence with
  | nil => rfl
  | cons phrase rest ih =>
      cases phrase with
      | control keyword =>
          have later := ih fitting
          by_cases last : meaning table deleting keywords rest = []
          · rw [last] at later
            rw [meaning_control_last keyword last, inside_ending]
            exact later
          · rw [meaning_control_more keyword last]
            exact later
      | reference name span =>
          obtain ⟨column, value, found, given, -⟩ := fitting (name, span) List.mem_cons_self
          have later := ih fun other member => fitting other (List.mem_cons_of_mem _ member)
          have first : (comparison column value).flatMap inside = texts table keywords [name] := by
            cases text : column.isText <;>
              simp [comparison, texts, ← Table.column?_eq_receiver, found, given, text, inside]
          rw [references_reference, List.map_cons, texts_cons, ← first, ← later]
          by_cases last : meaning table deleting keywords rest = []
          · rw [meaning_reference_last name span column value found given last, last]
            simp
          · rw [meaning_reference_more name span column value found given last, List.flatMap_append]
            rfl

variable (deleting) in
theorem hollow_meaning (left right : Record) (sentence : List Phrase)
    (leftFitting : Fitting table left sentence) (rightFitting : Fitting table right sentence)
    (agree : ∀ reference ∈ references sentence, takesText (table.receiver reference.1) = false →
      left.get? reference.1 = right.get? reference.1) :
    (meaning table deleting left sentence).map hollow =
      (meaning table deleting right sentence).map hollow := by
  induction sentence with
  | nil => rfl
  | cons phrase rest ih =>
      cases phrase with
      | control keyword =>
          have later := ih leftFitting rightFitting agree
          have empty := Segment.nil_iff_of_hollow _ _ later
          by_cases last : meaning table deleting left rest = []
          · rw [meaning_control_last keyword last, meaning_control_last keyword (empty.mp last)]
          · have more : meaning table deleting right rest ≠ [] := fun none => last (empty.mpr none)
            rw [meaning_control_more keyword last, meaning_control_more keyword more]
            rw [List.map_cons, List.map_cons, later]
      | reference name span =>
          obtain ⟨column, first, found, given, -⟩ := leftFitting (name, span) List.mem_cons_self
          obtain ⟨other, second, again, held, -⟩ := rightFitting (name, span) List.mem_cons_self
          obtain rfl : column = other := Option.some.inj (found.symm.trans again)
          have later := ih (fun other member => leftFitting other (List.mem_cons_of_mem _ member))
            (fun other member => rightFitting other (List.mem_cons_of_mem _ member))
            (fun other member => agree other (List.mem_cons_of_mem _ member))
          have same : column.isText = false → first = second := by
            intro text
            have textless : takesText (table.receiver name) = false := by
              simp [← Table.column?_eq_receiver, found, text]
            have equal := agree (name, span) List.mem_cons_self textless
            exact Option.some.inj (given.symm.trans (equal.trans held))
          have compared := hollow_comparison column first second same
          have empty := Segment.nil_iff_of_hollow _ _ later
          by_cases last : meaning table deleting left rest = []
          · rw [meaning_reference_last name span column first found given last,
              meaning_reference_last name span column second found held (empty.mp last)]
            exact compared
          · have more : meaning table deleting right rest ≠ [] := fun none => last (empty.mpr none)
            rw [meaning_reference_more name span column first found given last,
              meaning_reference_more name span column second found held more]
            simp only [List.map_append, List.map_cons, compared, later]

/-- Keywords that give every key of a template a value, without quotes unless the key is
the name of a text column. -/
def Fits (table : Table) (template : Template) (keywords : Record) : Prop :=
  ∀ key ∈ template.keys, ∃ value, keywords.get? key = some value ∧
    Value.Bare (table.receiver key) value

-- The keys are the references of the name, so what fits the one fits the other.
theorem fitting_of_fits (braceless : table.Braceless) (name body : String) (template : Template)
    (shape : body? name = some body) (compiled : (table.inferred name).result = .ok template)
    (fits : Fits table template keywords) :
    Fitting table keywords (sentence (Cut.ofWords (words body))) := by
  have resolved := resolved_of_compiled name body template shape compiled
  rw [Fits, keys_inferred braceless name body template shape compiled] at fits
  intro reference member
  obtain ⟨column, found⟩ := Table.exists_column? reference.1 (resolved reference member)
  obtain ⟨value, given, bare⟩ := fits reference.1 (List.mem_map_of_mem member)
  rw [← Table.column?_eq_receiver, found] at bare
  exact ⟨column, value, found, given, bare⟩

theorem read_filled (quoteless : table.Quoteless) (braceless : table.Braceless)
    (name body : String) (template : Template) (shape : body? name = some body)
    (compiled : (table.inferred name).result = .ok template)
    (fits : Fits table template keywords) :
    ∃ text, template.fillNamed keywords .escaped = .ok text ∧
      Literals.read text = some (Segment.reading (meaning table
        ((words body).head? == some "delete") keywords (sentence (Cut.ofWords (words body))))) := by
  have fitting := fitting_of_fits braceless name body template shape compiled fits
  have apart := meaning_apart ((words body).head? == some "delete") quoteless _ fitting
  have given : ∀ key ∈ template.keys, (keywords.get? key).isSome := by
    intro key member
    obtain ⟨value, held, -⟩ := fits key member
    simp [held]
  exact ⟨_, fillNamed_inferred braceless name body template shape compiled given,
    Segment.read_text _ apart⟩

-- The quotes of a slot are found by the reader of the template, not written for the
-- value, and still every text ends up in the literal of its key and nowhere else.
theorem inferred_confined (table : Table) (quoteless : table.Quoteless)
    (braceless : table.Braceless) (name : String) (template : Template)
    (compiled : (table.inferred name).result = .ok template) :
    (∀ keywords, Fits table template keywords →
      ∃ text literals, template.fillNamed keywords .escaped = .ok text ∧
        Literals.read text = some literals ∧
        literals.contents = texts table keywords template.keys) ∧
    ∀ left right, Fits table template left → Fits table template right →
      (∀ key ∈ template.keys, takesText (table.receiver key) = false →
        left.get? key = right.get? key) →
      (template.fillNamed left .escaped).map (fun text => (Literals.read text).map (·.skeleton)) =
        (template.fillNamed right .escaped).map fun text =>
          (Literals.read text).map (·.skeleton) := by
  obtain ⟨body, shape⟩ := body_of_compiled name template compiled
  have keys := keys_inferred braceless name body template shape compiled
  constructor
  · intro keywords fits
    obtain ⟨text, filled, read⟩ := read_filled quoteless braceless name body template shape
      compiled fits
    have fitting := fitting_of_fits braceless name body template shape compiled fits
    refine ⟨text, _, filled, read, ?_⟩
    rw [keys]
    exact inside_meaning _ _ fitting
  · intro left right leftFits rightFits agree
    have leftFitting := fitting_of_fits braceless name body template shape compiled leftFits
    have rightFitting := fitting_of_fits braceless name body template shape compiled rightFits
    obtain ⟨first, leftFilled, leftRead⟩ := read_filled quoteless braceless name body template
      shape compiled leftFits
    obtain ⟨second, rightFilled, rightRead⟩ := read_filled quoteless braceless name body template
      shape compiled rightFits
    rw [keys] at agree
    have outline := hollow_meaning ((words body).head? == some "delete") left right _ leftFitting
      rightFitting fun reference member => agree reference.1 (List.mem_map_of_mem member)
    have skeletons := Segment.skeleton_eq_of_hollow _ _ outline
    simp only [leftFilled, rightFilled, Except.map, leftRead, rightRead, Option.map_some, skeletons]

theorem inferred_confined_people :
    let people : Table := ⟨"people", [{ name := "id", type := "integer" },
      { name := "name", type := "text" }, { name := "age", type := "integer" }]⟩
    let called (letters : String) := Record.ofPairs [("name", .text letters), ("age", .integer 7)]
    let hostile := "\x7bage\x7d' OR '"
    people.Quoteless ∧ people.Braceless ∧ ∃ template,
      (people.inferred "sql_find_all_by_name_and_age_and_name").result = .ok template ∧
      (∀ letters, Fits people template (called letters)) ∧
      (∃ text literals, template.fillNamed (called hostile) .escaped = .ok text ∧
        Literals.read text = some literals ∧
        literals.contents = [hostile.toList, hostile.toList]) ∧
      (template.fillNamed (called hostile) .escaped).map
          (fun text => (Literals.read text).map (·.skeleton)) =
        (template.fillNamed (called "Ada") .escaped).map fun text =>
          (Literals.read text).map (·.skeleton) := by
  intro people called hostile
  have quoteless : people.Quoteless := by decide
  have braceless : people.Braceless := by decide
  have shape : body? "sql_find_all_by_name_and_age_and_name" =
      some "find_all_by_name_and_age_and_name" := by decide
  obtain ⟨template, compiled⟩ : ∃ template,
      (people.inferred "sql_find_all_by_name_and_age_and_name").result = .ok template := by
    obtain ⟨text, compiled⟩ := inferred_resolved braceless _ _ shape (by decide)
    exact ⟨_, compiled⟩
  have keys : template.keys = ["name", "age", "name"] :=
    (keys_inferred braceless _ _ _ shape compiled).trans (by decide)
  have fits (letters : String) : Fits people template (called letters) := by
    intro key member
    rw [keys] at member
    have named : (called letters).get? "name" = some (.text letters) := by
      simp [called, Record.ofPairs, Record.get?_set]
    have aged : (called letters).get? "age" = some (.integer 7) := by
      simp [called, Record.ofPairs]
    simp only [List.mem_cons, List.not_mem_nil, or_false] at member
    rcases member with rfl | rfl | rfl
    · exact ⟨_, named, fun text => absurd text (by decide)⟩
    · exact ⟨_, aged, by decide⟩
    · exact ⟨_, named, fun text => absurd text (by decide)⟩
  obtain ⟨confined, alike⟩ := inferred_confined people quoteless braceless _ template compiled
  obtain ⟨text, literals, filled, read, contents⟩ := confined (called hostile) (fits hostile)
  rw [keys] at contents
  refine ⟨quoteless, braceless, template, compiled, fits, ⟨text, literals, filled, read, ?_⟩, ?_⟩
  · exact contents.trans (by decide)
  · refine alike _ _ (fits hostile) (fits "Ada") fun key member textless => ?_
    rw [keys] at member
    simp only [List.mem_cons, List.not_mem_nil, or_false] at member
    rcases member with rfl | rfl | rfl
    · exact absurd textless (by decide)
    · simp [called, Record.ofPairs]
    · exact absurd textless (by decide)

end Inferred

end NamedSql

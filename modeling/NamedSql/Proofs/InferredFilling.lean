import NamedSql.Proofs.InferredPhrases

/-!
Filling the template of phrases. The items are filled from the left, and what phrases say
is built from the right. Both end where the last phrase that is not blank ends, so the one
induction has to follow the trimming as well as the filling.
-/
namespace NamedSql

namespace Inferred

open Quoting (mark)

variable {table : Table} {deleting : Bool} {keywords : Record} {quoting : Quoting}
  {rest : List Phrase}

theorem meaning_control_last (keyword : Keyword)
    (last : meaning table deleting keywords rest = []) :
    meaning table deleting keywords (.control keyword :: rest) =
      ending (spoken table.name deleting keyword).toList := by
  simp [meaning, last]

theorem meaning_control_more (keyword : Keyword)
    (more : meaning table deleting keywords rest ≠ []) :
    meaning table deleting keywords (.control keyword :: rest) =
      .code (spoken table.name deleting keyword).toList ::
        meaning table deleting keywords rest := by
  simp only [meaning]

theorem meaning_reference_last (name : String) (span : Span) (column : Column) (value : Value)
    (found : table.column? name = some column) (given : keywords.get? name = some value)
    (last : meaning table deleting keywords rest = []) :
    meaning table deleting keywords (.reference name span :: rest) = comparison column value := by
  simp [meaning, last, found, given]

theorem meaning_reference_more (name : String) (span : Span) (column : Column) (value : Value)
    (found : table.column? name = some column) (given : keywords.get? name = some value)
    (more : meaning table deleting keywords rest ≠ []) :
    meaning table deleting keywords (.reference name span :: rest) =
      comparison column value ++ .code [' '] :: meaning table deleting keywords rest := by
  simp only [meaning, found, given]

theorem trim_comparison (column : Column) :
    Item.trim (comparisonItems column ++ [.plain ' ']) = comparisonItems column := by
  have slot : Item.trim (slotItems column ++ [.plain ' ']) = slotItems column := by
    cases text : column.isText <;>
      simp [slotItems, text, Item.trim, Item.isBlankLetter, Text.isBlank, Text.blankRanges, mark]
  have kept : Item.trim (slotItems column ++ [.plain ' ']) ≠ [] := by
    rw [slot]
    cases text : column.isText <;> simp [slotItems, text]
  rw [comparisonItems, List.append_assoc, Item.trim_append_of_ne_nil _ _ kept, slot]

variable (quoting) in
theorem substitute_comparison (column : Column) (value : Value) (afterMark : Bool)
    (after : List Item) (given : keywords.get? column.name = some value)
    (apart : Piece.startsWithMark after = false) :
    ∃ met, Item.substitute keywords quoting afterMark (comparisonItems column ++ after) =
      (Item.substitute keywords quoting met after).map
        ((comparison column value).flatMap (Segment.write quoting) ++ ·) := by
  obtain ⟨met, opened⟩ := Item.substitute_ofText keywords quoting
    afterMark (column.name ++ " = ").toList (slotItems column ++ after)
  rw [← List.append_assoc] at opened
  cases text : column.isText with
  | false =>
      refine ⟨false, ?_⟩
      rw [comparisonItems, opened]
      cases filled : Item.substitute keywords quoting false after <;>
        simp [slotItems, text, Item.substitute, given, apart, filled, comparison, Segment.write,
          Except.map]
  | true =>
      -- The quote before the slot is met, and the one after it is the next letter.
      refine ⟨true, ?_⟩
      rw [comparisonItems, opened]
      cases filled : Item.substitute keywords quoting true after <;>
        simp [slotItems, text, Item.substitute, given, Piece.startsWithMark, filled, comparison,
          Segment.write, Quoting.apply_eq_between, Except.map]

theorem trim_comparison_append (column : Column) (after : List Item) :
    Item.trim (comparisonItems column ++ .plain ' ' :: after) =
      if Item.trim after = [] then comparisonItems column
      else comparisonItems column ++ .plain ' ' :: Item.trim after := by
  have split : comparisonItems column ++ .plain ' ' :: after =
      (comparisonItems column ++ [.plain ' ']) ++ after := by simp
  rw [split]
  by_cases nothing : Item.trim after = []
  · rw [Item.trim_append_of_eq_nil _ _ nothing, trim_comparison]
    simp [nothing]
  · rw [Item.trim_append_of_ne_nil _ _ nothing]
    simp [nothing]

/-- The values that a sentence needs, each for a column that answers to its name. -/
def Supplied (table : Table) (keywords : Record) (sentence : List Phrase) : Prop :=
  ∀ reference ∈ references sentence, ∃ column value,
    table.column? reference.1 = some column ∧ keywords.get? reference.1 = some value

variable (keywords quoting) in
theorem substitute_text (afterMark : Bool) (letters : List Char) (after : List Item)
    (written : List Char)
    (tail : ∀ met, Item.substitute keywords quoting met after = .ok written) :
    Item.substitute keywords quoting afterMark (Item.ofText letters ++ after) =
      .ok (letters ++ written) := by
  obtain ⟨met, opened⟩ := Item.substitute_ofText keywords quoting afterMark letters after
  rw [opened, tail]
  rfl

/-- The trimmed items of phrases are filled to what the phrases mean, and run out exactly
when that does. Without the second part no clause could be known to be the last. -/
def Filled (table : Table) (deleting : Bool) (keywords : Record) (quoting : Quoting)
    (sentence : List Phrase) : Prop :=
  (Item.trim (items table deleting sentence) = [] ↔ meaning table deleting keywords sentence = []) ∧
  ∀ afterMark, Item.substitute keywords quoting afterMark
      (Item.trim (items table deleting sentence)) =
    .ok ((meaning table deleting keywords sentence).flatMap (Segment.write quoting))

theorem filled_control (keyword : Keyword) (later : Filled table deleting keywords quoting rest) :
    Filled table deleting keywords quoting (.control keyword :: rest) := by
  obtain ⟨empty, filled⟩ := later
  by_cases last : meaning table deleting keywords rest = []
  · have shape : Item.trim (items table deleting (.control keyword :: rest)) =
        Item.ofText (Text.trimEnd (spoken table.name deleting keyword).toList) := by
      rw [items, Item.trim_append_of_eq_nil _ _ (empty.mpr last), Item.trim_ofText]
    rw [Filled, shape, meaning_control_last keyword last]
    constructor
    · simp [Item.ofText, ending]
    · intro afterMark
      have alone := substitute_text keywords quoting afterMark
        (Text.trimEnd (spoken table.name deleting keyword).toList) [] [] (fun _ => rfl)
      by_cases blank : Text.trimEnd (spoken table.name deleting keyword).toList = []
      · simp [ending, blank, Item.ofText, Item.substitute]
      · simpa [ending, blank, Segment.write] using alone
  · have kept : Item.trim (items table deleting rest) ≠ [] := fun none => last (empty.mp none)
    rw [Filled, items, Item.trim_append_of_ne_nil _ _ kept, meaning_control_more keyword last]
    constructor
    · simp [kept]
    · intro afterMark
      exact substitute_text keywords quoting afterMark _ _ _ filled

theorem filled_reference (name : String) (span : Span) (column : Column) (value : Value)
    (found : table.column? name = some column) (given : keywords.get? name = some value)
    (later : Filled table deleting keywords quoting rest) :
    Filled table deleting keywords quoting (.reference name span :: rest) := by
  obtain ⟨empty, filled⟩ := later
  have own : keywords.get? column.name = some value := by
    rw [(Table.column?_eq_some name column found).2]
    exact given
  by_cases last : meaning table deleting keywords rest = []
  · have shape : Item.trim (items table deleting (.reference name span :: rest)) =
        comparisonItems column := by
      simp only [items, found, trim_comparison_append, empty.mpr last, ↓reduceIte]
    rw [Filled, shape, meaning_reference_last name span column value found given last]
    constructor
    · simp [comparisonItems, comparison, Item.ofText]
    · intro afterMark
      obtain ⟨met, compared⟩ := substitute_comparison quoting column value afterMark [] own rfl
      rw [List.append_nil] at compared
      rw [compared]
      simp [Item.substitute, Except.map]
  · have kept : Item.trim (items table deleting rest) ≠ [] := fun none => last (empty.mp none)
    have shape : Item.trim (items table deleting (.reference name span :: rest)) =
        comparisonItems column ++ .plain ' ' :: Item.trim (items table deleting rest) := by
      simp only [items, found, trim_comparison_append, kept, ↓reduceIte]
    rw [Filled, shape, meaning_reference_more name span column value found given last]
    constructor
    · simp
    · intro afterMark
      obtain ⟨met, compared⟩ := substitute_comparison quoting column value afterMark
        (.plain ' ' :: Item.trim (items table deleting rest)) own rfl
      rw [compared]
      simp [Item.substitute, filled, Segment.write, Except.map]

variable (deleting quoting) in
theorem filled_of_supplied (sentence : List Phrase) (supplied : Supplied table keywords sentence) :
    Filled table deleting keywords quoting sentence := by
  induction sentence with
  | nil =>
      constructor
      · simp [items, meaning, Item.trim]
      · intro afterMark
        rfl
  | cons phrase rest ih =>
      cases phrase with
      | control keyword => exact filled_control keyword (ih supplied)
      | reference name span =>
          have later := ih fun other member => supplied other (List.mem_cons_of_mem _ member)
          obtain ⟨column, value, found, given⟩ := supplied (name, span) List.mem_cons_self
          exact filled_reference name span column value found given later

end Inferred

end NamedSql

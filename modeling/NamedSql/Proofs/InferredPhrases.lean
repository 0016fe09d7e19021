import NamedSql.Proofs.NameCut
import NamedSql.Proofs.TemplateItems
import NamedSql.Proofs.TextSegments

/-!
What phrases say, without the template between. The text of phrases is written straight
as segments: the clauses of control words, and for each reference a comparison of the
column with its value. The template has the same phrases as items. Column names without
braces are assumed, because they stand in the text of the template as they are. The name
of the table is escaped and may be any.
-/
namespace NamedSql

def Phrase.reference? : Phrase → Option (String × Span)
  | .control _ => none
  | .reference name span => some (name, span)

namespace Table

variable {table : Table}

/-- Slots are spelled with column names, so a brace in one would end its slot. -/
def Braceless (table : Table) : Prop :=
  ∀ column ∈ table.columns, Item.Unbraced column.name.toList

instance : Decidable table.Braceless :=
  inferInstanceAs (Decidable (∀ column ∈ table.columns, Item.Unbraced column.name.toList))

end Table

namespace Inferred

open Quoting (mark)

variable {table : Table} {query : String} {deleting : Bool} {keywords : Record}
  {quoting : Quoting}

/-- The references of phrases in order, with the bytes they stand at. -/
def references (sentence : List Phrase) : List (String × Span) :=
  sentence.filterMap Phrase.reference?

def shifted (distance : Nat) : Phrase → Phrase
  | .control keyword => .control keyword
  | .reference name span => .reference name (span.shift distance)

@[simp] theorem references_control (keyword : Keyword) (rest : List Phrase) :
    references (.control keyword :: rest) = references rest := rfl

@[simp] theorem references_reference (name : String) (span : Span) (rest : List Phrase) :
    references (.reference name span :: rest) = (name, span) :: references rest := rfl

theorem references_append (left right : List Phrase) :
    references (left ++ right) = references left ++ references right :=
  List.filterMap_append

def Resolved (table : Table) (reference : String × Span) : Prop :=
  reference.1 ∈ table.columns.map (·.name)

instance (reference : String × Span) : Decidable (Resolved table reference) :=
  inferInstanceAs (Decidable (reference.1 ∈ table.columns.map (·.name)))

/-- The clause of a control word around the name of the table as it is. -/
def spoken (table : String) (deleting : Bool) : Keyword → String
  | .select => "SELECT "
  | .find => "SELECT "
  | .all => if deleting then "" else "* FROM " ++ table ++ " "
  | .whose => "WHERE "
  | .and => "AND "
  | .delete => "DELETE FROM " ++ table ++ " "

/-- A column compared with its value. A null is no exception: it is compared with its
text, between quotes for a text column. -/
def comparison (column : Column) (value : Value) : List Segment :=
  [.code (column.name ++ " = ").toList,
    if column.isText then .literal value.render else .code value.render.toList]

/-- Code that nothing follows, which is kept up to its last letter that is not blank. -/
def ending (letters : List Char) : List Segment :=
  if Text.trimEnd letters = [] then [] else [.code (Text.trimEnd letters)]

/-- The text of phrases for given values. One space stands between a comparison and
what follows it. -/
def meaning (table : Table) (deleting : Bool) (keywords : Record) : List Phrase → List Segment
  | [] => []
  | .control keyword :: rest =>
      let clause := (spoken table.name deleting keyword).toList
      match meaning table deleting keywords rest with
      | [] => ending clause
      | after => .code clause :: after
  | .reference name _ :: rest =>
      let compared := match table.column? name, keywords.get? name with
        | some column, some value => comparison column value
        | _, _ => []
      match meaning table deleting keywords rest with
      | [] => compared
      | after => compared ++ .code [' '] :: after

/-! Resolution. Phrases are written from the left, and the first reference without a
column ends the writing. -/
section Resolution

variable (query deleting) in
theorem write_unresolved (sentence : List Phrase) (front back : List (String × Span))
    (name : String) (span : Span) (order : references sentence = front ++ (name, span) :: back)
    (resolved : ∀ reference ∈ front, Resolved table reference)
    (missing : name ∉ table.columns.map (·.name)) :
    (write table query deleting sentence).result =
      .error (.unresolved query name (span.shift opening.utf8ByteSize)) := by
  induction sentence generalizing front with
  | nil => simp [references] at order
  | cons phrase rest ih =>
      cases phrase with
      | control keyword =>
          have later := ih front order resolved
          simp only [write, Traced.result_bind, later]
          rfl
      | reference first place =>
          rw [references_reference] at order
          cases front with
          | nil =>
              obtain ⟨⟨rfl, rfl⟩, -⟩ : (first = name ∧ place = span) ∧ references rest = back := by
                simpa using order
              have absent := (Table.column?_eq_none_iff first).mpr missing
              simp only [write, absent]
              rfl
          | cons head more =>
              obtain ⟨rfl, tail⟩ : (first, place) = head ∧
                  references rest = more ++ (name, span) :: back := by simpa using order
              have later := ih more tail fun other member =>
                resolved other (List.mem_cons_of_mem _ member)
              obtain ⟨column, found⟩ :=
                Table.exists_column? first (resolved (first, place) List.mem_cons_self)
              simp only [write, found, Traced.result_bind, later]
              rfl

end Resolution

/-! The template between. Resolved phrases are written as items, and what is written
is read back as those items, so the template parser never sees a stray brace. -/
section Spelling

def slotItems (column : Column) : List Item :=
  if column.isText then [.plain mark, .named column.name.toList, .plain mark]
  else [.named column.name.toList]

def comparisonItems (column : Column) : List Item :=
  Item.ofText (column.name ++ " = ").toList ++ slotItems column

def items (table : Table) (deleting : Bool) : List Phrase → List Item
  | [] => []
  | .control keyword :: rest =>
      Item.ofText (spoken table.name deleting keyword).toList ++ items table deleting rest
  | .reference name _ :: rest =>
      match table.column? name with
      | some column => comparisonItems column ++ .plain ' ' :: items table deleting rest
      | none => items table deleting rest

theorem flatMap_write_ofText (letters : List Char) (unbraced : Item.Unbraced letters) :
    (Item.ofText letters).flatMap Item.write = letters := by
  have each := unbraced.each
  clear unbraced
  induction letters with
  | nil => rfl
  | cons letter rest ih =>
      have head := each letter List.mem_cons_self
      have tail := ih fun other member => each other (List.mem_cons_of_mem letter member)
      rw [Item.ofText] at tail
      simp [Item.ofText, Item.write, head, tail]

theorem toList_clause (keyword : Keyword) :
    (clause table.name deleting keyword).toList =
      (Item.ofText (spoken table.name deleting keyword).toList).flatMap Item.write := by
  have around (before : String) (unbraced : Item.Unbraced before.toList) :
      (before ++ Template.escape table.name ++ " ").toList =
        (Item.ofText (before ++ table.name ++ " ").toList).flatMap Item.write := by
    have opened := flatMap_write_ofText before.toList unbraced
    simp only [String.toList_append, Item.toList_escape]
    simp only [Item.ofText, List.map_append, List.flatMap_append] at opened ⊢
    rw [opened]
    rfl
  have fixed (words : String) (unbraced : Item.Unbraced words.toList) :
      words.toList = (Item.ofText words.toList).flatMap Item.write :=
    (flatMap_write_ofText words.toList unbraced).symm
  cases keyword with
  | select => exact fixed "SELECT " (by decide)
  | find => exact fixed "SELECT " (by decide)
  | all =>
      cases deleting with
      | true => rfl
      | false => exact around "* FROM " (by decide)
  | whose => exact fixed "WHERE " (by decide)
  | and => exact fixed "AND " (by decide)
  | delete => exact around "DELETE FROM " (by decide)

theorem toList_condition (column : Column) (unbraced : Item.Unbraced column.name.toList) :
    (condition column).toList =
      (comparisonItems column ++ [Item.plain ' ']).flatMap Item.write := by
  have named := flatMap_write_ofText column.name.toList unbraced
  rw [Item.ofText] at named
  cases text : column.isText <;>
    simp [condition, comparisonItems, slotItems, text, Item.ofText, named, Item.write, mark]

variable (deleting) in
theorem items_allowed (braceless : table.Braceless) (sentence : List Phrase)
    (spelled : ∀ reference ∈ references sentence, reference.1 ≠ "") :
    ∀ item ∈ items table deleting sentence, item.Allowed .named := by
  have plain (letters : List Char) : ∀ item ∈ Item.ofText letters, item.Allowed .named := by
    intro item member
    obtain ⟨letter, -, rfl⟩ := List.mem_map.mp member
    trivial
  induction sentence with
  | nil => simp [items]
  | cons phrase rest ih =>
      cases phrase with
      | control keyword =>
          intro item member
          rcases List.mem_append.mp member with clause | later
          · exact plain _ item clause
          · exact ih spelled item later
      | reference name span =>
          have later := ih fun other member => spelled other (List.mem_cons_of_mem _ member)
          have nonempty := spelled (name, span) List.mem_cons_self
          cases found : table.column? name with
          | none => simpa only [items, found] using later
          | some column =>
              obtain ⟨member, rfl⟩ := Table.column?_eq_some name column found
              have slot : Item.Allowed .named (.named column.name.toList) :=
                ⟨rfl, by simpa using nonempty, (braceless column member).each⟩
              intro item inside
              simp only [items, found, comparisonItems, List.append_assoc] at inside
              rcases List.mem_append.mp inside with opened | inside
              · exact plain _ item opened
              · cases text : column.isText <;>
                  simp only [slotItems, text, Bool.false_eq_true, ↓reduceIte, List.cons_append,
                    List.nil_append, List.mem_cons] at inside
                · rcases inside with rfl | rfl | inside
                  · exact slot
                  · trivial
                  · exact later item inside
                · rcases inside with rfl | rfl | rfl | rfl | inside
                  · trivial
                  · exact slot
                  · trivial
                  · trivial
                  · exact later item inside

variable (query deleting) in
theorem write_resolved (braceless : table.Braceless) (sentence : List Phrase)
    (resolved : ∀ reference ∈ references sentence, Resolved table reference) :
    (write table query deleting sentence).result =
      .ok (String.ofList ((items table deleting sentence).flatMap Item.write)) := by
  induction sentence with
  | nil => rfl
  | cons phrase rest ih =>
      cases phrase with
      | control keyword =>
          have later := ih resolved
          simp only [write, Traced.result_bind, later, items, List.flatMap_append, ← toList_clause,
            String.ofList_append, String.ofList_toList]
          rfl
      | reference name span =>
          have later := ih fun other member => resolved other (List.mem_cons_of_mem _ member)
          obtain ⟨column, found⟩ :=
            Table.exists_column? name (resolved (name, span) List.mem_cons_self)
          have bare := braceless column (Table.column?_eq_some name column found).1
          have split : comparisonItems column ++ .plain ' ' :: items table deleting rest =
              (comparisonItems column ++ [.plain ' ']) ++ items table deleting rest := by simp
          simp only [write, found, Traced.result_bind, later, items, split]
          rw [List.flatMap_append, ← toList_condition column bare, String.ofList_append,
            String.ofList_toList]
          rfl

theorem keys_items (sentence : List Phrase)
    (resolved : ∀ reference ∈ references sentence, Resolved table reference) :
    (items table deleting sentence).filterMap Item.key? = (references sentence).map (·.1) := by
  have keyless (letters : List Char) : (Item.ofText letters).filterMap Item.key? = [] := by
    simp [Item.ofText, Item.key?]
  induction sentence with
  | nil => rfl
  | cons phrase rest ih =>
      cases phrase with
      | control keyword =>
          simpa [items, keyless] using ih resolved
      | reference name span =>
          have later := ih fun other member => resolved other (List.mem_cons_of_mem _ member)
          obtain ⟨column, found⟩ :=
            Table.exists_column? name (resolved (name, span) List.mem_cons_self)
          obtain ⟨-, rfl⟩ := Table.column?_eq_some name column found
          cases text : column.isText <;>
            simp [items, found, comparisonItems, slotItems, text, keyless, List.filterMap_cons,
              Item.key?, later]

end Spelling

end Inferred

end NamedSql

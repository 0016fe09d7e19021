import NamedSql.Proofs.TemplateGrammar

/-!
Slots between quotes. Whether a slot is quoted is settled when the template is read, from the
letters kept since the slot before and one letter ahead. On the text of the template this is
a plain condition: the letter before the opening brace and the letter after the closing brace
are both quotes. Escaped braces and slots without a letter between them are no exception.
-/
namespace NamedSql

namespace Piece

open Quoting (mark)

/-- Each slot is quoted exactly when a quote stands on either side of it, in the text that
these pieces spell after some other text. -/
def Marked : List Char → List Piece → Prop
  | _, [] => True
  | before, .text letters :: rest => Marked (before ++ (text letters).write) rest
  | before, .blank :: rest => Marked (before ++ blank.write) rest
  | before, .named key quoted :: rest =>
      (quoted = true ↔
        before.getLast? = some mark ∧ (rest.flatMap write).head? = some mark) ∧
      Marked (before ++ (named key quoted).write) rest

-- A brace is no quote, doubled or not, so only a letter that is one looks like one.
theorem startsWithMark_iff (items : List Item) :
    startsWithMark items = true ↔ (items.flatMap Item.write).head? = some mark := by
  cases items with
  | nil => simp [startsWithMark]
  | cons item rest =>
      cases item with
      | plain letter =>
          by_cases brace : letter = '{' ∨ letter = '}' <;>
            simp [startsWithMark, Item.write, brace]
      | named key => simp [startsWithMark, Item.write, mark]
      | blank => simp [startsWithMark, Item.write, mark]

theorem getLast?_letter (before : List Char) (letter : Char) :
    (before ++ (Item.plain letter).write).getLast? = some letter := by
  by_cases brace : letter = '{' ∨ letter = '}' <;> simp [Item.write, brace]

theorem marked_prepend (before : List Char) (letter : Char) (pieces : List Piece) :
    Marked before (prepend letter pieces) ↔
      Marked (before ++ (Item.plain letter).write) pieces := by
  have alone : (text [letter]).write = (Item.plain letter).write := by
    simp [write, Item.ofText]
  cases pieces with
  | nil => simp [prepend, Marked]
  | cons piece rest =>
      cases piece with
      | text letters =>
          have joined : (text (letter :: letters)).write =
              (Item.plain letter).write ++ (text letters).write := by
            simp [write, Item.ofText]
          rw [prepend, Marked, Marked, joined, List.append_assoc]
      | named key quoted => rw [prepend, Marked, alone]; simp
      | blank => rw [prepend, Marked, alone]; simp

-- The flag that grouping carries is whether the text so far ends in a quote.
theorem marked_group (before : List Char) (items : List Item) :
    Marked before (group (before.getLast? == some mark) items) := by
  induction items generalizing before with
  | nil => trivial
  | cons item rest ih =>
      cases item with
      | plain letter =>
          have later := ih (before ++ (Item.plain letter).write)
          rw [getLast?_letter] at later
          rw [group, marked_prepend]
          simpa using later
      | named key =>
          have later (quoted : Bool) := ih (before ++ (named (String.ofList key) quoted).write)
          have closed (quoted : Bool) :
              (before ++ (named (String.ofList key) quoted).write).getLast? = some '}' := by
            rw [write, Item.write, ← List.append_assoc]
            exact List.getLast?_concat
          simp only [closed] at later
          refine ⟨?_, later _⟩
          rw [write_group, Bool.and_eq_true, startsWithMark_iff, beq_iff_eq]
      | blank =>
          have later := ih (before ++ blank.write)
          have closed : (before ++ blank.write).getLast? = some '}' := by
            simp [write, Item.write]
          rw [closed] at later
          exact later

theorem quoted_iff_of_marked (before : List Char) (front back : List Piece) (key : String)
    (quoted : Bool) (marked : Marked before (front ++ .named key quoted :: back)) :
    quoted = true ↔ (before ++ front.flatMap write).getLast? = some mark ∧
      (back.flatMap write).head? = some mark := by
  induction front generalizing before with
  | nil => simpa using marked.1
  | cons piece rest ih =>
      have later : Marked (before ++ piece.write) (rest ++ .named key quoted :: back) := by
        cases piece with
        | text letters => exact marked
        | named other marks => exact marked.2
        | blank => exact marked
      simpa using ih _ later

end Piece

namespace Template

variable {slots : Slots} {text : String}

theorem quoted_iff_between_marks (template : Template) (success : read slots text = .ok template)
    (front back : List Piece) (key : String) (quoted : Bool)
    (split : template.pieces = front ++ .named key quoted :: back) :
    quoted = true ↔ (front.flatMap Piece.write).getLast? = some Quoting.mark ∧
      (back.flatMap Piece.write).head? = some Quoting.mark := by
  obtain ⟨items, -, rfl⟩ := (read_eq_ok_iff template).mp success
  have marked := Piece.marked_group [] items
  apply Piece.quoted_iff_of_marked [] front back key quoted
  rw [← split]
  exact marked

end Template

end NamedSql

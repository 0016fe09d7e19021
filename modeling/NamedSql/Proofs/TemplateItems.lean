import NamedSql.Template.Fill
import NamedSql.Text.Blank

/-!
Templates item by item. Trimming written items is dropping blank letters from their
end, because a slot ends in a brace and a brace is not blank. Filling the pieces that
items are grouped into is filling each item where it stands, looking one letter back
and one ahead for quotes. Neither view keeps a pending stretch of text.
-/
namespace NamedSql

namespace Text

theorem trimEnd_append_of_trimEnd_eq_nil (left right : List Char)
    (dropped : trimEnd right = []) : trimEnd (left ++ right) = trimEnd left := by
  simp only [trimEnd, List.reverse_append, List.reverse_eq_nil_iff] at *
  rw [List.dropWhile_append]
  simp [dropped]

theorem trimEnd_nil : trimEnd [] = [] := rfl

theorem trimEnd_concat (letters : List Char) (last : Char) :
    trimEnd (letters ++ [last]) = if isBlank last then trimEnd letters else letters ++ [last] := by
  by_cases blank : isBlank last <;> simp [trimEnd, blank]

theorem mem_of_mem_trimEnd (letters : List Char) (letter : Char)
    (kept : letter ∈ trimEnd letters) : letter ∈ letters := by
  have member : letter ∈ letters.reverse :=
    (List.dropWhile_sublist isBlank).subset (List.mem_reverse.mp kept)
  exact List.mem_reverse.mp member

end Text

namespace Item

open Quoting (mark)

variable {keywords : Record} {quoting : Quoting}

/-- Text that is spelled in a template as it is. -/
def Unbraced (letters : List Char) : Prop := '{' ∉ letters ∧ '}' ∉ letters

instance (letters : List Char) : Decidable (Unbraced letters) :=
  inferInstanceAs (Decidable ('{' ∉ letters ∧ '}' ∉ letters))

theorem Unbraced.each {letters : List Char} (unbraced : Unbraced letters) :
    ∀ letter ∈ letters, letter ≠ '{' ∧ letter ≠ '}' := by
  intro letter member
  constructor
  · rintro rfl
    exact unbraced.1 member
  · rintro rfl
    exact unbraced.2 member

def ofText (letters : List Char) : List Item := letters.map .plain

theorem toList_escape (text : String) :
    (Template.escape text).toList = (ofText text.toList).flatMap write := by
  simp [Template.escape, ofText, List.flatMap_map]

def key? : Item → Option String
  | .named key => some (String.ofList key)
  | _ => none

def isBlankLetter : Item → Bool
  | .plain letter => Text.isBlank letter
  | _ => false

/-- Items without the blank letters at their end. -/
def trim : List Item → List Item
  | [] => []
  | item :: rest =>
      match trim rest with
      | [] => if item.isBlankLetter then [] else [item]
      | kept => item :: kept

theorem write_ne_nil (item : Item) : item.write ≠ [] := by
  cases item with
  | plain letter => simp only [write]; split <;> simp
  | named key => simp [write]
  | blank => simp [write]

theorem trimEnd_write (item : Item) :
    Text.trimEnd item.write = if item.isBlankLetter then [] else item.write := by
  cases item with
  | plain letter =>
      by_cases brace : letter = '{' ∨ letter = '}'
      · rcases brace with rfl | rfl <;> decide
      · simpa [write, brace, isBlankLetter, Text.trimEnd_nil] using Text.trimEnd_concat [] letter
  | named key =>
      simpa [write, isBlankLetter, Text.isBlank, Text.blankRanges] using
        Text.trimEnd_concat ('{' :: key) '}'
  | blank => decide

theorem trimEnd_flatMap_write (items : List Item) :
    Text.trimEnd (items.flatMap write) = (trim items).flatMap write := by
  induction items with
  | nil => rfl
  | cons item rest ih =>
      rw [List.flatMap_cons]
      cases after : trim rest with
      | nil =>
          rw [Text.trimEnd_append_of_trimEnd_eq_nil _ _ (by rw [ih, after]; rfl), trimEnd_write]
          by_cases blank : item.isBlankLetter <;> simp [trim, after, blank]
      | cons next kept =>
          have stays : Text.trimEnd (rest.flatMap write) ≠ [] := by
            simp [ih, after, write_ne_nil]
          rw [Text.trimEnd_append_of_trimEnd_ne_nil _ _ stays, ih]
          simp [trim, after]

theorem trim_append_of_ne_nil (left right : List Item) (kept : trim right ≠ []) :
    trim (left ++ right) = left ++ trim right := by
  induction left with
  | nil => rfl
  | cons item rest ih =>
      have more : rest ++ trim right ≠ [] := by simp [kept]
      rw [List.cons_append, trim, ih]
      split
      · next nothing => exact absurd nothing more
      · rfl

theorem trim_append_of_eq_nil (left right : List Item) (dropped : trim right = []) :
    trim (left ++ right) = trim left := by
  induction left with
  | nil => exact dropped
  | cons item rest ih => simp only [List.cons_append, trim, ih]

theorem trim_ofText (letters : List Char) :
    trim (ofText letters) = ofText (Text.trimEnd letters) := by
  induction letters with
  | nil => rfl
  | cons letter rest ih =>
      have split : letter :: rest = [letter] ++ rest := rfl
      rw [ofText, List.map_cons, trim, ← ofText, ih, split]
      by_cases dropped : Text.trimEnd rest = []
      · have alone := Text.trimEnd_concat [] letter
        rw [List.nil_append, Text.trimEnd_nil] at alone
        rw [Text.trimEnd_append_of_trimEnd_eq_nil _ _ dropped, dropped, alone]
        by_cases blank : Text.isBlank letter = true
        · simp [ofText, isBlankLetter, blank]
        · simp [ofText, isBlankLetter, blank]
      · rw [Text.trimEnd_append_of_trimEnd_ne_nil _ _ dropped]
        cases kept : Text.trimEnd rest with
        | nil => exact absurd kept dropped
        | cons next more => rfl

theorem trim_drops (items : List Item) :
    ∃ dropped, items = trim items ++ dropped ∧ ∀ item ∈ dropped, item.isBlankLetter = true := by
  induction items with
  | nil => exact ⟨[], rfl, by simp⟩
  | cons item rest ih =>
      rcases ih with ⟨dropped, whole, blank⟩
      rw [trim]
      split
      · next after =>
          rw [after, List.nil_append] at whole
          subst whole
          by_cases alone : item.isBlankLetter = true
          · exact ⟨item :: rest, by simp [alone], by simpa [alone] using blank⟩
          · exact ⟨rest, by simp [alone], blank⟩
      · exact ⟨dropped, by rw [List.cons_append, ← whole], blank⟩

theorem mem_of_mem_trim (items : List Item) (item : Item) (kept : item ∈ trim items) :
    item ∈ items := by
  rcases trim_drops items with ⟨dropped, whole, _⟩
  rw [whole]
  exact List.mem_append_left dropped kept

-- A slot is never trimmed away.
theorem keys_trim (items : List Item) : (trim items).filterMap key? = items.filterMap key? := by
  rcases trim_drops items with ⟨dropped, whole, blank⟩
  have keyless : dropped.filterMap key? = [] := by
    apply List.filterMap_eq_nil_iff.mpr
    intro item member
    have letter := blank item member
    cases item <;> simp_all [isBlankLetter, key?]
  have keys := congrArg (List.filterMap key?) whole
  rw [List.filterMap_append, keyless, List.append_nil] at keys
  exact keys.symm

/-! Filling. A letter stands for itself, and a slot for its value. The value is inside
a literal when a quote stands on each side of the slot. -/
section Substitution

def substitute (keywords : Record) (quoting : Quoting) :
    Bool → List Item → Except String (List Char)
  | _, [] => .ok []
  | _, .plain letter :: rest =>
      (substitute keywords quoting (letter == mark) rest).map (letter :: ·)
  | _, .blank :: rest => substitute keywords quoting false rest
  | afterMark, .named key :: rest =>
      match keywords.get? (String.ofList key) with
      | none => .error (String.ofList key)
      | some value =>
          let inside := afterMark && Piece.startsWithMark rest
          let written := if inside then quoting.apply value.render else value.render
          (substitute keywords quoting false rest).map (written.toList ++ ·)

theorem writeNamed_prepend (letter : Char) (pieces : List Piece) :
    Template.writeNamed keywords quoting (Piece.prepend letter pieces) =
      (Template.writeNamed keywords quoting pieces).map (letter :: ·) := by
  cases pieces with
  | nil => rfl
  | cons piece rest =>
      cases piece with
      | text letters =>
          simp only [Piece.prepend, Template.writeNamed]
          cases Template.writeNamed keywords quoting rest <;> rfl
      | named key quoted => rfl
      | blank => rfl

theorem writeNamed_group (afterMark : Bool) (items : List Item) :
    Template.writeNamed keywords quoting (Piece.group afterMark items) =
      substitute keywords quoting afterMark items := by
  induction items generalizing afterMark with
  | nil => rfl
  | cons item rest ih =>
      cases item with
      | plain letter => rw [Piece.group, writeNamed_prepend, ih, substitute]
      | blank => rw [Piece.group, Template.writeNamed, ih, substitute]
      | named key =>
          rw [Piece.group, Template.writeNamed, substitute]
          cases keywords.get? (String.ofList key) with
          | none => rfl
          | some value => simp only [ih]

theorem key?_prepend (letter : Char) (pieces : List Piece) :
    (Piece.prepend letter pieces).filterMap Piece.key? = pieces.filterMap Piece.key? := by
  cases pieces with
  | nil => rfl
  | cons piece rest => cases piece <;> rfl

theorem keys_group (afterMark : Bool) (items : List Item) :
    (Piece.group afterMark items).filterMap Piece.key? = items.filterMap key? := by
  induction items generalizing afterMark with
  | nil => rfl
  | cons item rest ih =>
      cases item with
      | plain letter => rw [Piece.group, key?_prepend, ih]; rfl
      | blank => rw [Piece.group, List.filterMap_cons_none rfl, ih]; rfl
      | named key => simp only [Piece.group, List.filterMap_cons, Piece.key?, key?, ih]

-- Whatever stood before text, what follows the text meets one of its letters.
variable (keywords quoting) in
theorem substitute_ofText (afterMark : Bool) (letters : List Char) (rest : List Item) :
    ∃ met, substitute keywords quoting afterMark (ofText letters ++ rest) =
      (substitute keywords quoting met rest).map (letters ++ ·) := by
  induction letters generalizing afterMark with
  | nil =>
      refine ⟨afterMark, ?_⟩
      simp only [ofText, List.map_nil, List.nil_append]
      cases substitute keywords quoting afterMark rest <;> rfl
  | cons letter more ih =>
      rcases ih (letter == mark) with ⟨met, filled⟩
      refine ⟨met, ?_⟩
      simp only [ofText, List.map_cons, List.cons_append, substitute] at filled ⊢
      rw [filled]
      cases substitute keywords quoting met rest <;> rfl

end Substitution

end Item

end NamedSql

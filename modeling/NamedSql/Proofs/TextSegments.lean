import NamedSql.Column
import NamedSql.Proofs.QuoteDoubling

/-!
Finished text in segments: code, and text literals by what they hold. The segments of
a text do not depend on the quoting, only the writing of its literals does. Escaped
segments are read back as they were, whatever the literals hold, provided that code
has no quotes and no quote stands directly after a literal.
-/
namespace NamedSql

inductive Segment where
  | code (letters : List Char)
  | literal (content : String)
  deriving DecidableEq, Repr

namespace Segment

open Quoting (mark)
open Literals (readFrom)

def write (quoting : Quoting) : Segment → List Char
  | .code letters => letters
  | .literal content => mark :: (quoting.between content).toList ++ [mark]

/-- What a reading finds outside literals, with a hole for a literal. -/
def outside : Segment → List (Option Char)
  | .code letters => letters.map some
  | .literal _ => [none]

def inside : Segment → List (List Char)
  | .code _ => []
  | .literal content => [content.toList]

def text (quoting : Quoting) (segments : List Segment) : String :=
  String.ofList (segments.flatMap (write quoting))

def reading (segments : List Segment) : Literals :=
  ⟨segments.flatMap outside, segments.flatMap inside⟩

/-- Text that may follow a literal without lengthening it. -/
def Unmarked (letters : List Char) : Prop := letters.head? ≠ some mark

def Apart : List Segment → Prop
  | [] => True
  | .code letters :: rest => mark ∉ letters ∧ Apart rest
  | .literal _ :: rest => Unmarked (rest.flatMap (write .escaped)) ∧ Apart rest

theorem readFrom_code (letters rest : List Char) (clean : mark ∉ letters) :
    readFrom .outside (letters ++ rest) = (readFrom .outside rest).map fun after =>
      ⟨letters.map some ++ after.skeleton, after.contents⟩ := by
  induction letters with
  | nil => simp
  | cons letter more ih =>
      have other : letter ≠ mark := fun same => clean (by simp [same])
      have tail := ih fun member => clean (List.mem_cons_of_mem letter member)
      simp only [List.cons_append, readFrom, other, ↓reduceIte, tail, Option.map_map]
      rfl

theorem readFrom_segments (segments : List Segment) (apart : Apart segments) :
    readFrom .outside (segments.flatMap (write .escaped)) = some (reading segments) := by
  induction segments with
  | nil => rfl
  | cons segment rest ih =>
      cases segment with
      | code letters =>
          have tail := ih apart.2
          rw [List.flatMap_cons, write, readFrom_code letters _ apart.1, tail]
          rfl
      | literal content =>
          have tail := ih apart.2
          have body := Literals.readFrom_doubled content.toList _ apart.1
          simp only [List.flatMap_cons, write, ← Quoting.apply_eq_between,
            Quoting.toList_apply_escaped, List.cons_append, List.append_assoc,
            List.nil_append] at body ⊢
          rw [body, tail]
          rfl

theorem read_text (segments : List Segment) (apart : Apart segments) :
    Literals.read (text .escaped segments) = some (reading segments) := by
  simpa [Literals.read, text] using readFrom_segments segments apart

theorem unmarked_append (left right : List Char) (leftUnmarked : Unmarked left)
    (rightUnmarked : Unmarked right) : Unmarked (left ++ right) := by
  cases left with
  | nil => exact rightUnmarked
  | cons letter more => exact leftUnmarked

theorem apart_append (left right : List Segment) (leftApart : Apart left)
    (rightApart : Apart right) (unmarked : Unmarked (right.flatMap (write .escaped))) :
    Apart (left ++ right) := by
  induction left with
  | nil => exact rightApart
  | cons segment rest ih =>
      cases segment with
      | code letters => exact ⟨leftApart.1, ih leftApart.2⟩
      | literal content =>
          refine ⟨?_, ih leftApart.2⟩
          change Unmarked ((rest ++ right).flatMap (write .escaped))
          rw [List.flatMap_append]
          exact unmarked_append _ _ leftApart.1 unmarked

theorem unmarked_of_clean (letters : List Char) (clean : mark ∉ letters) : Unmarked letters :=
  fun first => clean (List.mem_of_head? first)

-- Code that is not empty keeps a literal before it from growing.
theorem apart_before_code (left : List Segment) (letters : List Char) (clean : mark ∉ letters)
    (wide : letters ≠ []) (rest : List Segment) (leftApart : Apart left) (apart : Apart rest) :
    Apart (left ++ .code letters :: rest) := by
  refine apart_append _ _ leftApart ⟨clean, apart⟩ ?_
  have opened := unmarked_of_clean letters clean
  cases letters with
  | nil => exact absurd rfl wide
  | cons letter more => exact opened

/-- A segment without what its literal holds. -/
def hollow : Segment → Segment
  | .code letters => .code letters
  | .literal _ => .literal ""

theorem outside_hollow (segments : List Segment) :
    (segments.map hollow).flatMap outside = segments.flatMap outside := by
  have one (segment : Segment) : outside (hollow segment) = outside segment := by
    cases segment <;> rfl
  simp [List.flatMap_map, one]

theorem nil_iff_of_hollow (left right : List Segment)
    (same : left.map hollow = right.map hollow) : left = [] ↔ right = [] := by
  rw [← List.map_eq_nil_iff, same, List.map_eq_nil_iff]

theorem skeleton_eq_of_hollow (left right : List Segment)
    (same : left.map hollow = right.map hollow) :
    (reading left).skeleton = (reading right).skeleton := by
  change left.flatMap outside = right.flatMap outside
  rw [← outside_hollow left, same, outside_hollow]

/-! Lists written with a separator. Whatever is collected from the segments of the
list, it is collected from each entry and from the separators between them. -/
section Separated

theorem flatMap_intercalate {α β : Type} (pick : α → List β) (separator : List α)
    (groups : List (List α)) :
    (separator.intercalate groups).flatMap pick =
      (separator.flatMap pick).intercalate (groups.map (List.flatMap pick)) := by
  induction groups with
  | nil => rfl
  | cons first rest ih =>
      cases rest with
      | nil => simp [List.intercalate]
      | cons second more =>
          simp only [List.intercalate, List.intersperse_cons_cons, List.flatten_cons,
            List.flatMap_append, List.map_cons] at ih ⊢
          rw [ih]

theorem map_intercalate {α β : Type} (change : α → β) (separator : List α)
    (groups : List (List α)) :
    (separator.intercalate groups).map change =
      (separator.map change).intercalate (groups.map (List.map change)) := by
  have single : List.flatMap (fun entry => [change entry]) = List.map change :=
    funext fun _ => List.map_eq_flatMap.symm
  have collected := flatMap_intercalate (fun entry => [change entry]) separator groups
  rw [single] at collected
  exact collected

theorem apart_intercalate (separator : List Char) (groups : List (List Segment))
    (clean : mark ∉ separator) (wide : separator ≠ [])
    (apart : ∀ group ∈ groups, Apart group) :
    Apart (List.intercalate [.code separator] groups) := by
  induction groups with
  | nil => trivial
  | cons first rest ih =>
      have head := apart first List.mem_cons_self
      have tail := ih fun group member => apart group (List.mem_cons_of_mem first member)
      cases rest with
      | nil => simpa [List.intercalate] using head
      | cons second more =>
          have split : List.intercalate [.code separator] (first :: second :: more) =
              first ++ .code separator :: List.intercalate [.code separator] (second :: more) := by
            simp [List.intercalate]
          rw [split]
          exact apart_before_code _ separator clean wide _ head tail

end Separated

end Segment

-- An id may have no column to receive it, and then it is written as for a column that
-- is no text.
def takesText (receiver : Option Column) : Bool :=
  receiver.any fun column => column.type == "text"

@[simp] theorem takesText_some (column : Column) : takesText (some column) = column.isText := rfl

def Value.segment (value : Value) (receiver : Option Column) : Segment :=
  if takesText receiver && value != .null then .literal value.render
  else .code value.render.toList

theorem Column.toList_literal (column : Column) (value : Value) (quoting : Quoting) :
    (column.literal value quoting).toList = (value.segment (some column)).write quoting := by
  unfold literal Value.segment
  rw [takesText_some, Value.bne_null]
  split
  · simp [Segment.write, Quoting.mark, Quoting.apply_eq_between]
  · rfl

/-- A value that is written as code has no quotes in it. -/
def Value.Bare (receiver : Option Column) (value : Value) : Prop :=
  takesText receiver = false → Quoting.mark ∉ value.render.toList

instance (receiver : Option Column) (value : Value) : Decidable (Value.Bare receiver value) :=
  inferInstanceAs (Decidable (takesText receiver = false → Quoting.mark ∉ value.render.toList))

end NamedSql

import NamedSql.Text.Literals
import Mathlib.Algebra.Group.Even
import Mathlib.Data.String.Basic

/-!
Doubled quotes. A text is runs of quotes with other letters between them, in one way only, and
doubling makes each run twice as long and leaves the letters where they are. So no run of an
escaped text is odd, and halving them all gives the text back. Behind an opening quote such a
text is read to its end: pairs are met in full, and the quote that closes is the first that
has no other behind it, unless what follows begins with one.
-/
namespace NamedSql

open Quoting (mark double)

/-- A text by its runs of quotes: the one it begins with, and one behind each other letter.
Where two other letters meet, the run between them is empty. -/
structure Runs where
  first : Nat
  later : List (Char × Nat)
  deriving DecidableEq, Repr

namespace Runs

def write (runs : Runs) : List Char :=
  List.replicate runs.first mark ++
    runs.later.flatMap fun part => part.1 :: List.replicate part.2 mark

def lengths (runs : Runs) : List Nat := runs.first :: runs.later.map (·.2)

def resize (change : Nat → Nat) (runs : Runs) : Runs :=
  ⟨change runs.first, runs.later.map fun part => (part.1, change part.2)⟩

/-- The text has these runs, each as long as it can be. -/
def Spells (runs : Runs) (letters : List Char) : Prop :=
  runs.write = letters ∧ ∀ part ∈ runs.later, part.1 ≠ mark

def before (runs : Runs) (letter : Char) : Runs :=
  if letter = mark then ⟨runs.first + 1, runs.later⟩ else ⟨0, (letter, runs.first) :: runs.later⟩

def ofLetters (letters : List Char) : Runs :=
  letters.foldr (fun letter runs => runs.before letter) ⟨0, []⟩

theorem write_cons (first : Nat) (part : Char × Nat) (rest : List (Char × Nat)) :
    write ⟨first, part :: rest⟩ = List.replicate first mark ++ part.1 :: write ⟨part.2, rest⟩ := by
  simp [write]

theorem lengths_resize (change : Nat → Nat) (runs : Runs) :
    (runs.resize change).lengths = runs.lengths.map change := by
  simp [lengths, resize, Function.comp_def]

theorem ofLetters_cons (letter : Char) (rest : List Char) :
    ofLetters (letter :: rest) = (ofLetters rest).before letter := rfl

theorem spells_before (runs : Runs) (letter : Char) (letters : List Char)
    (spells : runs.Spells letters) : (runs.before letter).Spells (letter :: letters) := by
  obtain ⟨rfl, others⟩ := spells
  by_cases quote : letter = mark
  · rw [before, if_pos quote, quote]
    exact ⟨rfl, others⟩
  · rw [before, if_neg quote]
    exact ⟨rfl, List.forall_mem_cons.mpr ⟨quote, others⟩⟩

theorem spells_ofLetters (letters : List Char) : (ofLetters letters).Spells letters := by
  induction letters with
  | nil => exact ⟨rfl, by simp [ofLetters]⟩
  | cons letter rest ih => exact spells_before _ letter rest ih

theorem ofLetters_replicate (count : Nat) (rest : List Char) :
    ofLetters (List.replicate count mark ++ rest) =
      ⟨(ofLetters rest).first + count, (ofLetters rest).later⟩ := by
  induction count with
  | zero => rfl
  | succ count ih =>
      rw [List.replicate_succ, List.cons_append, ofLetters_cons, ih, before, if_pos rfl]
      rfl

-- Other letters end a run, so a text has no second way to be cut into runs.
theorem ofLetters_write (runs : Runs) (others : ∀ part ∈ runs.later, part.1 ≠ mark) :
    ofLetters runs.write = runs := by
  obtain ⟨first, later⟩ := runs
  induction later generalizing first with
  | nil =>
      rw [write, ofLetters_replicate]
      simp [ofLetters]
  | cons part rest ih =>
      obtain ⟨other, behind⟩ := List.forall_mem_cons.mp others
      have tail := ih part.2 behind
      rw [write_cons, ofLetters_replicate, ofLetters_cons, tail, before, if_neg other]
      simp

theorem eq_ofLetters (runs : Runs) (letters : List Char) (spells : runs.Spells letters) :
    runs = ofLetters letters := by
  obtain ⟨rfl, others⟩ := spells
  exact (ofLetters_write runs others).symm

theorem ofLetters_double (letters : List Char) :
    ofLetters (double letters) = (ofLetters letters).resize (2 * ·) := by
  induction letters with
  | nil => rfl
  | cons letter rest ih =>
      by_cases quote : letter = mark
      · simp [double, quote, ofLetters_cons, ih, before, resize]
        omega
      · simp [double, quote, ofLetters_cons, ih, before, resize]

theorem even_of_doubled (runs : Runs) :
    ∀ length ∈ (runs.resize (2 * ·)).lengths, Even length := by
  rw [lengths_resize, List.forall_mem_map]
  exact fun length _ => ⟨length, Nat.two_mul length⟩

theorem halve_doubled (runs : Runs) : (runs.resize (2 * ·)).resize (· / 2) = runs := by
  simp [resize, Function.comp_def]

end Runs

namespace Quoting

/-- Each quote replaced by two, letter by letter. -/
def replaced (text : String) : String :=
  String.ofList (text.toList.flatMap fun letter =>
    if letter = '\x27' then ['\x27', '\x27'] else [letter])

/-- A text as it stands between the quotes of a literal. -/
def between : Quoting → String → String
  | .raw, text => text
  | .escaped, text => replaced text

theorem double_eq_flatMap (letters : List Char) :
    double letters = letters.flatMap fun letter =>
      if letter = mark then [mark, mark] else [letter] := by
  induction letters with
  | nil => rfl
  | cons letter rest ih => by_cases quote : letter = mark <;> simp [double, quote, ih]

theorem apply_escaped_eq_replaced (text : String) : apply .escaped text = replaced text := by
  rw [apply, replaced, double_eq_flatMap]
  rfl

theorem apply_eq_between (quoting : Quoting) (text : String) :
    quoting.apply text = quoting.between text := by
  cases quoting with
  | raw => rfl
  | escaped => exact apply_escaped_eq_replaced text

theorem replaced_of_clean (text : String) (clean : mark ∉ text.toList) : replaced text = text := by
  rw [← apply_escaped_eq_replaced, apply, double_of_clean _ clean, String.ofList_toList]

theorem length_double (letters : List Char) :
    (double letters).length = letters.length + letters.count mark := by
  induction letters with
  | nil => rfl
  | cons letter rest ih =>
      by_cases quote : letter = mark
      · simp [double, quote, ih]
        omega
      · simp [double, quote, ih]
        omega

theorem utf8Len_double (letters : List Char) :
    String.utf8Len (double letters) = String.utf8Len letters + letters.count mark := by
  have single : mark.utf8Size = 1 := rfl
  induction letters with
  | nil => rfl
  | cons letter rest ih =>
      by_cases quote : letter = mark
      · simp [double, quote, ih, single]
        omega
      · simp [double, quote, ih]
        omega

end Quoting

namespace Literals

/-- The content of a literal that has been opened, and what is left behind its end. -/
def close? : List Char → List Char → Option (List Char × List Char)
  | _, [] => none
  | content, letter :: rest =>
      if letter = mark then
        match rest with
        | [] => some (content, [])
        | next :: more =>
            if next = mark then close? (content ++ [mark]) more else some (content, next :: more)
      else close? (content ++ [letter]) rest

/-- The literal that a text begins with, and what is left behind it. -/
def first? : List Char → Option (List Char × List Char)
  | [] => none
  | letter :: rest => if letter = mark then close? [] rest else none

theorem readFrom_inside (content letters : List Char) :
    readFrom (.inside content) letters = (close? content letters).bind fun part =>
      (readFrom .outside part.2).map (literal part.1) := by
  fun_induction close? content letters with
  | case1 content => rfl
  | case2 content => rfl
  | case3 content more ih =>
      rw [← ih]
      rfl
  | case4 content next more other => simp [readFrom, other, Function.comp_def, code, literal]
  | case5 content letter rest other ih =>
      rw [← ih, readFrom, if_neg other]

theorem readFrom_first (letters : List Char) (part : List Char × List Char)
    (found : first? letters = some part) :
    readFrom .outside letters = (readFrom .outside part.2).map (literal part.1) := by
  cases letters with
  | nil => cases found
  | cons letter rest =>
      by_cases quote : letter = mark
      · rw [first?, if_pos quote] at found
        rw [readFrom, if_pos quote, readFrom_inside, found, Option.bind_some]
      · rw [first?, if_neg quote] at found
        cases found

theorem close?_pair (content rest : List Char) :
    close? content (mark :: mark :: rest) = close? (content ++ [mark]) rest := by
  simp [close?]

theorem close?_other (content rest : List Char) (letter : Char) (other : letter ≠ mark) :
    close? content (letter :: rest) = close? (content ++ [letter]) rest := by
  rw [close?.eq_def]
  simp [other]

theorem close?_end (content rest : List Char) (unmarked : rest.head? ≠ some mark) :
    close? content (mark :: rest) = some (content, rest) := by
  cases rest with
  | nil => simp [close?]
  | cons next more =>
      have other : next ≠ mark := fun same => unmarked (by simp [same])
      simp [close?, other]

-- The content read before is arbitrary, so that each step may add to it.
theorem close?_double (sofar content rest : List Char) (unmarked : rest.head? ≠ some mark) :
    close? sofar (double content ++ mark :: rest) = some (sofar ++ content, rest) := by
  induction content generalizing sofar with
  | nil =>
      have ended := close?_end sofar rest unmarked
      simpa using ended
  | cons letter more ih =>
      by_cases quote : letter = mark
      · rw [quote, double, if_pos rfl, List.cons_append, List.cons_append, close?_pair, ih]
        simp
      · rw [double, if_neg quote, List.cons_append, close?_other _ _ letter quote, ih]
        simp

theorem first?_doubled (content rest : List Char) (unmarked : rest.head? ≠ some mark) :
    first? (mark :: (double content ++ mark :: rest)) = some (content, rest) := by
  rw [first?, if_pos rfl]
  exact close?_double [] content rest unmarked

theorem readFrom_doubled (content rest : List Char) (unmarked : rest.head? ≠ some mark) :
    readFrom .outside (mark :: (double content ++ mark :: rest)) =
      (readFrom .outside rest).map (literal content) :=
  readFrom_first _ _ (first?_doubled content rest unmarked)

end Literals

namespace Quoting

open Literals (first?)

variable (text : String)

theorem toList_between_marks (after : String) :
    ("'" ++ apply .escaped text ++ "'" ++ after).toList =
      mark :: (double text.toList ++ mark :: after.toList) := by
  have quote : "'".toList = [mark] := rfl
  simp [quote]

theorem halved_runs (runs : Runs) (spells : runs.Spells (apply .escaped text).toList) :
    (∀ length ∈ runs.lengths, Even length) ∧
      String.ofList (runs.resize (· / 2)).write = text := by
  rw [toList_apply_escaped] at spells
  have doubled := runs.eq_ofLetters _ spells
  rw [Runs.ofLetters_double] at doubled
  rw [doubled, Runs.halve_doubled, (Runs.spells_ofLetters text.toList).1, String.ofList_toList]
  exact ⟨Runs.even_of_doubled _, rfl⟩

theorem apply_escaped_injective : Function.Injective (apply .escaped) := by
  intro left right same
  have spells := Runs.spells_ofLetters (apply .escaped left).toList
  rw [← (halved_runs left _ spells).2]
  rw [same] at spells ⊢
  exact (halved_runs right _ spells).2

-- Quotes at the end of a text stand against the one that closes its literal, and the run they
-- make with it is odd. It is cut there because pairs are taken from the left.
theorem doubling_reads_back :
    (∃ runs : Runs, runs.Spells (apply .escaped text).toList) ∧
    (∀ runs : Runs, runs.Spells (apply .escaped text).toList →
      (∀ length ∈ runs.lengths, Even length) ∧
      String.ofList (runs.resize (· / 2)).write = text) ∧
    Function.Injective (apply .escaped) ∧
    (apply .escaped text).length = text.length + text.toList.count mark ∧
    (apply .escaped text).utf8ByteSize = text.utf8ByteSize + text.toList.count mark ∧
    (∀ other, apply .escaped (text ++ other) = apply .escaped text ++ apply .escaped other) ∧
    apply .escaped text = (if mark ∈ text.toList then replaced text else text) ∧
    (mark ∉ text.toList → replaced text = text) ∧
    ∀ after : String, after.toList.head? ≠ some mark →
      let quoted := "'" ++ apply .escaped text ++ "'" ++ after
      first? quoted.toList = some (text.toList, after.toList) ∧
      Literals.read quoted = (Literals.read after).map (Literals.literal text.toList) := by
  refine ⟨⟨_, Runs.spells_ofLetters _⟩, halved_runs text, apply_escaped_injective, ?_, ?_, ?_, ?_,
    ?_, ?_⟩
  · rw [← String.length_toList, toList_apply_escaped, length_double, String.length_toList]
  · rw [apply, String.utf8ByteSize_ofList, utf8Len_double, ← String.utf8ByteSize_ofList,
      String.ofList_toList]
  · intro other
    apply String.toList_inj.mp
    simp
  · rw [apply_escaped_eq_replaced]
    split
    · rfl
    · next clean => exact replaced_of_clean text clean
  · exact replaced_of_clean text
  · intro after unmarked quoted
    rw [Literals.read, toList_between_marks]
    exact ⟨Literals.first?_doubled _ _ unmarked, Literals.readFrom_doubled _ _ unmarked⟩

theorem doubling_reads_back_ends :
    let text := "'a'"
    let runs : Runs := ⟨2, [('a', 2)]⟩
    runs.Spells (apply .escaped text).toList ∧ String.ofList (runs.resize (· / 2)).write = text ∧
    mark ∉ "a".toList ∧ replaced "a" = "a" ∧ ", 'b'".toList.head? ≠ some mark ∧
    first? "'''a''', 'b'".toList = some (text.toList, ", 'b'".toList) := by
  intro text runs
  have spells : runs.Spells (apply .escaped text).toList := ⟨by decide, by decide⟩
  have clean : mark ∉ "a".toList := by decide
  have unmarked : ", 'b'".toList.head? ≠ some mark := by decide
  have quoted : "'" ++ apply .escaped text ++ "'" ++ ", 'b'" = "'''a''', 'b'" := by decide
  obtain ⟨-, halved, -, -, -, -, -, -, reads⟩ := doubling_reads_back text
  obtain ⟨-, -, -, -, -, -, -, kept, -⟩ := doubling_reads_back "a"
  have found := (reads ", 'b'" unmarked).1
  rw [quoted] at found
  exact ⟨spells, (halved runs spells).2, clean, kept clean, unmarked, found⟩

end Quoting

end NamedSql

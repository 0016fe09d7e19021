import NamedSql.Name.Keyword

/-!
The words of a name and where they stand. Every underscore ends a word, so two in
a row enclose an empty one, and a name always has at least one word. Places are
counted in bytes of UTF-8, an underscore being one byte.
-/
namespace NamedSql

/-- The bytes from `start` up to, but not at, `stop`. -/
structure Span where
  start : Nat
  stop : Nat
  deriving DecidableEq, Repr, Inhabited

namespace Span

def shift (span : Span) (distance : Nat) : Span :=
  ⟨span.start + distance, span.stop + distance⟩

def across : List Span → Span
  | [] => ⟨0, 0⟩
  | first :: rest => ⟨first.start, (rest.getLastD first).stop⟩

end Span

inductive Word where
  | control (keyword : Keyword)
  | plain (text : String)
  deriving DecidableEq, Repr

namespace Word

def ofText (text : String) : Word :=
  match Keyword.ofText? text with
  | some keyword => .control keyword
  | none => .plain text

def text : Word → String
  | .control keyword => keyword.text
  | .plain text => text

@[simp] theorem text_ofText (text : String) : (ofText text).text = text := by
  unfold ofText
  split
  · next keyword found => exact Keyword.ofText?_eq_some_iff.mp found
  · rfl

theorem ofText_eq_control_iff (text : String) (keyword : Keyword) :
    ofText text = .control keyword ↔ keyword.text = text := by
  rw [← Keyword.ofText?_eq_some_iff, ofText]
  cases Keyword.ofText? text <;> simp

theorem ofText_eq_plain (text : String) (other : ∀ keyword : Keyword, keyword.text ≠ text) :
    ofText text = .plain text := by
  rw [ofText, Keyword.ofText?_eq_none text other]

/-- A word is read from its text if it steers exactly when its text does. -/
theorem eq_ofText (word : Word)
    (steered : ∀ keyword, word = .control keyword ↔ keyword.text = word.text) :
    word = ofText word.text := by
  cases word with
  | control keyword => exact ((ofText_eq_control_iff _ _).mpr rfl).symm
  | plain text =>
      refine (ofText_eq_plain text fun keyword spelled => ?_).symm
      cases (steered keyword).mpr spelled

end Word

structure Token where
  word : Word
  span : Span
  deriving DecidableEq, Repr

namespace Token

/-- Words in a row from a given byte on, one underscore between neighbours. -/
def place : Nat → List String → List Token
  | _, [] => []
  | start, text :: rest =>
      let stop := start + text.utf8ByteSize
      ⟨.ofText text, ⟨start, stop⟩⟩ :: place (stop + 1) rest

@[simp] theorem text_place (start : Nat) (texts : List String) :
    (place start texts).map (·.word.text) = texts := by
  induction texts generalizing start with
  | nil => rfl
  | cons text rest ih => simp [place, ih]

end Token

def words (name : String) : List String := (name.toList.splitOn '_').map String.ofList

theorem words_ne_nil (name : String) : words name ≠ [] := by
  simp [words, List.splitOn_ne_nil]

theorem intercalate_words (name : String) : "_".intercalate (words name) = name := by
  apply String.toList_inj.mp
  simp [words, String.toList_intercalate, List.intercalate_splitOn, Function.comp_def]

/-! A word is what stands between two underscores, so it has none itself, and a name with
an underscore somewhere has the words before it and those after it. -/
section Words

theorem splitOn_cons (letter : Char) (rest : List Char) :
    (letter :: rest).splitOn '_' =
      if letter = '_' then [] :: rest.splitOn '_'
      else (rest.splitOn '_').modifyHead (letter :: ·) := by
  rw [List.splitOn_eq_splitOnP, List.splitOnP_cons_eq_if_modifyHead, ← List.splitOn_eq_splitOnP]
  simp

theorem splitOn_unbarred (letters : List Char) : ∀ piece ∈ letters.splitOn '_', '_' ∉ piece := by
  induction letters with
  | nil => simp
  | cons letter rest ih =>
      rw [splitOn_cons]
      by_cases bar : letter = '_'
      · simpa [bar] using ih
      · obtain ⟨first, more, pieces⟩ := List.exists_cons_of_ne_nil (List.splitOn_ne_nil '_' rest)
        rw [pieces, List.forall_mem_cons] at ih
        simpa [bar, pieces, Ne.symm bar] using ih

theorem words_unbarred (name : String) : ∀ text ∈ words name, '_' ∉ text.toList := by
  simpa [words] using splitOn_unbarred name.toList

theorem length_words (name : String) : (words name).length = name.toList.count '_' + 1 := by
  rw [words, List.length_map]
  induction name.toList with
  | nil => rfl
  | cons letter rest ih =>
      rw [splitOn_cons]
      by_cases bar : letter = '_' <;> simp [bar, ih]

/-- Texts without underscores are the words of what they are joined to. -/
theorem words_intercalate (texts : List String) (nonempty : texts ≠ [])
    (unbarred : ∀ text ∈ texts, '_' ∉ text.toList) : words ("_".intercalate texts) = texts := by
  have pieces : List.splitOn '_' (['_'].intercalate (texts.map String.toList)) =
      texts.map String.toList :=
    List.splitOn_intercalate '_' (by simpa using unbarred) (by simpa using nonempty)
  simp only [words, String.toList_intercalate]
  rw [show "_".toList = ['_'] from rfl, pieces]
  simp [Function.comp_def]

theorem words_join (left right : String) :
    words (left ++ "_" ++ right) = words left ++ words right := by
  have pieces := List.splitOn_append_cons_self (a := '_') left.toList right.toList
  simp only [words, String.toList_append, ← List.map_append]
  rw [show "_".toList = ['_'] from rfl, List.append_assoc, List.singleton_append, pieces]

end Words

def tokens (name : String) : List Token := Token.place 0 (words name)

end NamedSql

import NamedSql.Inferred

/-!
A second reading of names. The words of a name are cut at the control words, and
each run between two cuts is a reference. The cut is made from the right and looks
at words alone; the bytes of a run are counted from the words before it. The
phrases of a name are those of its cut, so nothing is lost between them.
-/
namespace NamedSql

/-- Plain words before the first control word, and those after each. -/
structure Cut where
  lead : List String
  later : List (Keyword × List String)
  deriving DecidableEq, Repr

namespace Cut

def ofWords : List String → Cut
  | [] => ⟨[], []⟩
  | text :: rest =>
      match Keyword.ofText? text with
      | some keyword => ⟨[], (keyword, (ofWords rest).lead) :: (ofWords rest).later⟩
      | none => ⟨text :: (ofWords rest).lead, (ofWords rest).later⟩

def words (cut : Cut) : List String :=
  cut.lead ++ cut.later.flatMap fun part => part.1.text :: part.2

def Plain (run : List String) : Prop := ∀ text ∈ run, Keyword.ofText? text = none

/-- No run holds a control word, so no run can be longer. -/
def Maximal (cut : Cut) : Prop := Plain cut.lead ∧ ∀ part ∈ cut.later, Plain part.2

theorem ofWords_words (texts : List String) : (ofWords texts).words = texts := by
  induction texts with
  | nil => rfl
  | cons text rest ih =>
      cases found : Keyword.ofText? text with
      | none => simpa [ofWords, found, words] using ih
      | some keyword =>
          have spelled := Keyword.ofText?_eq_some_iff.mp found
          simpa [ofWords, found, words, spelled] using ih

theorem ofWords_maximal (texts : List String) : (ofWords texts).Maximal := by
  induction texts with
  | nil => simp [ofWords, Maximal, Plain]
  | cons text rest ih =>
      rcases ih with ⟨leadPlain, laterPlain⟩
      cases found : Keyword.ofText? text with
      | none => simpa [ofWords, found, Maximal, Plain] using And.intro leadPlain laterPlain
      | some keyword =>
          simpa [ofWords, found, Maximal, Plain] using And.intro leadPlain laterPlain

theorem ofWords_append (run texts : List String) (plain : Plain run) :
    ofWords (run ++ texts) = ⟨run ++ (ofWords texts).lead, (ofWords texts).later⟩ := by
  induction run with
  | nil => rfl
  | cons text rest ih =>
      have head := plain text List.mem_cons_self
      have tail := ih fun other member => plain other (List.mem_cons_of_mem text member)
      simp [ofWords, head, tail]

theorem ofWords_of_maximal (lead : List String) (later : List (Keyword × List String))
    (maximal : Maximal ⟨lead, later⟩) : ofWords (words ⟨lead, later⟩) = ⟨lead, later⟩ := by
  induction later generalizing lead with
  | nil => simpa [words, ofWords] using ofWords_append lead [] maximal.1
  | cons part rest ih =>
      have tail := ih part.2 ⟨maximal.2 part List.mem_cons_self,
        fun other member => maximal.2 other (List.mem_cons_of_mem part member)⟩
      rw [words] at tail ⊢
      rw [ofWords_append lead _ maximal.1]
      simp [ofWords, tail]

-- The cut is the only one: a list of words has no other decomposition into control
-- words and runs without them.
theorem ofWords_eq_iff (texts : List String) (cut : Cut) :
    ofWords texts = cut ↔ cut.words = texts ∧ cut.Maximal := by
  constructor
  · rintro rfl
    exact ⟨ofWords_words texts, ofWords_maximal texts⟩
  · rintro ⟨rfl, maximal⟩
    exact ofWords_of_maximal cut.lead cut.later maximal

/-- The bytes of words, each with the underscore after it. -/
def extent : List String → Nat
  | [] => 0
  | text :: rest => text.utf8ByteSize + 1 + extent rest

/-- The reference of a run that begins at a byte, if the run has a name in it. -/
def reference (start : Nat) (run : List String) : List Phrase :=
  let name := Phrase.referent run
  if name = "" then []
  else [.reference name ⟨start, start + ("_".intercalate run).utf8ByteSize⟩]

def phrasesFrom : Nat → List String → List (Keyword × List String) → List Phrase
  | start, run, [] => reference start run
  | start, run, (keyword, next) :: rest =>
      reference start run ++
        .control keyword :: phrasesFrom (start + extent (run ++ [keyword.text])) next rest

def phrases (cut : Cut) (start : Nat) : List Phrase := phrasesFrom start cut.lead cut.later

@[simp] theorem extent_nil : extent [] = 0 := rfl

@[simp] theorem extent_cons (text : String) (rest : List String) :
    extent (text :: rest) = text.utf8ByteSize + 1 + extent rest := rfl

@[simp] theorem extent_append (left right : List String) :
    extent (left ++ right) = extent left + extent right := by
  induction left with
  | nil => simp
  | cons text rest ih =>
      simp only [List.cons_append, extent_cons, ih]
      omega

theorem extent_intercalate (first : String) (rest : List String) :
    extent (first :: rest) = ("_".intercalate (first :: rest)).utf8ByteSize + 1 := by
  induction rest generalizing first with
  | nil => simp
  | cons second rest ih =>
      have bar : "_".utf8ByteSize = 1 := rfl
      rw [extent_cons, ih second, String.intercalate_cons_cons]
      simp only [String.utf8ByteSize_append, bar]
      omega

/-! Words in place. Placing words and dropping what each is leaves the words with
their bytes, so a pending run of tokens is its words and the byte it begins at. -/
section Placed

def placed (start : Nat) (run : List String) : List (String × Span) :=
  (Token.place start run).map fun token => (token.word.text, token.span)

@[simp] theorem placed_nil (start : Nat) : placed start [] = [] := rfl

@[simp] theorem placed_cons (start : Nat) (text : String) (rest : List String) :
    placed start (text :: rest) =
      (text, ⟨start, start + text.utf8ByteSize⟩) ::
        placed (start + text.utf8ByteSize + 1) rest := by
  simp [placed, Token.place]

theorem placed_append (start : Nat) (left right : List String) :
    placed start (left ++ right) = placed start left ++ placed (start + extent left) right := by
  induction left generalizing start with
  | nil => simp
  | cons text rest ih => simp [ih, Nat.add_assoc]

theorem placed_words (start : Nat) (run : List String) : (placed start run).map (·.1) = run := by
  induction run generalizing start with
  | nil => rfl
  | cons text rest ih => simp [ih]

theorem placed_last_stop (start : Nat) (first : String) (rest : List String) (fallback : Span) :
    (((placed start (first :: rest)).map (·.2)).getLastD fallback).stop + 1 =
      start + extent (first :: rest) := by
  induction rest generalizing start first fallback with
  | nil => simp [Nat.add_assoc]
  | cons second rest ih =>
      have last := ih (start + first.utf8ByteSize + 1) second ⟨start, start + first.utf8ByteSize⟩
      rw [placed_cons, List.map_cons, List.getLastD_cons, last]
      simp only [extent_cons]
      omega

theorem placed_across (start : Nat) (first : String) (rest : List String) :
    Span.across ((placed start (first :: rest)).map (·.2)) =
      ⟨start, start + ("_".intercalate (first :: rest)).utf8ByteSize⟩ := by
  have last := placed_last_stop start first rest ⟨0, 0⟩
  rw [extent_intercalate] at last
  simp only [placed_cons, List.map_cons, List.getLastD_cons] at last
  simp only [placed_cons, List.map_cons, Span.across, Span.mk.injEq, true_and]
  omega

theorem ofRun_placed (start : Nat) (run : List String) :
    Phrase.ofRun (placed start run) = reference start run := by
  cases run with
  | nil => simp [Phrase.ofRun, reference, Phrase.referent]
  | cons first rest =>
      have texts := placed_words start (first :: rest)
      simp only [Phrase.ofRun, reference, texts, placed_across]

-- One token at a time: a plain word lengthens the pending run, a control word ends it.
theorem ofTokens_placed (start : Nat) (run texts : List String) :
    Phrase.ofTokens (placed start run) (Token.place (start + extent run) texts) =
      phrasesFrom start (run ++ (ofWords texts).lead) (ofWords texts).later := by
  induction texts generalizing start run with
  | nil => simp [Token.place, Phrase.ofTokens, ofWords, phrasesFrom, ofRun_placed]
  | cons text rest ih =>
      cases found : Keyword.ofText? text with
      | none =>
          have longer := ih start (run ++ [text])
          simpa [Token.place, Word.ofText, found, Phrase.ofTokens, ofWords, placed_append,
            Nat.add_assoc] using longer
      | some keyword =>
          have spelled := Keyword.ofText?_eq_some_iff.mp found
          have fresh := ih (start + extent (run ++ [keyword.text])) []
          simpa [Token.place, Word.ofText, found, Phrase.ofTokens, ofWords, phrasesFrom,
            ofRun_placed, spelled, Nat.add_assoc] using fresh

end Placed

theorem phrases_tokens (body : String) :
    NamedSql.phrases (tokens body) = (ofWords (NamedSql.words body)).phrases 0 :=
  ofTokens_placed 0 [] (NamedSql.words body)

end Cut

end NamedSql

import NamedSql.Name.Token

/-!
A name as the phrases it is made of. Plain words that stand together form one
reference to a column, because column names hold underscores themselves. Empty
words at the front of such a run are dropped from the reference but not from its
span, and a run of empty words alone refers to nothing.
-/
namespace NamedSql

inductive Phrase where
  | control (keyword : Keyword)
  | reference (name : String) (span : Span)
  deriving DecidableEq, Repr

namespace Phrase

/-- The column that a run of plain words names. -/
def referent (run : List String) : String :=
  "_".intercalate (run.dropWhile (· == ""))

def ofRun (run : List (String × Span)) : List Phrase :=
  let name := referent (run.map (·.1))
  if name = "" then [] else [.reference name (Span.across (run.map (·.2)))]

def ofTokens : List (String × Span) → List Token → List Phrase
  | run, [] => ofRun run
  | run, ⟨.plain text, span⟩ :: rest => ofTokens (run ++ [(text, span)]) rest
  | run, ⟨.control keyword, _⟩ :: rest => ofRun run ++ .control keyword :: ofTokens [] rest

end Phrase

def phrases (tokens : List Token) : List Phrase := Phrase.ofTokens [] tokens

end NamedSql

import NamedSql.Text.Quoting

/-!
The reading of finished SQL text as code and text literals. Outside a literal a
quote opens one. Inside, two quotes stand for one and a single quote closes. The
answer keeps the code with one hole where each literal stood, and the contents
of the literals in order. Text that ends inside a literal has no reading.
-/
namespace NamedSql

structure Literals where
  /-- The characters outside literals, with `none` where a literal stood. -/
  skeleton : List (Option Char)
  contents : List (List Char)
  deriving DecidableEq, Repr

namespace Literals

open Quoting (mark)

def empty : Literals := ⟨[], []⟩

def code (letter : Char) (after : Literals) : Literals :=
  { after with skeleton := some letter :: after.skeleton }

def literal (content : List Char) (after : Literals) : Literals :=
  ⟨none :: after.skeleton, content :: after.contents⟩

/-- Where the reading stands. At `closing` a quote was met inside a literal, and
only the next character tells whether it closed the literal or began a pair. -/
inductive Place where
  | outside
  | inside (content : List Char)
  | closing (content : List Char)
  deriving DecidableEq, Repr

def readFrom : Place → List Char → Option Literals
  | .outside, [] => some empty
  | .inside _, [] => none
  | .closing content, [] => some (literal content empty)
  | .outside, letter :: rest =>
      if letter = mark then readFrom (.inside []) rest
      else (readFrom .outside rest).map (code letter)
  | .inside content, letter :: rest =>
      if letter = mark then readFrom (.closing content) rest
      else readFrom (.inside (content ++ [letter])) rest
  | .closing content, letter :: rest =>
      if letter = mark then readFrom (.inside (content ++ [mark])) rest
      else (readFrom .outside rest).map fun after => literal content (code letter after)

def read (text : String) : Option Literals := readFrom .outside text.toList

end Literals

end NamedSql

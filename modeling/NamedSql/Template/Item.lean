/-!
The written form of a template and its reading. A brace that is text is written
twice, a slot is a key between single braces, and a slot without a key is a blank.
A template has slots of one kind only. Reading goes from left to right and stops
at the first defect; reading what `write` wrote gives the items back.
-/
namespace NamedSql

inductive Slots where
  | named
  | positional
  deriving DecidableEq, Repr, Inhabited

inductive Defect where
  | unmatched
  | unclosed
  | keyed
  | keyless
  deriving DecidableEq, Repr, Inhabited

namespace Defect

def message : Defect → String
  | .unmatched => "unmatched `\x7d`"
  | .unclosed => "unclosed `\x7b`"
  | .keyed => "named placeholder in a positional template"
  | .keyless => "positional placeholder in a named template"

end Defect

inductive Item where
  | plain (letter : Char)
  | named (key : List Char)
  | blank
  deriving DecidableEq, Repr

namespace Item

def write : Item → List Char
  | .plain letter =>
      if letter = '{' ∨ letter = '}' then [letter, letter] else [letter]
  | .named key => '{' :: key ++ ['}']
  | .blank => ['{', '}']

def slot (slots : Slots) (key : List Char) : Except Defect Item :=
  match slots, key with
  | .positional, [] => .ok .blank
  | .positional, _ :: _ => .error .keyed
  | .named, [] => .error .keyless
  | .named, first :: rest => .ok (.named (first :: rest))

/-- Where the reading stands: in text, after an opening brace, inside a key of
which some letters are read, or after a closing brace in text. -/
inductive Place where
  | text
  | opened
  | inside (key : List Char)
  | closing
  deriving DecidableEq, Repr

def readFrom (slots : Slots) : Place → List Char → Except Defect (List Item)
  | .text, [] => .ok []
  | .opened, [] => .error .unclosed
  | .inside _, [] => .error .unclosed
  | .closing, [] => .error .unmatched
  | .text, letter :: rest =>
      if letter = '{' then readFrom slots .opened rest
      else if letter = '}' then readFrom slots .closing rest
      else (readFrom slots .text rest).map (.plain letter :: ·)
  | .opened, letter :: rest =>
      if letter = '{' then (readFrom slots .text rest).map (.plain '{' :: ·)
      else if letter = '}' then
        (slot slots []).bind fun item => (readFrom slots .text rest).map (item :: ·)
      else readFrom slots (.inside [letter]) rest
  | .inside key, letter :: rest =>
      if letter = '{' then .error .unclosed
      else if letter = '}' then
        (slot slots key).bind fun item => (readFrom slots .text rest).map (item :: ·)
      else readFrom slots (.inside (key ++ [letter])) rest
  | .closing, letter :: rest =>
      if letter = '}' then (readFrom slots .text rest).map (.plain '}' :: ·)
      else .error .unmatched

def read (slots : Slots) (text : String) : Except Defect (List Item) :=
  readFrom slots .text text.toList

/-- The items that a template with slots of one kind may have. A key has letters,
none of them a brace. -/
def Allowed (slots : Slots) : Item → Prop
  | .plain _ => True
  | .named key => slots = .named ∧ key ≠ [] ∧ ∀ letter ∈ key, letter ≠ '{' ∧ letter ≠ '}'
  | .blank => slots = .positional

theorem readFrom_key (slots : Slots) (sofar key rest : List Char)
    (bare : ∀ letter ∈ key, letter ≠ '{' ∧ letter ≠ '}') :
    readFrom slots (.inside sofar) (key ++ '}' :: rest) =
      (slot slots (sofar ++ key)).bind fun item =>
        (readFrom slots .text rest).map (item :: ·) := by
  induction key generalizing sofar with
  | nil => simp [readFrom]
  | cons letter tail ih => simp_all [readFrom]

theorem readFrom_write (slots : Slots) (item : Item) (rest : List Char)
    (allowed : item.Allowed slots) :
    readFrom slots .text (item.write ++ rest) =
      (readFrom slots .text rest).map (item :: ·) := by
  match item, allowed with
  | .plain letter, _ =>
      by_cases opening : letter = '{'
      · subst opening; simp [write, readFrom]
      · by_cases closing : letter = '}'
        · subst closing; simp [write, readFrom]
        · simp [write, readFrom, opening, closing]
  | .blank, same =>
      obtain rfl : slots = .positional := same
      simp [write, readFrom, slot, Except.bind]
  | .named (first :: tail), allowed =>
      obtain ⟨rfl, _, bare⟩ := allowed
      have head := bare first (by simp)
      have later := readFrom_key .named [first] tail rest
        (fun letter member => bare letter (by simp [member]))
      simpa [write, readFrom, head, slot, Except.bind] using later

theorem readFrom_flatMap_write (slots : Slots) (items : List Item)
    (allowed : ∀ item ∈ items, item.Allowed slots) :
    readFrom slots .text (items.flatMap write) = .ok items := by
  induction items with
  | nil => rfl
  | cons item rest ih =>
      rw [List.flatMap_cons, readFrom_write slots item _ (allowed item (by simp)),
        ih fun later member => allowed later (by simp [member])]
      rfl

end Item

end NamedSql

/-!
How a text value is written between single quotes. Raw text is pasted as it is,
so a quote inside it ends the literal. Escaped text has each quote doubled, and
doubling acts on each character alone: it distributes over concatenation.
-/
namespace NamedSql

inductive Quoting where
  | raw
  | escaped
  deriving DecidableEq, Repr, Inhabited

namespace Quoting

/-- The character that opens and closes a text literal. -/
def mark : Char := '\x27'

def double : List Char → List Char
  | [] => []
  | letter :: rest =>
      if letter = mark then mark :: mark :: double rest else letter :: double rest

def apply : Quoting → String → String
  | .raw, text => text
  | .escaped, text => String.ofList (double text.toList)

@[simp] theorem double_nil : double [] = [] := rfl

@[simp] theorem double_append (left right : List Char) :
    double (left ++ right) = double left ++ double right := by
  induction left with
  | nil => rfl
  | cons letter rest ih => by_cases quote : letter = mark <;> simp [double, quote, ih]

theorem double_of_clean (letters : List Char) (clean : mark ∉ letters) :
    double letters = letters := by
  induction letters with
  | nil => rfl
  | cons letter rest ih =>
      have other : letter ≠ mark := fun same => clean (by simp [same])
      have later := ih fun member => clean (List.mem_cons_of_mem letter member)
      simp [double, other, later]

@[simp] theorem apply_raw (text : String) : apply .raw text = text := rfl

@[simp] theorem toList_apply_escaped (text : String) :
    (apply .escaped text).toList = double text.toList := by
  simp [apply]

end Quoting

end NamedSql

/-!
White space as the Unicode property `White_Space` has it, twenty-five characters
in ten ranges, and the removal of white space at the ends of a text.
-/
namespace NamedSql.Text

/-- Closed ranges of code points, ascending and apart. -/
def blankRanges : List (Nat × Nat) :=
  [(0x09, 0x0D), (0x20, 0x20), (0x85, 0x85), (0xA0, 0xA0), (0x1680, 0x1680),
   (0x2000, 0x200A), (0x2028, 0x2029), (0x202F, 0x202F), (0x205F, 0x205F), (0x3000, 0x3000)]

def isBlank (letter : Char) : Bool :=
  blankRanges.any fun range => range.1 ≤ letter.toNat && letter.toNat ≤ range.2

def trimStart (letters : List Char) : List Char := letters.dropWhile isBlank

def trimEnd (letters : List Char) : List Char := (letters.reverse.dropWhile isBlank).reverse

def trim (letters : List Char) : List Char := trimEnd (trimStart letters)

/-- Only what stands last can be trimmed away. -/
theorem trimEnd_append_of_trimEnd_ne_nil (left right : List Char)
    (kept : trimEnd right ≠ []) : trimEnd (left ++ right) = left ++ trimEnd right := by
  simp only [trimEnd, List.reverse_append, ne_eq, List.reverse_eq_nil_iff] at *
  rw [List.dropWhile_append]
  simp [List.isEmpty_iff, kept]

end NamedSql.Text

import NamedSql.Text.Hex
import NamedSql.Decimal.Positional

/-!
Values of columns and the bare text of each. A text value is written as it is:
whether it needs quotes depends on the column that receives it.
-/
namespace NamedSql

inductive Value where
  | null
  | integer (number : Int64)
  | real (number : Float)
  | boolean (truth : Bool)
  | text (letters : String)
  | blob (bytes : List UInt8)
  -- Reals compare as numbers do: a NaN differs from itself and zero has no sign.
  deriving BEq, Repr, Inhabited

namespace Value

def isNull : Value → Bool
  | .null => true
  | _ => false

@[simp] theorem bne_null (value : Value) : (value != .null) = !value.isNull := by
  cases value <;> rfl

theorem isNull_eq_false_iff (value : Value) : value.isNull = false ↔ value ≠ .null := by
  cases value <;> simp [isNull]

def render : Value → String
  | .null => "NULL"
  | .integer number => number.toInt.repr
  | .real number => Decimal.render number
  | .boolean true => "TRUE"
  | .boolean false => "FALSE"
  | .text letters => letters
  | .blob bytes => "X'" ++ String.ofList (Text.hex bytes) ++ "'"

def ofOption : Option Value → Value
  | some value => value
  | none => .null

end Value

end NamedSql

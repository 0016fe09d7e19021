/-!
Reading a whole number that must not pass a bound. One plus sign may stand in
front of the digits, which are the ten of ASCII. Letters are taken from left to
right: the first one that is no digit, or takes the number over the bound, decides
what is wrong, and a letter that would do both counts as no digit.
-/
namespace NamedSql.Decimal

inductive Misread where
  | empty
  | notDigit
  | tooLarge
  deriving DecidableEq, Repr, Inhabited

namespace Misread

def message : Misread → String
  | .empty => "cannot parse integer from empty string"
  | .notDigit => "invalid digit found in string"
  | .tooLarge => "number too large to fit in target type"

end Misread

/-- Goes on reading after digits worth `sofar`. -/
def readDigits (bound : Nat) : Nat → List Char → Except Misread Nat
  | sofar, [] => .ok sofar
  | sofar, letter :: rest =>
      if !letter.isDigit then .error .notDigit
      else
        let next := sofar * 10 + (letter.toNat - '0'.toNat)
        if bound < next then .error .tooLarge else readDigits bound next rest

def readBounded (bound : Nat) : List Char → Except Misread Nat
  | [] => .error .empty
  | first :: rest =>
      if first = '+' then if rest = [] then .error .notDigit else readDigits bound 0 rest
      else readDigits bound 0 (first :: rest)

end NamedSql.Decimal

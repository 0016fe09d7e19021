import NamedSql.Decimal.Shortest

/-!
Numbers written positionally, never with an exponent. A whole number has no
point, a fraction ends in no zero, and a zero stands before a leading point.
A negative zero keeps its sign and a NaN has none.
-/
namespace NamedSql.Decimal

def Scaled.positional (number : Scaled) : List Char :=
  if 0 ≤ number.power then Nat.toDigits 10 (number.digits * Nat.pow 10 number.power.toNat)
  else
    let places := (-number.power).toNat
    let digits := Nat.toDigits 10 number.digits
    let padded := List.replicate (places + 1 - digits.length) '0' ++ digits
    let whole := padded.take (padded.length - places)
    let fraction := padded.drop (padded.length - places)
    match (fraction.reverse.dropWhile (· == '0')).reverse with
    | [] => whole
    | kept => whole ++ '.' :: kept

def render (value : Float) : String :=
  if value.isNaN then "NaN"
  else
    let bits := value.toBits
    let sign := if bits >>> 63 = 0 then "" else "-"
    if value.isInf then sign ++ "inf"
    else
      let magnitude := Binary.ofBits bits
      if magnitude.significand = 0 then sign ++ "0"
      else sign ++ String.ofList magnitude.shortest.positional

end NamedSql.Decimal

/-!
The fewest decimal digits that name a binary64 value. The reals that round to a
value form an interval around it, its ends included when the significand is
even. A number of digits suffices when the decimal grid of that length meets the
interval, and then one of the two grid points around the value lies in it. The
first such grid is taken, of two points the nearer one, and an exact tie goes up.
All comparisons are between naturals, so nothing is rounded on the way.
-/
namespace NamedSql.Decimal

/-- The finite magnitude `significand * 2 ^ exponent`. -/
structure Binary where
  significand : Nat
  exponent : Int
  /-- The next value below is half as far away as the next one above. -/
  narrowBelow : Bool
  deriving DecidableEq, Repr

/-- The decimal `digits * 10 ^ power`. -/
structure Scaled where
  digits : Nat
  power : Int
  deriving DecidableEq, Repr

namespace Binary

/-- Reads the fields of a finite value, its sign apart. -/
def ofBits (bits : UInt64) : Binary :=
  let biased := ((bits >>> 52) &&& 0x7FF).toNat
  let fraction := (bits &&& 0xFFFFFFFFFFFFF).toNat
  if biased = 0 then ⟨fraction, -1074, false⟩
  else ⟨0x10000000000000 + fraction, (biased : Int) - 1075, fraction == 0 && biased != 1⟩

/-- A quarter of the last binary place is `up / down` units of `10 ^ power`. The
value and both ends of its interval are whole numbers of such quarters. -/
def quarter (value : Binary) (power : Int) : Nat × Nat :=
  let place := value.exponent - 2
  (Nat.pow 2 place.toNat * Nat.pow 10 (-power).toNat,
    Nat.pow 2 (-place).toNat * Nat.pow 10 power.toNat)

/-- Whether `point * 10 ^ power` rounds to the value. -/
def covers (value : Binary) (power : Int) (point : Nat) : Bool :=
  let (up, down) := value.quarter power
  let low := (4 * value.significand - if value.narrowBelow then 1 else 2) * up
  let high := (4 * value.significand + 2) * up
  if value.significand % 2 = 0 then low ≤ point * down && point * down ≤ high
  else low < point * down && point * down < high

/-- The grid point of step `10 ^ power` that names the value, if there is one. -/
def onGrid (value : Binary) (power : Int) : Option Nat :=
  let (up, down) := value.quarter power
  let below := 4 * value.significand * up / down
  match value.covers power below, value.covers power (below + 1) with
  | true, true =>
      if 2 * (4 * value.significand * up) < (2 * below + 1) * down then some below
      else some (below + 1)
  | true, false => some below
  | false, true => some (below + 1)
  | false, false => none

/-- The least `power` with the value below `10 ^ power`. Comparing the lengths of
numerator and denominator leaves two candidates. -/
def magnitude (value : Binary) : Int :=
  let length (n : Nat) : Int := (Nat.toDigits 10 n).length
  let (up, down) := value.quarter 0
  let guess := length (4 * value.significand * up) - length down
  let (up, down) := value.quarter guess
  if 4 * value.significand * up < down then guess else guess + 1

/-- The value itself, with as many digits as that takes. -/
def exact (value : Binary) : Scaled :=
  if 0 ≤ value.exponent then ⟨value.significand * Nat.pow 2 value.exponent.toNat, 0⟩
  else ⟨value.significand * Nat.pow 5 (-value.exponent).toNat, value.exponent⟩

/-- Seventeen digits name every value, so the exact form is a last resort that
keeps the function total. -/
def shortest (value : Binary) : Scaled :=
  let top := value.magnitude
  let grids := (List.range 17).map fun (finer : Nat) => top - 1 - (finer : Int)
  (grids.findSome? fun power => (value.onGrid power).map (Scaled.mk · power)).getD value.exact

end Binary

end NamedSql.Decimal

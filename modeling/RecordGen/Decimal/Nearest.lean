/-!
The numbers that decimal digits write: integers, and the double nearest to a decimal.
-/

namespace RecordGen.Decimal

/-- The number of digits up to which integers are read and written. -/
def integerDigits : Nat := 4300

/-- The number has more digits than are read and written. -/
def isLong (n : Nat) : Bool :=
  Nat.pow 10 integerDigits ≤ n

/-- The number that decimal digits write. -/
def digitsValue (ds : List Char) : Nat :=
  ds.foldl (fun n d => 10 * n + (d.toNat - '0'.toNat)) 0

/-- The double nearest to the number that digits and an exponent write. Numbers far outside the
range of doubles give infinity or zero without computing the power. -/
def nearest (ds : List Char) (exponent : Int) : Float :=
  let significant := ds.dropWhile (· == '0')
  let magnitude := significant.length + exponent
  if significant.isEmpty then 0
  else if 400 < magnitude then 1 / 0
  else if magnitude < -400 then 0
  else Float.ofScientific (digitsValue significant) (exponent < 0) exponent.natAbs

end RecordGen.Decimal

/-!
The shortest decimal of a double.

A finite double is a number `m · 2^e`. The reals that round to it form an interval around it, whose
ends belong to it iff `m` is even. Among the decimals of that interval the shortest one is chosen:
for one, two, … digits the two neighbours of the double on the grid of that many digits are tried,
and of two that fit the nearer one wins.
-/

namespace RecordGen.Decimal

/-- A finite double without its sign: the integer `significand` times two to the power `exponent`.
-/
structure Binary where
  significand : Nat
  exponent : Int
deriving Repr, DecidableEq

/-- The parts of the bit pattern of a double. -/
inductive Shape where
  | notANumber
  | infinite (negative : Bool)
  | finite (negative : Bool) (magnitude : Binary)
deriving Repr, DecidableEq

def shape (x : Float) : Shape :=
  let bits : Nat := x.toBits.toNat
  let negative := bits / Nat.pow 2 63 == 1
  let field : Nat := bits / Nat.pow 2 52 % Nat.pow 2 11
  let fraction : Nat := bits % Nat.pow 2 52
  if field == 2047 then
    if fraction == 0 then .infinite negative else .notANumber
  else if field == 0 then .finite negative ⟨fraction, -1074⟩
  else .finite negative ⟨Nat.pow 2 52 + fraction, (field : Int) - 1075⟩

/-- The double and the ends of its interval, each as a numerator over one common denominator. -/
structure Interval where
  value : Nat
  low : Nat
  high : Nat
  denominator : Nat
  closed : Bool
deriving Repr

/-- The interval reaches half way to either neighbour. Below a power of two the lower neighbour is
only half as far away. -/
def Binary.interval (b : Binary) : Interval :=
  let below := if b.significand == Nat.pow 2 52 && b.exponent > -1074 then 1 else 2
  let closed := b.significand % 2 == 0
  let e := b.exponent - 2
  let up := Nat.pow 2 e.toNat
  let down := Nat.pow 2 (-e).toNat
  ⟨4 * b.significand * up, (4 * b.significand - below) * up, (4 * b.significand + 2) * up, down,
    closed⟩

/-- Whether `d · 10^k` lies in the interval. -/
def Interval.holds (i : Interval) (d : Nat) (k : Int) : Bool :=
  let x := d * Nat.pow 10 k.toNat * i.denominator
  let scale := Nat.pow 10 (-k).toNat
  if i.closed then i.low * scale ≤ x && x ≤ i.high * scale
  else i.low * scale < x && x < i.high * scale

/-- The power of ten at or below a positive fraction. -/
def magnitude (num den : Nat) : Int :=
  if den ≤ num then ((Nat.toDigits 10 (num / den)).length : Int) - 1
  else
    let zeros := ((List.range 400).find? fun k => den ≤ num * Nat.pow 10 (k + 1)).getD 400
    Int.negSucc zeros

/-- The better of the two neighbours of the value among the multiples of `10^k`, if one of them lies
in the interval. A tie goes to the even one. -/
def Interval.neighbour? (i : Interval) (k : Int) : Option Nat :=
  let num := i.value * Nat.pow 10 (-k).toNat
  let den := i.denominator * Nat.pow 10 k.toNat
  let d := num / den
  let twice := 2 * (num % den)
  let first := if twice < den || (twice == den && d % 2 == 0) then d else d + 1
  let second := if first == d then d + 1 else d
  if i.holds first k then some first
  else if i.holds second k then some second
  else none

/-- A decimal `digits · 10^exponent`. -/
structure Digits where
  digits : List Char
  exponent : Int
deriving Repr, DecidableEq

/-- The same decimal without zeros at the end of its digits. -/
def Digits.normalize (d : Digits) : Digits :=
  let zeros := (d.digits.reverse.takeWhile (· == '0')).length
  ⟨d.digits.take (d.digits.length - zeros), d.exponent + zeros⟩

/-- The decimal with the fewest digits that reads back as the double; seventeen always do. -/
def Binary.shortest (b : Binary) : Digits :=
  let i := b.interval
  let p := magnitude i.value i.denominator
  let found := (List.range 17).findSome? fun (n : Nat) =>
    let k := p - n
    (i.neighbour? k).map fun d => (⟨Nat.toDigits 10 d, k⟩ : Digits)
  (found.getD ⟨['0'], 0⟩).normalize

end RecordGen.Decimal

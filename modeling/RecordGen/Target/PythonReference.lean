import RecordGen.Decimal.Nearest
import RecordGen.Target.PythonTree
import RecordGen.Text.NormalForm

/-!
What the names of generated classes and fields mean where expressions refer to them.

Classes and fields are declared under their names as they are. Where a name is referred to, it is
read by the grammar of expressions: a name that reads as a number is that number, the words for
truth values are these values, and any other name that can be read is taken in its normal form.
-/

namespace RecordGen.Python

/-! ## Numbers -/

/-- Digits of a base, with single underscores between them. -/
def digitGroup? (isDigit : Char → Bool) : List Char → Option (List Char)
  | [] => none
  | [c] => if isDigit c then some [c] else none
  | c :: '_' :: rest => if isDigit c then (c :: ·) <$> digitGroup? isDigit rest else none
  | c :: rest => if isDigit c then (c :: ·) <$> digitGroup? isDigit rest else none

def digitValue (c : Char) : Nat :=
  if c.isDigit then c.toNat - '0'.toNat else c.toLower.toNat - 'a'.toNat + 10

/-- The number after a mark such as `0x`; an underscore may stand between them. -/
def basedValue? (base : Nat) (s : List Char) : Option Nat :=
  let ds := match s with
    | '_' :: rest => rest
    | _ => s
  (digitGroup? (fun c => c.isAlphanum && digitValue c < base) ds).map fun ds =>
    ds.foldl (fun n d => base * n + digitValue d) 0

/-- Digits that may be missing altogether. -/
def optionalDigits? (s : List Char) : Option (List Char) :=
  if s.isEmpty then some [] else digitGroup? Char.isDigit s

/-- The exponent after a decimal, mark included; zero if there is none. -/
def exponent? : List Char → Option Int
  | [] => some 0
  | _ :: '-' :: ds => (digitGroup? Char.isDigit ds).map fun ds => -(Decimal.digitsValue ds : Int)
  | _ :: '+' :: ds => (digitGroup? Char.isDigit ds).map fun ds => (Decimal.digitsValue ds : Int)
  | _ :: ds => (digitGroup? Char.isDigit ds).map fun ds => (Decimal.digitsValue ds : Int)

/-- A decimal number, which the letter `j` after it makes imaginary. Without a point and an exponent
it is an integer, and then it may begin with zero only if it is zero, and has only so many digits.
-/
def Number.ofDecimal? (s : List Char) : Option Number := do
  let isImaginary := s.getLast?.any fun c => c == 'j' || c == 'J'
  let body := if isImaginary then s.dropLast else s
  let isMark : Char → Bool := fun c => c == 'e' || c == 'E'
  let front := body.takeWhile (!isMark ·)
  let power := body.dropWhile (!isMark ·)
  let fraction := front.dropWhile (· != '.')
  let w ← optionalDigits? (front.takeWhile (· != '.'))
  let f ← optionalDigits? (fraction.drop 1)
  let e ← exponent? power
  if w.isEmpty && f.isEmpty then none
  else
    let x := Decimal.nearest (w ++ f) (e - f.length)
    if isImaginary then return .imaginary x
    else if !fraction.isEmpty || !power.isEmpty then return .decimal x
    else if w.head? = some '0' ∧ w.any (· ≠ '0') then none
    else if Decimal.isLong (Decimal.digitsValue w) then none
    else return .integer (Decimal.digitsValue w)

/-- The number that a literal writes. -/
def Number.ofText? (s : List Char) : Option Number :=
  match s with
  | '0' :: 'x' :: rest | '0' :: 'X' :: rest => integer <$> basedValue? 16 rest
  | '0' :: 'o' :: rest | '0' :: 'O' :: rest => integer <$> basedValue? 8 rest
  | '0' :: 'b' :: rest | '0' :: 'B' :: rest => integer <$> basedValue? 2 rest
  | _ => ofDecimal? s

/-! ## Names -/

/-- White space around a name is no part of it. -/
def isMargin (c : Char) : Bool :=
  c == ' ' || c == '\t' || c == '\n' || c == '\r' || c == '\x0c'

def withoutMargins (s : List Char) : List Char :=
  ((s.dropWhile isMargin).reverse.dropWhile isMargin).reverse

/-- A name as an expression shows it. -/
def referredName (name : String) : String :=
  Text.normalForm (.ofList (withoutMargins name.toList))

/-- The expression that refers to the class of this name, for a name that can be read. -/
def Expr.reference (className : String) : Expr :=
  let s := withoutMargins className.toList
  match Number.ofText? s with
  | some n => .number n
  | none =>
    if s = "True".toList then .truth true
    else if s = "False".toList then .truth false
    else .name (referredName className)

end RecordGen.Python

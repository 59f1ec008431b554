import RecordGen.Decimal.Nearest
import RecordGen.Json.Value
import RecordGen.Text.Quoted
import RecordGen.Decimal.Shortest

/-!
How messages show a JSON value: the literal of the value, and the name of its type. A value that
holds an integer of more digits than are written has no literal.
-/

namespace RecordGen

open Text

/-- How a decimal is laid out: positional notation for exponents from `-4` up to `15`, with a zero
after the point of a whole number, and otherwise one digit before the point and an exponent of two
digits at least. -/
def Decimal.Digits.layout (d : Decimal.Digits) : List Char :=
  let n := d.digits.length
  let point := d.exponent + n
  if point < -3 ∨ 16 < point then
    let e := point - 1
    let e' := Nat.toDigits 10 e.natAbs
    let padded := List.replicate (2 - e'.length) '0' ++ e'
    let mantissa := match d.digits with
      | [] => ['0']
      | [c] => [c]
      | c :: cs => c :: '.' :: cs
    mantissa ++ 'e' :: (if e < 0 then '-' else '+') :: padded
  else if point ≤ 0 then
    '0' :: '.' :: (List.replicate (-point).toNat '0' ++ d.digits)
  else
    let whole := point.toNat
    if n ≤ whole then d.digits ++ List.replicate (whole - n) '0' ++ ['.', '0']
    else d.digits.take whole ++ '.' :: d.digits.drop whole

/-- The literal of a double: the shortest decimal that reads back. -/
def Decimal.literal (x : Float) : String :=
  let sign : Bool → List Char := fun negative => if negative then ['-'] else []
  .ofList <| match Decimal.shape x with
    | .notANumber => ['n', 'a', 'n']
    | .infinite negative => sign negative ++ ['i', 'n', 'f']
    | .finite negative b =>
      if b.significand = 0 then sign negative ++ ['0', '.', '0']
      else sign negative ++ b.shortest.layout

namespace Json

mutual

/-- The literal of a value, unless an integer in it is too long to be written. -/
def literal? : Json → Option String
  | null => some "None"
  | bool b => some (if b then "True" else "False")
  | integer n => if Decimal.isLong n.natAbs then none else some (toString n)
  | decimal x => some (Decimal.literal x)
  | text s => some (quoted s)
  | list items => do return "[" ++ ", ".intercalate (← literals? items) ++ "]"
  | object fields => do return "\x7b" ++ ", ".intercalate (← fieldLiterals? fields) ++ "\x7d"

def literals? : List Json → Option (List String)
  | [] => some []
  | v :: vs => do return (← literal? v) :: (← literals? vs)

def fieldLiterals? : List (String × Json) → Option (List String)
  | [] => some []
  | (k, v) :: rest => do return (quoted k ++ ": " ++ (← literal? v)) :: (← fieldLiterals? rest)

end

def kindName : Json → String
  | null => "NoneType"
  | bool _ => "bool"
  | integer _ => "int"
  | decimal _ => "float"
  | text _ => "str"
  | list _ => "list"
  | object _ => "dict"

end Json

end RecordGen

import RecordGen.Target.PythonReference

/-!
Which trees can be written as sources: integers are written up to a number of digits.

An integer stands in a tree where the name of a class reads as a number, so the types of fields are
searched for such names too.
-/

namespace RecordGen.Python

/-- The integer has more digits than are written. -/
def Number.isLong : Number → Bool
  | integer n => Decimal.isLong n
  | decimal _ => false
  | imaginary _ => false

namespace Expr

mutual

/-- Whether the expression holds an integer that is too long to be written. -/
def hasLongInteger : Expr → Bool
  | name _ => false
  | number n => n.isLong
  | truth _ => false
  | text _ => false
  | member object _ => hasLongInteger object
  | call function arguments named =>
    hasLongInteger function || anyLongInteger arguments || anyNamedLongInteger named
  | subscript object parts => hasLongInteger object || anyLongInteger parts
  | list items => anyLongInteger items

def anyLongInteger : List Expr → Bool
  | [] => false
  | e :: es => hasLongInteger e || anyLongInteger es

def anyNamedLongInteger : List (String × Expr) → Bool
  | [] => false
  | (_, e) :: rest => hasLongInteger e || anyNamedLongInteger rest

end

end Expr

namespace Ty

mutual

/-- Whether the name of a class in the type reads as an integer that is too long to be written. -/
def hasLongInteger : Ty → Bool
  | builtin _ => false
  | any => false
  | collection _ arguments => anyLongInteger arguments
  | generated name => (Expr.reference name).hasLongInteger
  | optional inner => hasLongInteger inner

def anyLongInteger : List Ty → Bool
  | [] => false
  | t :: ts => hasLongInteger t || anyLongInteger ts

end

end Ty

def Parameter.hasLongInteger (p : Parameter) : Bool :=
  p.type.any Expr.hasLongInteger

namespace Statement

mutual

/-- Whether the statement holds an integer that is too long to be written. -/
def hasLongInteger : Statement → Bool
  | doc _ => false
  | field _ type => type.hasLongInteger
  | assign _ value => value.hasLongInteger
  | evaluate e => e.hasLongInteger
  | give e => e.hasLongInteger
  | pass => false
  | function decorators _ parameters result body =>
    Expr.anyLongInteger decorators || parameters.any Parameter.hasLongInteger ||
      result.hasLongInteger || anyLongInteger body
  | classDefinition decorators _ bases body =>
    Expr.anyLongInteger decorators || Expr.anyLongInteger bases || anyLongInteger body

def anyLongInteger : List Statement → Bool
  | [] => false
  | s :: ss => hasLongInteger s || anyLongInteger ss

end

end Statement

end RecordGen.Python

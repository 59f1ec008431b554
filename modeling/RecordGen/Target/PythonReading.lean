import RecordGen.Target.Fault
import RecordGen.Target.PythonName
import RecordGen.Target.PythonReference

/-!
Which texts of a module can be read.

Annotations, the contract that a record extends and the functions of the copy-with protocol are
written as texts, which are read as expressions and definitions before they become part of the
module. A class name that is neither a number nor a name of the grammar stops this, and so does a
line feed where no line may end.
-/

namespace RecordGen.Python

/-- The keywords that stand for values. -/
def valueWords : List String := ["False", "None", "True"]

/-- A name that can be read where an expression refers to it: a number, the word of a value, or a
name that is no keyword. -/
def isReadable (name : String) : Bool :=
  let s := withoutMargins name.toList
  let word : String := .ofList s
  (Number.ofText? s).isSome || isIdentifier word && (word ∉ keywords || word ∈ valueWords)

def isLineEnd (c : Char) : Bool :=
  c == '\n' || c == '\r'

/-- A line ends inside the name or behind it. -/
def holdsLineEnd (name : String) : Bool :=
  name.toList.any isLineEnd

/-- A numeral to which a point behind it would belong. -/
def isWholeNumeral (name : String) : Bool :=
  let s := withoutMargins name.toList
  (Number.ofText? s).isSome && s.all fun c => c.isDigit || c == '_'

namespace Ty

mutual

/-- Whether every class name in the type can be read. -/
def namesReadable : Ty → Bool
  | builtin _ => true
  | any => true
  | collection _ arguments => argumentsReadable arguments
  | generated name => Python.isReadable name
  | optional inner => namesReadable inner

def argumentsReadable : List Ty → Bool
  | [] => true
  | t :: ts => namesReadable t && argumentsReadable ts

end

/-- Whether the type can be read as an annotation. Outside of brackets the line may end behind the
annotation only. -/
def isReadable (t : Ty) : Bool :=
  t.namesReadable && match t with
    | optional (generated name) => !holdsLineEnd name
    | _ => true

end Ty

/-- Whether the contract that a record extends can be read: it shows the record's name as a text. -/
def contractReadable (name : String) : Bool :=
  !holdsLineEnd name

/-- Whether the functions can be read that copy a record with these fields. They refer to the record
and, behind a point, to its staging class. -/
def copiesReadable (name : String) (fields : List (String × Ty)) : Bool :=
  isReadable name && !isWholeNumeral name && !holdsLineEnd name &&
    fields.all fun f => !holdsLineEnd f.1

/-- Goes on if a text can be read. -/
def whenReadable (readable : Bool) : Except TargetFault Unit :=
  if readable then .ok () else .error .unreadable

end RecordGen.Python

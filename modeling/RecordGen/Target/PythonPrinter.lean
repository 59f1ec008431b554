import RecordGen.Target.PythonLiteral
import RecordGen.Target.PythonReference

/-!
Printing Python trees.

Every statement starts a line of its own, indented by its depth, and a blank line stands before each
function and class.
-/

namespace RecordGen.Python

def truthText (b : Bool) : String :=
  if b then "True" else "False"

namespace Expr

/-- The point before a member. It is set apart from an integer, where it would read as the point of
a decimal, and truth values count as integers. -/
def memberPoint : Expr → String
  | number (.integer _) => " ."
  | truth _ => " ."
  | _ => "."

mutual

def print : Expr → String
  | name id => id
  | number n => n.text
  | truth b => truthText b
  | text s => Text.quoted s
  | member object part => print object ++ memberPoint object ++ part
  | call function arguments named =>
    print function ++ "(" ++ ", ".intercalate (prints arguments ++ printNamed named) ++ ")"
  | subscript object parts => print object ++ "[" ++ ", ".intercalate (prints parts) ++ "]"
  | list items => "[" ++ ", ".intercalate (prints items) ++ "]"

def prints : List Expr → List String
  | [] => []
  | e :: es => print e :: prints es

def printNamed : List (String × Expr) → List String
  | [] => []
  | (k, e) :: rest => (k ++ "=" ++ print e) :: printNamed rest

end

end Expr

namespace Ty

mutual

/-- The text of a type; `write` writes the name of a generated class. -/
def textWith (write : String → String) : Ty → String
  | builtin name => name
  | any => "Any"
  | collection name arguments =>
    name ++ "[" ++ ", ".intercalate (textsWith write arguments) ++ "]"
  | generated name => write name
  | optional inner => textWith write inner ++ " | None"

def textsWith (write : String → String) : List Ty → List String
  | [] => []
  | t :: ts => textWith write t :: textsWith write ts

end

/-- The text of a type. -/
def text (t : Ty) : String :=
  t.textWith id

/-- The type as the annotation of a field. -/
def hint (t : Ty) : String :=
  t.textWith fun name => (Expr.reference name).print

end Ty

def Parameter.print (p : Parameter) : String :=
  match p.type with
  | none => p.name
  | some t => p.name ++ ": " ++ t.print

/-- One step of indentation. -/
def indent : String := "    "

def margin (depth : Nat) : String :=
  .join (List.replicate depth indent)

/-- Decorators, each on a line of its own. -/
def decoratorLines (depth : Nat) (decorators : List Expr) : List String :=
  decorators.map fun d => margin depth ++ "@" ++ d.print

namespace Statement

mutual

/-- The lines of a statement at a depth. A documentation string counts as one line. -/
def lines (depth : Nat) : Statement → List String
  | doc text => [margin depth ++ docLiteral text]
  | field name type => [margin depth ++ name ++ ": " ++ type.hint]
  | assign name value => [margin depth ++ name ++ " = " ++ value.print]
  | evaluate e => [margin depth ++ e.print]
  | give e => [margin depth ++ "return " ++ e.print]
  | pass => [margin depth ++ "pass"]
  | function decorators name parameters result body =>
    "" :: decoratorLines depth decorators ++
      [margin depth ++ "def " ++ name ++ "(" ++ ", ".intercalate (parameters.map Parameter.print) ++
        ") -> " ++ result.print ++ ":"] ++
      bodyLines (depth + 1) body
  | classDefinition decorators name bases body =>
    "" :: decoratorLines depth decorators ++
      [margin depth ++ "class " ++ name ++
        (if bases.isEmpty then "" else "(" ++ ", ".intercalate (bases.map Expr.print) ++ ")") ++
        ":"] ++
      bodyLines (depth + 1) body

def bodyLines (depth : Nat) : List Statement → List String
  | [] => []
  | s :: ss => lines depth s ++ bodyLines depth ss

end

/-- The text of statements at the top level; it does not begin with a blank line. -/
def printAll (ss : List Statement) : String :=
  let all := bodyLines 0 ss
  "\n".intercalate (if all.head? = some "" then all.tail else all)

end Statement

end RecordGen.Python

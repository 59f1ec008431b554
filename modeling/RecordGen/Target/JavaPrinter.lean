import RecordGen.Target.JavaTree

/-!
Printing Java trees.

Braces close on lines of their own, members are separated by blank lines, and annotations stand on
lines above the declaration. A record header of more than a hundred characters puts each component
on a line of its own.
-/

namespace RecordGen.Java

/-- The part of a qualified name after its last point. -/
def simpleName (qualified : String) : String :=
  .ofList (qualified.toList.reverse.takeWhile (· ≠ '.')).reverse

def Scalar.text : Scalar → String
  | .boolean => "boolean"
  | .long => "long"
  | .double => "double"

def Scalar.boxText : Scalar → String
  | .boolean => "Boolean"
  | .long => "Long"
  | .double => "Double"

/-- A generated type as seen from inside a container. -/
def typeReference (container : String) (t : TypePath) : String :=
  if t.container = container then t.name else t.dotted

namespace Ty

mutual

/-- The type as it is written inside a container. -/
def text (container : String) : Ty → String
  | named s => s
  | scalar s => s.text
  | boxed s => s.boxText
  | platform name => name
  | imported qualified arguments =>
    simpleName qualified ++ "<" ++ ", ".intercalate (texts container arguments) ++ ">"
  | generic name arguments => name ++ "<" ++ ", ".intercalate (texts container arguments) ++ ">"
  | generated t => typeReference container t
  | annotated marker inner => "@" ++ marker ++ " " ++ text container inner

def texts (container : String) : List Ty → List String
  | [] => []
  | t :: ts => text container t :: texts container ts

end

end Ty

def Access.text : Access → String
  | .publicAccess => "public"
  | .privateAccess => "private"
  | .protectedAccess => "protected"
  | .packageAccess => ""

def Modifier.text : Modifier → String
  | .static => "static"
  | .final => "final"
  | .abstract => "abstract"

/-- Access and modifiers, each with a space after it. -/
def modifiersText (access : Access) (modifiers : List Modifier) : String :=
  let words := (access.text :: modifiers.map Modifier.text).filter (!·.isEmpty)
  .join (words.map (· ++ " "))

def Marker.text (a : Marker) : String :=
  if a.arguments.isEmpty then "@" ++ a.name
  else "@" ++ a.name ++ "(" ++ ", ".intercalate a.arguments ++ ")"

def Parameter.text (container : String) (p : Parameter) : String :=
  (if p.isFinal then "final " else "") ++ p.type.text container ++ " " ++ p.name

def parametersText (container : String) (ps : List Parameter) : String :=
  ", ".intercalate (ps.map (Parameter.text container))

namespace Expr

mutual

def text : Expr → String
  | name n => n
  | field object member => text object ++ "." ++ member
  | call object method arguments =>
    text object ++ "." ++ method ++ "(" ++ ", ".intercalate (texts arguments) ++ ")"
  | construct type arguments => "new " ++ type ++ "(" ++ ", ".intercalate (texts arguments) ++ ")"

def texts : List Expr → List String
  | [] => []
  | e :: es => text e :: texts es

end

end Expr

def Statement.text : Statement → String
  | .verbatim line => line
  | .assign target value => target.text ++ " = " ++ value.text ++ ";"
  | .declare name value => "final var " ++ name ++ " = " ++ value.text ++ ";"
  | .evaluate e => e.text ++ ";"
  | .give e => "return " ++ e.text ++ ";"

/-- Record headers longer than this are broken. -/
def maxHeader : Nat := 100

/-- How a unit is printed: the step of indentation, and the container its references are seen
from. -/
structure Layout where
  indent : String
  container : String
deriving Repr, Inhabited

namespace Layout

variable (l : Layout)

/-- The white space in front of lines at a depth. -/
def margin (depth : Nat) : String :=
  .join (List.replicate depth l.indent)

def body (depth : Nat) (statements : List Statement) : List String :=
  statements.map fun s => l.margin (depth + 1) ++ s.text

def fieldLine (depth : Nat) (f : Field) : String :=
  l.margin depth ++ modifiersText f.access f.modifiers ++ f.type.text l.container ++ " " ++
    f.name ++ ";"

def constructorLines (depth : Nat) (c : Constructor) : List String :=
  [l.margin depth ++ modifiersText c.access [] ++ c.className ++ "(" ++
      parametersText l.container c.parameters ++ ") \x7b"] ++
    l.body depth c.body ++ [l.margin depth ++ "\x7d"]

def methodLines (depth : Nat) (m : Method) : List String :=
  let signature := l.margin depth ++ modifiersText m.access m.modifiers ++
    m.returnType.text l.container ++ " " ++ m.name ++ "(" ++
    parametersText l.container m.parameters ++ ")"
  m.javadoc.map (l.margin depth ++ ·) ++
    m.annotations.map (fun a => l.margin depth ++ a.text) ++
    match m.body with
    | none => [signature ++ ";"]
    | some statements =>
      [signature ++ " \x7b"] ++ l.body depth statements ++ [l.margin depth ++ "\x7d"]

def typeParameterText (p : TypeParameter) : String :=
  p.type.text l.container ++
    match p.bound with
    | none => ""
    | some bound => " extends " ++ bound.text l.container

/-- The name of a declared type with its type parameters. -/
def declaredName (h : Head) : String :=
  if h.typeParameters.isEmpty then h.name
  else h.name ++ "<" ++ ", ".intercalate (h.typeParameters.map l.typeParameterText) ++ ">"

/-- A clause of a header that lists types, left out when there are none. -/
def clause (keyword : String) (types : List Ty) : String :=
  if types.isEmpty then ""
  else " " ++ keyword ++ " " ++ ", ".intercalate (types.map (Ty.text l.container))

/-- The lines of a declaration up to its opening brace. -/
def headerLines (depth : Nat) (h : Head) : Shape → List String
  | .interfaceShape parents =>
    [l.margin depth ++ modifiersText h.access h.modifiers ++ "interface " ++ l.declaredName h ++
      l.clause "extends" parents ++ " \x7b"]
  | .classShape _ _ =>
    [l.margin depth ++ modifiersText h.access h.modifiers ++ "class " ++ l.declaredName h ++
      " \x7b"]
  | .recordShape components implements =>
    let start := l.margin depth ++ modifiersText h.access h.modifiers ++ "record " ++
      l.declaredName h ++ "("
    let stop := ")" ++ l.clause "implements" implements ++ " \x7b"
    let parts := components.map (Parameter.text l.container)
    let whole := start ++ ", ".intercalate parts ++ stop
    if whole.length ≤ maxHeader ∨ parts.length < 2 then [whole]
    else
      let inner := l.margin (depth + 2)
      [start] ++ parts.dropLast.map (inner ++ · ++ ",") ++ [inner ++ parts.getLastD "" ++ stop]

/-- The fields and constructors of a declaration, in blocks. -/
def ownBlocks (depth : Nat) : Shape → List (List String)
  | .classShape fields constructors =>
    (if fields.isEmpty then [] else [fields.map (l.fieldLine depth)]) ++
      constructors.map (l.constructorLines depth)
  | _ => []

/-- Blocks one after the other with a blank line between two of them. -/
def separate : List (List String) → List String
  | [] => []
  | [b] => b
  | b :: bs => b ++ "" :: separate bs

mutual

def declarationLines (depth : Nat) : Declaration → List String
  | .mk head shape nested =>
    head.javadoc.map (l.margin depth ++ ·) ++
      head.annotations.map (fun a => l.margin depth ++ a.text) ++
      l.headerLines depth head shape ++
      separate (l.ownBlocks (depth + 1) shape ++ head.methods.map (l.methodLines (depth + 1)) ++
        blocks (depth + 1) nested) ++
      [l.margin depth ++ "\x7d"]

def blocks (depth : Nat) : List Declaration → List (List String)
  | [] => []
  | d :: ds => declarationLines depth d :: blocks depth ds

end

end Layout

/-- The source text of a unit. -/
def CompilationUnit.print (u : CompilationUnit) (indent : String) : String :=
  let l : Layout := ⟨indent, u.container⟩
  let comment := if u.comment.isEmpty then [] else [u.comment, ""]
  let package := if u.package.isEmpty then [] else ["package " ++ u.package ++ ";", ""]
  let sorted := u.imports.mergeSort fun a b => decide (a ≤ b)
  let imports := if sorted.isEmpty then [] else sorted.map (fun i => "import " ++ i ++ ";") ++ [""]
  let lines := comment ++ package ++ imports ++ Layout.separate (l.blocks 0 u.types)
  "\n".intercalate lines ++ "\n"

end RecordGen.Java

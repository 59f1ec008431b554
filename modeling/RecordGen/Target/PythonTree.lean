/-!
Python sources as trees: expressions, annotations, statements and class definitions.
-/

namespace RecordGen.Python

/-- A number as a literal writes it. -/
inductive Number where
  | integer (n : Nat)
  | decimal (x : Float)
  | imaginary (x : Float)
deriving Repr, Inhabited

inductive Expr where
  | name (id : String)
  | number (n : Number)
  | truth (b : Bool)
  | text (s : String)
  | member (object : Expr) (name : String)
  | call (function : Expr) (arguments : List Expr) (named : List (String × Expr))
  /-- An expression with a subscript of one or more parts. -/
  | subscript (object : Expr) (parts : List Expr)
  | list (items : List Expr)
deriving Repr, Inhabited

/-- The type of a field, as an annotation writes it. -/
inductive Ty where
  | builtin (name : String)
  | any
  | collection (name : String) (arguments : List Ty)
  /-- A class of the generated module. -/
  | generated (name : String)
  | optional (inner : Ty)
deriving Repr, Inhabited

structure Parameter where
  name : String
  type : Option Expr := none
deriving Repr, Inhabited

inductive Statement where
  /-- The documentation string of the body it opens. -/
  | doc (text : String)
  | field (name : String) (type : Ty)
  | assign (name : String) (value : Expr)
  | evaluate (e : Expr)
  | give (e : Expr)
  | pass
  | function (decorators : List Expr) (name : String) (parameters : List Parameter)
      (result : Expr) (body : List Statement)
  | classDefinition (decorators : List Expr) (name : String) (bases : List Expr)
      (body : List Statement)
deriving Repr, Inhabited

end RecordGen.Python

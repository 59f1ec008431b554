import RecordGen.Naming

/-!
Java sources as trees: compilation units, type declarations, members, types and statements.
-/

namespace RecordGen.Java

/-- The primitive types a property can have. -/
inductive Scalar where
  | boolean
  | long
  | double
deriving Repr, DecidableEq

/-- A type as it is used in a declaration. -/
inductive Ty where
  /-- A type written as it stands. -/
  | named (text : String)
  | scalar (s : Scalar)
  /-- The class type that holds a scalar or null. -/
  | boxed (s : Scalar)
  /-- A type every source knows without an import. -/
  | platform (name : String)
  /-- A generic type that is imported by its qualified name and written by its simple one. -/
  | imported (qualified : String) (arguments : List Ty)
  /-- A generic type of the same package. -/
  | generic (name : String) (arguments : List Ty)
  /-- A generated type, which is written as seen from the container around it. -/
  | generated (t : TypePath)
  | annotated (marker : String) (inner : Ty)
deriving Repr, Inhabited

inductive Access where
  | publicAccess
  | privateAccess
  | protectedAccess
  | packageAccess
deriving Repr, DecidableEq, Inhabited

inductive Modifier where
  | static
  | final
  | abstract
deriving Repr, DecidableEq, Inhabited

/-- An annotation. One that is used by its simple name keeps the qualified name to import. -/
structure Marker where
  name : String
  arguments : List String := []
  qualified : Option String := none
deriving Repr, Inhabited

/-- A parameter of a method or constructor, or a component of a record. -/
structure Parameter where
  name : String
  type : Ty
  isFinal : Bool := false
deriving Repr, Inhabited

structure Field where
  name : String
  type : Ty
  access : Access := .publicAccess
  modifiers : List Modifier := []
deriving Repr, Inhabited

inductive Expr where
  | name (n : String)
  | field (object : Expr) (member : String)
  | call (object : Expr) (method : String) (arguments : List Expr)
  | construct (type : String) (arguments : List Expr)
deriving Repr, Inhabited

inductive Statement where
  /-- A line written as it stands. -/
  | verbatim (line : String)
  | assign (target value : Expr)
  /-- A local constant whose type is inferred. -/
  | declare (name : String) (value : Expr)
  | evaluate (e : Expr)
  | give (e : Expr)
deriving Repr, Inhabited

structure Constructor where
  className : String
  access : Access := .publicAccess
  parameters : List Parameter := []
  body : List Statement := []
deriving Repr, Inhabited

/-- A method; without a body it is abstract. -/
structure Method where
  name : String
  returnType : Ty := .named "void"
  access : Access := .publicAccess
  modifiers : List Modifier := []
  parameters : List Parameter := []
  body : Option (List Statement) := none
  javadoc : List String := []
  annotations : List Marker := []
deriving Repr, Inhabited

structure TypeParameter where
  type : Ty
  bound : Option Ty := none
deriving Repr, Inhabited

/-- What every type declaration has. -/
structure Head where
  name : String
  typeParameters : List TypeParameter := []
  access : Access := .publicAccess
  modifiers : List Modifier := []
  annotations : List Marker := []
  javadoc : List String := []
  methods : List Method := []
deriving Repr, Inhabited

/-- What distinguishes interfaces, records and classes. -/
inductive Shape where
  | interfaceShape (parents : List Ty)
  | recordShape (components : List Parameter) (implements : List Ty)
  | classShape (fields : List Field) (constructors : List Constructor)
deriving Repr, Inhabited

inductive Declaration where
  | mk (head : Head) (shape : Shape) (nested : List Declaration)
deriving Repr, Inhabited

namespace Declaration

def head : Declaration → Head
  | mk head _ _ => head

def shape : Declaration → Shape
  | mk _ shape _ => shape

def nested : Declaration → List Declaration
  | mk _ _ nested => nested

end Declaration

/-- A compilation unit. `container` is the container around the types it refers to. -/
structure CompilationUnit where
  package : String := ""
  imports : List String := []
  comment : String := ""
  container : String := ""
  types : List Declaration := []
deriving Repr, Inhabited

end RecordGen.Java

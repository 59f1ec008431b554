import RecordGen.Schema.Type

/-!
Class graphs.

A graph holds declarations and two lists of places among them: the modules, and all listed classes,
modules included, in declaration order. A superclass and a reference inside a type point to a
declaration by its place, so a graph may hold cycles, and it may point to a declaration that is not
listed.
-/

namespace RecordGen

/-- Whether a class may be extended and instantiated: a final class only instantiated, an abstract
one only extended, an extensible one both. -/
inductive Extensibility where
  | final
  | extensible
  | abstract
deriving Repr, DecidableEq, Inhabited

namespace Extensibility

def text : Extensibility → String
  | final => "final"
  | extensible => "open"
  | abstract => "abstract"

def ofText? (s : String) : Option Extensibility :=
  [final, extensible, abstract].find? (·.text == s)

/-- A class that can be extended gets an interface. -/
def allowsSubclasses : Extensibility → Bool
  | final => false
  | extensible | abstract => true

/-- A class that can be instantiated gets a record. -/
def allowsInstances : Extensibility → Bool
  | abstract => false
  | final | extensible => true

theorem ofText?_text (k : Extensibility) : ofText? k.text = some k := by
  cases k <;> decide

end Extensibility

structure Property where
  name : String
  type : PropertyType
  nullable : Bool
  doc : Option String
deriving Inhabited, Repr

/-- A class, or a module seen as the class that contains its classes. The module's own name is the
name of its enclosing module. -/
structure ClassDecl where
  name : String := ""
  kind : Extensibility := .final
  superclass : Option ClassId := none
  properties : List Property := []
  doc : Option String := none
  isModule : Bool := false
  moduleName : String := ""
deriving Inhabited, Repr

/-- The module and the name joined by a point; the name alone for a module. -/
def ClassDecl.fullName (d : ClassDecl) : String :=
  if d.isModule || d.moduleName.isEmpty then d.name else d.moduleName ++ "." ++ d.name

structure ClassGraph where
  decls : List ClassDecl := []
  modules : List ClassId := []
  classes : List ClassId := []
deriving Inhabited, Repr

namespace ClassGraph

variable (g : ClassGraph)

/-- The declaration at a place; an empty one where the graph holds none. -/
def decl (c : ClassId) : ClassDecl :=
  g.decls.getD c {}

def fullName (c : ClassId) : String :=
  (g.decl c).fullName

/-- The first listed class with a qualified name. -/
def find? (name : String) : Option ClassId :=
  g.classes.find? fun c => g.fullName c == name

/-- The listed classes declared in a module of this name, in declaration order. -/
def membersOf (moduleName : String) : List ClassId :=
  g.classes.filter fun c => !(g.decl c).isModule && (g.decl c).moduleName == moduleName

/-- The first module with the name of the class's enclosing module. -/
def enclosing? (c : ClassId) : Option ClassId :=
  g.modules.find? fun m => (g.decl m).name == (g.decl c).moduleName

/-- The superclasses above a class, nearest first, up to the first one already seen. -/
def ancestorsFrom : Nat → List ClassId → ClassId → List ClassId
  | 0, _, _ => []
  | steps + 1, seen, c =>
    match (g.decl c).superclass with
    | none => []
    | some s => if s ∈ seen then [] else s :: ancestorsFrom steps (s :: seen) s

/-- The ancestors of a class, nearest first. The walk stops where a cycle closes; no walk is longer
than the number of declarations. -/
def ancestors (c : ClassId) : List ClassId :=
  g.ancestorsFrom (g.decls.length + 1) [c] c

/-- The chain of a class: its ancestors from the root down, and the class itself at the end. -/
def lineage (c : ClassId) : List ClassId :=
  (g.ancestors c).reverse ++ [c]

end ClassGraph

end RecordGen

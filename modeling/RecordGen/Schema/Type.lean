/-!
Property types: primitives, references to classes, collections of other types, and optional types.

A type is a tree. Every node has a kind, a name, arguments below it and perhaps a class it refers
to; which of these a kind makes use of is up to the kind.
-/

namespace RecordGen

/-- A class of a graph, by its place among the graph's declarations. -/
abbrev ClassId := Nat

inductive TypeKind where
  | primitive
  | reference
  | collection
  | optional
deriving Repr, DecidableEq, Inhabited

/-- A property type. A reference keeps the name it was written with and, once it is linked, the
class it means; the first argument of an optional type is the type of its values. The names of
primitives and collections are only checked where types are read from a document or translated, and
so is the number of arguments. -/
inductive PropertyType where
  | node (kind : TypeKind) (name : String) (arguments : List PropertyType)
      (target : Option ClassId)
deriving Inhabited, Repr

/-- The primitive types. -/
def primitiveNames : List String :=
  ["Boolean", "Int", "Float", "Number", "String", "Any"]

/-- The number of arguments each collection takes. -/
def collectionArity? (name : String) : Option Nat :=
  [("List", 1), ("Set", 1), ("Map", 2)].lookup name

namespace PropertyType

/-! ## The types that type expressions denote -/

def primitive (name : String) : PropertyType :=
  node .primitive name [] none

def reference (name : String) (target : Option ClassId) : PropertyType :=
  node .reference name [] target

def collection (name : String) (arguments : List PropertyType) : PropertyType :=
  node .collection name arguments none

def optional (inner : PropertyType) : PropertyType :=
  node .optional "" [inner] none

/-! ## Their text -/

mutual

/-- The type as it is written. -/
def text : PropertyType → String
  | node .primitive name _ _ => name
  | node .reference name _ _ => name
  | node .collection name arguments _ => name ++ "<" ++ ", ".intercalate (texts arguments) ++ ">"
  | node .optional _ [] _ => "?"
  | node .optional _ (inner :: _) _ => text inner ++ "?"

def texts : List PropertyType → List String
  | [] => []
  | t :: ts => text t :: texts ts

end

mutual

/-- Whether every optional type that the text shows has a type of values. -/
def isComplete : PropertyType → Bool
  | node .primitive _ _ _ => true
  | node .reference _ _ _ => true
  | node .collection _ arguments _ => areComplete arguments
  | node .optional _ [] _ => false
  | node .optional _ (inner :: _) _ => isComplete inner

def areComplete : List PropertyType → Bool
  | [] => true
  | t :: ts => isComplete t && areComplete ts

end

/-! ## The classes they mention -/

mutual

/-- The references inside a type, each written name with its class: the outermost first, and
arguments from the first to the last. -/
def references : PropertyType → List (String × Option ClassId)
  | node .reference name arguments target => (name, target) :: argumentReferences arguments
  | node .primitive _ arguments _ => argumentReferences arguments
  | node .collection _ arguments _ => argumentReferences arguments
  | node .optional _ arguments _ => argumentReferences arguments

def argumentReferences : List PropertyType → List (String × Option ClassId)
  | [] => []
  | t :: ts => references t ++ argumentReferences ts

end

/-- The classes a type mentions, in the order of its references. -/
def targets (t : PropertyType) : List ClassId :=
  t.references.filterMap (·.2)

mutual

/-- The references inside a type, the outermost first, and arguments from the last to the first. -/
def referencesFromLast : PropertyType → List (String × Option ClassId)
  | node .reference name arguments target => (name, target) :: argumentReferencesFromLast arguments
  | node .primitive _ arguments _ => argumentReferencesFromLast arguments
  | node .collection _ arguments _ => argumentReferencesFromLast arguments
  | node .optional _ arguments _ => argumentReferencesFromLast arguments

def argumentReferencesFromLast : List PropertyType → List (String × Option ClassId)
  | [] => []
  | t :: ts => argumentReferencesFromLast ts ++ referencesFromLast t

end

end PropertyType

end RecordGen

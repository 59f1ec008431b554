/-!
What can be wrong with a schema.

Each cause keeps the names it is about; `message` is the text shown for it, and the three functions
after it say which class, which property and which declaring classes it blames.
-/

namespace RecordGen

/-- The place of a definition in a document: a module, or a class of a module. -/
inductive Place where
  | module
  | class (moduleName : String)
deriving Repr, DecidableEq

def Place.text : Place → String
  | .module => "Module"
  | .class moduleName => "Class in module '" ++ moduleName ++ "'"

inductive SchemaFault where
  /-- The document is no object with a list of modules. -/
  | noModules
  | notAnObject (place : Place) (found : String)
  | invalidName (place : Place) (found : String)
  | unknownKind (kind name : String)
  | notText (field owner : String)
  | notList (field owner : String)
  | propertyNotAnObject (owner found : String)
  | invalidPropertyName (owner found : String)
  | noTypeText (owner property found : String)
  | repeatedProperty (owner property : String)
  | duplicateModule (name : String)
  | duplicateClass (name : String)
  | emptyType (owner : String)
  | malformedType (text owner : String)
  | unknownCollection (name owner : String)
  | wrongArity (name : String) (arity : Nat) (owner : String)
  | unbalancedClose (arguments owner : String)
  | unbalancedOpen (arguments owner : String)
  | undeclaredSuperclass (name superclass : String)
  | undeclaredType (owner property type : String)
  | undeclaredModule (name moduleName : String)
  /-- A module and a class cannot extend each other. -/
  | mixedExtension (isModule : Bool) (name superclass : String)
  | finalSuperclass (name superclass : String)
  /-- The classes of the cycle, each extending the next, with the first one again at the end. -/
  | cyclicAncestry (path : List String)
  /-- Two classes of one chain declare the same property. -/
  | conflictingProperty (owner property ancestor : String)
  | unallocatedInterface (owner interface : String)
  | noRecord (name : String)
  /-- The value that a message would show holds an integer that is too long to be written. -/
  | longInteger
deriving Repr, DecidableEq

namespace SchemaFault

def message : SchemaFault → String
  | noModules => "Schema document must contain a 'modules' list"
  | notAnObject place found => place.text ++ " must be an object, got " ++ found
  | invalidName place found => place.text ++ " has an invalid name " ++ found
  | unknownKind kind name => "Unknown class kind '" ++ kind ++ "' for '" ++ name ++ "'"
  | notText field owner => "'" ++ field ++ "' of '" ++ owner ++ "' must be a string"
  | notList field owner => "'" ++ field ++ "' of '" ++ owner ++ "' must be a list"
  | propertyNotAnObject owner found =>
    "Property of '" ++ owner ++ "' must be an object, got " ++ found
  | invalidPropertyName owner found => "Property of '" ++ owner ++ "' has an invalid name " ++ found
  | noTypeText owner property found =>
    "Property '" ++ property ++ "' of '" ++ owner ++ "' needs a type string, got " ++ found
  | repeatedProperty owner property =>
    "Property '" ++ property ++ "' declared twice in '" ++ owner ++ "'"
  | duplicateModule name => "Duplicate module '" ++ name ++ "'"
  | duplicateClass name => "Duplicate class '" ++ name ++ "'"
  | emptyType owner => "Empty type expression in '" ++ owner ++ "'"
  | malformedType text owner => "Malformed type expression '" ++ text ++ "' in '" ++ owner ++ "'"
  | unknownCollection name owner => "Unknown container type '" ++ name ++ "' in '" ++ owner ++ "'"
  | wrongArity name arity owner =>
    "Container '" ++ name ++ "' expects " ++ toString arity ++ " type argument(s) in '" ++ owner ++
      "'"
  | unbalancedClose arguments owner =>
    "Unbalanced '>' in type arguments '" ++ arguments ++ "' in '" ++ owner ++ "'"
  | unbalancedOpen arguments owner =>
    "Unbalanced '<' in type arguments '" ++ arguments ++ "' in '" ++ owner ++ "'"
  | undeclaredSuperclass name superclass =>
    "Class '" ++ name ++ "' extends undeclared class '" ++ superclass ++ "'"
  | undeclaredType owner property type =>
    "Property '" ++ property ++ "' of '" ++ owner ++ "' references undeclared type '" ++ type ++ "'"
  | undeclaredModule name moduleName =>
    "Class '" ++ name ++ "' belongs to undeclared module '" ++ moduleName ++ "'"
  | mixedExtension isModule name superclass =>
    "The " ++ (if isModule then "module" else "class") ++ " '" ++ name ++ "' cannot extend '" ++
      superclass ++ "'"
  | finalSuperclass name superclass =>
    "Class '" ++ name ++ "' extends final class '" ++ superclass ++ "'"
  | cyclicAncestry path => "Cyclic ancestry: " ++ " -> ".intercalate path
  | conflictingProperty owner property ancestor =>
    "Property '" ++ property ++ "' of '" ++ owner ++ "' is declared by both '" ++ ancestor ++
      "' and '" ++ owner ++ "'"
  | unallocatedInterface owner interface =>
    "'" ++ owner ++ "' references unallocated interface '" ++ interface ++ "'"
  | noRecord name => "Class '" ++ name ++ "' has no record to flatten"
  | longInteger => "An integer in the document is too long to be shown"

/-- The fault is one of the schema, and its message tells it. -/
def isReported : SchemaFault → Bool
  | longInteger => false
  | _ => true

/-- The class the error is about. -/
def class? : SchemaFault → Option String
  | noModules | notAnObject .. | invalidName .. | longInteger => none
  | unknownKind _ name | duplicateModule name | duplicateClass name | noRecord name => some name
  | notText _ owner | notList _ owner | propertyNotAnObject owner _ | invalidPropertyName owner _
  | noTypeText owner _ _ | repeatedProperty owner _ | emptyType owner | malformedType _ owner
  | unknownCollection _ owner | wrongArity _ _ owner | unbalancedClose _ owner
  | unbalancedOpen _ owner | undeclaredType owner _ _ | conflictingProperty owner _ _
  | unallocatedInterface owner _ => some owner
  | undeclaredSuperclass name _ | undeclaredModule name _ | mixedExtension _ name _
  | finalSuperclass name _ => some name
  | cyclicAncestry path => path.head?

/-- The property the error is about. -/
def property? : SchemaFault → Option String
  | noTypeText _ property _ | repeatedProperty _ property | undeclaredType _ property _
  | conflictingProperty _ property _ => some property
  | _ => none

/-- The classes whose declarations contradict each other. -/
def declarers : SchemaFault → List String
  | repeatedProperty owner _ => [owner]
  | cyclicAncestry path => path.dropLast
  | conflictingProperty owner _ ancestor => [ancestor, owner]
  | _ => []

end SchemaFault

end RecordGen

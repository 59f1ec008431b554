import RecordGen.Documentation

/-!
Why generated types cannot be written as sources.
-/

namespace RecordGen

inductive TargetFault where
  | unknownPrimitive (name : String)
  /-- A collection that no target language has. -/
  | unknownCollection (name : String)
  /-- An optional type without a type of values. -/
  | bareOptional
  /-- A reference to a class that became no type in this run. -/
  | noCounterpart (name : String)
  /-- A generated type whose class was not resolved in this run. -/
  | unresolved (name : String)
  | noContainerType (container : String)
  /-- The property is none of those the class had when it was resolved. -/
  | unnamedMember (property : String)
  /-- The type got no name in the target module. -/
  | unnamedType (type : String)
  | ambiguous (type : String)
  /-- A type name reads as an integer that is too long to be written. -/
  | longInteger
  /-- A text that shows the name of a class or a member cannot be read. -/
  | unreadable
  | docs (fault : DocFault)
deriving Repr, DecidableEq

namespace TargetFault

def message : TargetFault → String
  | unknownPrimitive name => "Unknown primitive type '" ++ name ++ "'"
  | unknownCollection name => "Unknown collection type '" ++ name ++ "'"
  | bareOptional => "An optional type has no type of values"
  | noCounterpart name => "Type '" ++ name ++ "' has no generated counterpart"
  | unresolved name => "'" ++ name ++ "' has no resolved schema class"
  | noContainerType container => "Module container '" ++ container ++ "' has no generated type"
  | unnamedMember property => "Property '" ++ property ++ "' has no member name"
  | unnamedType type => "Type '" ++ type ++ "' has no name"
  | ambiguous type => "Cannot give '" ++ type ++ "' a unique Python name"
  | longInteger => "A type name reads as an integer that is too long"
  | unreadable => "A name cannot be read where it stands"
  | docs (.blankEntry name) => "The documentation of '" ++ name ++ "' is blank"
  | docs .noLine => "The documentation has no line"

end TargetFault

end RecordGen

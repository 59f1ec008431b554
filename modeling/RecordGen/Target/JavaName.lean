import RecordGen.Text.Word

/-!
Names in Java sources.
-/

namespace RecordGen.Java

/-- The words that are no identifiers: keywords, literals and the lone underscore. -/
def reservedWords : List String := [
  "abstract", "assert", "boolean", "break", "byte", "case", "catch", "char", "class", "const",
  "continue", "default", "do", "double", "else", "enum", "extends", "false", "final", "finally",
  "float", "for", "goto", "if", "implements", "import", "instanceof", "int", "interface", "long",
  "native", "new", "null", "package", "private", "protected", "public", "return", "short",
  "static", "strictfp", "super", "switch", "synchronized", "this", "throw", "throws", "transient",
  "true", "try", "void", "volatile", "while", "_"]

/-- One segment of a dotted name: an ASCII identifier, which one line feed may follow, and no
reserved word. -/
def isSegment (s : List Char) : Bool :=
  Text.isWord (fun c => Text.opensIdentifier c || c == '$')
      (fun c => Text.continuesIdentifier c || c == '$') (Text.dropFinalNewline s) &&
    String.ofList s ∉ reservedWords

/-- A dotted name of at least `least` segments. -/
def isQualifiedName (least : Nat) (s : String) : Bool :=
  let segments := s.toList.splitOn '.'
  least ≤ segments.length && segments.all isSegment

/-- The parameterless methods every object has; a record component cannot take their names. -/
def objectMethods : List String :=
  ["clone", "finalize", "getClass", "hashCode", "notify", "notifyAll", "toString", "wait"]

/-- The member name of a property: the property's own name, with an underscore after it where the
language does not allow that name. -/
def legalMember (name : String) : String :=
  if name ∈ reservedWords ∨ name ∈ objectMethods then name ++ "_" else name

end RecordGen.Java

import RecordGen.Text.CharClass

/-!
Names in Python sources.
-/

namespace RecordGen.Python

def keywords : List String := [
  "False", "None", "True", "and", "as", "assert", "async", "await", "break", "class", "continue",
  "def", "del", "elif", "else", "except", "finally", "for", "from", "global", "if", "import", "in",
  "is", "lambda", "nonlocal", "not", "or", "pass", "raise", "return", "try", "while", "with",
  "yield"]

/-- A name of the language's grammar; keywords are among them. -/
def isIdentifier (s : String) : Bool :=
  match s.toList with
  | [] => false
  | c :: cs => Text.isIdentifierStart c && cs.all Text.isIdentifierPart

/-- The members that a record and its staging class define for the copy-with protocol. -/
def protocolMembers : List String :=
  ["Memento", "with_", "_of", "_build"]

/-- A method's name, with an underscore after it if it is a keyword. -/
def legalMethod (name : String) : String :=
  if name ∈ keywords then name ++ "_" else name

/-- Adds underscores until the name is none of the protocol's members. No member is another one with
underscores after it, so one step would do. -/
def avoidMembers : Nat → String → String
  | 0, name => name
  | steps + 1, name =>
    if name ∈ protocolMembers then avoidMembers steps (name ++ "_") else name

/-- The member name of a property. -/
def legalMember (name : String) : String :=
  avoidMembers (protocolMembers.length + 1) (legalMethod name)

end RecordGen.Python

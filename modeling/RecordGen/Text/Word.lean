import RecordGen.Text.Blank

/-!
Words over the ASCII letters and digits: schema identifiers and type name stems.
-/

namespace RecordGen.Text

/-- A non-empty text whose first character is a `start` and whose others are `rest`. -/
def isWord (start rest : Char → Bool) : List Char → Bool
  | [] => false
  | c :: cs => start c && cs.all rest

/-- The text without one line feed at its very end. -/
def dropFinalNewline (s : List Char) : List Char :=
  if s.getLast? = some '\n' then s.dropLast else s

/-- Letters and underscores open an identifier. -/
def opensIdentifier (c : Char) : Bool :=
  c.isAlpha || c == '_'

/-- Letters, digits and underscores continue an identifier. -/
def continuesIdentifier (c : Char) : Bool :=
  c.isAlphanum || c == '_'

/-- A name a schema may declare: an ASCII identifier, which one line feed may follow. -/
def isSchemaName (s : String) : Bool :=
  isWord opensIdentifier continuesIdentifier (dropFinalNewline s.toList)

/-- Keeps the letters and digits of a text. A small letter becomes a capital unless a letter stands
right before it; `afterLetter` says whether one does. -/
def capitalized (afterLetter : Bool) : List Char → List Char
  | [] => []
  | c :: rest =>
    if c.isLower then (if afterLetter then c else c.toUpper) :: capitalized true rest
    else if c.isUpper then c :: capitalized true rest
    else if c.isDigit then c :: capitalized false rest
    else capitalized false rest

/-- The words of a text, each with a capital, written together: `app_config` is `AppConfig`. -/
def pascalCase (s : String) : String :=
  .ofList (capitalized false s.toList)

/-- A character in lower case. Beyond the ASCII capitals only the Kelvin sign has an ASCII letter as
its lower case, so texts compared with ASCII words need no other rule. -/
def lowerChar (c : Char) : Char :=
  if c = '\u212a' then 'k' else c.toLower

def lower (s : String) : String :=
  s.map lowerChar

end RecordGen.Text

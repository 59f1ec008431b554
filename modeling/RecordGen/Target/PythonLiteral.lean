import RecordGen.Json.Display
import RecordGen.Target.PythonTree

/-!
Literals in Python sources: documentation strings and numbers.
-/

namespace RecordGen.Python

open Text

/-- A character inside a documentation string: line feeds and tabs stand as they are, backslashes
and other characters that cannot be printed are escaped. -/
def docChar (c : Char) : List Char :=
  if c = '\n' ∨ c = '\t' then [c]
  else if c = '\\' then ['\\', '\\']
  else if c = '\r' then ['\\', 'r']
  else if isPrintable c then [c]
  else codeEscape c

/-- The three quotes of one kind. -/
def tripleQuote (q : Char) : List Char := [q, q, q]

/-- Whether three quotes of a kind stand in a row. -/
def holdsTriple (q : Char) : List Char → Bool
  | a :: b :: c :: rest => (a == q && b == q && c == q) || holdsTriple q (b :: c :: rest)
  | _ => false

/-- A documentation string between triple quotes of a kind. If the text ends with that quote, the
last one is escaped. -/
def docBetween (q : Char) (s : List Char) : List Char :=
  let inside := if s.getLast? = some q then s.dropLast ++ ['\\', q] else s
  tripleQuote q ++ inside ++ tripleQuote q

/-- The literal of a documentation string. It is written between three double quotes, or between
three single ones if the text holds three double ones in a row; where both would do, the kind that
does not end the text is taken. A text that holds both is written in its quoted form, line feeds
escaped, with the quote of that form tripled. -/
def docLiteral (text : String) : String :=
  let s := text.toList
  let inside := s.flatMap docChar
  let fits : Char → Bool := fun q => !holdsTriple q inside
  .ofList <|
    if fits '"' && (inside.getLast? != some '"' || !fits '\'') then docBetween '"' inside
    else if fits '\'' then docBetween '\'' inside
    else
      let q := tripleQuote (quoteFor s)
      q ++ escaped s ++ q

/-- Text of a double in a source; infinity is a literal too large for a double. -/
def floatText (x : Float) : String :=
  if x == 1 / 0 then "1e309" else Decimal.literal x

/-- The text of an imaginary number; a whole one is written without a point. -/
def imaginaryText (x : Float) : String :=
  let t := (floatText x).toList
  .ofList ((if ['.', '0'].isSuffixOf t then t.take (t.length - 2) else t) ++ ['j'])

def Number.text : Number → String
  | integer n => toString n
  | decimal x => floatText x
  | imaginary x => imaginaryText x

end RecordGen.Python

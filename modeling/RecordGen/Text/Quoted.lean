import RecordGen.Text.CharClass
import RecordGen.Text.Surrogate

/-!
Quoted texts, as messages show a text value.

A text stands between single quotes; between double quotes if it holds a single quote and no double
one. The backslash and the quote in use are escaped, line feed, carriage return and tab have short
escapes, and every other character that cannot be printed is written by its code point. Lone
surrogates are among these.
-/

namespace RecordGen.Text

/-- The digits of a number in base sixteen, small letters, padded with zeros to a width. -/
def hex (width n : Nat) : List Char :=
  let digits := Nat.toDigits 16 n
  List.replicate (width - digits.length) '0' ++ digits

/-- The code point of a character, in the shortest of the three escapes that hold it. -/
def codeEscape (c : Char) : List Char :=
  let n := codePoint c
  if n < 0x100 then '\\' :: 'x' :: hex 2 n
  else if n < 0x10000 then '\\' :: 'u' :: hex 4 n
  else '\\' :: 'U' :: hex 8 n

/-- The written form of one character between quotes of the kind `quote`. -/
def escapeChar (quote c : Char) : List Char :=
  if c = quote ∨ c = '\\' then ['\\', c]
  else if c = '\n' then ['\\', 'n']
  else if c = '\r' then ['\\', 'r']
  else if c = '\t' then ['\\', 't']
  else if isPrintable c then [c]
  else codeEscape c

/-- The quote a text is written with. -/
def quoteFor (s : List Char) : Char :=
  if '\'' ∈ s ∧ '"' ∉ s then '"' else '\''

/-- The text between its quotes, without them. -/
def escaped (s : List Char) : List Char :=
  s.flatMap (escapeChar (quoteFor s))

def quoted (s : String) : String :=
  let q := quoteFor s.toList
  .ofList (q :: escaped s.toList ++ [q])

end RecordGen.Text

/-!
White space and lines of a text.

A text is trimmed of white space and cut into lines at every Unicode line boundary. `cleanLines` is
the form in which documentation is rendered: no blank line at either end, no white space at the end
of a line.
-/

namespace RecordGen.Text

/-- White space: the ASCII blanks, the four ASCII separators, the next-line control and the Unicode
space separators with the line and paragraph separators. -/
def isBlank (c : Char) : Bool :=
  let n := c.toNat
  (0x09 ≤ n && n ≤ 0x0D) || (0x1C ≤ n && n ≤ 0x20) || n == 0x85 || n == 0xA0 || n == 0x1680 ||
    (0x2000 ≤ n && n ≤ 0x200A) || n == 0x2028 || n == 0x2029 || n == 0x202F || n == 0x205F ||
    n == 0x3000

/-- A character that ends a line. All of them are white space. -/
def isLineEnd (c : Char) : Bool :=
  let n := c.toNat
  (0x0A ≤ n && n ≤ 0x0D) || (0x1C ≤ n && n ≤ 0x1E) || n == 0x85 || n == 0x2028 || n == 0x2029

def trimStart (s : List Char) : List Char :=
  s.dropWhile isBlank

def trimEnd (s : List Char) : List Char :=
  (s.reverse.dropWhile isBlank).reverse

def trim (s : List Char) : List Char :=
  trimEnd (trimStart s)

/-- The lines of a text without their ends. A carriage return and the line feed after it end one
line together, and the end of the text opens no empty line. -/
def lines : List Char → List (List Char)
  | [] => []
  | '\r' :: '\n' :: rest => [] :: lines rest
  | c :: rest =>
    if isLineEnd c then [] :: lines rest
    else match lines rest with
      | [] => [[c]]
      | first :: others => (c :: first) :: others

/-- A text without the white space around it. -/
def strip (s : String) : String :=
  .ofList (trim s.toList)

/-- A text that holds nothing but white space. -/
def blank (s : String) : Bool :=
  s.toList.all isBlank

/-- The lines of a documentation text: the text is trimmed, cut into lines, and each line loses the
white space at its end. -/
def cleanLines (s : String) : List String :=
  (lines (trim s.toList)).map fun line => .ofList (trimEnd line)

end RecordGen.Text

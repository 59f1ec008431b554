import RecordGen.Text.Blank

/-!
Documentation blocks: a leading text and one entry for each documented name, and the two forms in
which they are written, a comment block and the body of a documentation string.
-/

namespace RecordGen

/-- A lead and entries, each entry a name with its text. -/
structure Documentation where
  lead : Option String := none
  entries : List (String × String) := []
deriving Inhabited, Repr, DecidableEq

/-- What documentation cannot be written. -/
inductive DocFault where
  /-- The text of an entry has no line that could stand beside its name. -/
  | blankEntry (name : String)
  /-- No line could open the documentation string. -/
  | noLine
deriving Repr, DecidableEq

namespace Documentation

open Text

/-- The text without the white space around it, or nothing if nothing is left. -/
def cleaned (doc : Option String) : Option String :=
  doc.bind fun s => if blank s then none else some (strip s)

/-- No lead, or an empty one, and no entries. -/
def isEmpty (d : Documentation) : Bool :=
  (d.lead.getD "").isEmpty && d.entries.isEmpty

def leadLines (d : Documentation) : List String :=
  cleanLines (d.lead.getD "")

/-- An entry's lines: the first one beside its name, the others indented, blank ones empty. -/
def entryLines (indent : String) (heading : String → String) (entry : String × String) :
    Except DocFault (List String) :=
  match cleanLines entry.2 with
  | [] => .error (.blankEntry entry.1)
  | first :: others =>
    .ok ((heading entry.1 ++ first) :: others.map fun l => if l.isEmpty then "" else indent ++ l)

/-- Replaces every comment terminator by text that a reader of the rendered page sees the same. -/
def escapeTerminator : List Char → List Char
  | '*' :: '/' :: rest => ['*', '&', '#', '4', '7', ';'] ++ escapeTerminator rest
  | c :: rest => c :: escapeTerminator rest
  | [] => []

/-- One line of a comment block. -/
def commentLine (line : String) : String :=
  if line.isEmpty then " *" else " * " ++ .ofList (escapeTerminator line.toList)

/-- The lines of a comment block, its delimiters included; none for an empty block. -/
def commentLines (d : Documentation) : Except DocFault (List String) := do
  if d.isEmpty then return []
  let lead := d.leadLines
  let gap := if lead.isEmpty || d.entries.isEmpty then [] else [""]
  let entries ← d.entries.mapM (entryLines "    " fun name => "@param " ++ name ++ " ")
  return ["/**"] ++ (lead ++ gap ++ entries.flatten).map commentLine ++ [" */"]

/-- The lines of a documentation string, without its quotes. -/
def stringLines (d : Documentation) : Except DocFault (List String) := do
  let lead := d.leadLines
  if d.entries.isEmpty then return lead
  let gap := if lead.isEmpty then [] else [""]
  let entries ← d.entries.mapM (entryLines "        " fun name => "    " ++ name ++ ": ")
  return lead ++ gap ++ ["Attributes:"] ++ entries.flatten

/-- The block of a class: its own text as the lead, and an entry for every documented property. -/
def ofClass (doc : Option String) (properties : List (String × Option String)) : Documentation :=
  { lead := cleaned doc
    entries := properties.filterMap fun p => (cleaned p.2).map (p.1, ·) }

end Documentation

end RecordGen

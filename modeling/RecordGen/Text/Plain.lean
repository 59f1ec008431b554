/-!
Plain texts, as they are reported where nothing interprets control characters: the control sequences
of terminals are left out, and single line feeds stand between lines.
-/

namespace RecordGen.Text

/-- A character that may stand between the opening and the final letter of a control sequence. -/
def isSequenceParameter (c : Char) : Bool :=
  c == ';' || c == '?' || c.isDigit

/-- How many characters a control sequence has after its opening; nothing if no letter ends it. -/
def sequenceLength? (cs : List Char) : Option Nat :=
  let parameters := cs.takeWhile isSequenceParameter
  match cs.drop parameters.length with
  | c :: _ => if c.isAlpha then some (parameters.length + 1) else none
  | [] => none

/-- Leaves out a number of characters and, in what follows them, all complete control sequences:
an escape character, a bracket, parameters and a letter. -/
def withoutSequences : Nat → List Char → List Char
  | _, [] => []
  | n + 1, _ :: rest => withoutSequences n rest
  | 0, c :: rest =>
    match c, rest with
    | '\x1b', '[' :: more =>
      match sequenceLength? more with
      | some n => withoutSequences (n + 1) rest
      | none => c :: withoutSequences 0 rest
    | _, _ => c :: withoutSequences 0 rest

/-- A carriage return in front of a line feed is no part of the text. -/
def withLineFeeds : List Char → List Char
  | [] => []
  | '\r' :: '\n' :: rest => '\n' :: withLineFeeds rest
  | c :: rest => c :: withLineFeeds rest

/-- Line feeds at the end are no part of the text. -/
def withoutFinalFeeds (cs : List Char) : List Char :=
  (cs.reverse.dropWhile (· == '\n')).reverse

/-- The text as it is reported. -/
def plain (s : String) : String :=
  .ofList (withoutFinalFeeds (withLineFeeds (withoutSequences 0 s.toList)))

end RecordGen.Text

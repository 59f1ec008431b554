import RecordGen.Schema.Fault
import RecordGen.Schema.Type
import RecordGen.Text.Blank

/-!
Reading type expressions such as `Map<String, List<shapes.Circle>>?`.

A question mark at the end makes the type before it optional, angle brackets hold the arguments of
a collection, and any other text names a primitive or a class. White space around every part is
ignored.
-/

namespace RecordGen.PropertyType

open Text

/-- A bracket without a partner. -/
inductive Stray where
  | opening
  | closing
deriving Repr, DecidableEq

/-- Splits arguments at the commas outside brackets. `depth` counts the open brackets and `current`
holds the argument so far, last character first. -/
def splitArguments (depth : Nat) (current : List Char) :
    List Char → Except Stray (List (List Char))
  | [] => if depth = 0 then .ok [current.reverse] else .error .opening
  | c :: rest =>
    if c = '<' then splitArguments (depth + 1) (c :: current) rest
    else if c = '>' then
      if depth = 0 then .error .closing else splitArguments (depth - 1) (c :: current) rest
    else if c = ',' ∧ depth = 0 then (current.reverse :: ·) <$> splitArguments depth [] rest
    else splitArguments depth (c :: current) rest

/-- The name before the first opening bracket and the text after it. -/
def splitName (s : List Char) : List Char × List Char :=
  (s.takeWhile (· ≠ '<'), (s.dropWhile (· ≠ '<')).drop 1)

/-- Reads a type expression for the class `owner`. Every nested expression is shorter than the one
around it, so a number of steps above the length of the text is never used up. -/
def parseWithin (owner : String) : Nat → List Char → Except SchemaFault PropertyType
  | 0, _ => .error (.emptyType owner)
  | steps + 1, s =>
    let t := trim s
    if t.isEmpty then .error (.emptyType owner)
    else if t.getLast? = some '?' then optional <$> parseWithin owner steps t.dropLast
    else if '<' ∈ t then
      if t.getLast? ≠ some '>' then .error (.malformedType (.ofList t) owner)
      else
        let (front, inner) := splitName t.dropLast
        let name := String.ofList (trim front)
        match collectionArity? name with
        | none => .error (.unknownCollection name owner)
        | some arity =>
          match splitArguments 0 [] inner with
          | .error .closing => .error (.unbalancedClose (.ofList inner) owner)
          | .error .opening => .error (.unbalancedOpen (.ofList inner) owner)
          | .ok parts => do
            let arguments ← parts.mapM (parseWithin owner steps)
            if arguments.length = arity then return collection name arguments
            else throw (.wrongArity name arity owner)
    else
      let name := String.ofList t
      if name ∈ primitiveNames then .ok (primitive name) else .ok (reference name none)

/-- The type a text denotes, with its references not yet linked. -/
def parse (owner text : String) : Except SchemaFault PropertyType :=
  let s := text.toList
  parseWithin owner (s.length + 1) s

end RecordGen.PropertyType

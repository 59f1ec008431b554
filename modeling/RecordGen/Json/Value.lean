import RecordGen.Table

/-!
JSON values. An object keeps its fields in the order of the document, and an integer literal stays
apart from a decimal one.
-/

namespace RecordGen

inductive Json where
  | null
  | bool (b : Bool)
  | integer (n : Int)
  | decimal (x : Float)
  | text (s : String)
  | list (items : List Json)
  | object (fields : List (String × Json))
deriving Inhabited

namespace Json

/-- The value of a field; a missing field reads as null. -/
def field (fields : List (String × Json)) (key : String) : Json :=
  (Table.findEntry key fields).getD .null

/-- Null, false, zero and everything empty count as false, all else as true. -/
def truthy : Json → Bool
  | null => false
  | bool b => b
  | integer n => n != 0
  | decimal x => x != 0
  | text s => s != ""
  | list items => !items.isEmpty
  | object fields => !fields.isEmpty

end Json

end RecordGen

import RecordGen.Target.PythonEmission
import RecordGen.Target.Working

/-!
A Python backend that is used for one result after the other.

It collects what the module imports from `typing` and keeps the class names of the result. Both are
made anew with every module, the names only if they can be given.
-/

namespace RecordGen.Python

mutual

/-- What a type adds to the imports when it is translated from left to right, up to the first part
that has no translation. -/
def typingMet (a : Analysis) (names : Table TypePath String) : PropertyType → List String
  | .node .primitive name _ _ => if name = "Any" then ["Any"] else []
  | .node .reference _ _ _ => []
  | .node .optional _ [] _ => []
  | .node .optional _ (inner :: _) _ => typingMet a names inner
  | .node .collection _ arguments _ => argumentTypingMet a names arguments

def argumentTypingMet (a : Analysis) (names : Table TypePath String) :
    List PropertyType → List String
  | [] => []
  | t :: ts =>
    match translateInner a names t with
    | .ok _ => typingMet a names t ++ argumentTypingMet a names ts
    | .error _ => typingMet a names t

end

/-- What a field adds to the imports. -/
def fieldMet (a : Analysis) (names : Table TypePath String) (members : List (String × String))
    (name : String) (type : PropertyType) : List String :=
  match memberOf members name with
  | .ok _ => typingMet a names type
  | .error _ => []

def fieldOf (a : Analysis) (names : Table TypePath String) (members : List (String × String))
    (name : String) (type : PropertyType) (nullable : Bool) : Except TargetFault (String × Ty) := do
  let member ← memberOf members name
  return (member, ← translate a names type nullable)

/-- A field whose annotation can be read. -/
def readableFieldOf (a : Analysis) (names : Table TypePath String)
    (members : List (String × String)) (name : String) (type : PropertyType) (nullable : Bool) :
    Except TargetFault (String × Ty) := do
  let field ← fieldOf a names members name type nullable
  whenReadable field.2.isReadable
  return field

/-- The member names of an interface, if what is built before its fields can be built. -/
def interfaceMembers (config : Config) (a : Analysis) (names : Table TypePath String)
    (d : GeneratedInterface) : Except TargetFault (List (String × String)) := do
  let _ ← d.parent.toList.mapM (classNameOf names)
  let members ← a.memberTable legalMember d.toTypeHead
  let _ ← docStatement config 1 (← interfaceDoc members d)
  return members

/-- What an interface adds to the imports. -/
def interfaceMet (config : Config) (a : Analysis) (names : Table TypePath String)
    (d : GeneratedInterface) : List String :=
  ["Protocol", "runtime_checkable"] ++
    match interfaceMembers config a names d with
    | .error _ => []
    | .ok members =>
      metUpTo (fun m => readableFieldOf a names members m.name m.type m.nullable)
        (fun m => fieldMet a names members m.name m.type) d.accessors

/-- The member names of a record, if what is built before its fields can be built. -/
def recordMembers (a : Analysis) (names : Table TypePath String) (d : GeneratedRecord) :
    Except TargetFault (List (String × String)) := do
  let name ← classNameOf names d.path
  let _ ← d.implements.mapM (classNameOf names)
  whenReadable (d.copyWith.isNone || contractReadable name)
  a.memberTable legalMember d.toTypeHead

/-- What a record adds to the imports. -/
def recordMet (a : Analysis) (names : Table TypePath String) (d : GeneratedRecord) : List String :=
  ["final"] ++
    match recordMembers a names d with
    | .error _ => []
    | .ok members =>
      metUpTo (fun c => fieldOf a names members c.name c.type c.nullable)
        (fun c => fieldMet a names members c.name c.type) d.components

def classMet (config : Config) (a : Analysis) (names : Table TypePath String) :
    GeneratedType → List String
  | .interface d => interfaceMet config a names d
  | .record d => recordMet a names d

structure Backend where
  /-- The names that the module imports from `typing`. -/
  typing : List String := []
  /-- The class names of the generated types. -/
  names : Table TypePath String := ∅
deriving Inhabited, Repr

namespace Backend

variable (config : Config) (a : Analysis) (comment : String)

/-- Builds one class of the module. -/
def build (b : Backend) (d : GeneratedType) : Except TargetFault Statement × Backend :=
  (classDefinition config a b.names d,
    { b with typing := b.typing ++ classMet config a b.names d })

/-- The files of a result: path and text. -/
def generate (b : Backend) : Except TargetFault (List (String × String)) × Backend :=
  let b := { b with typing := [] }
  match classNames a with
  | .error e => (.error e, b)
  | .ok names =>
    match workThrough (build config a) { b with names } a.types with
    | (.error e, b) => (.error e, b)
    | (.ok body, b) =>
      if Statement.anyLongInteger body then (.error .longInteger, b)
      else
        let contract := if a.contract.isSome then ["Callable", "Protocol", "TypeVar"] else []
        let b := { b with typing := b.typing ++ contract }
        let typing := b.typing.eraseDups.mergeSort fun x y => decide (x ≤ y)
        let prelude := "\n".intercalate (preludeLines a typing comment)
        (.ok [(moduleFile, joinModule prelude (Statement.printAll body))], b)

end Backend

end RecordGen.Python

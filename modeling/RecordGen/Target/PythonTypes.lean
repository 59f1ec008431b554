import RecordGen.Target.Members
import RecordGen.Target.PythonTree

/-!
Property types in Python, and the class names of generated types.

All generated classes live in one flat module, so a name that several containers use is written with
its container in front.
-/

namespace RecordGen.Python

/-- The names that the module binds before the first generated class. -/
def moduleNames : List String :=
  ["annotations", "Any", "Callable", "Protocol", "TypeVar", "dataclass", "final",
   "runtime_checkable"]

/-- The names of the copy-with contract and its type variables. -/
def contractNames : List String :=
  [CopyProtocol.contract, CopyProtocol.recordParameter, CopyProtocol.stagingParameter]

/-- Gives every type a class name: its own, or its container and its own where that is taken. -/
def flatNames (taken : List String) (names : Table TypePath String) :
    List TypePath → Except TargetFault (Table TypePath String)
  | [] => .ok names
  | t :: ts =>
    let long := t.container ++ t.name
    if t.name ∉ taken then flatNames (t.name :: taken) (names.insert t t.name) ts
    else if long ∉ taken then flatNames (long :: taken) (names.insert t long) ts
    else .error (.ambiguous t.dotted)

/-- The class names of a result. -/
def classNames (a : Analysis) : Except TargetFault (Table TypePath String) :=
  let taken := moduleNames ++ if a.contract.isSome then contractNames else []
  flatNames taken ∅ (a.types.map (·.head.path))

def classNameOf (names : Table TypePath String) (t : TypePath) : Except TargetFault String :=
  match names.find? t with
  | some name => .ok name
  | none => .error (.unnamedType t.dotted)

def primitive? : String → Option Ty
  | "Boolean" => some (.builtin "bool")
  | "Int" => some (.builtin "int")
  | "Float" => some (.builtin "float")
  | "Number" => some (.builtin "float")
  | "String" => some (.builtin "str")
  | "Any" => some .any
  | _ => none

def collection? : String → Option String
  | "List" => some "list"
  | "Set" => some "set"
  | "Map" => some "dict"
  | _ => none

/-- The type for values that may be missing; one that is optional already stays as it is. -/
def Ty.nullable : Ty → Ty
  | .optional t => .optional t
  | t => .optional t

mutual

/-- The Python type of a property type. -/
def translateInner (a : Analysis) (names : Table TypePath String) :
    PropertyType → Except TargetFault Ty
  | .node .optional _ [] _ => .error .bareOptional
  | .node .optional _ (inner :: _) _ => Ty.nullable <$> translateInner a names inner
  | .node .primitive name _ _ =>
    match primitive? name with
    | some t => .ok t
    | none => .error (.unknownPrimitive name)
  | .node .collection name arguments _ => do
    let arguments ← translateArguments a names arguments
    match collection? name with
    | some c => return .collection c arguments
    | none => throw (.unknownCollection name)
  | .node .reference name _ target => do
    return .generated (← classNameOf names (← a.counterpart name target))

def translateArguments (a : Analysis) (names : Table TypePath String) :
    List PropertyType → Except TargetFault (List Ty)
  | [] => .ok []
  | t :: ts => do
    let t ← translateInner a names t
    return t :: (← translateArguments a names ts)

end

/-- The Python type of a property type; `nullable` says that the value may be missing. -/
def translate (a : Analysis) (names : Table TypePath String) (t : PropertyType) (nullable : Bool) :
    Except TargetFault Ty := do
  let inner ← translateInner a names t
  return if nullable then inner.nullable else inner

end RecordGen.Python

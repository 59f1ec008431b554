import RecordGen.Target.JavaName
import RecordGen.Target.PythonName
import RecordGen.Schema.Graph
import RecordGen.Table

/-!
The names of generated types.

Every module has a container type, and the interfaces and records of its classes are named inside
that container. Names are claimed in declaration order. A claimed name that is already taken gets
the smallest number from two upward that makes it new, so no two types of one container share a
name.
-/

namespace RecordGen

/-- A generated type: its simple name and the container it lives in. -/
structure TypePath where
  name : String
  container : String
deriving Repr, DecidableEq, Inhabited

namespace TypePath

/-- The type that is a module's container itself. -/
def isModuleType (t : TypePath) : Bool :=
  t.name == t.container

def dotted (t : TypePath) : String :=
  if t.isModuleType then t.name else t.container ++ "." ++ t.name

end TypePath

/-- Simple names of types that generated Java refers to. -/
def platformTypes : List String :=
  ["Boolean", "Consumer", "Double", "List", "Long", "Map", "Number", "Object", "Override", "Record",
   "Set", "String"]

/-- The types of the copy-with protocol; no schema type takes their names. -/
def protocolTypes : List String :=
  ["Wither", "Memento"]

/-- A name that some target language reserves, in whatever case it is written. -/
def isReservedTypeName (name : String) : Bool :=
  let l := Text.lower name
  l ∈ Java.reservedWords || l ∈ Python.keywords.map Text.lower

/-- The name, marked as a type where it is reserved or would hide a platform type. -/
def safeTypeName (name : String) : String :=
  if isReservedTypeName name || name ∈ platformTypes then name ++ "Type" else name

/-- The name itself if it is free, else the first free one among the name with 2, 3, … after it. One
of the candidates is free, for there are more of them than taken names. -/
def uniqueName (taken : List String) (name : String) : String :=
  if name ∈ taken then
    let candidates := (List.range (taken.length + 1)).map fun k => name ++ toString (k + 2)
    (candidates.find? (· ∉ taken)).getD name
  else name

/-- The container names of modules, given their names in order and the names already taken. -/
def containerNames (taken : List String) : List String → List String
  | [] => []
  | m :: ms =>
    let c := uniqueName taken (safeTypeName (Text.pascalCase m))
    c :: containerNames (c :: taken) ms

/-- The simple names of the interface and the record of one class, as far as its kind has them. -/
structure ClassNames where
  interface : Option String
  record : Option String
deriving Repr, DecidableEq, Inhabited

/-- Claims a name if one is wanted, and says which names are taken afterwards. -/
def claim (taken : List String) : Option String → Option String × List String
  | none => (none, taken)
  | some name =>
    let n := uniqueName taken name
    (some n, n :: taken)

/-- The names of a module's own types. The container's name goes to the interface if there is one,
and the record of such a module says that it implements it. -/
def moduleNames (container : String) (kind : Extensibility) : ClassNames × List String :=
  let taken := container :: protocolTypes
  match kind with
  | .final => (⟨none, some container⟩, taken)
  | .abstract => (⟨some container, none⟩, taken)
  | .extensible =>
    let (record, taken) := claim taken (some (container ++ "Impl"))
    (⟨some container, record⟩, taken)

/-- The names of the classes of one module, given the names already taken in its container. -/
def classNames (interfacePrefix : String) (taken : List String) :
    List (String × Extensibility) → List ClassNames
  | [] => []
  | (name, kind) :: rest =>
    let wanted := if kind.allowsSubclasses then some (interfacePrefix ++ name) else none
    let (interface, taken) := claim taken (wanted.map safeTypeName)
    let wanted := if kind.allowsInstances then some name else none
    let (record, taken) := claim taken (wanted.map safeTypeName)
    ⟨interface, record⟩ :: classNames interfacePrefix taken rest

/-- The names allocated for a graph: a container for every module name, and the types of every
class. -/
structure Naming where
  containers : Table String String := ∅
  interfaces : Table ClassId TypePath := ∅
  records : Table ClassId TypePath := ∅
deriving Repr, Inhabited

namespace Naming

def addClass (n : Naming) (container : String) (c : ClassId) (names : ClassNames) : Naming :=
  let interfaces := match names.interface with
    | some i => n.interfaces.insert c ⟨i, container⟩
    | none => n.interfaces
  let records := match names.record with
    | some r => n.records.insert c ⟨r, container⟩
    | none => n.records
  { n with interfaces, records }

/-- Adds the types of a module and of its classes. -/
def addModule (interfacePrefix : String) (g : ClassGraph) (n : Naming)
    (entry : ClassId × String) : Naming :=
  let (m, container) := entry
  let d := g.decl m
  let (own, taken) := moduleNames container d.kind
  let members := g.membersOf d.name
  let named := classNames interfacePrefix taken
    (members.map fun c => ((g.decl c).name, (g.decl c).kind))
  let n := { n with containers := n.containers.insert d.name container }
  (members.zip named).foldl (fun n e => n.addClass container e.1 e.2) (n.addClass container m own)

/-- Names every module and class of a graph. -/
def ofGraph (interfacePrefix : String) (g : ClassGraph) : Naming :=
  let containers := containerNames protocolTypes (g.modules.map fun m => (g.decl m).name)
  (g.modules.zip containers).foldl (addModule interfacePrefix g) {}

end Naming

end RecordGen

import RecordGen.Config
import RecordGen.GeneratedType

/-!
From resolved classes to generated types.
-/

namespace RecordGen

/-- The result of analyzing a graph: one type for each interface and record, in the order of
the resolved classes and a class's interface before its record. -/
structure Analysis where
  types : List GeneratedType
  contract : Option CopyContract
  resolutions : List Resolution
deriving Inhabited, Repr

namespace Analysis

def interfaces (a : Analysis) : List GeneratedInterface :=
  a.types.filterMap fun
    | .interface d => some d
    | .record _ => none

def records (a : Analysis) : List GeneratedRecord :=
  a.types.filterMap fun
    | .interface _ => none
    | .record d => some d

def interface? (a : Analysis) (t : TypePath) : Option GeneratedInterface :=
  a.interfaces.find? (·.path == t)

def record? (a : Analysis) (t : TypePath) : Option GeneratedRecord :=
  a.records.find? (·.path == t)

/-- What a class became in this run. -/
def resolution? (a : Analysis) (c : ClassId) : Option Resolution :=
  a.resolutions.find? (·.source == c)

/-- The interface of a class, with one accessor for each of the class's own properties. -/
def interfaceOf (g : ClassGraph) (r : Resolution) (name : TypePath) : GeneratedInterface :=
  let d := g.decl r.source
  { source := r.source
    name := name.name
    container := r.container
    moduleName := d.moduleName
    isModuleType := name.isModuleType
    doc := { lead := Documentation.cleaned d.doc }
    parent := r.parent
    accessors := d.properties.map fun p => ⟨p.name, p.type, p.nullable, p.doc⟩ }

/-- The record of a class, with one component for each property of the chain. -/
def recordOf (config : Config) (g : ClassGraph) (r : Resolution) (name : TypePath) :
    GeneratedRecord :=
  let d := g.decl r.source
  let components := r.properties.map fun e =>
    (⟨e.property.name, e.property.type, e.property.nullable, e.property.doc,
      g.fullName e.owner⟩ : Component)
  { source := r.source
    name := name.name
    container := r.container
    moduleName := d.moduleName
    isModuleType := name.isModuleType
    doc := Documentation.ofClass d.doc (r.properties.map fun e => (e.property.name, e.property.doc))
    components
    implements := r.implements
    decorations := if config.builder then [config.builderName] else []
    copyWith :=
      if config.withers then some
        { fields := components.map fun c => { c with doc := none }
          stagingName := name.name ++ "." ++ CopyProtocol.staging
          marker := config.marker }
      else none }

def typesOf (config : Config) (g : ClassGraph) (r : Resolution) : List GeneratedType :=
  (r.interface.map fun name => .interface (interfaceOf g r name)).toList ++
    (r.record.map fun name => .record (recordOf config g r name)).toList

/-- The generated types of resolved classes of a graph. -/
def ofResolutions (config : Config) (g : ClassGraph) (rs : List Resolution) : Analysis :=
  { types := rs.flatMap (typesOf config g)
    contract := if config.withers then some ⟨config.marker⟩ else none
    resolutions := rs }

/-- Every interface that a generated type names, with the qualified name of the type's class: what
interfaces extend, then what records implement. -/
def mentions (g : ClassGraph) (a : Analysis) : List (String × TypePath) :=
  (a.interfaces.flatMap fun i => i.parent.toList.map (g.fullName i.source, ·)) ++
    a.records.flatMap fun r => r.implements.map (g.fullName r.source, ·)

/-- Refuses a result that names an interface it does not describe. -/
def check (g : ClassGraph) (a : Analysis) : Except SchemaFault Unit :=
  let allocated := a.interfaces.map (·.path)
  match (a.mentions g).find? (·.2 ∉ allocated) with
  | some (owner, t) => .error (.unallocatedInterface owner t.dotted)
  | none => .ok ()

/-- Describes resolved classes of a graph. -/
def describe (config : Config) (g : ClassGraph) (rs : List Resolution) :
    Except SchemaFault Analysis := do
  let a := ofResolutions config g rs
  a.check g
  return a

end Analysis

/-- Resolves the classes of a graph and describes what they become. -/
def analyze (config : Config) (workers : Option Int) (g : ClassGraph) :
    Except SchemaFault Analysis := do
  Analysis.describe config g (← g.resolve config.interfacePrefix workers)

end RecordGen

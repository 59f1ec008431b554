import RecordGen.Hierarchy
import RecordGen.Naming

/-!
What a class becomes.

A class that can be extended becomes an interface, one that can be instantiated becomes a record.
Records cannot extend each other, so a record restates the properties of the whole chain of its
class, and it satisfies the interface of its class and of every ancestor.
-/

namespace RecordGen

/-- A property with the class that declares it. -/
structure Declared where
  property : Property
  owner : ClassId
deriving Inhabited, Repr

namespace ClassGraph

variable (g : ClassGraph)

/-- Adds properties of a class to those of its superclass. A name may be declared once only. -/
def declare (c : ClassId) : List Declared → List Property → Except SchemaFault (List Declared)
  | inherited, [] => .ok inherited
  | inherited, p :: ps =>
    match inherited.find? (·.property.name == p.name) with
    | some previous =>
      .error (.conflictingProperty (g.fullName c) p.name (g.fullName previous.owner))
    | none => declare c (inherited ++ [⟨p, c⟩]) ps

/-- One level of a chain: the properties above it followed by its own. -/
def extend (inherited : List Declared) (c : ClassId) : Except SchemaFault (List Declared) :=
  g.declare c inherited (g.decl c).properties

/-- The properties of a class and of its ancestors, from the root of the chain down. -/
def flatten (c : ClassId) : Except SchemaFault (List Declared) :=
  (g.lineage c).foldlM g.extend []

end ClassGraph

/-- What a class becomes in a run. -/
structure Resolution where
  source : ClassId
  fullName : String
  interface : Option TypePath
  /-- The interface of the superclass, if this class has one too. -/
  parent : Option TypePath
  record : Option TypePath
  /-- The interfaces of the class and its ancestors, nearest first. -/
  contracts : List TypePath
  properties : List Declared
  container : String
deriving Inhabited, Repr

namespace Resolution

/-- The interfaces the record of the class implements. -/
def implements (r : Resolution) : List TypePath :=
  if r.record.isSome then r.contracts else []

/-- The type a property of this class has: the interface if there is one, else the record. -/
def counterpart? (r : Resolution) : Option TypePath :=
  r.interface <|> r.record

/-- What a class becomes, given what its superclass became and the properties of its chain. -/
def ofClass (g : ClassGraph) (names : Naming) (above : Option Resolution) (c : ClassId)
    (properties : List Declared) : Except SchemaFault Resolution :=
  let d := g.decl c
  let interface := if d.kind.allowsSubclasses then names.interfaces.find? c else none
  let record := if d.kind.allowsInstances then names.records.find? c else none
  let inherited := (above.map contracts).getD []
  match names.containers.find? d.moduleName with
  | none => .error (.undeclaredModule d.fullName d.moduleName)
  | some container => .ok
    { source := c
      fullName := d.fullName
      interface
      parent := if interface.isSome then above.bind (·.interface) else none
      record
      contracts := interface.toList ++ inherited.filter (· ∉ interface.toList)
      properties
      container }

/-- One level of a chain, from what the level above it became. -/
def below (g : ClassGraph) (names : Naming) (above : Option Resolution) (c : ClassId) :
    Except SchemaFault Resolution := do
  let properties ← g.extend ((above.map (·.properties)).getD []) c
  ofClass g names above c properties

end Resolution

namespace ClassGraph

variable (g : ClassGraph)

/-- What a class becomes: its chain is resolved from the root down. -/
def resolveClass (names : Naming) (c : ClassId) : Except SchemaFault Resolution := do
  let above ← (g.ancestors c).reverse.foldlM (fun r a => some <$> Resolution.below g names r a) none
  Resolution.below g names above c

/-- The order in which classes are resolved: ancestors first, or with several workers one
inheritance tree after the other. -/
def visits (workers : Option Int) (order : List ClassId) : List ClassId :=
  if workers.any (1 < ·) then (g.trees order).flatten else order

/-- Resolves every listed class. The result is in ancestor-first order whatever the order of the
visits; the visits decide which of several faults is reported. -/
def resolve (interfacePrefix : String) (workers : Option Int) :
    Except SchemaFault (List Resolution) := do
  let order ← g.ancestryOrder
  g.checkReferences
  let names := Naming.ofGraph interfacePrefix g
  let found ← (g.visits workers order).mapM (g.resolveClass names)
  return order.filterMap fun c => found.find? (·.source == c)

end ClassGraph

end RecordGen

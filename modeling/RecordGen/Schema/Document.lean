import RecordGen.Json.Display
import RecordGen.Schema.Graph
import RecordGen.Schema.TypeText
import RecordGen.Text.Word

/-!
Reading a schema document into a class graph.

The document is read in two passes. The first makes a draft of every module and class in document
order and refuses malformed definitions and repeated names. The second replaces the names of
superclasses and referenced classes by the classes they mean, so a class may be declared after its
subclasses.
-/

namespace RecordGen

/-- A declaration whose types are not linked yet, with the name of its superclass. -/
structure Draft where
  decl : ClassDecl
  superclassName : Option String
deriving Inhabited, Repr

namespace Draft

/-- A text field that may be missing or null. -/
def optionalText (fields : List (String × Json)) (key owner : String) :
    Except SchemaFault (Option String) :=
  match Json.field fields key with
  | .null => .ok none
  | .text s => .ok (some s)
  | _ => .error (.notText key owner)

/-- A list field that may be missing. -/
def optionalList (fields : List (String × Json)) (key owner : String) :
    Except SchemaFault (List Json) :=
  match Table.findEntry key fields with
  | none => .ok []
  | some (.list items) => .ok items
  | some _ => .error (.notList key owner)

/-- The fault whose message shows a value, if it can be shown. -/
def showing (v : Json) (fault : String → SchemaFault) : SchemaFault :=
  (v.literal?.map fault).getD .longInteger

def readProperty (owner : String) : Json → Except SchemaFault Property
  | .object fields => do
    let name ← match Json.field fields "name" with
      | .text s =>
        if Text.isSchemaName s then pure s
        else throw (showing (.text s) (.invalidPropertyName owner))
      | v => throw (showing v (.invalidPropertyName owner))
    let text ← match Json.field fields "type" with
      | .text s => pure s
      | v => throw (showing v (.noTypeText owner name))
    let type ← PropertyType.parse owner text
    let nullable := (Json.field fields "nullable").truthy
    let doc ← optionalText fields "doc" owner
    return { name, type, nullable, doc }
  | v => .error (.propertyNotAnObject owner v.kindName)

/-- Reads the properties one after the other; `known` holds the names of those before. -/
def readProperties (owner : String) (known : List String) :
    List Json → Except SchemaFault (List Property)
  | [] => .ok []
  | v :: vs => do
    let p ← readProperty owner v
    if p.name ∈ known then throw (.repeatedProperty owner p.name)
    return p :: (← readProperties owner (p.name :: known) vs)

def readKind (name : String) (fields : List (String × Json)) : Except SchemaFault Extensibility :=
  match Table.findEntry "kind" fields with
  | none => .ok .final
  | some (.text s) =>
    match Extensibility.ofText? s with
    | some kind => .ok kind
    | none => .error (.unknownKind s name)
  | some v => .error (showing v (.unknownKind · name))

/-- The draft of one definition, apart from the classes of a module. -/
def read (place : Place) : Json → Except SchemaFault Draft
  | .object fields => do
    let name ← match Json.field fields "name" with
      | .text s =>
        if Text.isSchemaName s then pure s
        else throw (showing (.text s) (.invalidName place))
      | v => throw (showing v (.invalidName place))
    let kind ← readKind name fields
    let doc ← optionalText fields "doc" name
    let (isModule, moduleName) := match place with
      | .module => (true, name)
      | .class moduleName => (false, moduleName)
    let bare : ClassDecl := { name, kind, doc, isModule, moduleName }
    let superclassName ← optionalText fields "extends" bare.fullName
    let values ← optionalList fields "properties" bare.fullName
    let properties ← readProperties bare.fullName [] values
    return { decl := { bare with properties }, superclassName }
  | v => .error (.notAnObject place v.kindName)

def fullName (d : Draft) : String :=
  d.decl.fullName

end Draft

namespace Document

/-- Adds the classes of a module to the drafts. -/
def readClasses (moduleName : String) : List Draft → List Json → Except SchemaFault (List Draft)
  | drafts, [] => .ok drafts
  | drafts, v :: vs => do
    let d ← Draft.read (.class moduleName) v
    if d.fullName ∈ drafts.map Draft.fullName then
      throw (.duplicateClass d.fullName)
    readClasses moduleName (drafts ++ [d]) vs

/-- Adds modules, each with its classes, to the drafts. -/
def readModules : List Draft → List Json → Except SchemaFault (List Draft)
  | drafts, [] => .ok drafts
  | drafts, v :: vs => do
    let d ← Draft.read .module v
    if d.fullName ∈ drafts.map Draft.fullName then
      throw (.duplicateModule d.decl.name)
    let values ← match v with
      | .object fields => Draft.optionalList fields "classes" d.decl.name
      | _ => pure []
    readModules (← readClasses d.decl.name (drafts ++ [d]) values) vs

/-- The first pass: every declaration of the document, each module before its classes. -/
def drafts : Json → Except SchemaFault (List Draft)
  | .object fields =>
    match Json.field fields "modules" with
    | .list values => readModules [] values
    | _ => .error .noModules
  | _ => .error .noModules

/-- The graph of the drafts with nothing linked: every declaration is listed. -/
def unlinked (ds : List Draft) : ClassGraph :=
  let decls := ds.map Draft.decl
  let places := List.range ds.length
  { decls, modules := places.filter fun c => (decls.getD c {}).isModule, classes := places }

/-- The class a name means inside a module: a class of that module before anything else, unless the
name is qualified. -/
def resolve? (g : ClassGraph) (moduleName name : String) : Option ClassId :=
  match (if '.' ∈ name.toList then none else g.find? (moduleName ++ "." ++ name)) with
  | some c => some c
  | none => g.find? name

mutual

/-- Links the references inside a type, the outermost first. A linked reference shows the qualified
name of its class. -/
def linkInside (g : ClassGraph) (d : ClassDecl) (property : String) :
    PropertyType → Except SchemaFault PropertyType
  | .node .reference name arguments _ =>
    match resolve? g d.moduleName name with
    | some c =>
      (.node .reference (g.fullName c) · (some c)) <$> linkAllInside g d property arguments
    | none => .error (.undeclaredType d.fullName property name)
  | .node .primitive name arguments target =>
    (.node .primitive name · target) <$> linkAllInside g d property arguments
  | .node .collection name arguments target =>
    (.node .collection name · target) <$> linkAllInside g d property arguments
  | .node .optional name arguments target =>
    (.node .optional name · target) <$> linkAllInside g d property arguments

def linkAllInside (g : ClassGraph) (d : ClassDecl) (property : String) :
    List PropertyType → Except SchemaFault (List PropertyType)
  | [] => .ok []
  | t :: ts => do
    let t ← linkInside g d property t
    return t :: (← linkAllInside g d property ts)

end

def linkSuperclass (g : ClassGraph) (d : Draft) : Except SchemaFault (Option ClassId) :=
  match d.superclassName with
  | none => .ok none
  | some name =>
    if name.isEmpty then .ok none
    else match resolve? g d.decl.moduleName name with
      | some c => .ok (some c)
      | none => .error (.undeclaredSuperclass d.fullName name)

/-- The declaration of a draft with its superclass and its types linked. -/
def link (g : ClassGraph) (d : Draft) : Except SchemaFault ClassDecl := do
  let superclass ← linkSuperclass g d
  let properties ← d.decl.properties.mapM fun p => do
    let type ← linkInside g d.decl p.name p.type
    return { p with type }
  return { d.decl with superclass, properties }

/-- Reads a document into a linked graph. -/
def load (document : Json) : Except SchemaFault ClassGraph := do
  let ds ← drafts document
  let g := unlinked ds
  let decls ← ds.mapM (link g)
  return { g with decls }

end Document

end RecordGen

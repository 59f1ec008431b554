import RecordGen.Target.JavaEmission
import RecordGen.Target.Working

/-!
A Java backend that is used for one result after the other.

It collects the imports of the file being built, and begins anew with every file.
-/

namespace RecordGen.Java

/-- What an accessor adds to the imports, also if it cannot be built to its end. -/
def accessorMet (a : Analysis) (members : List (String × String)) (m : Accessor) : List String :=
  match memberOf members m.name with
  | .ok _ => collectionsMet a m.type
  | .error _ => []

def componentMet (a : Analysis) (members : List (String × String)) (c : Component) :
    List String :=
  match memberOf members c.name with
  | .ok _ => collectionsMet a c.type
  | .error _ => []

/-- What an interface adds to the imports. -/
def interfaceMet (config : Config) (a : Analysis) (d : GeneratedInterface) : List String :=
  match a.memberTable legalMember d.toTypeHead with
  | .error _ => []
  | .ok members => metUpTo (accessorMethod config a members) (accessorMet a members) d.accessors

/-- The components of a record and its documentation, which are built before its annotations. -/
def recordParts (config : Config) (a : Analysis) (members : List (String × String))
    (d : GeneratedRecord) : Except TargetFault (List Parameter × List String) := do
  let components ← d.components.mapM (componentParameter a members)
  let doc ← javadoc config (← renameEntries members d.doc)
  return (components, doc)

/-- What a record adds to the imports. -/
def recordMet (config : Config) (a : Analysis) (d : GeneratedRecord) : List String :=
  match a.memberTable legalMember d.toTypeHead with
  | .error _ => []
  | .ok members =>
    metUpTo (componentParameter a members) (componentMet a members) d.components ++
      match recordParts config a members d with
      | .error _ => []
      | .ok _ =>
        d.decorations ++ if d.copyWith.isSome then ["java.util.function.Consumer"] else []

def declarationMet (config : Config) (a : Analysis) : GeneratedType → List String
  | .interface d => interfaceMet config a d
  | .record d => recordMet config a d

structure Backend where
  /-- The imports of the file being built. -/
  imports : List String := []
deriving Inhabited, Repr

namespace Backend

variable (config : Config) (a : Analysis) (comment : String)

/-- Builds one type into the current file. -/
def build (b : Backend) (d : GeneratedType) : Except TargetFault Declaration × Backend :=
  (declaration config a d, { b with imports := b.imports ++ declarationMet config a d })

/-- Builds the unit of a container, with the imports that its types were found to need. -/
def buildUnit (b : Backend) (group : String × List GeneratedType) :
    Except TargetFault CompilationUnit × Backend :=
  let (container, ds) := group
  let b := { b with imports := [] }
  match ds.find? (·.head.isModuleType) with
  | none => (.error (.noContainerType container), b)
  | some top =>
    match b.build config a top with
    | (.error e, b) => (.error e, b)
    | (.ok (.mk head shape nested), b) =>
      match workThrough (build config a) b (ds.eraseP (·.head.isModuleType)) with
      | (.error e, b) => (.error e, b)
      | (.ok others, b) =>
        (.ok
          { package := config.javaPackage
            imports := b.imports.eraseDups
            comment
            container
            types := [.mk head shape (nested ++ others)] }, b)

/-- Builds and prints the file of a container. -/
def buildFile (b : Backend) (group : String × List GeneratedType) :
    Except TargetFault (String × String) × Backend :=
  match b.buildUnit config a comment group with
  | (.error e, b) => (.error e, b)
  | (.ok unit, b) => (.ok (filePath config group.1, unit.print config.indent), b)

/-- The files of a result: path and text. -/
def generate (b : Backend) : Except TargetFault (List (String × String)) × Backend :=
  match workThrough (buildFile config a comment) b (groups a) with
  | (.error e, b) => (.error e, b)
  | (.ok modules, b) =>
    let contract := a.contract.toList.map fun c =>
      (filePath config CopyProtocol.contract, (contractUnit config comment c).print config.indent)
    (.ok (modules ++ contract), b)

end Backend

end RecordGen.Java

import RecordGen.Target.JavaName
import RecordGen.Target.JavaPrinter
import RecordGen.Target.JavaTypes

/-!
Java sources from generated types.

Each module becomes one file whose top-level type is the module's container, with the module's other
types nested in it. With the copy-with protocol the shared contract goes to a file of its own.
-/

namespace RecordGen.Java

namespace Ty

mutual

/-- The qualified names a type needs imported. -/
def imports : Ty → List String
  | imported qualified arguments => qualified :: argumentImports arguments
  | generic _ arguments => argumentImports arguments
  | annotated _ inner => imports inner
  | named _ => []
  | scalar _ => []
  | boxed _ => []
  | platform _ => []
  | generated _ => []

def argumentImports : List Ty → List String
  | [] => []
  | t :: ts => imports t ++ argumentImports ts

end

end Ty

def parameterImports (ps : List Parameter) : List String :=
  ps.flatMap (·.type.imports)

def annotationImports (as : List Marker) : List String :=
  as.filterMap (·.qualified)

def Method.imports (m : Method) : List String :=
  annotationImports m.annotations ++ m.returnType.imports ++ parameterImports m.parameters

def Shape.imports : Shape → List String
  | .interfaceShape parents => Ty.argumentImports parents
  | .recordShape components implements =>
    parameterImports components ++ Ty.argumentImports implements
  | .classShape fields constructors =>
    fields.flatMap (·.type.imports) ++ constructors.flatMap fun c => parameterImports c.parameters

mutual

/-- The qualified names that a declaration needs imported, in the order of the text. -/
def Declaration.imports : Declaration → List String
  | .mk head shape nested =>
    annotationImports head.annotations ++ shape.imports ++ head.methods.flatMap Method.imports ++
      nestedImports nested

def nestedImports : List Declaration → List String
  | [] => []
  | d :: ds => d.imports ++ nestedImports ds

end

/-- The comment lines of a doc block, unless docs are off. -/
def javadoc (config : Config) (d : Documentation) : Except TargetFault (List String) :=
  if config.docs then d.commentLines.mapError .docs else .ok []

def accessorMethod (config : Config) (a : Analysis) (members : List (String × String))
    (m : Accessor) : Except TargetFault Method := do
  let name ← memberOf members m.name
  let returnType ← translate a m.type m.nullable
  let doc ← javadoc config { lead := m.doc }
  return { name, returnType, access := .packageAccess, javadoc := doc }

/-- An interface with one abstract accessor for each property of its own. -/
def interfaceDeclaration (config : Config) (a : Analysis) (d : GeneratedInterface) :
    Except TargetFault Declaration := do
  let members ← a.memberTable legalMember d.toTypeHead
  let methods ← d.accessors.mapM (accessorMethod config a members)
  let doc ← javadoc config d.doc
  return .mk { name := d.name, javadoc := doc, methods }
    (.interfaceShape (d.parent.toList.map .generated)) []

def componentParameter (a : Analysis) (members : List (String × String)) (c : Component) :
    Except TargetFault Parameter := do
  let name ← memberOf members c.name
  let type ← translate a c.type c.nullable
  return { name, type }

/-- An annotation that is imported by its qualified name and used by its simple one. -/
def decoration (qualified : String) : Marker :=
  { name := simpleName qualified, qualified := some qualified }

/-- The local variable that holds the staging copy. -/
def stagingVariable : String := "memento"

/-- The parameter of the staging type's constructor. -/
def stagingSource : String := "source"

/-- A function that is given a value of a type. -/
def consumer (marker : String) (t : Ty) : Ty :=
  .annotated marker (.imported "java.util.function.Consumer" [.annotated marker t])

/-- Copies the record into a staging object, lets the setter change it, and builds a new record. -/
def withMethod (name marker : String) : Method :=
  let staged := Expr.name stagingVariable
  { name := CopyProtocol.method
    returnType := .annotated marker (.named name)
    annotations := [{ name := "Override" }]
    parameters := [{
      name := CopyProtocol.setter
      type := consumer marker (.named CopyProtocol.staging)
      isFinal := true }]
    body := some [
      .declare stagingVariable (.construct CopyProtocol.staging [.name "this"]),
      .evaluate (.call (.name CopyProtocol.setter) "accept" [staged]),
      .give (.call staged CopyProtocol.finalizer [])] }

/-- The staging type of a record: a mutable field for every component, filled from the record's
accessors and given back to its constructor. -/
def stagingClass (doc : List String) (name : String) (components : List Parameter) : Declaration :=
  let names := components.map (·.name)
  .mk
    { name := CopyProtocol.staging
      modifiers := [.static, .final]
      javadoc := doc
      methods := [{
        name := CopyProtocol.finalizer
        returnType := .named name
        access := .privateAccess
        body := some [.give (.construct name (names.map .name))] }] }
    (.classShape (components.map fun c => { name := c.name, type := c.type })
      [{ className := CopyProtocol.staging
         access := .privateAccess
         parameters := [{ name := stagingSource, type := .named name, isFinal := true }]
         body := names.map fun n =>
           .assign (.field (.name "this") n) (.call (.name stagingSource) n []) }])
    []

def stagingDoc (name : String) : Documentation :=
  { lead := "Mutable copy of a \x7b@link " ++ name ++ "\x7d used by \x7b@link #" ++
      CopyProtocol.method ++ "\x7d." }

/-- A record with the components of the whole chain and, if it has one, its copy-with protocol. -/
def recordDeclaration (config : Config) (a : Analysis) (d : GeneratedRecord) :
    Except TargetFault Declaration := do
  let members ← a.memberTable legalMember d.toTypeHead
  let components ← d.components.mapM (componentParameter a members)
  let doc ← javadoc config (← renameEntries members d.doc)
  let head : Head :=
    { name := d.name, javadoc := doc, annotations := d.decorations.map decoration }
  let implements := d.implements.map Ty.generated
  match d.copyWith with
  | none => return .mk head (.recordShape components implements) []
  | some copy =>
    let contract := Ty.generic CopyProtocol.contract [.named d.name, .named copy.stagingName]
    let stagingDoc ← javadoc config (stagingDoc d.name)
    return .mk { head with methods := [withMethod d.name copy.marker] }
      (.recordShape components (implements ++ [contract]))
      [stagingClass stagingDoc d.name components]

def declaration (config : Config) (a : Analysis) : GeneratedType → Except TargetFault Declaration
  | .interface d => interfaceDeclaration config a d
  | .record d => recordDeclaration config a d

/-- The containers of a result, each with its types, both in the order of the result. -/
def groups (a : Analysis) : List (String × List GeneratedType) :=
  (a.types.map (·.head.container)).eraseDups.map fun container =>
    (container, a.types.filter (·.head.container == container))

/-- The unit of a container: its own type on top, the other types nested in the order given. -/
def containerUnit (config : Config) (a : Analysis) (comment : String)
    (group : String × List GeneratedType) : Except TargetFault CompilationUnit := do
  let (container, ds) := group
  match ds.find? (·.head.isModuleType) with
  | none => throw (.noContainerType container)
  | some top =>
    let .mk head shape nested ← declaration config a top
    let others ← (ds.eraseP (·.head.isModuleType)).mapM (declaration config a)
    let whole := Declaration.mk head shape (nested ++ others)
    return { package := config.javaPackage
             imports := whole.imports.eraseDups
             comment
             container
             types := [whole] }

/-- The contract of the copy-with protocol. -/
def contractDeclaration (contract : CopyContract) : Declaration :=
  let marked := Ty.annotated contract.marker
  let record := marked (.named CopyProtocol.recordParameter)
  let staging := Ty.named CopyProtocol.stagingParameter
  .mk
    { name := CopyProtocol.contract
      typeParameters := [
        { type := record, bound := some (marked (.platform CopyProtocol.recordBound)) },
        { type := marked staging }]
      javadoc := [
        "/**",
        " * Copy-with contract shared by every generated record.",
        " *",
        " * @param <" ++ CopyProtocol.recordParameter ++ "> the record type",
        " * @param <" ++ CopyProtocol.stagingParameter ++
          "> the mutable staging type of the record",
        " */"]
      methods := [{
        name := CopyProtocol.method
        returnType := record
        access := .packageAccess
        parameters := [{ name := CopyProtocol.setter, type := consumer contract.marker staging }]
        javadoc := [
          "/**",
          " * Returns a copy of this record with the changes made by \x7b@code " ++
            CopyProtocol.setter ++ "\x7d.",
          " * The record itself is left untouched.",
          " */"] }] }
    (.interfaceShape []) []

def contractUnit (config : Config) (comment : String) (contract : CopyContract) : CompilationUnit :=
  let whole := contractDeclaration contract
  { package := config.javaPackage
    imports := whole.imports.eraseDups
    comment
    container := CopyProtocol.contract
    types := [whole] }

/-- The path of the file that declares a top-level type: a folder for each package segment. -/
def filePath (config : Config) (typeName : String) : String :=
  let file := typeName ++ ".java"
  if config.javaPackage.isEmpty then file
  else "/".intercalate ((config.javaPackage.toList.splitOn '.').map String.ofList ++ [file])

/-- The units of a result with their paths. -/
def units (config : Config) (a : Analysis) (comment : String) :
    Except TargetFault (List (String × CompilationUnit)) := do
  let modules ← (groups a).mapM fun group =>
    return (filePath config group.1, ← containerUnit config a comment group)
  let contract := a.contract.toList.map fun c =>
    (filePath config CopyProtocol.contract, contractUnit config comment c)
  return modules ++ contract

/-- The files of a result: path and text. -/
def generate (config : Config) (a : Analysis) (comment : String) :
    Except TargetFault (List (String × String)) := do
  return (← units config a comment).map fun (path, unit) => (path, unit.print config.indent)

end RecordGen.Java

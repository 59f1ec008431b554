import RecordGen.Target.JavaName
import RecordGen.Json.Value
import RecordGen.Target.PythonName

/-!
Options of a run and their validation.
-/

namespace RecordGen

/-- The option that is to blame for a refused configuration. -/
inductive ConfigFault where
  | nullabilityMarker (value : String)
  | withersWithoutRecords
  | builderWithoutRecords
  | builderName (value : String)
  | javaPackage (value : String)
  | interfacePrefix (value : String)
  | language (value : String)
  /-- Records are off and nothing stands in for them. -/
  | nothingToGenerate
deriving Repr, DecidableEq

namespace ConfigFault

def message : ConfigFault → String
  | nullabilityMarker value =>
    "Nullability marker '" ++ value ++ "' is not a fully-qualified annotation name"
  | withersWithoutRecords => "Withers require record generation to be enabled"
  | builderWithoutRecords => "The builder annotation requires record generation to be enabled"
  | builderName value =>
    "Builder annotation '" ++ value ++ "' is not a fully-qualified annotation name"
  | javaPackage value => "Invalid Java package '" ++ value ++ "'"
  | interfacePrefix value => "Invalid interface prefix '" ++ value ++ "'"
  | language value => "Unsupported language '" ++ value ++ "'"
  | nothingToGenerate => "Record generation is disabled and no legacy generator was provided"

def option : ConfigFault → String
  | nullabilityMarker _ => "nullability_marker"
  | withersWithoutRecords => "enable_withers"
  | builderWithoutRecords => "enable_external_builder_annotation"
  | builderName _ => "external_builder_annotation"
  | javaPackage _ => "java_package"
  | interfacePrefix _ => "interface_prefix"
  | language _ => "language"
  | nothingToGenerate => "enable_records"

end ConfigFault

/-- The languages a run can generate. -/
inductive Language where
  | java
  | python
deriving Repr, DecidableEq

namespace Language

def text : Language → String
  | java => "java"
  | python => "python"

def ofText? (s : String) : Option Language :=
  [java, python].find? (·.text == s)

/-- What opens a comment line. -/
def commentMark : Language → String
  | java => "//"
  | python => "#"

end Language

structure Config where
  /-- Split classes into interfaces and records at all. -/
  records : Bool := true
  /-- Give every record the copy-with protocol. -/
  withers : Bool := false
  /-- Attach the builder annotation to every record. -/
  builder : Bool := false
  builderName : String := "lombok.Builder"
  /-- The annotation of everything that cannot be null; the default one if absent. -/
  nullabilityMarker : Option String := none
  /-- Stands before the interface names of classes that are no modules. -/
  interfacePrefix : String := "I"
  /-- The package of generated Java sources; empty for none. -/
  javaPackage : String := ""
  docs : Bool := true
  /-- Open every file with a line that says what generated it. -/
  banner : Bool := true
  /-- One step of indentation in Java sources. -/
  indent : String := "  "
deriving Repr, DecidableEq, Inhabited

namespace Config

def defaultMarker : String :=
  "org.checkerframework.checker.nullness.qual.NonNull"

/-- The marker that is written: the configured one unless it is absent or empty. -/
def marker (c : Config) : String :=
  match c.nullabilityMarker with
  | none => defaultMarker
  | some m => if m.isEmpty then defaultMarker else m

/-- An empty prefix, or a name that is no keyword. -/
def acceptsPrefix (s : String) : Bool :=
  s.isEmpty || (Python.isIdentifier s && s ∉ Python.keywords)

/-- Refuses the first option that is malformed or contradicts another one. -/
def validate (c : Config) : Except ConfigFault Unit := do
  if let some m := c.nullabilityMarker then
    if !Java.isQualifiedName 2 m then throw (.nullabilityMarker m)
  if !c.records && c.withers then throw .withersWithoutRecords
  if !c.records && c.builder then throw .builderWithoutRecords
  if c.builder && !Java.isQualifiedName 2 c.builderName then
    throw (.builderName c.builderName)
  if !c.javaPackage.isEmpty && !Java.isQualifiedName 1 c.javaPackage then
    throw (.javaPackage c.javaPackage)
  if !acceptsPrefix c.interfacePrefix then throw (.interfacePrefix c.interfacePrefix)

/-- Why a value holds no configuration. -/
inductive ReadFault where
  | notAnObject
  /-- A value stands where an option is a text. -/
  | notText (option : String)
deriving Repr, DecidableEq

/-- The text of an option. -/
def textOf (option : String) : Json → Except ReadFault String
  | .text s => .ok s
  | _ => .error (.notText option)

/-- Sets the option a field names. Fields of other names change nothing. Any value turns a switch on
or off, by what it counts as; the other options are texts. -/
def set (c : Config) : String × Json → Except ReadFault Config
  | ("enable_records", v) => .ok { c with records := v.truthy }
  | ("enable_withers", v) => .ok { c with withers := v.truthy }
  | ("enable_external_builder_annotation", v) => .ok { c with builder := v.truthy }
  | ("external_builder_annotation", v) =>
    (textOf "external_builder_annotation" v).map fun s => { c with builderName := s }
  | ("nullability_marker", .null) => .ok { c with nullabilityMarker := none }
  | ("nullability_marker", v) =>
    (textOf "nullability_marker" v).map fun s => { c with nullabilityMarker := some s }
  | ("interface_prefix", v) =>
    (textOf "interface_prefix" v).map fun s => { c with interfacePrefix := s }
  | ("java_package", v) => (textOf "java_package" v).map fun s => { c with javaPackage := s }
  | ("generate_javadoc", v) => .ok { c with docs := v.truthy }
  | ("add_generation_comment", v) => .ok { c with banner := v.truthy }
  | ("indent", v) => (textOf "indent" v).map fun s => { c with indent := s }
  | _ => .ok c

/-- The configuration of an object; no other value holds one. -/
def ofJson : Json → Except ReadFault Config
  | .object fields => fields.foldlM set {}
  | _ => .error .notAnObject

/-- The options by their names. -/
def toFields (c : Config) : List (String × Json) :=
  [("enable_records", .bool c.records),
   ("enable_withers", .bool c.withers),
   ("enable_external_builder_annotation", .bool c.builder),
   ("external_builder_annotation", .text c.builderName),
   ("nullability_marker", (c.nullabilityMarker.map Json.text).getD .null),
   ("interface_prefix", .text c.interfacePrefix),
   ("java_package", .text c.javaPackage),
   ("generate_javadoc", .bool c.docs),
   ("add_generation_comment", .bool c.banner),
   ("indent", .text c.indent)]

/-- The option names and their values lead back to the configuration. -/
theorem ofJson_toFields (c : Config) : ofJson (.object c.toFields) = .ok c := by
  obtain ⟨records, withers, builder, annotation, m, p, package, docs, banner, indent⟩ := c
  cases m <;> rfl

end Config

end RecordGen

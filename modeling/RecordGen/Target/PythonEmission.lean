import RecordGen.Target.PythonLimits
import RecordGen.Target.PythonName
import RecordGen.Target.PythonPrinter
import RecordGen.Target.PythonReading
import RecordGen.Target.PythonTypes

/-!
A Python module from generated types.

Interfaces become protocols and records frozen data classes, in the order of the
types, after a prelude that imports what they need and declares the copy-with contract.
-/

namespace RecordGen.Python

namespace Ty

mutual

/-- Whether the type mentions `Any`. -/
def usesAny : Ty → Bool
  | builtin _ => false
  | any => true
  | collection _ arguments => argumentsUseAny arguments
  | generated _ => false
  | optional inner => usesAny inner

def argumentsUseAny : List Ty → Bool
  | [] => false
  | t :: ts => usesAny t || argumentsUseAny ts

end

end Ty

mutual

/-- Whether an annotation in a statement mentions `Any`. -/
def Statement.usesAny : Statement → Bool
  | .field _ type => type.usesAny
  | .function _ _ _ _ body => bodyUsesAny body
  | .classDefinition _ _ _ body => bodyUsesAny body
  | .doc _ => false
  | .assign _ _ => false
  | .evaluate _ => false
  | .give _ => false
  | .pass => false

def bodyUsesAny : List Statement → Bool
  | [] => false
  | s :: ss => s.usesAny || bodyUsesAny ss

end

/-- A documentation string for a body at a depth: its first line opens the string, the others and
the closing quotes are indented like the body. Nothing if docs are off or the block is empty. -/
def docStatement (config : Config) (depth : Nat) (d : Documentation) :
    Except TargetFault (List Statement) := do
  if !config.docs || d.isEmpty then return []
  match ← d.stringLines.mapError .docs with
  | [] => throw (.docs .noLine)
  | [line] => return [.doc line]
  | first :: others =>
    let rest := others.map fun l => if l.isEmpty then "\n" else "\n" ++ margin depth ++ l
    return [.doc (first ++ .join rest ++ "\n" ++ margin depth)]

/-- A class body is never empty. -/
def nonEmptyBody (body : List Statement) : List Statement :=
  if body.isEmpty then [.pass] else body

/-- The docs of an interface: its own and those of its documented accessors. -/
def interfaceDoc (members : List (String × String)) (d : GeneratedInterface) :
    Except TargetFault Documentation := do
  let documented := d.accessors.filterMap fun m =>
    m.doc.bind fun text => if Text.blank text then none else some (m.name, text)
  renameEntries members { lead := d.doc.lead, entries := documented }

/-- A protocol that declares the accessors of the interface as fields. -/
def interfaceClass (config : Config) (a : Analysis) (names : Table TypePath String)
    (d : GeneratedInterface) : Except TargetFault Statement := do
  let parent ← d.parent.toList.mapM (classNameOf names)
  let members ← a.memberTable legalMember d.toTypeHead
  let doc ← docStatement config 1 (← interfaceDoc members d)
  let fields ← d.accessors.mapM fun m => do
    let name ← memberOf members m.name
    let type ← translate a names m.type m.nullable
    whenReadable type.isReadable
    return Statement.field name type
  let name ← classNameOf names d.path
  return .classDefinition [.name "runtime_checkable"] name
    (parent.map .name ++ [.name "Protocol"]) (nonEmptyBody (doc ++ fields))

/-- The parameter of the staging class's constructor. -/
def stagingSource : String := "source"

/-- The local variable that holds the staging copy. -/
def stagingVariable : String := "memento"

/-- The staging class seen from the module. -/
def stagingExpr (name : String) : Expr :=
  .member (.reference name) CopyProtocol.staging

/-- Every field's name as an argument that gets the same field of an object. -/
def copiedFields (object : String) (fields : List (String × Ty)) : List (String × Expr) :=
  fields.map fun f =>
    let name := referredName f.1
    (name, .member (.name object) name)

/-- The staging class of a record: a mutable field for every component, a constructor that copies a
record and a finalizer that builds one. -/
def stagingClass (doc : List Statement) (name : String) (fields : List (String × Ty)) : Statement :=
  .classDefinition [.name "dataclass"] CopyProtocol.staging []
    (doc ++ fields.map (fun f => .field f.1 f.2) ++ [
      .function [.name "classmethod"] "_of"
        [{ name := "cls" }, { name := stagingSource, type := some (.reference name) }]
        (stagingExpr name)
        [.give (.call (.name "cls") [] (copiedFields stagingSource fields))],
      .function [] ("_" ++ CopyProtocol.finalizer) [{ name := "self" }] (.reference name)
        [.give (.call (.reference name) [] (copiedFields "self" fields))]])

/-- The type of a function that changes a staging object. -/
def setterType (staging : Expr) : Expr :=
  .subscript (.name "Callable") [.list [staging], .name "None"]

/-- Says that a copy is returned. -/
def withDoc : String :=
  "Return a copy of this record with the changes made by ``" ++ CopyProtocol.setter ++ "``."

/-- Copies the record into a staging object, lets the setter change it, and builds a new record. -/
def withFunction (name : String) : Statement :=
  .function [] (legalMethod CopyProtocol.method)
    [{ name := "self" },
     { name := CopyProtocol.setter, type := some (setterType (stagingExpr name)) }]
    (.reference name)
    [.doc withDoc,
     .assign stagingVariable (.call (.member (stagingExpr name) "_of") [.name "self"] []),
     .evaluate (.call (.name CopyProtocol.setter) [.name stagingVariable] []),
     .give (.call (.member (.name stagingVariable) ("_" ++ CopyProtocol.finalizer)) [] [])]

def stagingDoc (name : String) : Documentation :=
  { lead := "Mutable copy of a " ++ name ++ " used by ``" ++ legalMethod CopyProtocol.method ++
      "``." }

/-- A frozen data class with the components of the whole chain and, if the record has one, its
copy-with protocol. -/
def recordClass (config : Config) (a : Analysis) (names : Table TypePath String)
    (d : GeneratedRecord) : Except TargetFault Statement := do
  let name ← classNameOf names d.path
  let bases ← d.implements.mapM (classNameOf names)
  whenReadable (d.copyWith.isNone || contractReadable name)
  let members ← a.memberTable legalMember d.toTypeHead
  let fields ← d.components.mapM fun c => do
    let member ← memberOf members c.name
    return (member, ← translate a names c.type c.nullable)
  let doc ← docStatement config 1 (← renameEntries members d.doc)
  whenReadable (fields.all fun f => f.2.isReadable)
  let own := doc ++ fields.map fun f => Statement.field f.1 f.2
  let decorators := [.name "final", .call (.name "dataclass") [] [("frozen", .name "True")]]
  match d.copyWith with
  | none => return .classDefinition decorators name (bases.map .name) (nonEmptyBody own)
  | some _ =>
    let staging := name ++ "." ++ CopyProtocol.staging
    let contract := Expr.subscript (.name CopyProtocol.contract) [.text name, .text staging]
    let stagingDoc ← docStatement config 2 (stagingDoc name)
    whenReadable (copiesReadable name fields)
    return .classDefinition decorators name (bases.map .name ++ [contract])
      (own ++ [stagingClass stagingDoc name fields, withFunction name])

def classDefinition (config : Config) (a : Analysis) (names : Table TypePath String) :
    GeneratedType → Except TargetFault Statement
  | .interface d => interfaceClass config a names d
  | .record d => recordClass config a names d

/-- The class definitions of a result. -/
def classes (config : Config) (a : Analysis) : Except TargetFault (List Statement) := do
  let names ← classNames a
  a.types.mapM (classDefinition config a names)

/-- The names that a module imports from `typing`, in order. -/
def typingImports (a : Analysis) (body : List Statement) : List String :=
  let needed := [
    ("Any", bodyUsesAny body),
    ("Callable", a.contract.isSome),
    ("Protocol", a.contract.isSome || !a.interfaces.isEmpty),
    ("TypeVar", a.contract.isSome),
    ("final", !a.records.isEmpty),
    ("runtime_checkable", !a.interfaces.isEmpty)]
  (needed.filter (·.2)).map (·.1)

/-- The contract of the copy-with protocol. -/
def contractClass : Statement :=
  .classDefinition [] CopyProtocol.contract
    [.subscript (.name "Protocol")
      [.name CopyProtocol.recordParameter, .name CopyProtocol.stagingParameter]]
    [.doc "Copy-with contract shared by every generated record.",
     .function [] (legalMethod CopyProtocol.method)
      [{ name := "self" },
       { name := CopyProtocol.setter
         type := some (setterType (.name CopyProtocol.stagingParameter)) }]
      (.name CopyProtocol.recordParameter)
      [.doc withDoc, .evaluate (.name "...")]]

def typeVariable (name : String) : String :=
  name ++ " = TypeVar(\"" ++ name ++ "\", covariant=True)"

/-- The lines before the generated classes, which import some names from `typing`. -/
def preludeLines (a : Analysis) (typing : List String) (comment : String) : List String :=
  (if comment.isEmpty then [] else [comment, ""]) ++
    ["from __future__ import annotations", "", "from dataclasses import dataclass"] ++
    (if typing.isEmpty then [] else ["from typing import " ++ ", ".intercalate typing]) ++
    if a.contract.isSome then
      ["",
       typeVariable CopyProtocol.recordParameter,
       typeVariable CopyProtocol.stagingParameter,
       ""] ++ contractClass.lines 0
    else []

/-- The lines of a text, each line feed ending one. -/
def splitLines (s : String) : List String :=
  (s.toList.splitOn '\n').map String.ofList

/-- A line at which a class begins: a decorator or the header itself. -/
def opensClass (line : String) : Bool :=
  ['@'].isPrefixOf line.toList || "class ".toList.isPrefixOf line.toList

/-- Puts a line under those above, which are listed from the last one up. Two blank lines separate a
class from what is above it, unless that is a decorator of the same class. -/
def addLine (above : List String) (line : String) : List String :=
  let decorated := above.head?.any fun l => ['@'].isPrefixOf l.toList
  if opensClass line && !decorated then line :: "" :: "" :: above.dropWhile (·.isEmpty)
  else line :: above

/-- A text without line feeds at its end. -/
def dropNewlines (s : String) : String :=
  .ofList (s.toList.reverse.dropWhile (· == '\n')).reverse

/-- Joins the prelude and the text of the classes, with two blank lines before each class and one
line feed at the end. -/
def joinModule (prelude code : String) : String :=
  let above := (splitLines (dropNewlines prelude)).reverse
  let all := ((splitLines code).foldl addLine above).reverse
  dropNewlines ("\n".intercalate all) ++ "\n"

/-- The file of the generated module. -/
def moduleFile : String := "records.py"

/-- The files of a result: path and text. -/
def generate (config : Config) (a : Analysis) (comment : String) :
    Except TargetFault (List (String × String)) := do
  let body ← classes config a
  if Statement.anyLongInteger body then throw .longInteger
  let prelude := "\n".intercalate (preludeLines a (typingImports a body) comment)
  return [(moduleFile, joinModule prelude (Statement.printAll body))]

end RecordGen.Python

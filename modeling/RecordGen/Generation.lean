import RecordGen.Target.JavaEmission
import RecordGen.Target.PythonEmission
import RecordGen.Schema.Document

/-!
A whole run: check the options, load the graph, analyze it, and write the sources.
-/

namespace RecordGen

/-- Why a run ends without files. -/
inductive Fault where
  | config (e : ConfigFault)
  | schema (e : SchemaFault)
  | target (e : TargetFault)
deriving Repr, DecidableEq

def Fault.message : Fault → String
  | config e => e.message
  | schema e => e.message
  | target e => e.message

/-- A graph, or the document to load it from. -/
inductive Source where
  | document (v : Json)
  | graph (g : ClassGraph)
deriving Inhabited

def Source.load : Source → Except SchemaFault ClassGraph
  | document v => Document.load v
  | graph g => .ok g

/-- Files of an output folder: path and text. -/
abbrev Files := List (String × String)

/-- What generates files when records are switched off. -/
abbrev Fallback := ClassGraph → Config → Files

structure Run where
  config : Config := {}
  language : String := "java"
  workers : Option Int := none
  fallback : Option Fallback := none
  /-- The command line that the banner shows. -/
  commandLine : String := "schema_to_records"

namespace Run

def program : String := "schema_to_records"

def version : String := "0.1.0"

/-- Checks the options before anything else is done. -/
def validate (r : Run) : Except ConfigFault Language := do
  r.config.validate
  match Language.ofText? r.language with
  | none => throw (.language r.language)
  | some language =>
    if !r.config.records && r.fallback.isNone then throw .nothingToGenerate
    return language

/-- The line at the top of every file; empty if it is switched off. -/
def banner (r : Run) (language : Language) : String :=
  if r.config.banner then
    language.commentMark ++ " Generated by " ++ program ++ " v" ++ version ++ " : " ++ r.commandLine
  else ""

/-- The generated types of a source. -/
def analyze (r : Run) (s : Source) : Except Fault Analysis := do
  let _ ← r.validate.mapError .config
  let g ← s.load.mapError .schema
  (RecordGen.analyze r.config r.workers g).mapError .schema

end Run

/-- The files of an analysis in a language. -/
def emit (config : Config) (language : Language) (a : Analysis) (comment : String) :
    Except TargetFault Files :=
  match language with
  | .java => Java.generate config a comment
  | .python => Python.generate config a comment

/-- The files of a source. -/
def Run.generate (r : Run) (s : Source) : Except Fault Files := do
  let language ← r.validate.mapError .config
  let g ← s.load.mapError .schema
  match r.config.records, r.fallback with
  | false, some fallback => return fallback g r.config
  | _, _ =>
    let a ← (RecordGen.analyze r.config r.workers g).mapError .schema
    (emit r.config language a (r.banner language)).mapError .target

end RecordGen

import RecordGen.CommandLine.Options
import RecordGen.CommandLine.Surroundings
import RecordGen.Generation
import RecordGen.Json.Reader
import RecordGen.Text.Plain

/-!
Running a command line.

A run whose generation fails writes nothing, and one that has its files writes them one after the
other, up to the first that cannot be written. It sees its surroundings only through what stands at
the paths that the command line names.
-/

namespace RecordGen.CommandLine

/-- A command line whose words are complete and name what has to exist. -/
structure Invocation where
  config : Option String
  language : Language
  withers : Bool
  builder : Bool
  marker : Option String
  package : Option String
  verbose : Bool
  path : String
  output : String
deriving Repr, DecidableEq

/-- Why a run fails without a message of its own. -/
inductive Crash where
  /-- A path holds a null character. -/
  | nullInPath
  /-- The configuration file holds no object. -/
  | configNotAnObject
  /-- A folder stands where a file is read. -/
  | folderInPlaceOfFile
  /-- A file stands where a folder is written to. -/
  | fileInPlaceOfFolder
  /-- A path, or a name on it, is longer than what can be looked up or written. -/
  | longPath
  /-- An integer has more digits than are read and written. -/
  | longInteger
  /-- A file holds a character that is set aside for lone surrogates. -/
  | setAside
  /-- An option of the configuration file is no text where a text is needed. -/
  | mistypedOption (option : String)
  /-- The text of a file holds a lone surrogate. -/
  | unencodable
  /-- A failure of a generation that no schema or option is to blame for. -/
  | internal (e : TargetFault)
deriving Repr, DecidableEq

inductive Outcome where
  /-- The command line itself is shown to the user. -/
  | help
  /-- The command line is wrong. -/
  | usage
  | failed (message : String)
  | crashed (c : Crash)
  /-- Files are written below a folder. -/
  | written (folder : String) (files : Files)
  /-- Files are written below a folder up to one that cannot be written. -/
  | stopped (folder : String) (files : Files) (c : Crash)
deriving Repr, DecidableEq

/-! ## Checking the words -/

/-- The words that are looked up in the surroundings. -/
def Words.lookedUp (w : Words) : List String :=
  w.arguments ++ (w.value? .config).toList ++ (w.value? .nullabilityMarker).toList ++
    (w.value? .package).toList

/-- An input that a word names; it has to exist. -/
def checkInput (look : Surroundings) (path : String) : Except Outcome Unit :=
  if holdsNull path then .error (.crashed .nullInPath)
  else if (look path).stands then .ok ()
  else .error .usage

/-- The output folder that a word names; no file may stand there. -/
def checkOutput (look : Surroundings) (path : String) : Except Outcome Unit :=
  if holdsNull path then .error (.crashed .nullInPath)
  else if (look path).isFile then .error .usage
  else .ok ()

namespace Words

/-- The language; the first one that sources can be written in if none is given. -/
def language? (w : Words) : Option Language :=
  match w.value? .language with
  | none => some .java
  | some l => Language.ofText? l

def checkOption (look : Surroundings) (w : Words) : Key → Except Outcome Unit
  | .config => (w.value? .config).toList.forM (checkInput look)
  | .language => if w.language?.isSome then .ok () else .error .usage
  | _ => .ok ()

/-- Options are checked in the order in which they occur, by the value given last. -/
def checkOptions (look : Surroundings) (w : Words) : Except Outcome Unit :=
  w.values.reverse.forM fun o => w.checkOption look o.1

end Words

/-- Completes the words: options that pass their checks, an input that exists, an output where no
file stands, and no more arguments. -/
def Invocation.ofWords (look : Surroundings) (w : Words) : Except Outcome Invocation := do
  w.checkOptions look
  match w.language?, w.arguments with
  | some language, path :: others =>
    checkInput look path
    match others with
    | [] => throw .usage
    | output :: more =>
      checkOutput look output
      if !more.isEmpty then throw .usage
      return { language, path, output
               config := w.value? .config
               withers := w.has .withers
               builder := w.has .builderMark
               marker := w.value? .nullabilityMarker
               package := w.value? .package
               verbose := w.has .verbose }
  | _, _ => throw .usage

/-! ## Preparing the run -/

namespace Invocation

/-- An option in its long form, with its value. An empty value is left out. -/
def shownOption (k : Key) (value : Option String) : List String :=
  match value with
  | none => []
  | some v => if v.isEmpty then [] else ["--" ++ k.long, v]

def shownFlag (k : Key) (given : Bool) : List String :=
  if given then ["--" ++ k.long] else []

/-- The command line in its standard form: the program, the two arguments, and the options in a
fixed order without those that have their default value. -/
def standardForm (look : Surroundings) (i : Invocation) : String :=
  let language := if i.language = .java then none else some i.language.text
  " ".intercalate <|
    [Run.program, (look i.path).shown, (look i.output).shown] ++
      shownOption .config (i.config.map fun c => (look c).shown) ++
      shownOption .language language ++
      shownFlag .withers i.withers ++
      shownFlag .builderMark i.builder ++
      shownOption .nullabilityMarker i.marker ++
      shownOption .package i.package ++
      shownFlag .verbose i.verbose

/-- The configuration with the options of the command line put over it. Flags only switch on. -/
def override (i : Invocation) (c : Config) : Config :=
  { c with
    withers := c.withers || i.withers
    builder := c.builder || i.builder
    nullabilityMarker := i.marker <|> c.nullabilityMarker
    javaPackage := i.package.getD c.javaPackage }

/-- Some word that the banner shows is too long to be looked up. -/
def hasLongWord (look : Surroundings) (i : Invocation) : Bool :=
  ([i.path, i.output] ++ i.config.toList ++ i.marker.toList ++ i.package.toList).any fun word =>
    (look word).isTooLong

/-- Reads the JSON file at a path. -/
def readJson (look : Surroundings) (path : String) : Except Outcome Json :=
  match (look path).standing with
  | .file text =>
    match Json.read text with
    | .ok v => .ok v
    | .error .malformed => .error (.failed "Invalid JSON")
    | .error .longInteger => .error (.crashed .longInteger)
    | .error .setAside => .error (.crashed .setAside)
  | _ => .error (.crashed .folderInPlaceOfFile)

def readConfig (look : Surroundings) (i : Invocation) : Except Outcome Config :=
  match i.config with
  | none => .ok {}
  | some path => do
    match Config.ofJson (← readJson look path) with
    | .ok c => return c
    | .error .notAnObject => throw (.crashed .configNotAnObject)
    | .error (.notText option) => throw (.crashed (.mistypedOption option))

end Invocation

/-! ## Running -/

/-- A cause that says what is wrong with the schema or an option, not with the generated types. -/
def isReported : TargetFault → Bool
  | .unknownPrimitive _ | .noCounterpart _ | .unresolved _ | .noContainerType _
  | .ambiguous _ => true
  | .unknownCollection _ | .bareOptional | .unnamedMember _ | .unnamedType _ | .longInteger
  | .unreadable | .docs _ => false

def Outcome.ofFault : Fault → Outcome
  | .config e => .failed (Text.plain e.message)
  | .schema e => if e.isReported then .failed (Text.plain e.message) else .crashed .longInteger
  | .target e => if isReported e then .failed (Text.plain e.message) else .crashed (.internal e)

/-- Why a file cannot be written below an output folder. Its own folder is made first. -/
def Entry.refusal? (output : Entry) (file : String) : Option Crash :=
  let whole := output.path ++ components file
  if isLongPath whole.dropLast then some .longPath
  else if output.standing = .blocked then some .fileInPlaceOfFolder
  else if whole.any isLongName || isLongPath whole then some .longPath
  else none

/-- Writes files in order, up to the first that cannot be written: what is written then, and why not
more. A file is opened before its text is encoded, so one without an encoding stays empty. -/
def Entry.writeThrough (output : Entry) : Files → Files × Option Crash
  | [] => ([], none)
  | (path, text) :: rest =>
    match output.refusal? path with
    | some c => ([], some c)
    | none =>
      if Text.isEncodable text then
        let (others, c) := output.writeThrough rest
        ((path, text) :: others, c)
      else ([(path, "")], some .unencodable)

def Outcome.ofFiles (look : Surroundings) (folder : String) (files : Files) : Outcome :=
  match (look folder).writeThrough files with
  | (files, none) => .written folder files
  | (files, some c) => .stopped folder files c

namespace Invocation

/-- The run that an invocation asks for, and its schema. -/
def prepare (look : Surroundings) (i : Invocation) : Except Outcome (Run × Json) := do
  let schema ← readJson look i.path
  let config ← readConfig look i
  return ({ config := i.override config
            language := i.language.text
            commandLine := i.standardForm look }, schema)

/-- Runs an invocation. The banner shows the command line, so there is none when a word of it cannot
be looked up; faults in the schema are found before that. -/
def run (look : Surroundings) (i : Invocation) : Outcome :=
  match i.prepare look with
  | .error outcome => outcome
  | .ok (r, schema) =>
    if r.config.banner && i.hasLongWord look then
      match r.analyze (.document schema) with
      | .ok _ => .crashed .longPath
      | .error f => .ofFault f
    else
      match r.generate (.document schema) with
      | .ok files => .ofFiles look i.output files
      | .error f => .ofFault f

end Invocation

/-- Runs a command line, given as its words. -/
def run (look : Surroundings) (words : List String) : Outcome :=
  match Words.read {} .nothing words with
  | none => .usage
  | some w =>
    if w.has .help then .help
    else match Invocation.ofWords look w with
      | .error outcome => outcome
      | .ok i => i.run look

def Outcome.exitCode : Outcome → UInt8
  | help => 0
  | written .. => 0
  | usage => 2
  | failed _ => 1
  | crashed _ => 1
  | stopped .. => 1

end RecordGen.CommandLine

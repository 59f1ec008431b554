import RecordGen.CommandLine.Invocation

/-!
The command line program: it looks at the paths that the words name, runs them, and writes the files
or reports why there are none.
-/

namespace RecordGen.CommandLine

/-- Whether something stands at a whole path, and whether that is a folder. -/
def isFolderAt? (names : List String) : IO (Option Bool) := do
  try
    let resolved ← IO.FS.realPath (pathText names)
    if ← resolved.pathExists then return some (← resolved.isDir) else return none
  catch _ => return none

/-- Follows names down the file system. -/
def walkFrom (done : List String) : List String → IO Standing
  | [] => return .folder
  | name :: rest => do
    if isLongName name then return .tooLong
    let next := done ++ [name]
    match ← isFolderAt? next with
    | none => return .nothing
    | some true => walkFrom next rest
    | some false =>
      if rest.isEmpty then return .file (← IO.FS.readFile (pathText next)) else return .blocked

/-- What stands at a path of the file system. -/
def lookAt (path : String) : IO Entry := do
  let here := resolve [] (← IO.currentDir).toString
  let names := resolve here path
  let whole ← try
      pure (resolve [] (← IO.FS.realPath (pathText names)).toString)
    catch _ => pure names
  let standing ← if isLongPath whole then pure .tooLong else walkFrom [] whole
  return { path := whole, standing }

/-- What stands at each of some paths. -/
def lookAround (paths : List String) : IO Surroundings := do
  let found ← paths.mapM fun p => return (p, ← lookAt p)
  return fun path => (found.lookup path).getD { path := components path, standing := .nothing }

/-- Writes files below a folder. -/
def writeAll (folder : String) (files : Files) : IO Unit :=
  files.forM fun (path, text) => do
    IO.FS.createDirAll ("/".intercalate (folder :: (components path).dropLast))
    IO.FS.writeFile (folder ++ "/" ++ path) text

def usageText : String :=
  "Usage: " ++ Run.program ++ " [OPTIONS] PATH OUTPUT"

namespace Crash

def message : Crash → String
  | nullInPath => "a path holds a null character"
  | configNotAnObject => "the configuration is not an object"
  | folderInPlaceOfFile => "a folder cannot be read as a file"
  | fileInPlaceOfFolder => "a file stands in place of a folder"
  | longPath => "a path is too long"
  | longInteger => "an integer is too long"
  | setAside => "a file holds a character that is set aside"
  | mistypedOption option => "the option '" ++ option ++ "' is not a text"
  | unencodable => "a text holds a lone surrogate"
  | internal e => "internal error: " ++ e.message

end Crash

/-- Runs a command line and says with which code the program ends. -/
def execute (words : List String) : IO UInt32 := do
  let paths := ((Words.read {} .nothing words).map Words.lookedUp).getD []
  let outcome := run (← lookAround paths) words
  match outcome with
  | .help => IO.println usageText
  | .usage => IO.eprintln usageText
  | .failed message => IO.eprintln ("Error: " ++ message)
  | .crashed c => IO.eprintln ("Error: " ++ c.message)
  | .written folder files => writeAll folder files
  | .stopped folder files c =>
    writeAll folder files
    IO.eprintln ("Error: " ++ c.message)
  return outcome.exitCode.toUInt32

end RecordGen.CommandLine

def main (words : List String) : IO UInt32 :=
  RecordGen.CommandLine.execute words

/-!
What a command line finds at the paths that it names.

A path is resolved before anything is looked up: it becomes the list of names that lead to it from
the root. Names and whole paths have a greatest length, counted in bytes; longer ones cannot be
looked up or written to.
-/

namespace RecordGen.CommandLine

/-! ## Paths -/

/-- The greatest length of a name. -/
def nameLimit : Nat := 255

/-- The greatest length of a whole path. -/
def pathLimit : Nat := 4095

/-- The text of a whole path. -/
def pathText (names : List String) : String :=
  "/" ++ "/".intercalate names

def isLongName (name : String) : Bool :=
  nameLimit < name.utf8ByteSize

def isLongPath (names : List String) : Bool :=
  pathLimit < (pathText names).utf8ByteSize

/-- A null character ends a path early, so no path may hold one. -/
def holdsNull (path : String) : Bool :=
  path.toList.contains '\x00'

/-- The components of a path. -/
def components (path : String) : List String :=
  (path.toList.splitOn '/').map String.ofList

/-- Goes one component further: an empty one and a single point stay, two points lead back. -/
def step (done : List String) (component : String) : List String :=
  if component.isEmpty || component == "." then done
  else if component == ".." then done.dropLast
  else done ++ [component]

/-- The names of the whole path. A path that does not begin with a slash starts from a folder. -/
def resolve (here : List String) (path : String) : List String :=
  let start := if ['/'].isPrefixOf path.toList then [] else here
  (components path).foldl step start

/-! ## Entries -/

/-- What stands at the end of a path. -/
inductive Standing where
  | file (text : String)
  | folder
  | nothing
  /-- Nothing can stand there, for the path leads through a file. -/
  | blocked
  /-- The path, or a name on it, is longer than what can be looked up. -/
  | tooLong
deriving Repr, DecidableEq

/-- A resolved path with what stands there. -/
structure Entry where
  path : List String
  standing : Standing
deriving Repr, DecidableEq

/-- What stands at each path. -/
abbrev Surroundings := String → Entry

namespace Entry

/-- Something stands there. -/
def stands (e : Entry) : Bool :=
  match e.standing with
  | .file _ => true
  | .folder => true
  | .nothing => false
  | .blocked => false
  | .tooLong => false

def isFile (e : Entry) : Bool :=
  match e.standing with
  | .file _ => true
  | .folder => false
  | .nothing => false
  | .blocked => false
  | .tooLong => false

def isTooLong (e : Entry) : Bool :=
  e.standing = .tooLong

/-- How the banner shows the path: by its last name if something stands there. -/
def shown (e : Entry) : String :=
  if e.stands then e.path.getLast?.getD "" else pathText e.path

end Entry

/-! ## Trees of files -/

/-- A file, or a folder with its entries by name. -/
inductive FileTree where
  | file (text : String)
  | folder (entries : List (String × FileTree))
deriving Inhabited

/-- Follows names down a tree. -/
def FileTree.walk : FileTree → List String → Standing
  | file text, [] => .file text
  | folder _, [] => .folder
  | file _, _ :: _ => .blocked
  | folder entries, name :: rest =>
    if isLongName name then .tooLong
    else match entries.lookup name with
      | some t => t.walk rest
      | none => .nothing

/-- A tree of files, given by its root, as seen from a working folder. -/
structure Workplace where
  root : FileTree
  here : List String
deriving Inhabited

/-- What stands at a path. -/
def Workplace.look (w : Workplace) : Surroundings := fun path =>
  let whole := resolve w.here path
  { path := whole
    standing := if isLongPath whole then .tooLong else w.root.walk whole }

end RecordGen.CommandLine

import RecordGen.Generation
import RecordGen.Target.JavaBackend
import RecordGen.Target.PythonBackend

/-!
Sessions: one analyzer and one backend for each language that work on several graphs, which change
between their steps.

The analyzer remembers what it computed. The names of a graph and what its classes became are kept
while the same graph is resolved again, and forgotten when a resolution of another graph gets past
the checks of order and references. What a class's chain flattens to is kept for ever. A step that
fails keeps what it computed before it failed.
-/

namespace RecordGen

/-- A graph with the number of its load; a graph that is loaded again is another graph. -/
structure Loaded where
  id : Nat
  graph : ClassGraph
deriving Inhabited

/-- What is remembered of the graph that was resolved last. -/
structure Current where
  id : Nat
  names : Naming
  resolved : Table ClassId Resolution := ∅
deriving Inhabited

/-- An order in which workers take inheritance trees: every tree is taken once. -/
structure Schedule where
  take : List (List ClassId) → List (List ClassId)
  perm : ∀ trees, (take trees).Perm trees

/-- The trees as they come. -/
def Schedule.inOrder : Schedule := ⟨id, .refl⟩

/-- What is remembered of every class whose chain was flattened. -/
abbrev FlatMemo := Table (Nat × ClassId) (List Declared)

structure Session where
  config : Config := {}
  /-- The workers that analyses resolve with. -/
  workers : Option Int := none
  graphs : Table String Loaded := ∅
  loads : Nat := 0
  current : Option Current := none
  flattened : FlatMemo := ∅
  /-- The result of the last analysis that succeeded. -/
  last : Option Analysis := none
  java : Java.Backend := {}
  python : Python.Backend := {}
deriving Inhabited

/-- Why a step has no answer. -/
inductive StepFault where
  | run (f : Fault)
  | unknownGraph (name : String)
  | unknownClass (name : String)
  /-- No analysis has succeeded yet. -/
  | noResult
deriving Repr, DecidableEq

/-! ## Remembered flattenings -/

/-- The classes of a chain that are not remembered, topmost first, and the nearest class above them
that is. -/
def splitChain {β : Type} (known : ClassId → Option β) (path : List ClassId) :
    List ClassId × Option β :=
  let missing := path.takeWhile fun c => (known c).isNone
  (missing.reverse, (path.drop missing.length).head?.bind known)

/-- Flattens classes one below the other and remembers each. -/
def flattenDown (l : Loaded) :
    List ClassId → List Declared → FlatMemo → Except SchemaFault (List Declared) × FlatMemo
  | [], above, memo => (.ok above, memo)
  | c :: cs, above, memo =>
    match l.graph.extend above c with
    | .error e => (.error e, memo)
    | .ok ps => flattenDown l cs ps (memo.insert (l.id, c) ps)

/-- Flattens a class below the nearest remembered one of its chain. -/
def flattenClass (l : Loaded) (c : ClassId) (memo : FlatMemo) :
    Except SchemaFault (List Declared) × FlatMemo :=
  let (missing, above) :=
    splitChain (fun d => memo.find? (l.id, d)) (c :: l.graph.ancestors c)
  flattenDown l missing (above.getD []) memo

/-! ## Remembered resolutions -/

/-- The two memos that resolving works with. -/
structure Memos where
  resolved : Table ClassId Resolution
  flattened : FlatMemo
deriving Inhabited

/-- Resolves classes one below the other and remembers each. -/
def resolveDown (l : Loaded) (names : Naming) :
    List ClassId → Option Resolution → Memos → Except SchemaFault Unit × Memos
  | [], _, memos => (.ok (), memos)
  | c :: cs, above, memos =>
    let (properties, flattened) := flattenClass l c memos.flattened
    let memos := { memos with flattened }
    match properties.bind (Resolution.ofClass l.graph names above c) with
    | .error e => (.error e, memos)
    | .ok r => resolveDown l names cs (some r) { memos with resolved := memos.resolved.insert c r }

/-- Resolves a class below the nearest remembered one of its chain. -/
def resolveRemembered (l : Loaded) (names : Naming) (c : ClassId) (memos : Memos) :
    Except SchemaFault Unit × Memos :=
  let (missing, above) := splitChain memos.resolved.find? (c :: l.graph.ancestors c)
  resolveDown l names missing above memos

/-- Resolves the classes of a list up to the first failure. -/
def resolveList (l : Loaded) (names : Naming) :
    List ClassId → Memos → Except SchemaFault Unit × Memos
  | [], memos => (.ok (), memos)
  | c :: cs, memos =>
    match resolveRemembered l names c memos with
    | (.error e, memos) => (.error e, memos)
    | (.ok (), memos) => resolveList l names cs memos

/-- Resolves trees in the order in which workers take them, each up to its first failure and whether
others fail or not, and keeps what came of each. -/
def runTrees (l : Loaded) (names : Naming) :
    List (List ClassId) → Memos → List (List ClassId × Except SchemaFault Unit) × Memos
  | [], memos => ([], memos)
  | t :: ts, memos =>
    let (outcome, memos) := resolveList l names t memos
    let (others, memos) := runTrees l names ts memos
    ((t, outcome) :: others, memos)

/-- Resolves every tree in the order of a schedule, and reports the failure of the first tree that
fails in the order of the partition. -/
def resolveTrees (l : Loaded) (names : Naming) (schedule trees : List (List ClassId))
    (memos : Memos) : Except SchemaFault Unit × Memos :=
  let (outcomes, memos) := runTrees l names schedule memos
  (trees.forM fun t => (outcomes.lookup t).getD (.ok ()), memos)

namespace Session

/-- What is remembered of a graph, made new if another graph was resolved last. -/
def memory (s : Session) (l : Loaded) : Current :=
  match s.current with
  | some current =>
    if current.id = l.id then current
    else { id := l.id, names := Naming.ofGraph s.config.interfacePrefix l.graph }
  | none => { id := l.id, names := Naming.ofGraph s.config.interfacePrefix l.graph }

/-- Resolves a graph with the help of what is remembered. Several workers take the inheritance trees
in some order, here in the one of a schedule. -/
def resolve (s : Session) (l : Loaded) (workers : Option Int) (schedule : Schedule := .inOrder) :
    Except SchemaFault (List Resolution) × Session :=
  let checked : Except SchemaFault (List ClassId) := do
    let order ← l.graph.ancestryOrder
    l.graph.checkReferences
    return order
  match checked with
  | .error e => (.error e, s)
  | .ok order =>
    let current := s.memory l
    let memos : Memos := ⟨current.resolved, s.flattened⟩
    let (outcome, memos) :=
      if workers.any (1 < ·) then
        let trees := l.graph.trees order
        resolveTrees l current.names (schedule.take trees) trees memos
      else resolveList l current.names order memos
    let s := { s with
      current := some { current with resolved := memos.resolved }
      flattened := memos.flattened }
    (outcome.map fun _ => order.filterMap memos.resolved.find?, s)

/-- Describes a graph from what is remembered and from the present properties and docs of its
classes, and keeps the result. -/
def analyze (s : Session) (l : Loaded) (schedule : Schedule := .inOrder) :
    Except SchemaFault Analysis × Session :=
  let (resolved, s) := s.resolve l s.workers schedule
  match resolved.bind (Analysis.describe s.config l.graph) with
  | .error e => (.error e, s)
  | .ok a => (.ok a, { s with last := some a })

/-- Flattens one class. -/
def flatten (s : Session) (l : Loaded) (c : ClassId) :
    Except SchemaFault (List Declared) × Session :=
  let (properties, flattened) := flattenClass l c s.flattened
  (properties, { s with flattened })

/-- The components of the record that a class becomes. -/
def recordComponents (s : Session) (l : Loaded) (c : ClassId) :
    Except SchemaFault (List Declared) × Session :=
  let (resolved, s) := s.resolve l none
  match resolved with
  | .error e => (.error e, s)
  | .ok rs =>
    match (rs.find? (·.source == c)).bind (·.record) with
    | none => (.error (.noRecord (l.graph.fullName c)), s)
    | some _ => s.flatten l c

/-- Writes a result with the backend of a language. -/
def emit (s : Session) (language : Language) (a : Analysis) (comment : String) :
    Except TargetFault Files × Session :=
  match language with
  | .java =>
    let (files, java) := s.java.generate s.config a comment
    (files, { s with java })
  | .python =>
    let (files, python) := s.python.generate s.config a comment
    (files, { s with python })

/-- Keeps a graph under a name. -/
def keep (s : Session) (name : String) (g : ClassGraph) : Session :=
  { s with graphs := s.graphs.insert name ⟨s.loads, g⟩, loads := s.loads + 1 }

/-- Puts a changed graph in the place of a graph; it stays the same graph. -/
def replace (s : Session) (name : String) (l : Loaded) (g : ClassGraph) : Session :=
  { s with graphs := s.graphs.insert name { l with graph := g } }

end Session

/-! ## Changes from outside -/

namespace ClassGraph

variable (g : ClassGraph)

/-- Changes one declaration. -/
def modify (c : ClassId) (f : ClassDecl → ClassDecl) : ClassGraph :=
  { g with decls := g.decls.modify c f }

/-- Adds a declaration to the listed classes. -/
def add (d : ClassDecl) : ClassGraph :=
  { g with decls := g.decls ++ [d], classes := g.classes ++ [g.decls.length] }

/-- Takes a class off the list of classes. -/
def unlist (c : ClassId) : ClassGraph :=
  { g with classes := g.classes.erase c }

end ClassGraph

/-! ## Steps -/

/-- What can be asked about one class. -/
inductive Question where
  | declaration
  | membersOf
  | moduleOf
  | ancestors
  | lineage
  | flattening
  | recordComponents
  | references
deriving Repr, DecidableEq

/-- A change of one class, or of the list of classes. -/
inductive Change where
  | addProperty (p : Property)
  | setKind (kind : Extensibility)
  | setDoc (doc : Option String)
  | setSuperclass (superclass : Option ClassId)
  | unlist
deriving Inhabited

def Change.apply (g : ClassGraph) (c : ClassId) : Change → ClassGraph
  | addProperty p => g.modify c fun d => { d with properties := d.properties ++ [p] }
  | setKind kind => g.modify c fun d => { d with kind }
  | setDoc doc => g.modify c fun d => { d with doc }
  | setSuperclass superclass => g.modify c fun d => { d with superclass }
  | unlist => g.unlist c

inductive Step where
  | load (name : String) (source : Source)
  | resolve (on : String) (workers : Option Int)
  | order (on : String)
  | analyze (on : String)
  | names (on : String)
  | generate (language : Language) (comment : String)
  | ask (on : String) (c : ClassId) (question : Question)
  | change (on : String) (c : ClassId) (change : Change)
  | addClass (on : String) (d : ClassDecl)
deriving Inhabited

/-- The answer of a step. Where it holds classes it holds the graph they belong to. -/
inductive Answer where
  | count (n : Nat)
  | resolutions (g : ClassGraph) (rs : List Resolution)
  | classes (g : ClassGraph) (cs : List ClassId)
  | analysis (a : Analysis)
  | naming (g : ClassGraph) (names : Naming)
  | files (fs : Files)
  | declaration (g : ClassGraph) (c : ClassId)
  | module (name : Option String)
  | properties (g : ClassGraph) (ps : List Declared)
  | propertyNames (names : List String)
  | references (g : ClassGraph) (targets : List (String × List ClassId))
  | done
deriving Inhabited

namespace Session

/-- The answer to a question about a class. -/
def answer (s : Session) (l : Loaded) (c : ClassId) :
    Question → Except SchemaFault Answer × Session
  | .declaration => (.ok (.declaration l.graph c), s)
  | .membersOf => (.ok (.classes l.graph (l.graph.membersOf (l.graph.decl c).name)), s)
  | .moduleOf => (.ok (.module ((l.graph.enclosing? c).map l.graph.fullName)), s)
  | .ancestors => (.ok (.classes l.graph (l.graph.ancestors c)), s)
  | .lineage => (.ok (.classes l.graph (l.graph.lineage c)), s)
  | .flattening =>
    let (ps, s) := s.flatten l c
    (ps.map (.properties l.graph), s)
  | .recordComponents =>
    let (ps, s) := s.recordComponents l c
    (ps.map fun ps => .propertyNames (ps.map (·.property.name)), s)
  | .references =>
    let targets := (l.graph.decl c).properties.map fun p => (p.name, p.type.targets)
    (.ok (.references l.graph targets), s)

/-- Runs a function on a graph of the session. -/
def onGraph (s : Session) (name : String)
    (f : Loaded → Except SchemaFault Answer × Session) : Except StepFault Answer × Session :=
  match s.graphs.find? name with
  | none => (.error (.unknownGraph name), s)
  | some l =>
    let (result, s) := f l
    (result.mapError fun e => .run (.schema e), s)

/-- Writes a result and answers with its files. -/
def write (s : Session) (language : Language) (a : Analysis) (comment : String) :
    Except StepFault Answer × Session :=
  let (files, s) := s.emit language a comment
  ((files.map .files).mapError fun e => .run (.target e), s)

/-- Does one step. -/
def step (s : Session) (x : Step) (schedule : Schedule := .inOrder) :
    Except StepFault Answer × Session :=
  match x with
  | .load name source =>
    match source.load with
    | .error e => (.error (.run (.schema e)), s)
    | .ok g => (.ok (.count g.classes.length), s.keep name g)
  | .resolve name workers => s.onGraph name fun l =>
    let (rs, s) := s.resolve l workers schedule
    (rs.map (.resolutions l.graph), s)
  | .order name => s.onGraph name fun l =>
    (l.graph.ancestryOrder.map (.classes l.graph), s)
  | .analyze name => s.onGraph name fun l =>
    let (a, s) := s.analyze l schedule
    (a.map .analysis, s)
  | .names name => s.onGraph name fun l =>
    (.ok (.naming l.graph (Naming.ofGraph s.config.interfacePrefix l.graph)), s)
  | .generate language comment =>
    match s.last with
    | none => (.error .noResult, s)
    | some a => s.write language a comment
  | .ask name c question => s.onGraph name fun l => s.answer l c question
  | .change name c change => s.onGraph name fun l =>
    (.ok .done, s.replace name l (change.apply l.graph c))
  | .addClass name d => s.onGraph name fun l => (.ok .done, s.replace name l (l.graph.add d))

/-- Does steps one after the other; a step that fails does not stop the next ones. -/
def steps (s : Session) : List Step → List (Except StepFault Answer) × Session
  | [] => ([], s)
  | x :: xs =>
    let (a, s) := s.step x
    let (as, s) := s.steps xs
    (a :: as, s)

end Session

end RecordGen

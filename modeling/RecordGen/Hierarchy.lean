import RecordGen.Schema.Fault
import RecordGen.Schema.Graph

/-!
The order of classes by ancestry.

Every listed class comes after its superclass, and classes keep their declaration order where
ancestry allows it. On the way the links of the graph are checked: a class belongs to a declared
module, its superclass is listed, is a module exactly if the class is one, and is not final, and no
class is its own ancestor.
-/

namespace RecordGen.ClassGraph

variable (g : ClassGraph)

/-- The module of a class is declared, and a module is the one its own name denotes. -/
def checkEnclosing (c : ClassId) : Except SchemaFault Unit :=
  let fault := SchemaFault.undeclaredModule (g.fullName c) (g.decl c).moduleName
  match g.enclosing? c with
  | none => .error fault
  | some m => if (g.decl c).isModule ∧ m ≠ c then .error fault else .ok ()

def checkExtension (c : ClassId) : Except SchemaFault Unit :=
  match (g.decl c).superclass with
  | none => .ok ()
  | some s =>
    let name := g.fullName c
    if s ∉ g.classes then .error (.undeclaredSuperclass name (g.fullName s))
    else if (g.decl s).isModule ≠ (g.decl c).isModule then
      .error (.mixedExtension (g.decl c).isModule name (g.fullName s))
    else if (g.decl s).kind = .final then .error (.finalSuperclass name (g.fullName s))
    else .ok ()

/-- Walks from a class up to the first ancestor that is already placed, checking each class on the
way. `path` holds the classes passed, topmost first. Every superclass passed is listed, so a walk
that passes no class twice has at most as many steps as there are listed classes. -/
def climb (placed : List ClassId) :
    Nat → List ClassId → Option ClassId → Except SchemaFault (List ClassId)
  | 0, path, _ => .ok path
  | _, path, none => .ok path
  | steps + 1, path, some c =>
    if c ∈ placed then .ok path
    else if c ∈ path then
      let cycle := path.reverse.dropWhile (· ≠ c) ++ [c]
      .error (.cyclicAncestry (cycle.map g.fullName))
    else do
      g.checkEnclosing c
      g.checkExtension c
      climb placed steps (c :: path) (g.decl c).superclass

/-- Places a class after those placed before, its missing ancestors first. -/
def place (placed : List ClassId) (c : ClassId) : Except SchemaFault (List ClassId) :=
  (placed ++ ·) <$> g.climb placed (g.classes.length + 1) [] (some c)

/-- The listed classes, each after its ancestors. -/
def ancestryOrder : Except SchemaFault (List ClassId) :=
  g.classes.foldlM g.place []

/-- A reference without a class, or to a class that is not listed. -/
def isDangling (r : String × Option ClassId) : Bool :=
  match r.2 with
  | none => true
  | some t => t ∉ g.classes

/-- The references of a property's type all lead to listed classes. Of those that do not, an outer
one is reported before those among its arguments, and a later argument before an earlier one. -/
def checkProperty (c : ClassId) (p : Property) : Except SchemaFault Unit :=
  match p.type.referencesFromLast.find? g.isDangling with
  | some (name, _) => .error (.undeclaredType (g.fullName c) p.name name)
  | none => .ok ()

def checkReferences : Except SchemaFault Unit :=
  g.classes.forM fun c => (g.decl c).properties.forM (g.checkProperty c)

/-- The topmost class of a chain. -/
def root (c : ClassId) : ClassId :=
  (g.ancestors c).getLast?.getD c

/-- The inheritance trees of an order: the classes that share a root, each tree in the given order,
the trees by their first class. -/
def trees (order : List ClassId) : List (List ClassId) :=
  (order.map g.root).eraseDups.map fun r => order.filter fun c => g.root c == r

end RecordGen.ClassGraph

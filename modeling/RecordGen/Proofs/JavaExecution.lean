import RecordGen.Proofs.Members
import RecordGen.Target.JavaTree

/-! # Running generated methods

The statements of generated methods are run on a heap of objects. A body reads names, fields and
accessors, calls methods, assigns fields and makes objects; what it calls runs one level deeper. -/

namespace RecordGen.Java

variable {α : Type}

/-! ## Objects -/

/-- What an expression evaluates to, where `α` holds the values of components. -/
inductive Value (α : Type) where
  | plain (x : α)
  /-- The object at a place of the heap. -/
  | object (place : Nat)
  /-- A function that assigns fields of the object it is given, one after the other. -/
  | setter (assignments : List (String × α))
  | null

/-- An object of a class. -/
structure Object (α : Type) where
  className : String
  fields : List (String × Value α)

/-- The objects made so far, each at its place. -/
abbrev Heap (α : Type) := List (Object α)

def readField (h : Heap α) (name : String) : Value α → Option (Value α)
  | .object place => do Table.findEntry name (← h[place]?).fields
  | _ => none

/-- A field can be assigned if the object has it. -/
def writeField (h : Heap α) (name : String) (x : Value α) : Value α → Option (Heap α)
  | .object place => do
    let o ← h[place]?
    let _ ← Table.findEntry name o.fields
    return h.set place { o with fields := Table.insertEntry name x o.fields }
  | _ => none

/-! ## Bodies -/

/-- A call of a method of a value, or of a constructor of a class. -/
inductive Call (α : Type) where
  | method (receiver : Value α) (name : String) (arguments : List (Value α))
  | construct (type : String) (arguments : List (Value α))

/-- What a call gives and the heap it leaves behind. -/
abbrev Calls (α : Type) := Call α → Heap α → Option (Value α × Heap α)

/-- The names that a body can use besides the fields of its own object: that object, parameters and
local variables, the latest first. -/
abbrev Scope (α : Type) := List (String × Value α)

def thisName : String := "this"

/-- A simple name is a name of the scope or else a field of the body's own object. -/
def readName (h : Heap α) (scope : Scope α) (name : String) : Option (Value α) :=
  match Table.findEntry name scope with
  | some v => some v
  | none => (Table.findEntry thisName scope).bind (readField h name)

mutual

def Expr.eval (calls : Calls α) (scope : Scope α) (h : Heap α) :
    Expr → Option (Value α × Heap α)
  | .name n => (readName h scope n).map (·, h)
  | .field object member => do
    let (v, h) ← object.eval calls scope h
    return (← readField h member v, h)
  | .call object method arguments => do
    let (receiver, h) ← object.eval calls scope h
    let (vs, h) ← evalAll calls scope h arguments
    calls (.method receiver method vs) h
  | .construct type arguments => do
    let (vs, h) ← evalAll calls scope h arguments
    calls (.construct type vs) h

def evalAll (calls : Calls α) (scope : Scope α) (h : Heap α) :
    List Expr → Option (List (Value α) × Heap α)
  | [] => some ([], h)
  | e :: es => do
    let (v, h) ← e.eval calls scope h
    let (vs, h) ← evalAll calls scope h es
    return (v :: vs, h)

end

/-- Runs a body up to the statement that gives its result. -/
def runBody (calls : Calls α) (scope : Scope α) (h : Heap α) :
    List Statement → Option (Value α × Heap α)
  | [] => some (.null, h)
  | .declare name value :: rest => do
    let (v, h) ← value.eval calls scope h
    runBody calls ((name, v) :: scope) h rest
  | .evaluate e :: rest => do
    let (_, h) ← e.eval calls scope h
    runBody calls scope h rest
  | .assign (.field object member) value :: rest => do
    let (target, h) ← object.eval calls scope h
    let (v, h) ← value.eval calls scope h
    runBody calls scope (← writeField h member v target) rest
  | .give e :: _ => e.eval calls scope h
  | _ => none

/-! ## Classes -/

/-- The class that a name denotes in a declaration: a nested one or the declaration itself. -/
def Declaration.visible? (d : Declaration) (name : String) : Option Declaration :=
  match d.nested.find? (·.head.name == name) with
  | some inner => some inner
  | none => if d.head.name = name then some d else none

def scopeOf (this : Value α) (parameters : List Parameter) (arguments : List (Value α)) : Scope α :=
  (thisName, this) :: (parameters.map (·.name)).zip arguments

/-- A record is made of its components. An object of a class starts with fields that are null, and
its constructor fills them. -/
def construct (calls : Calls α) (d : Declaration) (arguments : List (Value α)) (h : Heap α) :
    Option (Value α × Heap α) :=
  let this := Value.object h.length
  match d.shape with
  | .interfaceShape _ => none
  | .recordShape components _ =>
    if components.length = arguments.length then
      some (this, h ++ [⟨d.head.name, (components.map (·.name)).zip arguments⟩])
    else none
  | .classShape fields constructors => do
    let c ← constructors.find? (·.parameters.length == arguments.length)
    let (_, h) ← runBody calls (scopeOf this c.parameters arguments)
      (h ++ [⟨d.head.name, fields.map fun f => (f.name, .null)⟩]) c.body
    return (this, h)

/-- Runs the declared method with the name and as many parameters. Besides those, a record has an
accessor for every component. -/
def callMethod (calls : Calls α) (d : Declaration) (this : Value α) (name : String)
    (arguments : List (Value α)) (h : Heap α) : Option (Value α × Heap α) :=
  match d.head.methods.find? fun m =>
      m.name == name && m.parameters.length == arguments.length with
  | some m => do runBody calls (scopeOf this m.parameters arguments) h (← m.body)
  | none =>
    match d.shape, arguments with
    | .recordShape components _, [] =>
      if name ∈ components.map (·.name) then (readField h name this).map (·, h) else none
    | _, _ => none

/-- The one method of a function. -/
def acceptName : String := "accept"

/-- Assigns fields of an object, one after the other. -/
def assignAll (h : Heap α) (object : Value α) (assignments : List (String × α)) :
    Option (Heap α) :=
  assignments.foldlM (fun h e => writeField h e.1 (.plain e.2) object) h

/-- Calls in the scope of a declaration, nested at most so deep. -/
def callsAt (d : Declaration) : Nat → Calls α
  | 0, _, _ => none
  | depth + 1, .construct type arguments, h => do
    construct (callsAt d depth) (← d.visible? type) arguments h
  | depth + 1, .method (.object place) name arguments, h => do
    let type := (← h[place]?).className
    callMethod (callsAt d depth) (← d.visible? type) (.object place) name arguments h
  | _ + 1, .method (.setter assignments) name [object], h =>
    if name = acceptName then (assignAll h object assignments).map (.null, ·) else none
  | _, _, _ => none

/-! ## Reading and assigning fields -/

/-- An object of a class whose fields are given by name. -/
def objectOf (className : String) (names : List String) (f : String → Value α) : Object α :=
  ⟨className, names.map fun n => (n, f n)⟩

section

variable {h : Heap α} {place : Nat} {className : String} {names : List String}
  {f : String → Value α} {n : String}

theorem readField_objectOf (hobject : h[place]? = some (objectOf className names f))
    (hn : n ∈ names) : readField h n (.object place) = some (f n) := by
  simp [readField, hobject, objectOf, Table.findEntry_map hn]

theorem writeField_objectOf (hobject : h[place]? = some (objectOf className names f))
    (hnodup : names.Nodup) (hn : n ∈ names) (x : Value α) : writeField h n x (.object place) =
      some (h.set place (objectOf className names (Function.update f n x))) := by
  simp [writeField, hobject, objectOf, Table.findEntry_map hn, Table.insertEntry_map hnodup hn]

/-- The object made last is assigned in place. -/
theorem writeField_last (h : Heap α) (hnodup : names.Nodup) (hn : n ∈ names)
    (f : String → Value α) (x : Value α) :
    writeField (h ++ [objectOf className names f]) n x (.object h.length) =
      some (h ++ [objectOf className names (Function.update f n x)]) := by
  have hobject : (h ++ [objectOf className names f])[h.length]? =
      some (objectOf className names f) := by simp
  rw [writeField_objectOf hobject hnodup hn]
  simp

end

end RecordGen.Java

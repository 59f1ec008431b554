import RecordGen.Analysis
import RecordGen.Target.Fault

/-!
What every target language needs from a result: the type a reference leads to, and the names of the
members of a type.

Member names are claimed along the whole chain of a class, so a record and the interfaces it
implements name a property they share alike.
-/

namespace RecordGen

/-- The name itself if it is free. A taken name gets an underscore and is made legal again by
`escape`, as often as it takes; every round makes the name longer, so there are no more rounds than
taken names. -/
def freeMember (escape : String → String) (taken : List String) : Nat → String → String
  | 0, name => name
  | steps + 1, name =>
    if name ∈ taken then freeMember escape taken steps (escape (name ++ "_")) else name

/-- The member names of properties, claimed from the root of the chain down. -/
def allocateMembers (escape : String → String) (taken : List String) :
    List Declared → List (String × String)
  | [] => []
  | d :: ds =>
    let name := freeMember escape taken (taken.length + 1) (escape d.property.name)
    (d.property.name, name) :: allocateMembers escape (name :: taken) ds

namespace Analysis

/-- The type a reference leads to: the class's interface, or its record if it has none. -/
def counterpart (a : Analysis) (name : String) (target : Option ClassId) :
    Except TargetFault TypePath :=
  match (target.bind a.resolution?).bind (·.counterpart?) with
  | some t => .ok t
  | none => .error (.noCounterpart name)

/-- The member names of a generated type: those of all the properties of its class's chain. -/
def memberTable (a : Analysis) (escape : String → String) (h : TypeHead) :
    Except TargetFault (List (String × String)) :=
  match a.resolution? h.source with
  | some r => .ok (allocateMembers escape [] r.properties)
  | none => .error (.unresolved h.name)

end Analysis

/-- The member name of one property. -/
def memberOf (members : List (String × String)) (property : String) :
    Except TargetFault String :=
  match Table.findEntry property members with
  | some name => .ok name
  | none => .error (.unnamedMember property)

/-- The entries of a doc block under their member names. -/
def renameEntries (members : List (String × String)) (d : Documentation) :
    Except TargetFault Documentation := do
  let entries ← d.entries.mapM fun e => return (← memberOf members e.1, e.2)
  return { d with entries }

end RecordGen

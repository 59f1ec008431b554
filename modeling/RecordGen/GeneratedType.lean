import RecordGen.Documentation
import RecordGen.Resolution

/-!
Generated types: what an interface or a record contains and how it relates to others, whatever
language it is written in.
-/

namespace RecordGen

/-- What every generated type has: the class it comes from, its name and container, and its docs. -/
structure TypeHead where
  source : ClassId
  name : String
  container : String
  moduleName : String
  /-- The type is the container of its module. -/
  isModuleType : Bool
  doc : Documentation
deriving Inhabited, Repr

def TypeHead.path (h : TypeHead) : TypePath :=
  ⟨h.name, h.container⟩

/-- A property an interface promises. -/
structure Accessor where
  name : String
  type : PropertyType
  nullable : Bool
  doc : Option String
deriving Inhabited, Repr

structure GeneratedInterface extends TypeHead where
  /-- The interface it extends. -/
  parent : Option TypePath
  accessors : List Accessor
deriving Inhabited, Repr

/-- A property a record stores, with the qualified name of the class that declares it. -/
structure Component where
  name : String
  type : PropertyType
  nullable : Bool
  doc : Option String
  declaredIn : String
deriving Inhabited, Repr

/-- The copy-with protocol of a record: the fields of its staging type, the staging type's name seen
from outside, and the annotation of what cannot be null. -/
structure CopyWith where
  fields : List Component
  stagingName : String
  marker : String
deriving Inhabited, Repr

structure GeneratedRecord extends TypeHead where
  components : List Component
  implements : List TypePath
  /-- Qualified names of the annotations put on the record. -/
  decorations : List String
  copyWith : Option CopyWith
deriving Inhabited, Repr

/-- The contract all records share when they have the copy-with protocol. -/
structure CopyContract where
  marker : String
deriving Inhabited, Repr

/-! The fixed names of the copy-with protocol. -/

namespace CopyProtocol

def contract : String := "Wither"

def recordParameter : String := "R"

def stagingParameter : String := "S"

def recordBound : String := "Record"

def method : String := "with"

def setter : String := "setter"

def staging : String := "Memento"

def finalizer : String := "build"

/-- Who may call the staging type's constructor and its finalizer. -/
def stagingAccess : String := "private"

end CopyProtocol

inductive GeneratedType where
  | interface (d : GeneratedInterface)
  | record (d : GeneratedRecord)
deriving Inhabited, Repr

def GeneratedType.head : GeneratedType → TypeHead
  | interface d => d.toTypeHead
  | record d => d.toTypeHead

end RecordGen

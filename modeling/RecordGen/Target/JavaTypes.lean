import RecordGen.Target.Members
import RecordGen.Target.JavaTree

/-!
Property types in Java.

A scalar is boxed where it may be null or stands as a type argument. Collections are imported.
-/

namespace RecordGen.Java

def primitive? : String → Option Ty
  | "Boolean" => some (.scalar .boolean)
  | "Int" => some (.scalar .long)
  | "Float" => some (.scalar .double)
  | "Number" => some (.platform "Number")
  | "String" => some (.platform "String")
  | "Any" => some (.platform "Object")
  | _ => none

/-- The interface that stands for a collection. -/
def collection? : String → Option String
  | "List" => some "java.util.List"
  | "Set" => some "java.util.Set"
  | "Map" => some "java.util.Map"
  | _ => none

/-- The type for values that may be null. -/
def Ty.nullable : Ty → Ty
  | .scalar s => .boxed s
  | t => t

mutual

/-- The Java type of a property type; `nullable` says that the value may be null. -/
def translate (a : Analysis) : PropertyType → Bool → Except TargetFault Ty
  | .node .optional _ [] _, _ => .error .bareOptional
  | .node .optional _ (inner :: _) _, _ => translate a inner true
  | .node .primitive name _ _, nullable =>
    match primitive? name with
    | some t => .ok (if nullable then t.nullable else t)
    | none => .error (.unknownPrimitive name)
  | .node .collection name arguments _, _ =>
    match collection? name with
    | some qualified => .imported qualified <$> translateArguments a arguments
    | none => .error (.unknownCollection name)
  | .node .reference name _ target, _ => .generated <$> a.counterpart name target

def translateArguments (a : Analysis) : List PropertyType → Except TargetFault (List Ty)
  | [] => .ok []
  | t :: ts => do
    let t ← translate a t true
    return t :: (← translateArguments a ts)

end

mutual

/-- The collections met when a type is translated from left to right, up to the first part that has
no counterpart. -/
def collectionsMet (a : Analysis) : PropertyType → List String
  | .node .primitive _ _ _ => []
  | .node .reference _ _ _ => []
  | .node .optional _ [] _ => []
  | .node .optional _ (inner :: _) _ => collectionsMet a inner
  | .node .collection name arguments _ =>
    match collection? name with
    | some qualified => qualified :: argumentCollectionsMet a arguments
    | none => []

def argumentCollectionsMet (a : Analysis) : List PropertyType → List String
  | [] => []
  | t :: ts =>
    match translate a t true with
    | .ok _ => collectionsMet a t ++ argumentCollectionsMet a ts
    | .error _ => collectionsMet a t

end

end RecordGen.Java

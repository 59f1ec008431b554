import RecordGen.Proofs.Backends
import RecordGen.Proofs.LongNumerals
import RecordGen.Proofs.PythonExecution

/-! # Generated modules are closed

What decorators, bases and annotations of a module are written with is a builtin, a name that the
prelude of the module binds, or a generated class. Every generated type is one class of the module
under a name that no other class and nothing in the prelude has, and the types of its fields refer
to the classes of the types that the properties mention. A reference shows the name of the class,
unless the name reads as a number. -/

namespace RecordGen.Python

open Fallible ClassGraph

/-! ## Words -/

mutual

/-- The names that are looked up for an expression. -/
def Expr.identifiers : Expr → List String
  | .name n => [n]
  | .number _ => []
  | .truth _ => []
  | .text _ => []
  | .member object _ => object.identifiers
  | .call function arguments named =>
    function.identifiers ++ argumentIdentifiers arguments ++ namedIdentifiers named
  | .subscript object parts => object.identifiers ++ argumentIdentifiers parts
  | .list items => argumentIdentifiers items

def argumentIdentifiers : List Expr → List String
  | [] => []
  | e :: es => e.identifiers ++ argumentIdentifiers es

def namedIdentifiers : List (String × Expr) → List String
  | [] => []
  | (_, e) :: rest => e.identifiers ++ namedIdentifiers rest

end

mutual

/-- The generated classes that a type mentions, from the first to the last. -/
def Ty.references : Ty → List String
  | .builtin _ => []
  | .any => []
  | .collection _ arguments => argumentReferences arguments
  | .generated name => [name]
  | .optional inner => inner.references

def argumentReferences : List Ty → List String
  | [] => []
  | t :: ts => t.references ++ argumentReferences ts

end

/-- The names that are looked up for a type. -/
def Ty.identifiers (t : Ty) : List String :=
  t.outsideNames ++ t.references.flatMap fun n => (Expr.reference n).identifiers

mutual

/-- The annotations of the functions in a statement: those of their parameters and results. -/
def Statement.signatures : Statement → List Expr
  | .function _ _ parameters result body =>
    parameters.filterMap (·.type) ++ result :: bodySignatures body
  | .classDefinition _ _ _ body => bodySignatures body
  | _ => []

def bodySignatures : List Statement → List Expr
  | [] => []
  | s :: ss => s.signatures ++ bodySignatures ss

end

mutual

/-- The names that are looked up for the decorators, bases and annotations in a statement. -/
def Statement.identifiers : Statement → List String
  | .field _ type => type.identifiers
  | .function decorators _ parameters result body =>
    argumentIdentifiers decorators ++ argumentIdentifiers (parameters.filterMap (·.type)) ++
      result.identifiers ++ bodyIdentifiers body
  | .classDefinition decorators _ bases body =>
    argumentIdentifiers decorators ++ argumentIdentifiers bases ++ bodyIdentifiers body
  | _ => []

def bodyIdentifiers : List Statement → List String
  | [] => []
  | s :: ss => s.identifiers ++ bodyIdentifiers ss

end

/-- Words of the language that stand where names can stand. -/
def constants : List String :=
  ["None", "True"]

/-- The names that the prelude of a module binds: those that it imports, and those of the copy-with
contract. -/
def preludeNames (a : Analysis) (body : List Statement) : List String :=
  "annotations" :: "dataclass" :: typingImports a body ++
    if a.contract.isSome then contractNames else []

/-- The statements in a class. -/
def Statement.body : Statement → List Statement
  | .classDefinition _ _ _ body => body
  | _ => []

/-- The types of the fields that statements declare. -/
def fieldTypes (body : List Statement) : List Ty :=
  body.flatMap fun
    | .field _ type => [type]
    | _ => []

/-- The bodies of the classes that statements define. -/
def classBodies (body : List Statement) : List (List Statement) :=
  body.flatMap fun
    | .classDefinition _ _ _ body => [body]
    | _ => []

@[simp] theorem argumentIdentifiers_eq (es : List Expr) :
    argumentIdentifiers es = es.flatMap Expr.identifiers := by
  induction es with
  | nil => rfl
  | cons e es ih => rw [argumentIdentifiers, ih, List.flatMap_cons]

@[simp] theorem bodySignatures_eq (body : List Statement) :
    bodySignatures body = body.flatMap Statement.signatures := by
  induction body with
  | nil => rfl
  | cons s ss ih => rw [bodySignatures, ih, List.flatMap_cons]

@[simp] theorem bodyIdentifiers_eq (body : List Statement) :
    bodyIdentifiers body = body.flatMap Statement.identifiers := by
  induction body with
  | nil => rfl
  | cons s ss ih => rw [bodyIdentifiers, ih, List.flatMap_cons]

theorem references_nullable (t : Ty) : t.nullable.references = t.references := by
  cases t <;> rfl

/-- A reference looks up the class of the name, if it looks up anything. -/
theorem reference_identifiers (n : String) :
    ∀ m ∈ (Expr.reference n).identifiers, m = referredName n := by
  rw [Expr.reference]
  cases Number.ofText? (withoutMargins n.toList) with
  | some k => simp [Expr.identifiers]
  | none =>
      simp only
      split
      · simp [Expr.identifiers]
      · split <;> simp [Expr.identifiers]

/-! ## Types of properties -/

/-- The types of the properties that a generated type declares, in their order. -/
def memberTypes : GeneratedType → List PropertyType
  | .interface d => d.accessors.map (·.type)
  | .record d => d.components.map (·.type)

section

variable {config : Config} {g : ClassGraph} {a : Analysis} {names : Table TypePath String}

/-- The class of a reference: that of the interface it means, or of the record if there is none. -/
def targetName? (a : Analysis) (names : Table TypePath String) (target : Option ClassId) :
    Option String :=
  ((target.bind a.resolution?).bind fun r => r.interface <|> r.record).bind names.find?

/-- A type mentions the classes that a property type refers to, and no other class. -/
def Mentions (a : Analysis) (names : Table TypePath String) (t : PropertyType) (ty : Ty) : Prop :=
  t.references.map (fun r => targetName? a names r.2) = ty.references.map some

theorem Mentions.exists_path {t : PropertyType} {ty : Ty} (h : Mentions a names t ty) {n : String}
    (hn : n ∈ ty.references) : ∃ u, names.find? u = some n := by
  have hmem : some n ∈ t.references.map fun r => targetName? a names r.2 :=
    h ▸ List.mem_map_of_mem hn
  obtain ⟨r, -, htarget⟩ := List.mem_map.mp hmem
  obtain ⟨u, -, hu⟩ := Option.bind_eq_some_iff.mp htarget
  exact ⟨u, hu⟩

theorem argumentReferences_mentions {ts : List PropertyType} {tys : List Ty}
    (hts : ∀ t ∈ ts, ∀ {ty}, translateInner a names t = .ok ty → Mentions a names t ty)
    (h : List.Forall₂ (fun t ty => translateInner a names t = .ok ty) ts tys) :
    (PropertyType.argumentReferences ts).map (fun r => targetName? a names r.2) =
      (argumentReferences tys).map some := by
  induction h with
  | nil => rfl
  | cons htranslate _ ih =>
      obtain ⟨ht, hts⟩ := List.forall_mem_cons.mp hts
      have hmentions : Mentions a names _ _ := ht htranslate
      rw [PropertyType.argumentReferences, argumentReferences, List.map_append, List.map_append,
        hmentions, ih hts]

theorem primitive?_references {name : String} {t : Ty} (h : primitive? name = some t) :
    t.references = [] := by
  unfold primitive? at h
  split at h <;> cases h <;> rfl

theorem targetName?_of_counterpart {name n : String} {target : Option ClassId} {t : TypePath}
    (ht : a.counterpart name target = .ok t) (hn : classNameOf names t = .ok n) :
    targetName? a names target = some n := by
  have hcounterpart : ((target.bind a.resolution?).bind fun r => r.interface <|> r.record) =
      some t := Analysis.counterpart_eq_ok.mp ht
  rw [targetName?, hcounterpart, Option.bind_some, classNameOf_eq_ok.mp hn]

theorem translateInner_mentions {ref : String → Option ClassId → Prop} {t : PropertyType}
    (ht : t.Formed ref) :
    ∀ {ty : Ty}, translateInner a names t = .ok ty → Mentions a names t ty := by
  induction ht with
  | primitive hname =>
      intro ty h
      obtain ⟨t, ht⟩ := exists_primitive hname
      rw [translateInner, ht] at h
      obtain rfl := Except.ok.inj h
      rw [Mentions, primitive?_references ht]
      rfl
  | reference _ =>
      intro ty h
      rw [translateInner] at h
      obtain ⟨t, hcounterpart, h⟩ := bind_eq_ok.mp h
      obtain ⟨n, hn, h⟩ := bind_eq_ok.mp h
      obtain rfl := Except.ok.inj h
      simp [Mentions, PropertyType.references, PropertyType.argumentReferences, Ty.references,
        targetName?_of_counterpart hcounterpart hn]
  | @collection name arguments _ _ ih =>
      intro ty h
      rw [translateInner, translateArguments_eq] at h
      obtain ⟨types, htypes, h⟩ := bind_eq_ok.mp h
      obtain ⟨n, rfl⟩ : ∃ n, ty = .collection n types := by
        split at h
        · exact ⟨_, (Except.ok.inj h).symm⟩
        · cases h
      rw [Mentions, PropertyType.references, Ty.references]
      exact argumentReferences_mentions ih (mapM_eq_ok.mp htypes)
  | optional _ ih =>
      intro ty h
      rw [translateInner] at h
      obtain ⟨inner, hinner, rfl⟩ := map_eq_ok.mp h
      rw [Mentions, references_nullable, ← ih hinner]
      simp [PropertyType.references, PropertyType.argumentReferences]

theorem translate_mentions {ref : String → Option ClassId → Prop} {t : PropertyType}
    (ht : t.Formed ref) {nullable : Bool} {ty : Ty} (h : translate a names t nullable = .ok ty) :
    Mentions a names t ty := by
  obtain ⟨inner, hinner, h⟩ := bind_eq_ok.mp h
  obtain rfl := Except.ok.inj h
  have hmentions := translateInner_mentions ht hinner
  cases nullable with
  | false => exact hmentions
  | true => exact hmentions.trans (congrArg (List.map some) (references_nullable inner).symm)

/-! ## Words of types -/

/-- What a type is written with besides generated classes is a builtin, or `Any` if it says so. -/
def Ty.Known (ty : Ty) : Prop :=
  ∀ n ∈ ty.outsideNames, n ∈ builtinNames ∨ n = "Any" ∧ ty.usesAny = true

theorem arguments_known {tys : List Ty} (h : ∀ ty ∈ tys, ty.Known) :
    ∀ n ∈ argumentOutsideNames tys,
      n ∈ builtinNames ∨ n = "Any" ∧ Ty.argumentsUseAny tys = true := by
  induction tys with
  | nil => simp [argumentOutsideNames]
  | cons ty tys ih =>
      obtain ⟨hty, htys⟩ := List.forall_mem_cons.mp h
      rw [argumentOutsideNames, Ty.argumentsUseAny]
      refine List.forall_mem_append.mpr ⟨fun n hn => ?_, fun n hn => ?_⟩
      · exact (hty n hn).imp_right fun hany => by simp [hany]
      · exact (ih htys n hn).imp_right fun hany => by simp [hany]

theorem primitive?_known {name : String} {t : Ty} (h : primitive? name = some t) : t.Known := by
  unfold primitive? at h
  split at h <;> cases h <;> simp [Ty.Known, Ty.outsideNames, Ty.usesAny, builtinNames]

theorem collection?_known {name c : String} (h : collection? name = some c) :
    c ∈ builtinNames := by
  unfold collection? at h
  split at h <;> cases h <;> decide

theorem nullable_known {ty : Ty} (h : ty.Known) : ty.nullable.Known := by
  rw [Ty.Known, outsideNames_nullable, Ty.usesAny_nullable]
  exact h

theorem translateInner_known {ref : String → Option ClassId → Prop} {t : PropertyType}
    (ht : t.Formed ref) : ∀ {ty : Ty}, translateInner a names t = .ok ty → ty.Known := by
  induction ht with
  | primitive hname =>
      intro ty h
      obtain ⟨t, ht⟩ := exists_primitive hname
      rw [translateInner, ht] at h
      exact Except.ok.inj h ▸ primitive?_known ht
  | reference _ =>
      intro ty h
      rw [translateInner] at h
      obtain ⟨_, _, h⟩ := bind_eq_ok.mp h
      obtain ⟨_, _, h⟩ := bind_eq_ok.mp h
      obtain rfl := Except.ok.inj h
      simp [Ty.Known, Ty.outsideNames]
  | collection harity _ ih =>
      intro ty h
      obtain ⟨c, hc⟩ := exists_collection harity
      rw [translateInner, translateArguments_eq, hc] at h
      obtain ⟨types, htypes, h⟩ := bind_eq_ok.mp h
      obtain rfl := Except.ok.inj h
      rw [Ty.Known, Ty.outsideNames, Ty.usesAny]
      refine List.forall_mem_cons.mpr
        ⟨Or.inl (collection?_known hc), arguments_known fun ty hty => ?_⟩
      obtain ⟨t, ht, htranslate⟩ := (mapM_eq_ok.mp htypes).exists_left ty hty
      exact ih t ht htranslate
  | optional _ ih =>
      intro ty h
      rw [translateInner] at h
      obtain ⟨inner, hinner, rfl⟩ := map_eq_ok.mp h
      exact nullable_known (ih hinner)

theorem translate_known {ref : String → Option ClassId → Prop} {t : PropertyType}
    (ht : t.Formed ref) {nullable : Bool} {ty : Ty} (h : translate a names t nullable = .ok ty) :
    ty.Known := by
  obtain ⟨inner, hinner, h⟩ := bind_eq_ok.mp h
  obtain rfl := Except.ok.inj h
  cases nullable with
  | false => exact translateInner_known ht hinner
  | true => exact nullable_known (translateInner_known ht hinner)

/-! ## What a class is made of -/

theorem fieldTypes_append (body body' : List Statement) :
    fieldTypes (body ++ body') = fieldTypes body ++ fieldTypes body' :=
  List.flatMap_append

theorem classBodies_append (body body' : List Statement) :
    classBodies (body ++ body') = classBodies body ++ classBodies body' :=
  List.flatMap_append

section

variable {doc : List Statement} {fields : List (String × Ty)}

theorem flatMap_fields {β : Type} {f : Statement → List β} (hf : ∀ text, f (.doc text) = [])
    (hdoc : ∀ s ∈ doc, ∃ text, s = .doc text) :
    (doc ++ fields.map fun x => Statement.field x.1 x.2).flatMap f =
      fields.flatMap fun x => f (.field x.1 x.2) := by
  have hnone : doc.flatMap f = [] := List.flatMap_eq_nil_iff.mpr fun s hs => by
    obtain ⟨text, rfl⟩ := hdoc s hs
    exact hf text
  rw [List.flatMap_append, hnone, List.nil_append, List.flatMap_map]

variable (hdoc : ∀ s ∈ doc, ∃ text, s = .doc text)

include hdoc

theorem fieldTypes_fields :
    fieldTypes (doc ++ fields.map fun f => .field f.1 f.2) = fields.map (·.2) := by
  rw [fieldTypes, flatMap_fields (fun _ => rfl) hdoc]
  exact List.flatMap_pure_eq_map _ _

theorem classBodies_fields : classBodies (doc ++ fields.map fun f => .field f.1 f.2) = [] := by
  rw [classBodies, flatMap_fields (fun _ => rfl) hdoc]
  exact List.flatMap_eq_nil_iff.mpr fun _ _ => rfl

theorem signatures_fields :
    (doc ++ fields.map fun f => Statement.field f.1 f.2).flatMap Statement.signatures = [] := by
  rw [flatMap_fields (fun _ => rfl) hdoc]
  exact List.flatMap_eq_nil_iff.mpr fun _ _ => rfl

theorem identifiers_fields :
    (doc ++ fields.map fun f => Statement.field f.1 f.2).flatMap Statement.identifiers =
      (fields.map (·.2)).flatMap Ty.identifiers := by
  rw [flatMap_fields (fun _ => rfl) hdoc, List.flatMap_map]
  rfl

end

/-- The annotations of the copy-with protocol of a class. -/
def ownSignatures (name : String) : List Expr :=
  [.reference name, stagingExpr name, setterType (stagingExpr name)]

/-- What a class is written with, whatever the types of its fields are. -/
def IsOwnWord (names : Table TypePath String) (d : GeneratedType) (name n : String) : Prop :=
  n ∈ constants ∨ n ∈ "dataclass" :: "classmethod" :: fixedTyping d ∨
    copies d = true ∧ n ∈ ["Callable", CopyProtocol.contract] ∨
    (∃ t, names.find? t = some n) ∨ n ∈ (Expr.reference name).identifiers

/-- The class of a type: its fields have the types of the members, its staging class repeats them,
and the functions of the copy-with protocol mention the class and its staging class. -/
structure Composed (a : Analysis) (names : Table TypePath String) (d : GeneratedType)
    (name : String) (s : Statement) : Prop where
  types : List.Forall₂ (fun t ty => ∃ nullable, translate a names t nullable = .ok ty)
    (memberTypes d) (fieldTypes s.body)
  staged : ∀ body ∈ classBodies s.body, fieldTypes body = fieldTypes s.body
  signatures : ∀ e ∈ s.signatures, e ∈ ownSignatures name
  identifiers : ∀ n ∈ s.identifiers,
    IsOwnWord names d name n ∨ n ∈ (fieldTypes s.body).flatMap Ty.identifiers

/-- A class declares its fields first, and what follows them declares no field. -/
theorem composed_of_extra {d : GeneratedType} {name : String} {decorators bases : List Expr}
    {doc extra : List Statement} {fields : List (String × Ty)}
    (hdoc : ∀ s ∈ doc, ∃ text, s = .doc text)
    (htypes : List.Forall₂ (fun t ty => ∃ nullable, translate a names t nullable = .ok ty)
      (memberTypes d) (fields.map (·.2)))
    (hnone : fieldTypes extra = [])
    (hstaged : ∀ body ∈ classBodies extra, fieldTypes body = fields.map (·.2))
    (hsignatures : ∀ e ∈ extra.flatMap Statement.signatures, e ∈ ownSignatures name)
    (hhead : ∀ n ∈ (decorators ++ bases).flatMap Expr.identifiers, IsOwnWord names d name n)
    (hextra : ∀ n ∈ extra.flatMap Statement.identifiers,
      IsOwnWord names d name n ∨ n ∈ (fields.map (·.2)).flatMap Ty.identifiers) :
    Composed a names d name (.classDefinition decorators name bases
      (doc ++ fields.map (fun f => .field f.1 f.2) ++ extra)) := by
  have hfields : fieldTypes (doc ++ fields.map (fun f => .field f.1 f.2) ++ extra) =
      fields.map (·.2) := by
    rw [fieldTypes_append, fieldTypes_fields hdoc, hnone, List.append_nil]
  refine ⟨?_, ?_, ?_, ?_⟩
  · rwa [Statement.body, hfields]
  · rw [Statement.body, hfields, classBodies_append, classBodies_fields hdoc]
    exact hstaged
  · rw [Statement.signatures, bodySignatures_eq, List.flatMap_append, signatures_fields hdoc]
    exact hsignatures
  · rw [List.flatMap_append] at hhead
    rw [Statement.body, hfields, Statement.identifiers, argumentIdentifiers_eq,
      argumentIdentifiers_eq, bodyIdentifiers_eq, List.flatMap_append, identifiers_fields hdoc]
    refine List.forall_mem_append.mpr ⟨fun n hn => Or.inl (hhead n hn), ?_⟩
    exact List.forall_mem_append.mpr ⟨fun n hn => Or.inr hn, hextra⟩

/-- A class without the copy-with protocol has nothing after its fields. -/
theorem composed_plain {d : GeneratedType} {name : String} {decorators bases : List Expr}
    {doc : List Statement} {fields : List (String × Ty)} (hdoc : ∀ s ∈ doc, ∃ text, s = .doc text)
    (htypes : List.Forall₂ (fun t ty => ∃ nullable, translate a names t nullable = .ok ty)
      (memberTypes d) (fields.map (·.2)))
    (hhead : ∀ n ∈ (decorators ++ bases).flatMap Expr.identifiers, IsOwnWord names d name n) :
    Composed a names d name (.classDefinition decorators name bases
      (nonEmptyBody (doc ++ fields.map fun f => .field f.1 f.2))) := by
  obtain ⟨extra, hbody, hextra⟩ : ∃ extra,
      nonEmptyBody (doc ++ fields.map fun f => .field f.1 f.2) =
        doc ++ fields.map (fun f => .field f.1 f.2) ++ extra ∧ (extra = [] ∨ extra = [.pass]) := by
    rw [nonEmptyBody]
    split
    · rename_i hempty
      exact ⟨[.pass], by simp [List.isEmpty_iff.mp hempty], Or.inr rfl⟩
    · exact ⟨[], by simp, Or.inl rfl⟩
  rw [hbody]
  rcases hextra with rfl | rfl
  · exact composed_of_extra hdoc htypes rfl (by simp [classBodies]) (by simp) hhead (by simp)
  · exact composed_of_extra hdoc htypes rfl (by simp [classBodies])
      (by simp [Statement.signatures]) hhead (by simp [Statement.identifiers])

theorem bases_named {ts : List TypePath} {bases : List String}
    (h : ts.mapM (classNameOf names) = .ok bases) :
    ∀ n ∈ (bases.map Expr.name).flatMap Expr.identifiers, ∃ t, names.find? t = some n := by
  intro n hn
  rw [List.flatMap_map, List.mem_flatMap] at hn
  obtain ⟨base, hbase, hn⟩ := hn
  obtain ⟨t, -, ht⟩ := (mapM_eq_ok.mp h).exists_left base hbase
  rw [Expr.identifiers, List.mem_singleton] at hn
  exact ⟨t, hn ▸ classNameOf_eq_ok.mp ht⟩

theorem interfaceClass_composed {d : GeneratedInterface} {s : Statement} {name : String}
    (h : interfaceClass config a names d = .ok s) (hname : classNameOf names d.path = .ok name) :
    Composed a names (.interface d) name s := by
  obtain ⟨members, doc, _, fields, bases, -, hdoc, hfields, hname', hbases, rfl⟩ :=
    interfaceClass_spec h
  obtain rfl := Except.ok.inj (hname.symm.trans hname')
  refine composed_plain hdoc ?_ ?_
  · rw [memberTypes, List.forall₂_map_left_iff, List.forall₂_map_right_iff]
    exact hfields.imp fun m f hm => ⟨m.nullable, hm.2⟩
  · simp only [List.flatMap_append, List.forall_mem_append]
    refine ⟨?_, fun n hn => ?_, ?_⟩
    · simp [Expr.identifiers, IsOwnWord, fixedTyping]
    · exact Or.inr (Or.inr (Or.inr (Or.inl (bases_named hbases n hn))))
    · simp [Expr.identifiers, IsOwnWord, fixedTyping]

section

variable {doc : List Statement} (name : String) (fields : List (String × Ty))

theorem stagingClass_fieldTypes (hdoc : ∀ s ∈ doc, ∃ text, s = .doc text) :
    fieldTypes (stagingClass doc name fields).body = fields.map (·.2) := by
  rw [stagingClass, Statement.body, fieldTypes_append, fieldTypes_fields hdoc]
  simp [fieldTypes]

theorem stagingClass_signatures (hdoc : ∀ s ∈ doc, ∃ text, s = .doc text) :
    (stagingClass doc name fields).signatures =
      [.reference name, stagingExpr name, .reference name] := by
  rw [stagingClass, Statement.signatures, bodySignatures_eq, List.flatMap_append,
    signatures_fields hdoc]
  rfl

theorem stagingClass_identifiers (hdoc : ∀ s ∈ doc, ∃ text, s = .doc text) :
    ∀ n ∈ (stagingClass doc name fields).identifiers,
      n ∈ ["dataclass", "classmethod"] ∨ n ∈ (Expr.reference name).identifiers ∨
        n ∈ (fields.map (·.2)).flatMap Ty.identifiers := by
  intro n hn
  rw [stagingClass, Statement.identifiers, bodyIdentifiers_eq, List.flatMap_append,
    identifiers_fields hdoc, argumentIdentifiers_eq] at hn
  simp only [List.mem_append] at hn
  rcases hn with hn | hn | hn
  · simp [Expr.identifiers] at hn
    simp [hn]
  · exact Or.inr (Or.inr hn)
  · simp [Statement.identifiers, Expr.identifiers, stagingExpr] at hn
    rcases hn with rfl | hn
    · simp
    · exact Or.inr (Or.inl hn)

theorem withFunction_identifiers : ∀ n ∈ (withFunction name).identifiers,
    n ∈ ["Callable", "None"] ∨ n ∈ (Expr.reference name).identifiers := by
  intro n hn
  simp [withFunction, Statement.identifiers, Expr.identifiers, stagingExpr, setterType] at hn
  simp only [List.mem_cons, List.not_mem_nil, or_false]
  tauto

end

theorem recordClass_composed {d : GeneratedRecord} {s : Statement} {name : String}
    (h : recordClass config a names d = .ok s) (hname : classNameOf names d.path = .ok name) :
    Composed a names (.record d) name s := by
  obtain ⟨members, doc, _, fields, bases, -, hdoc, hfields, hname', hbases, hs⟩ :=
    recordClass_spec h
  obtain rfl := Except.ok.inj (hname.symm.trans hname')
  have htypes : List.Forall₂ (fun t ty => ∃ nullable, translate a names t nullable = .ok ty)
      (memberTypes (.record d)) (fields.map (·.2)) := by
    rw [memberTypes, List.forall₂_map_left_iff, List.forall₂_map_right_iff]
    exact hfields.imp fun c f hc => ⟨c.nullable, hc.2⟩
  have hdecorators : ∀ n ∈ [Expr.name "final", .call (.name "dataclass") []
      [("frozen", .name "True")]].flatMap Expr.identifiers,
        IsOwnWord names (.record d) name n := by
    simp [Expr.identifiers, namedIdentifiers, IsOwnWord, constants, fixedTyping]
  have hparents : ∀ n ∈ (bases.map Expr.name).flatMap Expr.identifiers,
      IsOwnWord names (.record d) name n := fun n hn =>
    Or.inr (Or.inr (Or.inr (Or.inl (bases_named hbases n hn))))
  cases hcopy : d.copyWith with
  | none =>
      rw [hcopy] at hs
      subst hs
      refine composed_plain hdoc htypes ?_
      rw [List.flatMap_append]
      exact List.forall_mem_append.mpr ⟨hdecorators, hparents⟩
  | some copy =>
      rw [hcopy] at hs
      obtain ⟨staging, hstaging, rfl⟩ := hs
      have hcopies : copies (.record d) = true := by simp [copies, hcopy]
      refine composed_of_extra hdoc htypes rfl ?_ ?_ ?_ ?_
      · intro body hbody
        obtain rfl : body = (stagingClass staging name fields).body := by
          simpa [classBodies, stagingClass, withFunction, Statement.body] using hbody
        exact stagingClass_fieldTypes name fields hstaging
      · simp [stagingClass_signatures name fields hstaging, withFunction, Statement.signatures,
          ownSignatures]
      · simp only [List.flatMap_append, List.forall_mem_append]
        refine ⟨hdecorators, hparents, ?_⟩
        simp [Expr.identifiers, IsOwnWord, hcopies]
      · simp only [List.flatMap_cons, List.flatMap_nil, List.append_nil, List.forall_mem_append]
        refine ⟨fun n hn => ?_, fun n hn => Or.inl ?_⟩
        · rcases stagingClass_identifiers name fields hstaging n hn with hn | hn | hn
          · exact Or.inl (Or.inr (Or.inl (List.mem_append_left _ hn)))
          · exact Or.inl (Or.inr (Or.inr (Or.inr (Or.inr hn))))
          · exact Or.inr hn
        · rcases withFunction_identifiers name n hn with hn | hn
          · rcases List.mem_pair.mp hn with rfl | rfl
            · simp [IsOwnWord, hcopies]
            · simp [IsOwnWord, constants]
          · exact Or.inr (Or.inr (Or.inr (Or.inr hn)))

theorem classDefinition_composed {d : GeneratedType} {s : Statement} {name : String}
    (h : classDefinition config a names d = .ok s)
    (hname : classNameOf names d.head.path = .ok name) : Composed a names d name s := by
  cases d with
  | interface d => exact interfaceClass_composed h hname
  | record d => exact recordClass_composed h hname

/-! ## Names of classes -/

theorem typingImports_subset (a : Analysis) (body : List Statement) :
    typingImports a body ⊆ moduleNames := by
  have hall : ["Any", "Callable", "Protocol", "TypeVar", "final", "runtime_checkable"] ⊆
      moduleNames := by decide
  exact List.Subset.trans (List.filter_sublist.map Prod.fst).subset hall

theorem preludeNames_subset (a : Analysis) (body : List Statement) : preludeNames a body ⊆
    moduleNames ++ if a.contract.isSome then contractNames else [] := by
  refine List.append_subset.mpr ⟨?_, List.subset_append_right _ _⟩
  simp only [List.cons_subset]
  exact ⟨by simp [moduleNames], by simp [moduleNames],
    List.Subset.trans (typingImports_subset a body) (List.subset_append_left _ _)⟩

theorem mem_paths_of_name (hnames : classNames a = .ok names) {t : TypePath} {n : String}
    (hn : names.find? t = some n) : t ∈ paths a := by
  by_contra hmem
  have hnone := flatNames_find?_of_not_mem hmem hnames
  rw [hn, Table.find?_empty] at hnone
  cases hnone

theorem name_not_mem_prelude (h : a.Describes config g) (hnames : classNames a = .ok names)
    {t : TypePath} (ht : t ∈ paths a) {n : String} (hn : classNameOf names t = .ok n)
    (body : List Statement) : n ∉ preludeNames a body := fun hmem =>
  className_not_mem h hnames ht hn (preludeNames_subset a body hmem)

theorem names_nodup (h : a.Describes config g) (hnames : classNames a = .ok names) :
    ((paths a).map names.find?).Nodup := by
  refine List.Nodup.map_on (fun t ht u hu heq => ?_) h.paths_nodup
  obtain ⟨n, hn⟩ := classNames_covers hnames t ht
  refine className_inj h hnames ht hu hn ?_
  rwa [classNameOf_eq_ok, ← heq, ← classNameOf_eq_ok]

/-! ## Words of modules -/

/-- A word of a module that has a meaning: a builtin or a constant, a name that the prelude binds,
or a generated class, which is looked up in normal form where an annotation refers to it. -/
def IsBound (a : Analysis) (names : Table TypePath String) (body : List Statement) (n : String) :
    Prop :=
  n ∈ builtinNames ∨ n ∈ constants ∨ n ∈ preludeNames a body ∨
    ∃ t ∈ paths a, ∃ m, names.find? t = some m ∧ (n = m ∨ n = referredName m)

theorem memberTypes_formed (h : a.Describes config g) {d : GeneratedType} (hd : d ∈ a.types) :
    ∀ t ∈ memberTypes d, t.Formed g.LinksTo := by
  intro t ht
  obtain ⟨r, hr, ⟨u, hu, rfl⟩ | ⟨u, hu, rfl⟩⟩ := h.mem_types.mp hd
  · obtain ⟨m, hm, rfl⟩ := List.mem_map.mp ht
    exact (h.accessor_spec hr hm).1
  · obtain ⟨c, hc, rfl⟩ := List.mem_map.mp ht
    exact (h.component_spec hr hc).1

theorem contract_of_copies (h : a.Describes config g) {d : GeneratedType} (hd : d ∈ a.types)
    (hcopies : copies d = true) : a.contract.isSome = true := by
  obtain ⟨r, hr, ⟨u, hu, rfl⟩ | ⟨u, hu, rfl⟩⟩ := h.mem_types.mp hd
  · cases hcopies
  · rw [copies, recordOf_copyWith] at hcopies
    simp [h.contract, hcopies]

theorem usesAny_of_mem_fieldTypes {s : Statement} {ty : Ty} (hty : ty ∈ fieldTypes s.body)
    (hany : ty.usesAny = true) : s.usesAny = true := by
  cases s with
  | classDefinition _ _ _ body =>
      rw [Statement.usesAny, bodyUsesAny_eq, List.any_eq_true]
      obtain ⟨field, hfield, hty⟩ := List.mem_flatMap.mp hty
      cases field with
      | field name type =>
          obtain rfl := List.mem_singleton.mp hty
          exact ⟨_, hfield, hany⟩
      | _ => cases hty
  | _ => cases hty

section

variable {body : List Statement} {d : GeneratedType} {s : Statement} {n : String}

theorem isBound_of_typing (hn : n ∈ typingImports a body) : IsBound a names body n :=
  Or.inr (Or.inr (Or.inl (List.mem_append_left _ (by simp [hn]))))

theorem isBound_of_ownWord (h : a.Describes config g) (hnames : classNames a = .ok names)
    (hd : d ∈ a.types) {name : String} (hname : classNameOf names d.head.path = .ok name)
    (hn : IsOwnWord names d name n) : IsBound a names body n := by
  rcases hn with hn | hn | ⟨hcopies, hn⟩ | ⟨t, hn⟩ | hn
  · exact Or.inr (Or.inl hn)
  · simp only [List.mem_cons] at hn
    rcases hn with rfl | rfl | hn
    · exact Or.inr (Or.inr (Or.inl (by simp [preludeNames])))
    · exact Or.inl (by decide)
    · exact isBound_of_typing ((mem_typingImports body).mpr (Or.inl ⟨d, hd, hn⟩))
  · have hcontract := contract_of_copies h hd hcopies
    rcases List.mem_pair.mp hn with rfl | rfl
    · exact isBound_of_typing ((mem_typingImports body).mpr (by simp [hcontract]))
    · exact Or.inr (Or.inr (Or.inl (by simp [preludeNames, hcontract, contractNames])))
  · exact Or.inr (Or.inr (Or.inr ⟨t, mem_paths_of_name hnames hn, n, hn, Or.inl rfl⟩))
  · exact Or.inr (Or.inr (Or.inr ⟨_, List.mem_map_of_mem hd, name, classNameOf_eq_ok.mp hname,
      Or.inr (reference_identifiers name n hn)⟩))

theorem isBound_of_type (hnames : classNames a = .ok names) (hs : s ∈ body) {t : PropertyType}
    {ty : Ty} (hty : ty ∈ fieldTypes s.body) (hknown : ty.Known) (hmentions : Mentions a names t ty)
    (hn : n ∈ ty.identifiers) : IsBound a names body n := by
  rcases List.mem_append.mp hn with hn | hn
  · rcases hknown n hn with hbuiltin | ⟨rfl, hany⟩
    · exact Or.inl hbuiltin
    · have huses : bodyUsesAny body = true := by
        rw [bodyUsesAny_eq, List.any_eq_true]
        exact ⟨s, hs, usesAny_of_mem_fieldTypes hty hany⟩
      exact isBound_of_typing ((mem_typingImports body).mpr (by simp [huses]))
  · obtain ⟨m, hm, hn⟩ := List.mem_flatMap.mp hn
    obtain ⟨u, hu⟩ := hmentions.exists_path hm
    exact Or.inr (Or.inr (Or.inr ⟨u, mem_paths_of_name hnames hu, m, hu,
      Or.inr (reference_identifiers m n hn)⟩))

/-- A generated type as a class of the module. -/
structure Emitted (a : Analysis) (names : Table TypePath String) (d : GeneratedType)
    (s : Statement) : Prop where
  named : s.className? = names.find? d.head.path
  typed : List.Forall₂ (Mentions a names) (memberTypes d) (fieldTypes s.body)
  staged : ∀ nested ∈ classBodies s.body,
    List.Forall₂ (Mentions a names) (memberTypes d) (fieldTypes nested)
  own : ∀ n, names.find? d.head.path = some n → ∀ e ∈ s.signatures, e ∈ ownSignatures n

/-- The fields of a class have the types of the members. -/
theorem fieldTypes_spec (h : a.Describes config g) (hd : d ∈ a.types) {name : String}
    (hcomposed : Composed a names d name s) :
    List.Forall₂ (fun t ty => Mentions a names t ty ∧ ty.Known) (memberTypes d)
      (fieldTypes s.body) := by
  refine ((List.forall₂_and_left _ _).mpr ⟨memberTypes_formed h hd, hcomposed.types⟩).imp ?_
  rintro t ty ⟨ht, nullable, htranslate⟩
  exact ⟨translate_mentions ht htranslate, translate_known ht htranslate⟩

theorem classDefinition_emitted (h : a.Describes config g) (hnames : classNames a = .ok names)
    (hd : d ∈ a.types) (hclass : classDefinition config a names d = .ok s) :
    Emitted a names d s := by
  obtain ⟨name, hname⟩ := classNames_covers hnames _ (List.mem_map_of_mem hd)
  have hfind := classNameOf_eq_ok.mp hname
  have hcomposed := classDefinition_composed hclass hname
  have htyped := (fieldTypes_spec h hd hcomposed).imp fun _ _ hty => hty.1
  refine ⟨?_, htyped, ?_, ?_⟩
  · rw [className?_eq hclass hname, hfind]
  · intro nested hnested
    rwa [hcomposed.staged nested hnested]
  · intro n hn
    obtain rfl := Option.some.inj (hfind.symm.trans hn)
    exact hcomposed.signatures

theorem classDefinition_isBound (h : a.Describes config g) (hnames : classNames a = .ok names)
    (hd : d ∈ a.types) (hs : s ∈ body) (hclass : classDefinition config a names d = .ok s) :
    ∀ n ∈ s.identifiers, IsBound a names body n := by
  obtain ⟨name, hname⟩ := classNames_covers hnames _ (List.mem_map_of_mem hd)
  have hcomposed := classDefinition_composed hclass hname
  intro n hn
  rcases hcomposed.identifiers n hn with hn | hn
  · exact isBound_of_ownWord h hnames hd hname hn
  · obtain ⟨ty, hty, hn⟩ := List.mem_flatMap.mp hn
    obtain ⟨t, -, hmentions, hknown⟩ := (fieldTypes_spec h hd hcomposed).exists_left ty hty
    exact isBound_of_type hnames hs hty hknown hmentions hn

theorem prelude_isBound : ∀ n ∈ bodyIdentifiers (preludeClasses a), IsBound a names body n := by
  intro n hn
  rw [preludeClasses] at hn
  split at hn
  · rename_i hcontract
    have hwords : ∀ n ∈ bodyIdentifiers [contractClass],
        n ∈ constants ∨ n ∈ ["Callable", "Protocol"] ∨ n ∈ contractNames := by decide
    rcases hwords n hn with hn | hn | hn
    · exact Or.inr (Or.inl hn)
    · refine isBound_of_typing ((mem_typingImports body).mpr (Or.inr (Or.inr ?_)))
      rcases List.mem_pair.mp hn with rfl | rfl <;> simp [hcontract]
    · exact Or.inr (Or.inr (Or.inl (by simp [preludeNames, hcontract, hn])))
  · cases hn

end

end

/-! ## How references are written -/

/-- A reference is written as the number that the name reads as, or as the name in normal form. -/
theorem print_reference (n : String) : (Expr.reference n).print =
    ((Number.ofText? (withoutMargins n.toList)).map Number.text).getD (referredName n) := by
  rw [Expr.reference]
  cases hnumber : Number.ofText? (withoutMargins n.toList) with
  | some k => rfl
  | none =>
      have hword : ∀ w, IsAscii w → withoutMargins n.toList = w.toList → referredName n = w := by
        intro w hascii hw
        rw [referredName, hw, String.ofList_toList]
        exact if_pos hascii
      simp only [Option.map_none, Option.getD_none]
      split
      · rename_i htrue
        rw [hword "True" (by decide) htrue]
        rfl
      · split
        · rename_i hfalse
          rw [hword "False" (by decide) hfalse]
          rfl
        · rw [Expr.print]

/-- No white space but line feeds stands in the name, and none at its beginning. -/
structure Spaceless (name : String) : Prop where
  inside : ∀ c ∈ name.toList, isMargin c = true → c = '\n'
  first : name.toList.head? ≠ some '\n'

theorem mem_of_isMargin {c : Char} (h : isMargin c = true) :
    c ∈ [' ', '\t', '\n', '\r', '\x0c'] := by
  simpa only [isMargin, Bool.or_eq_true, beq_iff_eq, List.mem_cons, List.not_mem_nil, or_false,
    or_assoc] using h

namespace Spaceless

variable {name t : String}

theorem append (h : Spaceless name) (ht : Spaceless t) : Spaceless (name ++ t) where
  inside := by
    rw [String.toList_append]
    exact List.forall_mem_append.mpr ⟨h.inside, ht.inside⟩
  first := by
    rw [String.toList_append, List.head?_append]
    cases hs : name.toList.head? with
    | none => simpa using ht.first
    | some c =>
        have hfirst := h.first
        rw [hs] at hfirst
        exact hfirst

theorem of_none (h : ∀ c ∈ name.toList, isMargin c = false) : Spaceless name where
  inside c hc hmargin := by
    rw [h c hc] at hmargin
    cases hmargin
  first hhead := by
    have hnone := h _ (List.mem_of_head? hhead)
    exact absurd hnone (by decide)

theorem of_alphanum (h : ∀ c ∈ name.toList, c.isAlphanum = true) : Spaceless name := by
  refine of_none fun c hc => ?_
  by_contra hmargin
  have hnone : [' ', '\t', '\n', '\r', '\x0c'].all (fun c => !c.isAlphanum) = true := by decide
  have hspace := List.all_eq_true.mp hnone c (mem_of_isMargin (by simpa using hmargin))
  rw [h c hc] at hspace
  cases hspace

theorem of_isSchemaName (h : Text.isSchemaName name = true) : Spaceless name where
  inside c hc hmargin := by
    have hnone : [' ', '\t', '\n', '\r', '\x0c'].all (fun c =>
        !Text.opensIdentifier c && !Text.continuesIdentifier c) = true := by decide
    have hspace := List.all_eq_true.mp hnone c (mem_of_isMargin hmargin)
    rcases mem_of_isSchemaName h hc with hopens | hcontinues | heq
    · simp [hopens] at hspace
    · simp [hcontinues] at hspace
    · exact heq
  first := by
    intro hhead
    cases hs : name.toList with
    | nil => simp [hs] at hhead
    | cons c cs =>
        obtain rfl : c = '\n' := by simpa [hs] using hhead
        rw [Text.isSchemaName, Text.dropFinalNewline, hs] at h
        split at h
        · cases cs <;> cases h
        · cases h

theorem of_acceptsPrefix (h : Config.acceptsPrefix name = true) : Spaceless name := by
  rw [Config.acceptsPrefix, Bool.or_eq_true, Bool.and_eq_true] at h
  rcases h with h | ⟨h, -⟩
  · exact of_none (by simp [String.isEmpty_iff.mp h])
  · exact of_none (isMargin_eq_false_of_mem h)

theorem safeTypeName (h : Spaceless name) : Spaceless (safeTypeName name) := by
  rw [RecordGen.safeTypeName]
  split
  · exact h.append (of_alphanum (List.all_eq_true.mp (by decide)))
  · exact h

theorem keptByNaming {g : ClassGraph} (h : g.Linked) {p : String} (hp : Spaceless p) :
    KeptByNaming g p Spaceless where
  container m := (of_alphanum (Plain.pascalCase m).alphanum).safeTypeName
  record c hc := (of_isSchemaName (h.named c hc)).safeTypeName
  interface c hc := (hp.append (of_isSchemaName (h.named c hc))).safeTypeName
  numbered n hname := hname.append (of_alphanum fun c hc => by
    rw [Char.isAlphanum, isDigit_of_mem_toString hc, Bool.or_true])
  implementing hname := hname.append (of_alphanum (List.all_eq_true.mp (by decide)))

/-- Nothing is cut off such a name but a line feed at its end. -/
theorem withoutMargins_eq (h : Spaceless name) (hends : ¬Java.EndsLine name) :
    withoutMargins name.toList = name.toList := by
  have hkept : ∀ {s : List Char}, (∀ c ∈ s, isMargin c = true → c = '\n') →
      s.head? ≠ some '\n' → s.dropWhile isMargin = s := by
    intro s hs hhead
    cases s with
    | nil => rfl
    | cons c cs =>
        refine List.dropWhile_cons_of_neg fun hmargin => hhead ?_
        rw [List.head?_cons, hs c List.mem_cons_self hmargin]
  rw [withoutMargins, hkept h.inside h.first, hkept, List.reverse_reverse]
  · exact fun c hc => h.inside c (List.mem_reverse.mp hc)
  · rwa [List.head?_reverse]

end Spaceless

section

variable {config : Config} {g : ClassGraph} {a : Analysis} {names : Table TypePath String}

/-- What naming keeps and concatenation keeps, flat names have. -/
theorem flatName_kept (h : a.Describes config g) (hnames : classNames a = .ok names)
    {P : String → Prop} (hkept : KeptByNaming g config.interfacePrefix P)
    (happend : ∀ {s t}, P s → P t → P (s ++ t)) {t : TypePath} (ht : t ∈ paths a) {n : String}
    (hn : names.find? t = some n) : P n := by
  obtain ⟨s, c, -, hfind⟩ := h.exists_allocated ht
  obtain ⟨hown, hcontainer⟩ := hkept.typePath hfind
  rcases flatName_cases h hnames ht (classNameOf_eq_ok.mpr hn) with rfl | ⟨rfl, -⟩
  · exact hown
  · exact happend hcontainer hown

/-- A flat name that reads as a number begins with a digit. -/
theorem head_of_number {n : String} (hn : Undotted n) {k : Number}
    (hk : Number.ofText? n.toList = some k) : ∃ c ∈ n.toList.head?, c.isDigit = true := by
  rw [Undotted] at hn
  cases hs : n.toList with
  | nil =>
      rw [hs] at hk
      cases hk
  | cons c cs =>
      rw [hs] at hk hn
      refine ⟨c, rfl, ?_⟩
      by_contra hdigit
      have hpoint : c ≠ '.' := fun heq => hn (heq ▸ List.mem_cons_self)
      rw [ofText?_eq_none (by simpa using hdigit) hpoint] at hk
      cases hk

/-- Every type has a name of its own in the flat module, which no prelude of the module binds. -/
structure Named (a : Analysis) (names : Table TypePath String) : Prop where
  named : ∀ t ∈ paths a, ∃ n, names.find? t = some n ∧ ∀ body, n ∉ preludeNames a body
  apart : ((paths a).map names.find?).Nodup

/-- A generated module is closed. Its classes are those of the types, and types refer to the classes
of what they mention. References are written as the names of the classes, but for names that read as
other numbers than they are written as; these begin with a digit. -/
structure Closed (p : String) (a : Analysis) (names : Table TypePath String)
    (body : List Statement) : Prop where
  emitted : List.Forall₂ (Emitted a names) a.types body
  bound : ∀ n ∈ bodyIdentifiers (preludeClasses a ++ body), IsBound a names body n
  written : ∀ t ∈ paths a, ∀ n, names.find? t = some n → (Expr.reference n).print =
    ((Number.ofText? (withoutMargins n.toList)).map Number.text).getD (referredName n)
  exact : Config.acceptsPrefix p = true → IsAscii p → ∀ t ∈ paths a, ∀ n, names.find? t = some n →
    ¬Java.EndsLine n →
      ((Expr.reference n).print = n ↔ ∀ k, Number.ofText? n.toList = some k → k.text = n)
  numeral : Config.acceptsPrefix p = true → ∀ t ∈ paths a, ∀ n, names.find? t = some n → ∀ k,
    Number.ofText? n.toList = some k → ∃ c ∈ n.toList.head?, c.isDigit = true

theorem reference_exact_iff {n : String} (hspaceless : Spaceless n) (hascii : IsAscii n)
    (hends : ¬Java.EndsLine n) : (Expr.reference n).print = n ↔
      ∀ k, Number.ofText? n.toList = some k → k.text = n := by
  have hmargins := hspaceless.withoutMargins_eq hends
  have hreferred : referredName n = n := by
    rw [referredName, hmargins, String.ofList_toList]
    exact if_pos hascii
  rw [print_reference, hmargins, hreferred]
  cases Number.ofText? n.toList <;> simp

theorem classNames_named (h : a.Describes config g) (hnames : classNames a = .ok names) :
    Named a names where
  named t ht := by
    obtain ⟨n, hn⟩ := classNames_covers hnames t ht
    exact ⟨n, classNameOf_eq_ok.mp hn, name_not_mem_prelude h hnames ht hn⟩
  apart := names_nodup h hnames

theorem closed (h : a.Describes config g) (hnames : classNames a = .ok names)
    {body : List Statement}
    (hbody : List.Forall₂ (fun d s => classDefinition config a names d = .ok s) a.types body) :
    Closed config.interfacePrefix a names body where
  emitted := ((List.forall₂_and_left _ _).mpr ⟨fun _ hd => hd, hbody⟩).imp fun _ _ hclass =>
    classDefinition_emitted h hnames hclass.1 hclass.2
  bound n hn := by
    rw [bodyIdentifiers_eq, List.flatMap_append, ← bodyIdentifiers_eq, List.mem_append] at hn
    rcases hn with hn | hn
    · exact prelude_isBound n hn
    · obtain ⟨s, hs, hn⟩ := List.mem_flatMap.mp hn
      obtain ⟨d, hd, hclass⟩ := hbody.exists_left s hs
      exact classDefinition_isBound h hnames hd hs hclass n hn
  written _ _ n _ := print_reference n
  exact hp hascii t ht n hn hends :=
    reference_exact_iff
      (flatName_kept h hnames (Spaceless.keptByNaming h.linked (.of_acceptsPrefix hp))
        Spaceless.append ht hn)
      (flatName_kept h hnames (ascii_keptByNaming h.linked hascii) IsAscii.append ht hn) hends
  numeral hp t ht n hn k :=
    head_of_number (flatName_kept h hnames
      (undotted_keptByNaming h.linked (undotted_of_acceptsPrefix hp)) Undotted.append ht hn)

end

end RecordGen.Python

namespace RecordGen

open Fallible

/-- A loaded graph has no classes in a module only if two types would share a name there, or if a
text in one of the classes cannot be read. Otherwise the module is closed, and it is written unless
a reference in it is a long integer. -/
theorem generate_closed {doc : Json} {g : ClassGraph} {config : Config} {workers : Option Int}
    {a : Analysis} (hload : Document.load doc = .ok g) (ha : analyze config workers g = .ok a) :
    (∃ t ∈ Python.paths a, Python.classNames a = .error (.ambiguous t.dotted)) ∨
    ∃ names, Python.classNames a = .ok names ∧ Python.Named a names ∧
      (((∃ d ∈ a.types, ¬Python.Readable a names d) ∧
          ∀ comment, Python.generate config a comment = .error .unreadable) ∨
        (∀ d ∈ a.types, Python.Readable a names d) ∧
          ∃ body, Python.classes config a = .ok body ∧
            (∀ comment, Python.generate config a comment =
              if Python.Statement.anyLongInteger body then .error .longInteger
              else .ok (Python.fileOf a comment body)) ∧
            Python.Closed config.interfacePrefix a names body) := by
  have h := analyze_describes (Document.load_linked hload) ha
  cases hnames : Python.classNames a with
  | error e =>
      obtain ⟨t, ht, rfl⟩ := Python.flatNames_error hnames
      exact Or.inl ⟨t, ht, rfl⟩
  | ok names =>
      refine Or.inr ⟨names, rfl, Python.classNames_named h hnames, ?_⟩
      rcases Python.classes_cases h hnames with ⟨hreadable, body, hbody, hall⟩ | ⟨hnone, hfault⟩
      · refine Or.inr ⟨hreadable, body, hbody, fun comment => ?_, Python.closed h hnames hall⟩
        rw [Python.generate, hbody, ok_bind]
        rfl
      · exact Or.inl ⟨hnone, fun comment => by rw [Python.generate, hfault, error_bind]⟩

theorem generate_closed_shapes : ∃ g a, Document.load Document.shapes = .ok g ∧
    analyze { withers := true } none g = .ok a ∧
    ∃ names, Python.classNames a = .ok names ∧ Python.Named a names ∧
      (∀ d ∈ a.types, Python.Readable a names d) ∧
      ∃ body, Python.classes { withers := true } a = .ok body ∧
        (∀ comment, Python.generate { withers := true } a comment =
          if Python.Statement.anyLongInteger body then .error .longInteger
          else .ok (Python.fileOf a comment body)) ∧
        Python.Closed "I" a names body := by
  obtain ⟨g, hload, hok⟩ : ∃ g, Document.load Document.shapes = .ok g ∧
      (analyze { withers := true } none g).toOption.any
        (fun a => decide ((Python.generate { withers := true } a "").isOk = true)) = true :=
    exists_ok_and (by decide +kernel)
  obtain ⟨a, ha, hwritten⟩ := exists_ok_and hok
  obtain ⟨files, hfiles⟩ := exists_ok hwritten
  obtain ⟨body, hbody, -⟩ := Python.generate_eq_ok hfiles
  obtain ⟨names, hnames, -⟩ := bind_eq_ok.mp hbody
  refine ⟨g, a, hload, ha, names, hnames, ?_⟩
  rcases generate_closed hload ha with ⟨t, -, hfault⟩ | ⟨names', hnames', hnamed, hends⟩
  · cases hnames.symm.trans hfault
  · obtain rfl := Except.ok.inj (hnames.symm.trans hnames')
    refine ⟨hnamed, hends.resolve_left fun hunread => ?_⟩
    cases hfiles.symm.trans (hunread.2 "")

/-- A module that is called like a number, with a property of its own type. -/
def Document.numeral : Json :=
  .object [("modules", .list [
    .object [("name", .text "_0x1f"), ("properties", .list [
      .object [("name", .text "p"), ("type", .text "_0x1f")]])]])]

/-- The text of its module. -/
def Document.numeralText : String :=
  "from __future__ import annotations\n\nfrom dataclasses import dataclass\n" ++
    "from typing import final\n\n\n@final\n@dataclass(frozen=True)\nclass 0X1F:\n    p: 31\n"

/-- The class is called `0X1F`, and the annotation of its property says `31`. -/
theorem numeral_misreferred : ∃ g, Document.load Document.numeral = .ok g ∧
    ∃ a, analyze {} none g = .ok a ∧
      (∃ names, Python.classNames a = .ok names ∧
        names.find? ⟨"0X1F", "0X1F"⟩ = some "0X1F") ∧
      Python.Ty.hint (.generated "0X1F") = "31" ∧
      Python.generate {} a "" = .ok [("records.py", Document.numeralText)] := by
  obtain ⟨g, hload, hok⟩ : ∃ g, Document.load Document.numeral = .ok g ∧
      (analyze {} none g).toOption.any (fun a =>
        decide ((Python.classNames a).toOption.any
          (fun names => decide (names.find? ⟨"0X1F", "0X1F"⟩ = some "0X1F")) = true ∧
        (Python.generate {} a "").toOption.any
          (fun files => decide (files = [("records.py", Document.numeralText)])) = true)) = true :=
    exists_ok_and (by decide +kernel)
  obtain ⟨a, ha, hnames, hfiles⟩ := exists_ok_and hok
  obtain ⟨files, hgenerate, rfl⟩ := exists_ok_and hfiles
  exact ⟨g, hload, a, ha, exists_ok_and hnames, by decide +kernel, hgenerate⟩

end RecordGen

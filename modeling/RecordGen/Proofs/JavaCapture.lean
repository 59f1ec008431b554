import RecordGen.Proofs.JavaScoping

/-! # Names from outside in Java

A unit writes names that it does not declare: the simple names of imported types and of types of
`java.lang`, and the first part of an annotation that it writes by its qualified name. A type of the
unit, or a container that it refers to, captures such a name if it has the same one. Naming keeps
away from the platform's types, and the names that come from the configuration are not looked at. -/

namespace RecordGen

namespace Java

open Fallible ClassGraph

/-! ## Written types -/

namespace Ty

mutual

/-- A type and the types it is put together from. -/
def parts : Ty → List Ty
  | imported qualified arguments => imported qualified arguments :: argumentParts arguments
  | generic name arguments => generic name arguments :: argumentParts arguments
  | annotated marker inner => annotated marker inner :: parts inner
  | generated t => [generated t]
  | named text => [named text]
  | scalar s => [scalar s]
  | boxed s => [boxed s]
  | platform name => [platform name]

def argumentParts : List Ty → List Ty
  | [] => []
  | t :: ts => parts t ++ argumentParts ts

end

theorem mem_argumentParts {ts : List Ty} {u : Ty} :
    u ∈ argumentParts ts ↔ ∃ t ∈ ts, u ∈ t.parts := by
  induction ts with
  | nil => simp [argumentParts]
  | cons t ts ih => simp [argumentParts, ih]

/-- The name of `java.lang` that a part of a type is written with. -/
def platformName? : Ty → Option String
  | boxed s => some s.boxText
  | platform name => some name
  | _ => none

def import? : Ty → Option String
  | imported qualified _ => some qualified
  | _ => none

def marker? : Ty → Option String
  | annotated marker _ => some marker
  | _ => none

mutual

/-- A type needs what its parts are imported by. -/
theorem mem_imports {i : String} : ∀ t : Ty, i ∈ t.imports ↔ ∃ u ∈ t.parts, u.import? = some i
  | imported qualified arguments => by
      simp [imports, parts, import?, mem_argumentImports_iff arguments, eq_comm]
  | generic name arguments => by simp [imports, parts, import?, mem_argumentImports_iff arguments]
  | annotated marker inner => by simp [imports, parts, import?, mem_imports inner]
  | generated _ => by simp [imports, parts, import?]
  | named _ => by simp [imports, parts, import?]
  | scalar _ => by simp [imports, parts, import?]
  | boxed _ => by simp [imports, parts, import?]
  | platform _ => by simp [imports, parts, import?]

theorem mem_argumentImports_iff {i : String} : ∀ ts : List Ty,
    i ∈ argumentImports ts ↔ ∃ u ∈ argumentParts ts, u.import? = some i
  | [] => by simp [argumentImports, argumentParts]
  | t :: ts => by
      simp [argumentImports, argumentParts, mem_imports t, mem_argumentImports_iff ts, or_and_right,
        exists_or]

end

end Ty

def Method.types (m : Method) : List Ty :=
  m.returnType :: m.parameters.map (·.type)

def Head.types (h : Head) : List Ty :=
  h.typeParameters.flatMap (fun p => p.type :: p.bound.toList) ++ h.methods.flatMap Method.types

def Shape.types : Shape → List Ty
  | .interfaceShape parents => parents
  | .recordShape components implements => components.map (·.type) ++ implements
  | .classShape fields constructors =>
    fields.map (·.type) ++ constructors.flatMap fun c => c.parameters.map (·.type)

namespace Declaration

/-- The types that a declaration writes outside the declarations nested in it. -/
def types (d : Declaration) : List Ty :=
  d.head.types ++ d.shape.types

def annotations (d : Declaration) : List Marker :=
  d.head.annotations ++ d.head.methods.flatMap (·.annotations)

end Declaration

mutual

/-- A declaration and all those nested in it. -/
def Declaration.all : Declaration → List Declaration
  | .mk head shape nested => .mk head shape nested :: allNested nested

def allNested : List Declaration → List Declaration
  | [] => []
  | d :: ds => d.all ++ allNested ds

end

theorem mem_allNested {ds : List Declaration} {e : Declaration} :
    e ∈ allNested ds ↔ ∃ d ∈ ds, e ∈ d.all := by
  induction ds with
  | nil => simp [allNested]
  | cons d ds ih => simp [allNested, ih]

theorem mem_parameterImports {ps : List Parameter} {i : String} :
    i ∈ parameterImports ps ↔ ∃ t ∈ ps.map (·.type), ∃ u ∈ t.parts, u.import? = some i := by
  simp [parameterImports, Ty.mem_imports]

theorem Method.exists_of_mem_imports {m : Method} {i : String} (h : i ∈ m.imports) :
    (∃ t ∈ m.types, ∃ u ∈ t.parts, u.import? = some i) ∨
      ∃ a ∈ m.annotations, a.qualified = some i := by
  simp only [Method.imports, List.mem_append, annotationImports, List.mem_filterMap,
    Ty.mem_imports, mem_parameterImports] at h
  rcases h with (hmarker | hreturn) | ⟨t, ht, hparameter⟩
  · exact Or.inr hmarker
  · exact Or.inl ⟨_, List.mem_cons_self, hreturn⟩
  · exact Or.inl ⟨t, List.mem_cons_of_mem _ ht, hparameter⟩

theorem Shape.exists_of_mem_imports {s : Shape} {i : String} (h : i ∈ s.imports) :
    ∃ t ∈ s.types, ∃ u ∈ t.parts, u.import? = some i := by
  cases s with
  | interfaceShape parents =>
      simpa [Shape.imports, Shape.types, Ty.mem_argumentImports, Ty.mem_imports] using h
  | recordShape components implements =>
      simpa only [Shape.imports, Shape.types, List.mem_append, mem_parameterImports,
        Ty.mem_argumentImports, Ty.mem_imports, or_and_right, exists_or] using h
  | classShape fields constructors =>
      simpa [Shape.imports, Shape.types, mem_parameterImports, Ty.mem_imports, or_and_right,
        exists_or, and_assoc] using h

/-- What a declaration needs imported is a part of a type or an annotation, of its own or of a
declaration nested in it. -/
def Declaration.Needs (d : Declaration) (i : String) : Prop :=
  (∃ t ∈ d.types, ∃ u ∈ t.parts, u.import? = some i) ∨
    ∃ a ∈ d.annotations, a.qualified = some i

mutual

theorem Declaration.exists_of_mem_imports {i : String} :
    ∀ d : Declaration, i ∈ d.imports → ∃ e ∈ d.all, e.Needs i
  | .mk head shape nested => by
      intro h
      simp only [Declaration.imports, List.mem_append, annotationImports, List.mem_filterMap,
        List.mem_flatMap] at h
      simp only [Declaration.all, List.mem_cons, or_and_right, exists_or, exists_eq_left]
      rcases h with ((⟨a, ha, hmarker⟩ | hshape) | ⟨m, hm, hmethod⟩) | hnested
      · exact Or.inl (Or.inr ⟨a, List.mem_append_left _ ha, hmarker⟩)
      · obtain ⟨t, ht, u, hu, himport⟩ := Shape.exists_of_mem_imports hshape
        exact Or.inl (Or.inl ⟨t, List.mem_append_right _ ht, u, hu, himport⟩)
      · left
        rcases Method.exists_of_mem_imports hmethod with ⟨t, ht, u, hu, himport⟩ | ⟨a, ha, himport⟩
        · refine Or.inl ⟨t, List.mem_append_left _ ?_, u, hu, himport⟩
          exact List.mem_append_right _ (List.mem_flatMap.mpr ⟨m, hm, ht⟩)
        · exact Or.inr ⟨a, List.mem_append_right _ (List.mem_flatMap.mpr ⟨m, hm, ha⟩), himport⟩
      · exact Or.inr (exists_of_mem_nestedImports nested hnested)

theorem exists_of_mem_nestedImports {i : String} :
    ∀ ds : List Declaration, i ∈ nestedImports ds → ∃ e ∈ allNested ds, e.Needs i
  | [] => by simp [nestedImports]
  | d :: ds => by
      intro h
      simp only [allNested, List.mem_append, or_and_right, exists_or]
      exact (List.mem_append.mp h).imp (Declaration.exists_of_mem_imports d)
        (exists_of_mem_nestedImports ds)

end

/-! ## Names of the platform -/

/-- The types of `java.lang` that generated sources mention. -/
def languageTypes : List String :=
  ["Boolean", "Double", "Long", "Number", "Object", "Override", "Record", "String"]

/-- The types that generated sources import, whatever the configuration is. -/
def libraryTypes : List String :=
  ["java.util.List", "java.util.Map", "java.util.Set", "java.util.function.Consumer"]

/-- Naming keeps away from the names of these types and from no others. -/
theorem platformTypes_perm :
    platformTypes.Perm (languageTypes ++ libraryTypes.map simpleName) := by
  decide +kernel

theorem libraryTypes_nodup : (libraryTypes.map simpleName).Nodup := by
  decide +kernel

/-- A part of a type brings in the platform's types, or the marker if records can be copied. -/
def Ty.PartExpected (config : Config) : Ty → Prop
  | platform name => name ∈ languageTypes
  | imported qualified _ => qualified ∈ libraryTypes
  | annotated marker _ => config.withers = true ∧ marker = config.marker
  | _ => True

def Ty.Expected (config : Config) (t : Ty) : Prop :=
  ∀ u ∈ t.parts, u.PartExpected config

/-- An annotation is one of the platform, or the builder annotation if it is switched on. -/
def Marker.Expected (config : Config) (m : Marker) : Prop :=
  match m.qualified with
  | none => m.name ∈ languageTypes
  | some qualified => config.builder = true ∧ qualified = config.builderName

/-- A declaration hides no type of the platform, and what it writes is expected. -/
structure Declaration.Expected (config : Config) (d : Declaration) : Prop where
  name : d.head.name ∉ platformTypes
  types : ∀ t ∈ d.types, t.Expected config
  annotations : ∀ m ∈ d.annotations, m.Expected config

variable {config : Config} {g : ClassGraph} {a : Analysis}

namespace Ty

@[simp] theorem expected_named (text : String) : (named text).Expected config := by
  simp [Expected, parts, PartExpected]

@[simp] theorem expected_scalar (s : Scalar) : (scalar s).Expected config := by
  simp [Expected, parts, PartExpected]

@[simp] theorem expected_boxed (s : Scalar) : (boxed s).Expected config := by
  simp [Expected, parts, PartExpected]

@[simp] theorem expected_platform (name : String) :
    (platform name).Expected config ↔ name ∈ languageTypes := by
  simp [Expected, parts, PartExpected]

@[simp] theorem expected_generated (t : TypePath) : (generated t).Expected config := by
  simp [Expected, parts, PartExpected]

@[simp] theorem expected_imported (qualified : String) (ts : List Ty) :
    (imported qualified ts).Expected config ↔
      qualified ∈ libraryTypes ∧ ∀ t ∈ ts, t.Expected config := by
  simp only [Expected, parts, List.forall_mem_cons, PartExpected, mem_argumentParts]
  grind

@[simp] theorem expected_generic (name : String) (ts : List Ty) :
    (generic name ts).Expected config ↔ ∀ t ∈ ts, t.Expected config := by
  simp only [Expected, parts, List.forall_mem_cons, PartExpected, mem_argumentParts]
  grind

@[simp] theorem expected_annotated (marker : String) (t : Ty) :
    (annotated marker t).Expected config ↔
      (config.withers = true ∧ marker = config.marker) ∧ t.Expected config := by
  simp [Expected, parts, PartExpected]

namespace PartExpected

variable {t : Ty} (h : t.PartExpected config)
include h

theorem platform_mem {n : String} (hn : t.platformName? = some n) : n ∈ languageTypes := by
  cases t with
  | boxed s =>
      obtain rfl := Option.some.inj hn
      cases s <;> decide
  | platform name =>
      obtain rfl := Option.some.inj hn
      exact h
  | _ => cases hn

theorem import_mem {i : String} (hi : t.import? = some i) : i ∈ libraryTypes := by
  cases t with
  | imported qualified arguments =>
      obtain rfl := Option.some.inj hi
      exact h
  | _ => cases hi

theorem marker_eq {m : String} (hm : t.marker? = some m) :
    config.withers = true ∧ m = config.marker := by
  cases t with
  | annotated marker inner =>
      obtain rfl := Option.some.inj hm
      exact h
  | _ => cases hm

end PartExpected

end Ty

/-- A declaration of expected parts imports types of the platform and the builder annotation. -/
theorem Declaration.Expected.of_needs {d : Declaration} (h : d.Expected config) {i : String}
    (hi : d.Needs i) : i ∈ libraryTypes ∨ config.builder = true ∧ i = config.builderName := by
  rcases hi with ⟨t, ht, u, hu, himport⟩ | ⟨m, hm, himport⟩
  · exact Or.inl ((h.types t ht u hu).import_mem himport)
  · have hexpected := h.annotations m hm
    rw [Marker.Expected, himport] at hexpected
    exact Or.inr hexpected

/-! ## Declarations of expected parts -/

theorem primitive?_expected {name : String} {t : Ty} (h : primitive? name = some t)
    (nullable : Bool) : (if nullable then t.nullable else t).Expected config := by
  unfold primitive? at h
  split at h <;> cases h <;> cases nullable <;> simp [Ty.nullable, languageTypes]

theorem collection?_mem {name qualified : String} (h : collection? name = some qualified) :
    qualified ∈ libraryTypes := by
  unfold collection? at h
  split at h <;> cases h <;> decide

/-- A property type is put together from types of the result and of the platform. -/
theorem translate_expected (h : a.Describes config g) {t : PropertyType}
    (ht : t.Formed g.LinksTo) : ∀ {nullable : Bool} {ty : Ty}, translate a t nullable = .ok ty →
      ty.Expected config := by
  induction ht with
  | primitive hname =>
      intro nullable ty hty
      obtain ⟨t, ht⟩ := exists_primitive hname
      rw [translate, ht] at hty
      obtain rfl := Except.ok.inj hty
      exact primitive?_expected ht nullable
  | reference hlinks =>
      intro nullable ty hty
      obtain ⟨_, _, t, _, _, ht⟩ := h.counterpart_ok hlinks
      rw [translate, ht, map_ok] at hty
      obtain rfl := Except.ok.inj hty
      exact Ty.expected_generated t
  | collection harity _ ih =>
      intro nullable ty hty
      obtain ⟨qualified, hq⟩ := exists_collection harity
      simp only [translate, hq, translateArguments_eq] at hty
      obtain ⟨arguments, harguments, rfl⟩ := map_eq_ok.mp hty
      refine (Ty.expected_imported _ _).mpr ⟨collection?_mem hq, fun ty hmem => ?_⟩
      obtain ⟨t, ht, hty⟩ := (mapM_eq_ok.mp harguments).exists_left ty hmem
      exact ih t ht hty
  | optional _ ih =>
      intro nullable ty hty
      exact ih (by simpa only [translate] using hty)

/-- No type of a result and no container has the name of a type of the platform. -/
theorem not_mem_platformTypes (h : a.Describes config g) {t : TypePath}
    (ht : t ∈ a.types.map (·.head.path)) :
    t.name ∉ platformTypes ∧ t.container ∉ platformTypes := by
  obtain ⟨s, c, -, hfind⟩ := h.exists_allocated ht
  exact (platform_keptByNaming g config.interfacePrefix).typePath hfind

theorem interfaceDeclaration_expected (h : a.Describes config g) {r : Resolution}
    (hr : r ∈ a.resolutions) {t : TypePath} {declared : Declaration}
    (hname : t.name ∉ platformTypes)
    (hd : interfaceDeclaration config a (Analysis.interfaceOf g r t) = .ok declared) :
    ∀ e ∈ declared.all, e.Expected config := by
  obtain ⟨members, methods, doc, -, hmethods, rfl⟩ := interfaceDeclaration_spec hd
  have hmethod : ∀ method ∈ methods, (∀ t ∈ method.types, t.Expected config) ∧
      method.annotations = [] := by
    intro method hmem
    obtain ⟨m, hm, hspec⟩ := (mapM_eq_ok.mp hmethods).exists_left method hmem
    obtain ⟨-, htype, hparameters, hannotations⟩ := accessorMethod_spec hspec
    have hreturn := translate_expected h (h.accessor_spec hr hm).1 htype
    exact ⟨by simpa [Method.types, hparameters] using hreturn, hannotations⟩
  intro e he
  obtain rfl := List.mem_singleton.mp he
  refine ⟨hname, fun t ht => ?_, fun m hm => ?_⟩
  · rcases List.mem_append.mp ht with ht | ht
    · obtain ⟨method, hmem, ht⟩ := List.mem_flatMap.mp ht
      exact (hmethod method hmem).1 t ht
    · obtain ⟨parent, -, rfl⟩ := List.mem_map.mp ht
      exact Ty.expected_generated parent
  · obtain ⟨method, hmem, hm⟩ := List.mem_flatMap.mp hm
    rw [(hmethod method hmem).2] at hm
    cases hm

/-- The components of a record have types of the result and of the platform. -/
theorem components_expected (h : a.Describes config g) {r : Resolution} (hr : r ∈ a.resolutions)
    {t : TypePath} {members : List (String × String)} {components : List Parameter}
    (hcomponents : (Analysis.recordOf config g r t).components.mapM
      (componentParameter a members) = .ok components) :
    ∀ p ∈ components, p.type.Expected config := by
  intro p hp
  obtain ⟨c, hc, hspec⟩ := (mapM_eq_ok.mp hcomponents).exists_left p hp
  obtain ⟨-, htype⟩ := componentParameter_spec hspec
  exact translate_expected h (h.component_spec hr hc).1 htype

/-- The staging class has fields of the components' types and mentions the record besides. -/
theorem stagingClass_expected {components : List Parameter}
    (hcomponents : ∀ p ∈ components, p.type.Expected config) (doc : List String) (name : String) :
    ∀ e ∈ (stagingClass doc name components).all, e.Expected config := by
  intro e he
  obtain rfl := List.mem_singleton.mp he
  refine ⟨show CopyProtocol.staging ∉ platformTypes by decide, ?_, ?_⟩
  · simpa [Declaration.types, Declaration.head, Declaration.shape, Head.types, Method.types,
      Shape.types, or_imp, forall_and] using hcomponents
  · simp [Declaration.annotations, Declaration.head]

theorem decorations_expected {r : Resolution} {t : TypePath} :
    ∀ m ∈ (Analysis.recordOf config g r t).decorations.map decoration, m.Expected config := by
  intro m hm
  obtain ⟨qualified, hq, rfl⟩ := List.mem_map.mp hm
  simpa [Analysis.recordOf, decoration, Marker.Expected] using hq

theorem copyWith_marker {r : Resolution} {t : TypePath} {copy : CopyWith}
    (h : (Analysis.recordOf config g r t).copyWith = some copy) :
    config.withers = true ∧ copy.marker = config.marker := by
  simp only [Analysis.recordOf, Option.ite_none_right_eq_some] at h
  obtain ⟨hwithers, hcopy⟩ := h
  obtain rfl := Option.some.inj hcopy
  exact ⟨hwithers, rfl⟩

theorem recordDeclaration_expected (h : a.Describes config g) {r : Resolution}
    (hr : r ∈ a.resolutions) {t : TypePath} {declared : Declaration}
    (hname : t.name ∉ platformTypes)
    (hd : recordDeclaration config a (Analysis.recordOf config g r t) = .ok declared) :
    ∀ e ∈ declared.all, e.Expected config := by
  obtain ⟨members, components, doc, -, hcomponents, hdeclared⟩ := recordDeclaration_spec hd
  have hcomponents := components_expected h hr hcomponents
  have hdecorations := @decorations_expected config g r t
  intro e he
  cases hcopy : (Analysis.recordOf config g r t).copyWith with
  | none =>
      rw [hcopy] at hdeclared
      subst hdeclared
      obtain rfl := List.mem_singleton.mp he
      refine ⟨hname, ?_, ?_⟩
      · simpa [Declaration.types, Declaration.head, Declaration.shape, Head.types, Shape.types,
          or_imp, forall_and] using hcomponents
      · simpa [Declaration.annotations, Declaration.head] using hdecorations
  | some copy =>
      rw [hcopy] at hdeclared
      obtain ⟨stagingDoc, rfl⟩ := hdeclared
      have hmarker := copyWith_marker hcopy
      rcases List.mem_cons.mp he with rfl | he
      · refine ⟨hname, ?_, ?_⟩
        · simpa [Declaration.types, Declaration.head, Declaration.shape, Head.types, Shape.types,
            withMethod, consumer, Method.types, hmarker, libraryTypes, or_imp, forall_and]
            using hcomponents
        · simpa [Declaration.annotations, Declaration.head, withMethod, Marker.Expected,
            languageTypes, or_imp, forall_and] using hdecorations
      · exact stagingClass_expected hcomponents stagingDoc _ e (by simpa [allNested] using he)

theorem declaration_expected (h : a.Describes config g) {d : GeneratedType} (hd : d ∈ a.types)
    {declared : Declaration} (hdeclared : declaration config a d = .ok declared) :
    ∀ e ∈ declared.all, e.Expected config := by
  have hname := (not_mem_platformTypes h (List.mem_map_of_mem (f := (·.head.path)) hd)).1
  obtain ⟨r, hr, ⟨t, _, rfl⟩ | ⟨t, _, rfl⟩⟩ := h.mem_types.mp hd
  · exact interfaceDeclaration_expected h hr hname hdeclared
  · exact recordDeclaration_expected h hr hname hdeclared

theorem contractDeclaration_expected (h : a.Describes config g) {contract : CopyContract}
    (hcontract : contract ∈ a.contract) :
    ∀ e ∈ (contractDeclaration contract).all, e.Expected config := by
  obtain ⟨hwithers, hmarker⟩ : config.withers = true ∧ contract = ⟨config.marker⟩ := by
    rw [h.contract, Option.mem_def, Option.ite_none_right_eq_some] at hcontract
    exact ⟨hcontract.1, (Option.some.inj hcontract.2).symm⟩
  intro e he
  obtain rfl := List.mem_singleton.mp he
  refine ⟨show CopyProtocol.contract ∉ platformTypes by decide, ?_, ?_⟩
  · simp [Declaration.types, Declaration.head, Declaration.shape, Head.types, Shape.types,
      Method.types, consumer, hwithers, hmarker, libraryTypes, languageTypes,
      CopyProtocol.recordBound]
  · simp [Declaration.annotations, Declaration.head]

/-- The declarations of a container's own declaration are its own and those of the types in it. -/
theorem mem_all_nest {head : Head} {shape : Shape} {nested others : List Declaration}
    {e : Declaration} : e ∈ (Declaration.mk head shape (nested ++ others)).all ↔
      e = .mk head shape (nested ++ others) ∨ e ∈ allNested nested ∨
        ∃ d ∈ others, e ∈ d.all := by
  simp [Declaration.all, mem_allNested, or_and_right, exists_or]

/-! ## What a unit declares and writes -/

namespace CompilationUnit

variable (u : CompilationUnit)

/-- All declarations of a unit, the nested ones included. -/
def declarations : List Declaration :=
  u.types.flatMap Declaration.all

/-- The simple names of the types that a unit declares and of the containers it refers to. -/
def localNames : List String :=
  u.declarations.map (·.head.name) ++
    (u.clauseReferences ++ u.bodyReferences).map (·.container)

/-- Those of them that are names of containers. -/
def containerNames : List String :=
  u.types.map (·.head.name) ++ (u.clauseReferences ++ u.bodyReferences).map (·.container)

def typeParts : List Ty :=
  u.declarations.flatMap fun d => d.types.flatMap Ty.parts

/-- The simple names that a unit writes for types of `java.lang`: in its types, and as annotations
that need no import. -/
def languageNames : List String :=
  u.typeParts.filterMap Ty.platformName? ++
    ((u.declarations.flatMap Declaration.annotations).filter (·.qualified.isNone)).map (·.name)

/-- The annotations that a unit writes by their qualified names. -/
def inlineMarkers : List String :=
  u.typeParts.filterMap Ty.marker?

end CompilationUnit

/-- A name as it is read from a source text. Names of a schema may end in a line feed, which is
white space there. -/
def identifier (name : String) : String :=
  .ofList (Text.dropFinalNewline name.toList)

/-- The first part of a qualified name. -/
def rootName (qualified : String) : String :=
  (nameParts qualified).headD ""

/-- A name that a line feed follows. -/
def EndsLine (name : String) : Prop :=
  name.toList.getLast? = some '\n'

theorem identifier_eq {name : String} (h : ¬EndsLine name) : identifier name = name := by
  rw [EndsLine] at h
  rw [identifier, Text.dropFinalNewline, if_neg h, String.ofList_toList]

theorem noSmallStart_identifier {name : String} (h : NoSmallStart name) :
    NoSmallStart (identifier name) := by
  intro c hc
  apply h c
  rw [identifier, String.toList_ofList, Text.dropFinalNewline] at hc
  split at hc
  · rw [List.head?_dropLast] at hc
    split at hc
    · exact hc
    · cases hc
  · exact hc

/-- What a unit's own names can capture. Of the names that the unit imports, it is the builder
annotation's; the types of `java.lang` are safe, and so are all others, unless a name of the schema
ends in a line feed. Written by its qualified name is only the marker, and a container captures its
first part only if that does not begin with a small letter, as packages do. Imports have names of
their own, except that the builder annotation may be named like another import. -/
structure KeepsOutsideNames (config : Config) (u : CompilationUnit) : Prop where
  imports : ∀ name ∈ u.localNames, ∀ i ∈ u.imports, identifier name = identifier (simpleName i) →
    (config.builder = true ∧ i = config.builderName) ∨ EndsLine name
  language : ∀ name ∈ u.localNames, ∀ p ∈ u.languageNames, identifier name = p → EndsLine name
  markers : ∀ m ∈ u.inlineMarkers, config.withers = true ∧ m = config.marker
  roots : ∀ name ∈ u.containerNames, ∀ m ∈ u.inlineMarkers,
    identifier name = identifier (rootName m) → NoSmallStart (identifier (rootName m))
  apart : u.imports.Pairwise fun i j => identifier (simpleName i) = identifier (simpleName j) →
    config.builder = true ∧ (i = config.builderName ∨ j = config.builderName)

/-! ## Units of expected parts -/

/-- What a unit declares, imports and refers to is expected. -/
structure CompilationUnit.Expected (config : Config) (u : CompilationUnit) : Prop where
  declarations : ∀ d ∈ u.declarations, d.Expected config
  tops : ∀ d ∈ u.types, NoSmallStart d.head.name
  imports : ∀ i ∈ u.imports, i ∈ libraryTypes ∨ config.builder = true ∧ i = config.builderName
  nodup : u.imports.Nodup
  containers : ∀ t ∈ u.clauseReferences ++ u.bodyReferences,
    t.container ∉ platformTypes ∧ NoSmallStart t.container

/-- A unit of one type that imports what the type needs. -/
theorem CompilationUnit.expected_of_singleton {u : CompilationUnit} {whole : Declaration}
    (htypes : u.types = [whole]) (himports : u.imports = whole.imports.eraseDups)
    (hwhole : ∀ d ∈ whole.all, d.Expected config) (htop : NoSmallStart whole.head.name)
    (hcontainers : ∀ t ∈ u.clauseReferences ++ u.bodyReferences,
      t.container ∉ platformTypes ∧ NoSmallStart t.container) : u.Expected config where
  declarations := by simpa [declarations, htypes] using hwhole
  tops := by simpa [htypes] using htop
  imports := by
    intro i hi
    rw [himports, List.mem_eraseDups] at hi
    obtain ⟨d, hd, hneeds⟩ := whole.exists_of_mem_imports hi
    exact (hwhole d hd).of_needs hneeds
  nodup := himports ▸ nodup_eraseDups _
  containers := hcontainers

theorem noSmallStart_container (h : a.Describes config g) {t : TypePath}
    (ht : t ∈ a.types.map (·.head.path)) : NoSmallStart t.container := by
  obtain ⟨s, c, -, hfind⟩ := h.exists_allocated ht
  exact noSmallStart_keptInContainers.pathContainer hfind

theorem containerUnit_expected (h : a.Describes config g) {comment : String}
    {group : String × List GeneratedType} (hgroup : group ∈ groups a) {unit : CompilationUnit}
    (hunit : containerUnit config a comment group = .ok unit)
    (hreferences : ∀ t ∈ unit.clauseReferences ++ unit.bodyReferences,
      t ∈ a.types.map (·.head.path)) : unit.Expected config := by
  obtain ⟨-, whole, hwhole, hhouses⟩ := containerUnit_houses h hgroup hunit
  obtain ⟨container, hcontainer, rfl⟩ := List.mem_map.mp hgroup
  obtain ⟨top, head, shape, nested, others, hfind, hdeclared, hothers, -, htypes, himports⟩ :=
    containerUnit_spec hunit
  obtain rfl : _ = whole := List.singleton_inj.mp (htypes.symm.trans hwhole)
  have hsub : ∀ d ∈ a.types.filter (·.head.container == container), d ∈ a.types :=
    fun d hd => (List.mem_filter.mp hd).1
  have htop := declaration_expected h (hsub top (List.mem_of_find?_eq_some hfind)) hdeclared
  simp only [Declaration.all, List.forall_mem_cons] at htop
  obtain ⟨hown, hnested⟩ := htop
  refine CompilationUnit.expected_of_singleton htypes himports (fun e he => ?_) ?_ fun t ht =>
    ⟨(not_mem_platformTypes h (hreferences t ht)).2, noSmallStart_container h (hreferences t ht)⟩
  · rcases mem_all_nest.mp he with rfl | he | ⟨declared, hmem, he⟩
    -- With the others nested in it, the container's own type writes what it wrote alone.
    · exact ⟨hown.name, hown.types, hown.annotations⟩
    · exact hnested e he
    · obtain ⟨d, hd, hok⟩ := (mapM_eq_ok.mp hothers).exists_left declared hmem
      exact declaration_expected h (hsub d (List.mem_of_mem_eraseP hd)) hok e he
  · obtain ⟨d, hd, rfl⟩ := List.mem_map.mp (List.mem_eraseDups.mp hcontainer)
    rw [hhouses.name]
    exact noSmallStart_container h (List.mem_map_of_mem (f := (·.head.path)) hd)

theorem units_expected (h : a.Describes config g) {comment : String}
    {us : List (String × CompilationUnit)} (hus : units config a comment = .ok us) :
    ∀ e ∈ us, e.2.Expected config := by
  have hlays := units_lays h hus
  obtain ⟨modules, rfl, hmodules⟩ := units_spec hus
  intro e he
  have hreferences : ∀ t ∈ e.2.clauseReferences ++ e.2.bodyReferences,
      t ∈ a.types.map (·.head.path) := by
    intro t ht
    rcases List.mem_append.mp ht with ht | ht
    · exact (hlays.clauseReferences_mem he t ht).1
    · exact hlays.bodyReferences_mem he t ht
  rcases List.mem_append.mp he with he | he
  · obtain ⟨group, hgroup, -, hok⟩ := hmodules.exists_left e he
    exact containerUnit_expected h hgroup hok hreferences
  · obtain ⟨contract, hcontract, rfl⟩ := List.mem_map.mp he
    exact CompilationUnit.expected_of_singleton rfl rfl
      (contractDeclaration_expected h (Option.mem_toList.mp hcontract))
      (show NoSmallStart CopyProtocol.contract by decide) fun t ht =>
        ⟨(not_mem_platformTypes h (hreferences t ht)).2,
          noSmallStart_container h (hreferences t ht)⟩

section Units

variable {u : CompilationUnit}

theorem mem_typeParts {t : Ty} :
    t ∈ u.typeParts ↔ ∃ d ∈ u.declarations, ∃ s ∈ d.types, t ∈ s.parts := by
  simp [CompilationUnit.typeParts]

variable (hu : ∀ d ∈ u.declarations, d.Expected config)
include hu

theorem languageNames_subset : ∀ p ∈ u.languageNames, p ∈ languageTypes := by
  intro p hp
  rcases List.mem_append.mp hp with hp | hp
  · obtain ⟨t, ht, hname⟩ := List.mem_filterMap.mp hp
    obtain ⟨d, hd, s, hs, ht⟩ := mem_typeParts.mp ht
    exact ((hu d hd).types s hs t ht).platform_mem hname
  · obtain ⟨m, hm, rfl⟩ := List.mem_map.mp hp
    obtain ⟨hm, hqualified⟩ := List.mem_filter.mp hm
    obtain ⟨d, hd, hm⟩ := List.mem_flatMap.mp hm
    have hexpected := (hu d hd).annotations m hm
    rwa [Marker.Expected, Option.isNone_iff_eq_none.mp hqualified] at hexpected

theorem inlineMarkers_eq : ∀ m ∈ u.inlineMarkers, config.withers = true ∧ m = config.marker := by
  intro m hm
  obtain ⟨t, ht, hmarker⟩ := List.mem_filterMap.mp hm
  obtain ⟨d, hd, s, hs, ht⟩ := mem_typeParts.mp ht
  exact ((hu d hd).types s hs t ht).marker_eq hmarker

end Units

theorem CompilationUnit.Expected.localNames_free {u : CompilationUnit} (hu : u.Expected config) :
    ∀ name ∈ u.localNames, name ∉ platformTypes := by
  intro name hname
  rcases List.mem_append.mp hname with hname | hname
  · obtain ⟨d, hd, rfl⟩ := List.mem_map.mp hname
    exact (hu.declarations d hd).name
  · obtain ⟨t, ht, rfl⟩ := List.mem_map.mp hname
    exact (hu.containers t ht).1

theorem CompilationUnit.Expected.noSmallStart {u : CompilationUnit} (hu : u.Expected config) :
    ∀ name ∈ u.containerNames, NoSmallStart name := by
  intro name hname
  rcases List.mem_append.mp hname with hname | hname
  · obtain ⟨d, hd, rfl⟩ := List.mem_map.mp hname
    exact hu.tops d hd
  · obtain ⟨t, ht, rfl⟩ := List.mem_map.mp hname
    exact (hu.containers t ht).2

/-- A name that is none of the platform's is read as one only if a line feed ends it. -/
theorem endsLine_of_identifier_mem {name : String} (hname : name ∉ platformTypes)
    (h : identifier name ∈ languageTypes ++ libraryTypes.map simpleName) : EndsLine name := by
  by_contra hends
  rw [identifier_eq hends, ← platformTypes_perm.mem_iff] at h
  exact hname h

theorem CompilationUnit.Expected.keepsOutsideNames {u : CompilationUnit} (hu : u.Expected config) :
    KeepsOutsideNames config u := by
  have hlibrary : ∀ i ∈ libraryTypes, identifier (simpleName i) = simpleName i := by
    decide +kernel
  constructor
  case imports =>
    intro name hname i hi heq
    rcases hu.imports i hi with hmem | hbuilder
    · refine Or.inr (endsLine_of_identifier_mem (hu.localNames_free name hname) ?_)
      rw [heq, hlibrary i hmem]
      exact List.mem_append_right _ (List.mem_map_of_mem hmem)
    · exact Or.inl hbuilder
  case language =>
    intro name hname p hp heq
    apply endsLine_of_identifier_mem (hu.localNames_free name hname)
    rw [heq]
    exact List.mem_append_left _ (languageNames_subset hu.declarations p hp)
  case markers => exact inlineMarkers_eq hu.declarations
  case roots =>
    intro name hname m _ heq
    exact heq ▸ noSmallStart_identifier (hu.noSmallStart name hname)
  case apart =>
    -- Imports of the platform have simple names of their own, so one of two is the builder's.
    refine hu.nodup.imp_of_mem fun {i j} hi hj hne heq => ?_
    rcases hu.imports i hi with hmem | ⟨hbuilder, hname⟩
    · rcases hu.imports j hj with hmem' | ⟨hbuilder, hname⟩
      · rw [hlibrary i hmem, hlibrary j hmem'] at heq
        exact absurd (List.inj_on_of_nodup_map libraryTypes_nodup hmem hmem' heq) hne
      · exact ⟨hbuilder, Or.inr hname⟩
    · exact ⟨hbuilder, Or.inl hname⟩

/-! ## Whole runs -/

/-- A run in Java writes units whose own names capture no name from outside, except for those that
the configuration brings in and for names of the schema that end in a line feed. -/
theorem generate_keepsOutsideNames {r : Run} {doc : Json} {files : Files}
    (hrecords : r.config.records = true) (hvalidate : r.validate = .ok .java)
    (h : r.generate (.document doc) = .ok files) :
    ∃ a us, r.analyze (.document doc) = .ok a ∧ units r.config a (r.banner .java) = .ok us ∧
      files = us.map (fun e => (e.1, e.2.print r.config.indent)) ∧
      ∀ e ∈ us, KeepsOutsideNames r.config e.2 := by
  obtain ⟨g, a, us, hd, hanalyze, hus, hfiles⟩ := generate_units hrecords hvalidate h
  exact ⟨a, us, hanalyze, hus, hfiles,
    fun e he => (units_expected hd hus e he).keepsOutsideNames⟩

theorem generate_keepsOutsideNames_shapes : ∃ files,
    ({ config := { withers := true, builder := true } } : Run).validate = .ok .java ∧
    ({ config := { withers := true, builder := true } } : Run).generate
      (.document Document.shapes) = .ok files ∧
    ∃ a us, ({ config := { withers := true, builder := true } } : Run).analyze
        (.document Document.shapes) = .ok a ∧
      units { withers := true, builder := true } a
        (({ config := { withers := true, builder := true } } : Run).banner .java) = .ok us ∧
      files = us.map (fun e => (e.1, e.2.print ({} : Config).indent)) ∧
      ∀ e ∈ us, KeepsOutsideNames { withers := true, builder := true } e.2 := by
  have hvalidate : ({ config := { withers := true, builder := true } } : Run).validate =
      .ok .java := by decide +kernel
  have hok : (({ config := { withers := true, builder := true } } : Run).generate
      (.document Document.shapes)).isOk = true := by
    decide +kernel
  obtain ⟨files, h⟩ := exists_ok hok
  exact ⟨files, hvalidate, h, generate_keepsOutsideNames rfl hvalidate h⟩

end Java

/-- A module whose classes have the simple name of the builder annotation and the first part of the
nullability marker. -/
def Document.intruding : Json :=
  .object [("modules", .list [
    .object [("name", .text "m"), ("classes", .list [
      .object [("name", .text "Builder")],
      .object [("name", .text "org")]])]])]

namespace Java

/-- The record `Builder` has the simple name of an import of its unit, and the record `org` the
first part of the marker that the unit writes by its qualified name. -/
theorem intruding_captures : ∃ us,
    (({ config := { withers := true, builder := true } } : Run).analyze
        (.document Document.intruding) >>= fun a =>
      (units { withers := true, builder := true } a "").mapError .target) = .ok us ∧
    ∃ e ∈ us, "Builder" ∈ e.2.localNames ∧ "lombok.Builder" ∈ e.2.imports ∧
      simpleName "lombok.Builder" = "Builder" ∧ "org" ∈ e.2.localNames ∧
      "org.checkerframework.checker.nullness.qual.NonNull" ∈ e.2.inlineMarkers ∧
      (nameParts "org.checkerframework.checker.nullness.qual.NonNull").head? = some "org" := by
  apply Fallible.exists_ok_and
  decide +kernel

end Java

end RecordGen

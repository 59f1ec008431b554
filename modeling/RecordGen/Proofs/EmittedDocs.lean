import RecordGen.Proofs.MappedDocs

/-! # Documentation in sources

Backends look at the texts of accessors and at the blocks of types, and at no other documentation.
A class looks at a text only as far as it is not blank; a comment also tells an empty text from a
blank one. -/

namespace RecordGen

open Text Fallible

/-- The text, unless it holds nothing but white space. -/
def dropBlank (doc : Option String) : Option String :=
  doc.bind fun s => if blank s then none else some s

variable {h f : Option String → Option String}

/-! ## What targets ask of a result -/

theorem allocateMembers_map (escape : String → String) (taken : List String) (ds : List Declared) :
    allocateMembers escape taken (ds.map (Declared.mapDoc f)) =
      allocateMembers escape taken ds := by
  induction ds generalizing taken with
  | nil => rfl
  | cons d ds ih =>
      simp only [List.map_cons, allocateMembers, ih]
      rfl

namespace Analysis

variable (a : Analysis)

theorem resolution?_mapDocs (c : ClassId) :
    (a.mapDocs h f).resolution? c = (a.resolution? c).map (Resolution.mapDocs f) := by
  rw [resolution?, mapDocs, List.find?_map]
  rfl

theorem counterpart_mapDocs : (a.mapDocs h f).counterpart = a.counterpart := by
  funext name target
  have htype : (target.bind (a.mapDocs h f).resolution?).bind (·.counterpart?) =
      (target.bind a.resolution?).bind (·.counterpart?) := by
    cases target with
    | none => rfl
    | some c =>
        rw [Option.bind_some, Option.bind_some, resolution?_mapDocs]
        cases a.resolution? c <;> rfl
  rw [counterpart, counterpart, htype]

theorem memberTable_mapDocs : (a.mapDocs h f).memberTable = a.memberTable := by
  funext escape head
  rw [memberTable, memberTable, resolution?_mapDocs]
  cases a.resolution? head.source with
  | none => rfl
  | some r => exact congrArg Except.ok (allocateMembers_map escape [] r.properties)

theorem heads_mapDocs : (a.mapDocs h f).types.map (·.head) = a.types.map (·.head) := by
  rw [mapDocs, List.map_map]
  congr 1
  funext d
  exact d.head_mapDocs h f

end Analysis

/-! ## Python -/

namespace Python

variable (a : Analysis) (names : Table TypePath String)

/-! A translation asks a result for the counterparts of classes only. -/

variable {a' : Analysis}

mutual

theorem translateInner_congr (hsame : a'.counterpart = a.counterpart) : ∀ t,
    translateInner a' names t = translateInner a names t
  | .node .optional _ [] _ => rfl
  | .node .optional _ (inner :: _) _ => by
      simp only [translateInner, translateInner_congr hsame inner]
  | .node .primitive _ _ _ => rfl
  | .node .collection _ arguments _ => by
      simp only [translateInner, translateArguments_congr hsame arguments]
  | .node .reference _ _ _ => by
      simp only [translateInner, hsame]

theorem translateArguments_congr (hsame : a'.counterpart = a.counterpart) : ∀ ts,
    translateArguments a' names ts = translateArguments a names ts
  | [] => rfl
  | t :: ts => by
      simp only [translateArguments, translateInner_congr hsame t,
        translateArguments_congr hsame ts]

end

theorem translate_congr (hsame : a'.counterpart = a.counterpart) :
    translate a' names = translate a names := by
  funext t nullable
  rw [translate, translate, translateInner_congr a names hsame]

theorem translate_mapDocs : translate (a.mapDocs h f) names = translate a names :=
  translate_congr a names a.counterpart_mapDocs

/-- The docs of an interface leave blank texts out. -/
theorem interfaceDoc_mapDocs (hblank : ∀ doc, dropBlank (h doc) = dropBlank doc)
    (members : List (String × String)) (d : GeneratedInterface) :
    interfaceDoc members (d.mapDocs h) = interfaceDoc members d := by
  have hentry : ∀ m : Accessor, (m.doc.bind fun text =>
      if blank text then none else some (m.name, text)) = (dropBlank m.doc).map (m.name, ·) := by
    intro m
    rw [dropBlank]
    cases m.doc with
    | none => rfl
    | some text => by_cases hblank : blank text <;> simp [hblank]
  have hentries : (d.accessors.map (Accessor.mapDoc h)).filterMap (fun m => m.doc.bind fun text =>
      if blank text then none else some (m.name, text)) =
        d.accessors.filterMap fun m => m.doc.bind fun text =>
          if blank text then none else some (m.name, text) := by
    simp only [hentry, List.filterMap_map]
    congr 1
    funext m
    simp only [Function.comp_apply, Accessor.mapDoc, hblank]
  simp only [interfaceDoc, GeneratedInterface.mapDocs, hentries]

variable (config : Config)

theorem interfaceClass_mapDocs (hblank : ∀ doc, dropBlank (h doc) = dropBlank doc)
    (d : GeneratedInterface) : interfaceClass config (a.mapDocs h f) names (d.mapDocs h) =
      interfaceClass config a names d := by
  simp only [interfaceClass, a.memberTable_mapDocs, interfaceDoc_mapDocs hblank,
    translate_mapDocs]
  simp only [GeneratedInterface.mapDocs, List.mapM_map]
  rfl

theorem recordClass_mapDocs (d : GeneratedRecord) :
    recordClass config (a.mapDocs h f) names (d.mapDocs f) = recordClass config a names d := by
  simp only [recordClass, a.memberTable_mapDocs, translate_mapDocs, GeneratedRecord.mapDocs,
    List.mapM_map]
  rfl

theorem classes_mapDocs (hblank : ∀ doc, dropBlank (h doc) = dropBlank doc) :
    classes config (a.mapDocs h f) = classes config a := by
  have hdefinition : ∀ names, classDefinition config (a.mapDocs h f) names ∘
      GeneratedType.mapDocs h f = classDefinition config a names := by
    intro names
    funext d
    cases d with
    | interface d => exact interfaceClass_mapDocs a names config hblank d
    | record d => exact recordClass_mapDocs a names config d
  have hnames : classNames (a.mapDocs h f) = classNames a := by
    have hpaths : (a.mapDocs h f).types.map (·.head.path) = a.types.map (·.head.path) := by
      have hheads := congrArg (List.map TypeHead.path) (a.heads_mapDocs (h := h) (f := f))
      rwa [List.map_map, List.map_map] at hheads
    rw [classNames, classNames, hpaths]
    rfl
  rw [classes, classes, hnames]
  refine bind_congr fun names => ?_
  rw [Analysis.mapDocs, List.mapM_map]
  exact congrArg (a.types.mapM ·) (hdefinition names)

/-- A module says the same if texts are changed into texts that are blank where they were. -/
theorem generate_mapDocs (hblank : ∀ doc, dropBlank (h doc) = dropBlank doc) (comment : String) :
    generate config (a.mapDocs h f) comment = generate config a comment := by
  have himports : typingImports (a.mapDocs h f) = typingImports a := by
    funext body
    simp only [typingImports, a.interfaces_mapDocs, a.records_mapDocs, List.isEmpty_map]
    rfl
  rw [generate, generate, classes_mapDocs a config hblank, himports]
  rfl

end Python

/-! ## Java

Methods of a declaration are documented apart from the declaration itself. What changes is their
documentation, here by a function of its lines. -/

namespace Java

variable {k : List String → List String}

def Method.mapDoc (k : List String → List String) (m : Method) : Method :=
  { m with javadoc := k m.javadoc }

mutual

/-- Changes the documentation of all methods in a declaration. -/
def Declaration.mapMethodDocs (k : List String → List String) : Declaration → Declaration
  | .mk head shape nested =>
    .mk { head with methods := head.methods.map (Method.mapDoc k) } shape
      (mapNestedDocs k nested)

def mapNestedDocs (k : List String → List String) : List Declaration → List Declaration
  | [] => []
  | d :: ds => d.mapMethodDocs k :: mapNestedDocs k ds

end

def CompilationUnit.mapMethodDocs (k : List String → List String) (u : CompilationUnit) :
    CompilationUnit :=
  { u with types := u.types.map (Declaration.mapMethodDocs k) }

theorem mapNestedDocs_eq (k : List String → List String) (ds : List Declaration) :
    mapNestedDocs k ds = ds.map (Declaration.mapMethodDocs k) := by
  induction ds with
  | nil => rfl
  | cons d ds ih => rw [mapNestedDocs, ih, List.map_cons]

mutual

theorem Declaration.imports_mapMethodDocs : ∀ d : Declaration,
    (d.mapMethodDocs k).imports = d.imports
  | .mk head shape nested => by
      simp only [Declaration.mapMethodDocs, Declaration.imports, List.flatMap_map,
        nestedImports_mapNestedDocs nested]
      rfl

theorem nestedImports_mapNestedDocs : ∀ ds : List Declaration,
    nestedImports (mapNestedDocs k ds) = nestedImports ds
  | [] => rfl
  | d :: ds => by
      rw [mapNestedDocs, nestedImports, nestedImports, d.imports_mapMethodDocs,
        nestedImports_mapNestedDocs ds]

end

mutual

theorem Declaration.mapMethodDocs_id : ∀ d : Declaration, d.mapMethodDocs id = d
  | .mk head shape nested => by
      rw [Declaration.mapMethodDocs, mapNestedDocs_id nested,
        show Method.mapDoc id = id from rfl, List.map_id]

theorem mapNestedDocs_id : ∀ ds : List Declaration, mapNestedDocs id ds = ds
  | [] => rfl
  | d :: ds => by rw [mapNestedDocs, d.mapMethodDocs_id, mapNestedDocs_id ds]

end

variable (a : Analysis)

variable {a' : Analysis}

mutual

theorem translate_congr (hsame : a'.counterpart = a.counterpart) : ∀ t nullable,
    translate a' t nullable = translate a t nullable
  | .node .optional _ [] _, _ => rfl
  | .node .optional _ (inner :: _) _, _ => by
      simp only [translate, translate_congr hsame inner]
  | .node .primitive _ _ _, _ => rfl
  | .node .collection _ arguments _, _ => by
      simp only [translate, translateArguments_congr hsame arguments]
  | .node .reference _ _ _, _ => by
      simp only [translate, hsame]

theorem translateArguments_congr (hsame : a'.counterpart = a.counterpart) : ∀ ts,
    translateArguments a' ts = translateArguments a ts
  | [] => rfl
  | t :: ts => by
      simp only [translateArguments, translate_congr hsame t, translateArguments_congr hsame ts]

end

theorem translate_mapDocs (t : PropertyType) (nullable : Bool) :
    translate (a.mapDocs h f) t nullable = translate a t nullable :=
  translate_congr a a.counterpart_mapDocs t nullable

variable (config : Config)

/-- A record does not show the texts of its components one by one. -/
theorem recordDeclaration_mapDocs (d : GeneratedRecord) :
    recordDeclaration config (a.mapDocs h f) (d.mapDocs f) = recordDeclaration config a d := by
  have hcomponent : ∀ members, componentParameter (a.mapDocs h f) members ∘ Component.mapDoc f =
      componentParameter a members := by
    intro members
    funext c
    simp only [Function.comp_apply, componentParameter, translate_mapDocs]
    rfl
  simp only [recordDeclaration, a.memberTable_mapDocs, GeneratedRecord.mapDocs, List.mapM_map,
    hcomponent]

/-- The methods of a record have no documentation. -/
theorem recordDeclaration_undocumented (hk : k [] = []) (d : GeneratedRecord) :
    Declaration.mapMethodDocs k <$> recordDeclaration config a d =
      recordDeclaration config a d := by
  have hwith : ∀ name marker, (withMethod name marker).mapDoc k = withMethod name marker := by
    intro name marker
    simp only [withMethod, Method.mapDoc, hk]
  have hstaging : ∀ doc name components, (stagingClass doc name components).mapMethodDocs k =
      stagingClass doc name components := by
    intro doc name components
    simp only [stagingClass, Declaration.mapMethodDocs, List.map_cons, List.map_nil, Method.mapDoc,
      hk, mapNestedDocs]
  simp only [recordDeclaration, map_bind]
  refine bind_congr fun members => bind_congr fun components => bind_congr fun renamed =>
    bind_congr fun doc => ?_
  cases d.copyWith with
  | none => rfl
  | some copy =>
      simp only [map_bind, map_pure, Declaration.mapMethodDocs, List.map_cons, List.map_nil, hwith,
        mapNestedDocs, hstaging]

theorem groups_mapDocs : groups (a.mapDocs h f) =
    (groups a).map fun group => (group.1, group.2.map (GeneratedType.mapDocs h f)) := by
  have hcontainers : (a.mapDocs h f).types.map (·.head.container) =
      a.types.map (·.head.container) := by
    have hheads := congrArg (List.map TypeHead.container) (a.heads_mapDocs (h := h) (f := f))
    rwa [List.map_map, List.map_map] at hheads
  rw [groups, groups, hcontainers, List.map_map]
  congr 1
  funext container
  simp only [Function.comp_apply, Analysis.mapDocs, List.filter_map, Prod.mk.injEq, true_and]
  congr 2
  funext d
  rw [Function.comp_apply, GeneratedType.head_mapDocs]

/-! The documentation of an accessor follows its text alone. -/

section

variable {config a}
  (hdoc : ∀ doc, javadoc config { lead := h doc } = k <$> javadoc config { lead := doc })

include hdoc

theorem accessorMethod_mapDocs (members : List (String × String)) (m : Accessor) :
    accessorMethod config (a.mapDocs h f) members (m.mapDoc h) =
      Method.mapDoc k <$> accessorMethod config a members m := by
  simp only [accessorMethod, translate_mapDocs, Accessor.mapDoc, hdoc, map_bind, bind_map_left]
  rfl

theorem interfaceDeclaration_mapDocs (d : GeneratedInterface) :
    interfaceDeclaration config (a.mapDocs h f) (d.mapDocs h) =
      Declaration.mapMethodDocs k <$> interfaceDeclaration config a d := by
  have hmethods : ∀ members, (d.accessors.map (Accessor.mapDoc h)).mapM
      (accessorMethod config (a.mapDocs h f) members) =
        List.map (Method.mapDoc k) <$> d.accessors.mapM (accessorMethod config a members) :=
    fun members => mapM_changed (accessorMethod_mapDocs hdoc members) d.accessors
  simp only [interfaceDeclaration, a.memberTable_mapDocs, GeneratedInterface.mapDocs, hmethods,
    map_bind, bind_map_left]
  rfl

variable (hk : k [] = [])

include hk

theorem declaration_mapDocs (d : GeneratedType) :
    declaration config (a.mapDocs h f) (d.mapDocs h f) =
      Declaration.mapMethodDocs k <$> declaration config a d := by
  cases d with
  | interface d => exact interfaceDeclaration_mapDocs hdoc d
  | record d =>
      exact (recordDeclaration_mapDocs a config d).trans
        (recordDeclaration_undocumented a config hk d).symm

theorem containerUnit_mapDocs (comment : String) (group : String × List GeneratedType) :
    containerUnit config (a.mapDocs h f) comment
        (group.1, group.2.map (GeneratedType.mapDocs h f)) =
      CompilationUnit.mapMethodDocs k <$> containerUnit config a comment group := by
  have hmodule : (fun d : GeneratedType => d.head.isModuleType) ∘ GeneratedType.mapDocs h f =
      fun d => d.head.isModuleType := by
    funext d
    rw [Function.comp_apply, GeneratedType.head_mapDocs]
  simp only [containerUnit, List.find?_map, List.eraseP_map, hmodule]
  cases group.2.find? (·.head.isModuleType) with
  | none => rfl
  | some top =>
      simp only [Option.map_some, declaration_mapDocs hdoc hk,
        mapM_changed (declaration_mapDocs hdoc hk), bind_map_left, map_bind]
      refine bind_congr fun ⟨head, shape, nested⟩ => ?_
      simp only [Declaration.mapMethodDocs, map_bind]
      refine bind_congr fun others => ?_
      have hwhole : Declaration.mk { head with methods := head.methods.map (Method.mapDoc k) } shape
          (mapNestedDocs k nested ++ others.map (Declaration.mapMethodDocs k)) =
            (Declaration.mk head shape (nested ++ others)).mapMethodDocs k := by
        rw [Declaration.mapMethodDocs, mapNestedDocs_eq, mapNestedDocs_eq, List.map_append]
      rw [hwhole, Declaration.imports_mapMethodDocs]
      rfl

variable (hcontract : ∀ contract, (contractDeclaration contract).mapMethodDocs k =
  contractDeclaration contract)

include hcontract

/-- The units are those of before, with the documentation of accessors changed. -/
theorem units_mapDocs (comment : String) : units config (a.mapDocs h f) comment =
    List.map (fun e => (e.1, e.2.mapMethodDocs k)) <$> units config a comment := by
  have hmodules : (groups (a.mapDocs h f)).mapM (fun group =>
        return (filePath config group.1, ← containerUnit config (a.mapDocs h f) comment group)) =
      List.map (fun e => (e.1, e.2.mapMethodDocs k)) <$> (groups a).mapM (fun group =>
        return (filePath config group.1, ← containerUnit config a comment group)) := by
    rw [groups_mapDocs]
    refine mapM_changed (fun group => ?_) (groups a)
    rw [containerUnit_mapDocs hdoc hk]
    simp only [map_bind, bind_map_left]
    rfl
  have hunit : ∀ contract, (contractUnit config comment contract).mapMethodDocs k =
      contractUnit config comment contract := by
    intro contract
    rw [contractUnit, CompilationUnit.mapMethodDocs, List.map_singleton, hcontract]
  rw [units, units, hmodules]
  simp only [bind_map_left, map_bind, map_pure, List.map_append, List.map_map, Function.comp_def,
    hunit]
  rfl

end

/-- Files say the same if texts are changed into texts that are rendered alike. -/
theorem generate_mapDocs
    (hdoc : ∀ doc, javadoc config { lead := h doc } = javadoc config { lead := doc })
    (comment : String) :
    generate config (a.mapDocs h f) comment = generate config a comment := by
  have hdoc' : ∀ doc, javadoc config { lead := h doc } = id <$> javadoc config { lead := doc } :=
    fun doc => (hdoc doc).trans (id_map _).symm
  have hunits : (fun e : String × CompilationUnit => (e.1, e.2.mapMethodDocs id)) = id := by
    funext e
    rw [CompilationUnit.mapMethodDocs, funext Declaration.mapMethodDocs_id, List.map_id']
    rfl
  rw [generate, generate, units_mapDocs hdoc' rfl fun _ => Declaration.mapMethodDocs_id _, hunits,
    List.map_id_fun, id_map]

end Java

end RecordGen

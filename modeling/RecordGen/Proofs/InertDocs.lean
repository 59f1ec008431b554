import RecordGen.Proofs.BlankDocs
import RecordGen.Proofs.Outcomes

/-! # Documentation and code

No stage of a run lets documentation decide anything. Two documents that agree without their texts
are read, resolved and described alike, or refused with one fault. Sources agree as well when
documentation is not written, and whether they can be written never depends on it. -/

namespace RecordGen

open Fallible

/-- How a computation ends, whatever it gives. -/
def ending {ε α : Type} (x : Except ε α) : Except ε Unit :=
  (fun _ => ()) <$> x

theorem ending_ok {ε α : Type} (a : α) : ending (.ok a : Except ε α) = .ok () := rfl

/-- Takes documentation away. -/
def noDoc (_ : Option String) : Option String := none

/-! ## Results without documentation -/

def GeneratedInterface.undocumented (d : GeneratedInterface) : GeneratedInterface :=
  { d.mapDocs noDoc with doc := {} }

def GeneratedRecord.undocumented (d : GeneratedRecord) : GeneratedRecord :=
  { d.mapDocs noDoc with doc := {} }

/-- Everything a type has but its documentation. -/
def GeneratedType.undocumented : GeneratedType → GeneratedType
  | .interface d => .interface d.undocumented
  | .record d => .record d.undocumented

namespace GeneratedType

@[simp] theorem path_undocumented (d : GeneratedType) :
    d.undocumented.head.path = d.head.path := by
  cases d <;> rfl

@[simp] theorem container_undocumented (d : GeneratedType) :
    d.undocumented.head.container = d.head.container := by
  cases d <;> rfl

@[simp] theorem isModuleType_undocumented (d : GeneratedType) :
    d.undocumented.head.isModuleType = d.head.isModuleType := by
  cases d <;> rfl

end GeneratedType

namespace Analysis

def undocumented (a : Analysis) : Analysis :=
  { a with
    types := a.types.map GeneratedType.undocumented
    resolutions := a.resolutions.map (Resolution.mapDocs noDoc) }

variable (a : Analysis)

theorem interfaces_undocumented :
    a.undocumented.interfaces = a.interfaces.map GeneratedInterface.undocumented := by
  rw [interfaces, interfaces, undocumented, List.filterMap_map, List.map_filterMap]
  congr 1
  funext d
  cases d <;> rfl

theorem records_undocumented :
    a.undocumented.records = a.records.map GeneratedRecord.undocumented := by
  rw [records, records, undocumented, List.filterMap_map, List.map_filterMap]
  congr 1
  funext d
  cases d <;> rfl

theorem counterpart_undocumented : a.undocumented.counterpart = a.counterpart :=
  a.counterpart_mapDocs (h := noDoc)

theorem memberTable_undocumented : a.undocumented.memberTable = a.memberTable :=
  a.memberTable_mapDocs (h := noDoc)

/-! ## Describing

A type of a graph without documentation is the type without documentation. -/

section

variable (config : Config) (g : ClassGraph)

theorem typesOf_noDoc (r : Resolution) : typesOf config (g.mapDocs noDoc) (r.mapDocs noDoc) =
    (typesOf config g r).map GeneratedType.undocumented := by
  have hinterface : ∀ t, interfaceOf (g.mapDocs noDoc) (r.mapDocs noDoc) t =
      (interfaceOf g r t).undocumented := by
    intro t
    simp only [interfaceOf, GeneratedInterface.undocumented, GeneratedInterface.mapDocs,
      Resolution.mapDocs, ClassGraph.decl_mapDocs (f := noDoc) rfl, ClassDecl.mapDocs,
      List.map_map]
    rfl
  have hrecord : ∀ t, recordOf config (g.mapDocs noDoc) (r.mapDocs noDoc) t =
      (recordOf config g r t).undocumented := by
    intro t
    have hdoc : Documentation.ofClass none ((r.properties.map (Declared.mapDoc noDoc)).map fun e =>
        (e.property.name, e.property.doc)) = {} := by
      rw [Documentation.ofClass, List.map_map, List.filterMap_map]
      exact congrArg (Documentation.mk none) (List.filterMap_eq_nil_iff.mpr fun _ _ => rfl)
    simp only [recordOf, GeneratedRecord.undocumented, GeneratedRecord.mapDocs, Resolution.mapDocs,
      ClassGraph.decl_mapDocs (f := noDoc) rfl, ClassDecl.mapDocs,
      ClassGraph.fullName_mapDocs (f := noDoc) rfl]
    rw [show noDoc (g.decl r.source).doc = none from rfl, hdoc]
    simp only [List.map_map]
    rfl
  have hnames : (r.mapDocs noDoc).interface = r.interface ∧ (r.mapDocs noDoc).record = r.record :=
    ⟨rfl, rfl⟩
  simp only [typesOf, hinterface, hrecord, hnames, List.map_append]
  cases r.interface <;> cases r.record <;> rfl

theorem ofResolutions_noDoc (rs : List Resolution) :
    ofResolutions config (g.mapDocs noDoc) (rs.map (Resolution.mapDocs noDoc)) =
      (ofResolutions config g rs).undocumented := by
  simp only [ofResolutions, undocumented, List.flatMap_map, typesOf_noDoc, List.map_flatMap]

theorem check_undocumented (a : Analysis) :
    a.undocumented.check (g.mapDocs noDoc) = a.check g := by
  have hallocated : a.undocumented.interfaces.map (·.path) = a.interfaces.map (·.path) := by
    rw [interfaces_undocumented, List.map_map]
    rfl
  have hmentions : a.undocumented.mentions (g.mapDocs noDoc) = a.mentions g := by
    simp only [mentions, interfaces_undocumented, records_undocumented, List.flatMap_map,
      ClassGraph.fullName_mapDocs (f := noDoc) rfl]
    rfl
  rw [check, check, hmentions, hallocated]

/-- A graph without documentation gives the result without documentation, or the same fault. -/
theorem analyze_noDoc (workers : Option Int) :
    analyze config workers (g.mapDocs noDoc) = undocumented <$> analyze config workers g := by
  simp only [analyze, describe, ClassGraph.resolve_mapDocs (f := noDoc) rfl, bind_map_left,
    ofResolutions_noDoc, check_undocumented, map_bind, map_pure]

end

end Analysis

/-! ## Java -/

namespace Java

variable {config : Config} {a : Analysis} (hdocs : config.docs = false)

include hdocs

/-- Nothing is written of documentation that is switched off. -/
theorem javadoc_off (d : Documentation) : javadoc config d = .ok [] := by
  simp [javadoc, hdocs]

theorem interfaceDeclaration_off (d : GeneratedInterface) :
    interfaceDeclaration config a.undocumented d.undocumented =
      interfaceDeclaration config a d := by
  have hmethod : ∀ members, accessorMethod config a.undocumented members ∘ Accessor.mapDoc noDoc =
      accessorMethod config a members := by
    intro members
    funext m
    simp only [Function.comp_apply, accessorMethod, javadoc_off hdocs,
      translate_congr a a.counterpart_undocumented]
    rfl
  simp only [interfaceDeclaration, a.memberTable_undocumented, javadoc_off hdocs,
    GeneratedInterface.undocumented, GeneratedInterface.mapDocs, List.mapM_map, hmethod]
  rfl

/-- Entries that are not written need no names. -/
theorem recordDeclaration_off {d : GeneratedRecord} {declared : Declaration}
    (h : recordDeclaration config a d = .ok declared) :
    recordDeclaration config a.undocumented d.undocumented = .ok declared := by
  have hcomponent : ∀ members, componentParameter a.undocumented members ∘ Component.mapDoc noDoc =
      componentParameter a members := by
    intro members
    funext c
    simp only [Function.comp_apply, componentParameter,
      translate_congr a a.counterpart_undocumented]
    rfl
  obtain ⟨members, hmembers, h⟩ := bind_eq_ok.mp h
  obtain ⟨components, hcomponents, h⟩ := bind_eq_ok.mp h
  obtain ⟨renamed, -, h⟩ := bind_eq_ok.mp h
  rw [javadoc_off hdocs, ok_bind] at h
  have hnone : renameEntries members {} = .ok {} := rfl
  have hmembers' : a.undocumented.memberTable legalMember d.undocumented.toTypeHead =
      .ok members := by
    rw [a.memberTable_undocumented]
    exact hmembers
  have hcomponents' : d.undocumented.components.mapM (componentParameter a.undocumented members) =
      .ok components := by
    rw [GeneratedRecord.undocumented, GeneratedRecord.mapDocs, List.mapM_map, hcomponent]
    exact hcomponents
  rw [recordDeclaration, hmembers', ok_bind, hcomponents', ok_bind,
    show d.undocumented.doc = {} from rfl, hnone, ok_bind, javadoc_off hdocs, ok_bind]
  exact h

theorem declaration_off {d : GeneratedType} {declared : Declaration}
    (h : declaration config a d = .ok declared) :
    declaration config a.undocumented d.undocumented = .ok declared := by
  cases d with
  | interface d => exact (interfaceDeclaration_off hdocs d).trans h
  | record d => exact recordDeclaration_off hdocs h

omit hdocs in
theorem groups_undocumented : groups a.undocumented =
    (groups a).map fun group => (group.1, group.2.map GeneratedType.undocumented) := by
  have hcontainers : a.undocumented.types.map (·.head.container) =
      a.types.map (·.head.container) := by
    rw [Analysis.undocumented, List.map_map]
    exact List.map_congr_left fun d _ => d.container_undocumented
  rw [groups, groups, hcontainers, List.map_map]
  refine List.map_congr_left fun container _ => ?_
  simp only [Function.comp_apply, Analysis.undocumented, List.filter_map, Prod.mk.injEq, true_and]
  congr 2
  funext d
  rw [Function.comp_apply, d.container_undocumented]

theorem containerUnit_off {comment : String} {group : String × List GeneratedType}
    {unit : CompilationUnit} (h : containerUnit config a comment group = .ok unit) :
    containerUnit config a.undocumented comment
      (group.1, group.2.map GeneratedType.undocumented) = .ok unit := by
  have hmodule : (fun d : GeneratedType => d.head.isModuleType) ∘ GeneratedType.undocumented =
      fun d => d.head.isModuleType := funext fun d => d.isModuleType_undocumented
  have hothers : ∀ (ds : List GeneratedType) others, ds.mapM (declaration config a) = .ok others →
      (ds.map GeneratedType.undocumented).mapM (declaration config a.undocumented) =
        .ok others := by
    intro ds others hds
    rw [List.mapM_map]
    exact Persists.mapM (fun d _ _ hd => declaration_off hdocs hd) others hds
  simp only [containerUnit, List.find?_map, List.eraseP_map, hmodule] at h ⊢
  cases htop : group.2.find? (·.head.isModuleType) with
  | none => simp [htop] at h
  | some top =>
      simp only [htop] at h
      obtain ⟨⟨head, shape, nested⟩, hdeclared, h⟩ := bind_eq_ok.mp h
      obtain ⟨others, hok, h⟩ := bind_eq_ok.mp h
      rw [Option.map_some]
      simp only [declaration_off hdocs hdeclared, hothers _ _ hok, ok_bind]
      exact h

/-- What can be written without its documentation is written the same when that is left out. -/
theorem generate_off {comment : String} {files : List (String × String)}
    (h : generate config a comment = .ok files) :
    generate config a.undocumented comment = .ok files := by
  obtain ⟨us, hus, h⟩ := bind_eq_ok.mp h
  obtain ⟨modules, hmodules, hus⟩ := bind_eq_ok.mp hus
  have hmodules' : (groups a.undocumented).mapM (fun group =>
      return (filePath config group.1, ← containerUnit config a.undocumented comment group)) =
        .ok modules := by
    rw [groups_undocumented, List.mapM_map]
    refine Persists.mapM (fun group _ entry hentry => ?_) modules hmodules
    obtain ⟨unit, hunit, hentry⟩ := bind_eq_ok.mp hentry
    rw [Function.comp_apply, containerUnit_off hdocs hunit, ok_bind]
    exact hentry
  have hunits : units config a.undocumented comment = .ok us := by
    rw [units, hmodules', ok_bind]
    exact hus
  rw [generate, hunits, ok_bind]
  exact h

end Java

/-! ## Python -/

namespace Python

variable {config : Config} {a : Analysis} {names : Table TypePath String}

theorem classNames_undocumented (a : Analysis) : classNames a.undocumented = classNames a := by
  have hpaths : a.undocumented.types.map (·.head.path) = a.types.map (·.head.path) := by
    rw [Analysis.undocumented, List.map_map]
    exact List.map_congr_left fun d _ => d.path_undocumented
  rw [classNames, classNames, hpaths]
  rfl

variable (hdocs : config.docs = false)

include hdocs

theorem docStatement_off (depth : Nat) (d : Documentation) :
    docStatement config depth d = .ok [] := by
  simp [docStatement, hdocs]

theorem interfaceClass_off {d : GeneratedInterface} {members : List (String × String)}
    {block : Documentation} (hmembers : a.memberTable legalMember d.toTypeHead = .ok members)
    (hblock : interfaceDoc members d = .ok block) :
    interfaceClass config a.undocumented names d.undocumented =
      interfaceClass config a names d := by
  have hmembers' : a.undocumented.memberTable legalMember d.undocumented.toTypeHead =
      .ok members := by
    rw [a.memberTable_undocumented]
    exact hmembers
  have hdoc : interfaceDoc members d.undocumented = .ok {} := by
    have hnone : (d.accessors.map (Accessor.mapDoc noDoc)).filterMap (fun m =>
        m.doc.bind fun text => if Text.blank text then none else some (m.name, text)) = [] := by
      rw [List.filterMap_map]
      exact List.filterMap_eq_nil_iff.mpr fun _ _ => rfl
    rw [interfaceDoc, GeneratedInterface.undocumented, GeneratedInterface.mapDocs, hnone]
    rfl
  simp only [interfaceClass, hmembers, hmembers', hblock, hdoc, ok_bind, docStatement_off hdocs,
    translate_congr a names a.counterpart_undocumented]
  simp only [GeneratedInterface.undocumented, GeneratedInterface.mapDocs, List.mapM_map]
  rfl

theorem recordClass_off {d : GeneratedRecord} {members : List (String × String)}
    {renamed : Documentation} (hmembers : a.memberTable legalMember d.toTypeHead = .ok members)
    (hrenamed : renameEntries members d.doc = .ok renamed) :
    recordClass config a.undocumented names d.undocumented = recordClass config a names d := by
  have hmembers' : a.undocumented.memberTable legalMember d.undocumented.toTypeHead =
      .ok members := by
    rw [a.memberTable_undocumented]
    exact hmembers
  have hdoc : renameEntries members d.undocumented.doc = .ok {} := rfl
  simp only [recordClass, hmembers, hmembers', hrenamed, hdoc, ok_bind, docStatement_off hdocs,
    translate_congr a names a.counterpart_undocumented]
  simp only [GeneratedRecord.undocumented, GeneratedRecord.mapDocs, List.mapM_map]
  rfl

variable {g : ClassGraph} (h : a.Describes config g)

include h

/-- Without documentation the classes are the same, or refused for the same reason. -/
theorem classes_off : classes config a.undocumented = classes config a := by
  rw [classes, classes, classNames_undocumented]
  refine bind_congr fun names => ?_
  rw [Analysis.undocumented, List.mapM_map]
  refine mapM_congr fun d hd => ?_
  obtain ⟨r, hr, ⟨t, -, rfl⟩ | ⟨t, -, rfl⟩⟩ := h.mem_types.mp hd
  · obtain ⟨block, hblock, -⟩ := describedDoc_ok h hr t
    exact interfaceClass_off hdocs (h.memberTable_ok legalMember hr rfl) hblock
  · obtain ⟨renamed, hrenamed, -⟩ := h.recordDoc_ok legalMember hr t
    exact recordClass_off hdocs (h.memberTable_ok legalMember hr rfl) hrenamed

theorem generate_off (comment : String) :
    generate config a.undocumented comment = generate config a comment := by
  have himports : ∀ body, typingImports a.undocumented body = typingImports a body := by
    intro body
    simp only [typingImports, a.interfaces_undocumented, a.records_undocumented, List.isEmpty_map]
    rfl
  rw [generate, generate, classes_off hdocs h]
  refine bind_congr fun body => ?_
  rw [himports]
  rfl

end Python

/-! ## Sources -/

section

variable {config : Config} {language : Language} {g g' : ClassGraph} {a a' : Analysis}

/-- What a result describes has nothing to do with whether documentation is written. -/
theorem Analysis.Describes.withDocs (h : a.Describes config g) (docs : Bool) :
    a.Describes { config with docs } g where
  linked := h.linked
  resolved := h.resolved
  types := h.types
  contract := h.contract

theorem emit_off (h : a.Describes config g) (hdocs : config.docs = false) (text : String) :
    emit config language a.undocumented text = emit config language a text := by
  cases language with
  | python => exact Python.generate_off hdocs h text
  | java =>
      obtain ⟨files, hfiles⟩ := Java.generate_ok h text
      rw [emit, emit, hfiles]
      exact Java.generate_off hdocs hfiles

/-- Whether a result can be written, and why not, has nothing to do with documentation. -/
theorem emit_ending (h : a.Describes config g) (docs : Bool) (text : String) :
    ending (emit { config with docs } language a text) = ending (emit config language a text) := by
  have h' := h.withDocs docs
  cases language with
  | java =>
      obtain ⟨files, hfiles⟩ := Java.generate_ok h text
      obtain ⟨files', hfiles'⟩ := Java.generate_ok h' text
      rw [emit, emit, hfiles, hfiles', ending_ok, ending_ok]
  | python =>
      rw [emit, emit]
      rcases Python.generate_eq h text with ⟨t, -, hnames, hfault⟩ | ⟨names, hnames, hends⟩ <;>
        rcases Python.generate_eq h' text with ⟨t', -, hnames', hfault'⟩ | ⟨names', hnames', hends'⟩
      · rw [hfault, hfault', Except.error.inj (hnames'.symm.trans hnames)]
      · cases hnames'.symm.trans hnames
      · cases hnames'.symm.trans hnames
      · obtain rfl := Except.ok.inj (hnames'.symm.trans hnames)
        -- What can be read is the same, and long references are found in the graph.
        have hsame : Python.RefersToLongNumeral { config with docs } g a names' ↔
            Python.RefersToLongNumeral config g a names' := Iff.rfl
        rw [hsame] at hends'
        rcases hends with ⟨⟨d, hd, hunreadable⟩, hfault⟩ | ⟨hreadable, hends⟩ <;>
          rcases hends' with ⟨⟨d', hd', hunreadable'⟩, hfault'⟩ | ⟨hreadable', hends'⟩
        · rw [hfault, hfault']
        · exact absurd (hreadable' d hd) hunreadable
        · exact absurd (hreadable d' hd') hunreadable'
        · rcases hends with ⟨hlong, hfault⟩ | ⟨hshort, files, hfiles⟩ <;>
            rcases hends' with ⟨hlong', hfault'⟩ | ⟨hshort', files', hfiles'⟩
          · rw [hfault, hfault']
          · exact absurd hlong hshort'
          · exact absurd hlong' hshort
          · rw [hfiles, hfiles', ending_ok, ending_ok]

/-- Results that agree without documentation are written or refused alike. -/
theorem emit_ending_congr (h : a.Describes config g) (h' : a'.Describes config g')
    (hsame : a'.undocumented = a.undocumented) (text : String) :
    ending (emit config language a' text) = ending (emit config language a text) := by
  rw [← emit_ending h' false, ← emit_ending h false, ← emit_off (h'.withDocs false) rfl, hsame,
    emit_off (h.withDocs false) rfl]

end

/-! ## Runs -/

namespace Run

variable (r : Run)

/-- What stands in for records looks at no documentation, if anything does. -/
def FallbackInert : Prop :=
  r.config.records = true ∨ ∀ fallback, r.fallback = some fallback →
    ∀ g, fallback (g.mapDocs noDoc) r.config = fallback g r.config

/-- What a run does with a loaded graph. -/
def writeGraph (language : Language) (g : ClassGraph) : Except Fault Files :=
  match r.config.records, r.fallback with
  | false, some fallback => .ok (fallback g r.config)
  | _, _ => do
    let a ← (RecordGen.analyze r.config r.workers g).mapError .schema
    (emit r.config language a (r.banner language)).mapError .target

theorem generate_eq_writeGraph (s : Source) : r.generate s = (do
    let language ← r.validate.mapError .config
    let g ← s.load.mapError .schema
    r.writeGraph language g) := by
  rw [generate]
  refine bind_congr fun language => bind_congr fun g => ?_
  rw [writeGraph]
  cases r.config.records <;> cases r.fallback <;> rfl

theorem analyze_congr {g g' : ClassGraph} (hsame : g'.mapDocs noDoc = g.mapDocs noDoc) :
    Analysis.undocumented <$> RecordGen.analyze r.config r.workers g' =
      Analysis.undocumented <$> RecordGen.analyze r.config r.workers g := by
  rw [← Analysis.analyze_noDoc, hsame, Analysis.analyze_noDoc]

/-- Of the files of two graphs that agree without documentation, whatever agrees for each way to
write them. -/
theorem writeGraph_congr {γ : Type} {look : Files → γ} {language : Language} {g g' : ClassGraph}
    (hsame : g'.mapDocs noDoc = g.mapDocs noDoc)
    (hemit : ∀ a a', RecordGen.analyze r.config r.workers g = .ok a →
      RecordGen.analyze r.config r.workers g' = .ok a' → a'.undocumented = a.undocumented →
      look <$> emit r.config language a' (r.banner language) =
        look <$> emit r.config language a (r.banner language))
    (hfallback : r.config.records = false → ∀ fallback, r.fallback = some fallback →
      look (fallback g' r.config) = look (fallback g r.config)) :
    look <$> r.writeGraph language g' = look <$> r.writeGraph language g := by
  have hwritten : look <$> ((RecordGen.analyze r.config r.workers g').mapError Fault.schema >>=
        fun a => (emit r.config language a (r.banner language)).mapError .target) =
      look <$> ((RecordGen.analyze r.config r.workers g).mapError Fault.schema >>=
        fun a => (emit r.config language a (r.banner language)).mapError .target) := by
    refine map_bind_congr (k := Analysis.undocumented) ?_ fun a a' ha ha' hdocs => ?_
    · rw [map_mapError, map_mapError, r.analyze_congr hsame]
    · rw [map_mapError, map_mapError,
        hemit a a' (mapError_eq_ok.mp ha) (mapError_eq_ok.mp ha') hdocs]
  rw [writeGraph, writeGraph]
  cases hrecords : r.config.records with
  | true => exact hwritten
  | false =>
      cases hnone : r.fallback with
      | none => exact hwritten
      | some fallback => exact congrArg Except.ok (hfallback hrecords fallback hnone)

/-- The same for the files of two documents. -/
theorem generate_congr {γ : Type} {look : Files → γ} {doc doc' : Json}
    (hload : ClassGraph.mapDocs noDoc <$> Document.load doc' =
      ClassGraph.mapDocs noDoc <$> Document.load doc)
    (hwrite : ∀ language g g', Document.load doc = .ok g → Document.load doc' = .ok g' →
      g'.mapDocs noDoc = g.mapDocs noDoc →
      look <$> r.writeGraph language g' = look <$> r.writeGraph language g) :
    look <$> r.generate (.document doc') = look <$> r.generate (.document doc) := by
  rw [r.generate_eq_writeGraph, r.generate_eq_writeGraph]
  cases r.validate with
  | error e => rfl
  | ok language =>
      refine map_bind_congr (k := ClassGraph.mapDocs noDoc) ?_ fun g g' hg hg' hsame => ?_
      · rw [Source.load, Source.load, map_mapError, map_mapError, hload]
      · exact hwrite language g g' (mapError_eq_ok.mp hg) (mapError_eq_ok.mp hg') hsame

end Run

/-- Documentation decides nothing but what is written of it. Two documents that differ in their
texts alone are loaded and resolved to the same declarations, with the same types generated for
them, or refused with one fault at each of these stages. A run ends with files for both or with the
same fault for both. Without documentation the files are the same. -/
theorem generate_undocumented (r : Run) {doc doc' : Json}
    (hdocs : Document.mapDocs noDoc doc' = Document.mapDocs noDoc doc) :
    ClassGraph.mapDocs noDoc <$> Document.load doc' =
      ClassGraph.mapDocs noDoc <$> Document.load doc ∧
    (∀ interfacePrefix workers,
      List.map (Resolution.mapDocs noDoc) <$>
        (Document.load doc' >>= (·.resolve interfacePrefix workers)) =
      List.map (Resolution.mapDocs noDoc) <$>
        (Document.load doc >>= (·.resolve interfacePrefix workers))) ∧
    Analysis.undocumented <$> r.analyze (.document doc') =
      Analysis.undocumented <$> r.analyze (.document doc) ∧
    ending (r.generate (.document doc')) = ending (r.generate (.document doc)) ∧
    (r.config.docs = false → r.FallbackInert →
      r.generate (.document doc') = r.generate (.document doc)) := by
  have hload : ClassGraph.mapDocs noDoc <$> Document.load doc' =
      ClassGraph.mapDocs noDoc <$> Document.load doc := by
    rw [← Document.load_mapDocs rfl, hdocs, Document.load_mapDocs rfl]
  have hdescribes : ∀ {doc : Json} {g : ClassGraph} {a : Analysis}, Document.load doc = .ok g →
      analyze r.config r.workers g = .ok a → a.Describes r.config g :=
    fun hg ha => analyze_describes (Document.load_linked hg) ha
  refine ⟨hload, fun p workers => ?_, ?_, ?_, fun hoff hinert => ?_⟩
  · refine map_bind_congr hload fun g g' _ _ hsame => ?_
    rw [← ClassGraph.resolve_mapDocs rfl, hsame, ClassGraph.resolve_mapDocs rfl]
  · rw [Run.analyze, Run.analyze]
    cases r.validate with
    | error e => rfl
    | ok language =>
        refine map_bind_congr (k := ClassGraph.mapDocs noDoc) ?_ fun g g' _ _ hsame => ?_
        · rw [Source.load, Source.load, map_mapError, map_mapError, hload]
        · rw [map_mapError, map_mapError, r.analyze_congr hsame]
  · refine r.generate_congr hload fun language g g' hg hg' hsame => ?_
    refine r.writeGraph_congr hsame (fun a a' ha ha' hagree => ?_) fun _ _ _ => rfl
    exact emit_ending_congr (hdescribes hg ha) (hdescribes hg' ha') hagree _
  · have hsame : id <$> r.generate (.document doc') = id <$> r.generate (.document doc) := by
      refine r.generate_congr hload fun language g g' hg hg' hsame => ?_
      refine r.writeGraph_congr hsame (fun a a' ha ha' hagree => ?_)
        fun hrecords fallback hsome => ?_
      · rw [← emit_off (hdescribes hg ha) hoff, ← emit_off (hdescribes hg' ha') hoff, hagree]
      · have hlooks := hinert.resolve_left (by simp [hrecords]) fallback hsome
        rw [id, id, ← hlooks g', hsame, hlooks g]
    rwa [id_map, id_map] at hsame

/-- The run without documentation, which needs nothing to stand in for records. -/
theorem generate_undocumented_documented :
    Document.mapDocs noDoc (Document.documented .null) =
      Document.mapDocs noDoc (Document.documented (.text "*/ a note")) ∧
    ({ config := { docs := false } } : Run).config.docs = false ∧
    ({ config := { docs := false } } : Run).FallbackInert ∧
    ClassGraph.mapDocs noDoc <$> Document.load (Document.documented .null) =
      ClassGraph.mapDocs noDoc <$> Document.load (Document.documented (.text "*/ a note")) ∧
    ({ config := { docs := false } } : Run).generate (.document (Document.documented .null)) =
      ({ config := { docs := false } } : Run).generate
        (.document (Document.documented (.text "*/ a note"))) := by
  have hdocs : Document.mapDocs noDoc (Document.documented .null) =
      Document.mapDocs noDoc (Document.documented (.text "*/ a note")) := by rfl
  have hinert : ({ config := { docs := false } } : Run).FallbackInert := Or.inl rfl
  have h := generate_undocumented { config := { docs := false } } hdocs
  exact ⟨hdocs, rfl, hinert, h.1, h.2.2.2.2 rfl hinert⟩

end RecordGen

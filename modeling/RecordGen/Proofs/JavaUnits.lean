import RecordGen.Proofs.Describing
import RecordGen.Proofs.DocLines
import RecordGen.Proofs.Members
import RecordGen.Target.JavaEmission

/-! # Java units of loaded graphs

Every type of a loaded graph becomes a declaration, and every container a unit. No look-up on the
way fails: types are translated, members named and documentation written for all that a loaded graph
can hold. -/

namespace RecordGen.Java

open Fallible ClassGraph

theorem legalMember_lengthens : Lengthens legalMember := by
  intro name
  rw [legalMember]
  split
  · simp
  · exact Nat.le_refl _

variable {config : Config} {g : ClassGraph} {a : Analysis} {n : String}

/-! ## Types -/

theorem translateArguments_eq (a : Analysis) (ts : List PropertyType) :
    translateArguments a ts = ts.mapM (translate a · true) := by
  induction ts with
  | nil => rw [translateArguments, List.mapM_nil, pure_eq]
  | cons t ts ih => rw [translateArguments, List.mapM_cons, ih]

theorem exists_primitive {name : String} (h : name ∈ primitiveNames) :
    ∃ t, primitive? name = some t := by
  rcases eq_of_mem_primitiveNames h with rfl | rfl | rfl | rfl | rfl | rfl <;> exact ⟨_, rfl⟩

theorem exists_collection {name : String} {arity : Nat} (h : collectionArity? name = some arity) :
    ∃ qualified, collection? name = some qualified := by
  rcases eq_of_collectionArity? h with rfl | rfl | rfl <;> exact ⟨_, rfl⟩

/-- A type can be translated if the classes it refers to have types in the result. -/
theorem translate_total {ref : String → Option ClassId → Prop}
    (href : ∀ name target, ref name target → ∃ t, a.counterpart name target = .ok t)
    {t : PropertyType} (ht : t.Formed ref) : ∀ nullable, ∃ ty, translate a t nullable = .ok ty := by
  induction ht with
  | primitive hname =>
      intro nullable
      obtain ⟨t, ht⟩ := exists_primitive hname
      exact ⟨_, by rw [translate, ht]⟩
  | reference hlinks =>
      intro nullable
      obtain ⟨t, ht⟩ := href _ _ hlinks
      exact ⟨_, by rw [translate, ht, map_ok]⟩
  | collection harity _ ih =>
      intro nullable
      obtain ⟨qualified, hq⟩ := exists_collection harity
      obtain ⟨arguments, harguments⟩ := mapM_total fun t ht => ih t ht true
      refine ⟨.imported qualified arguments, ?_⟩
      simp only [translate, hq, translateArguments_eq, harguments, map_ok]
  | optional _ ih =>
      intro nullable
      obtain ⟨ty, hty⟩ := ih true
      exact ⟨ty, by rw [translate, hty]⟩

theorem translate_ok (h : a.Describes config g) {t : PropertyType} (ht : t.Formed g.LinksTo) :
    ∀ nullable, ∃ ty, translate a t nullable = .ok ty := by
  refine translate_total (fun name target hlinks => ?_) ht
  obtain ⟨_, _, t, _, _, ht⟩ := h.counterpart_ok hlinks
  exact ⟨t, ht⟩

/-! ## Members -/

theorem javadoc_ok (config : Config) {d : Documentation}
    (h : ∀ e ∈ d.entries, Text.blank e.2 = false) :
    ∃ lines, javadoc config d = .ok lines := by
  rw [javadoc]
  split
  · obtain ⟨lines, hlines⟩ := Documentation.commentLines_ok h
    exact ⟨lines, by rw [hlines, mapError_ok]⟩
  · exact ⟨_, rfl⟩

/-- A method is a bare accessor under its member name and with its translated type. -/
theorem accessorMethod_spec {members : List (String × String)} {m : Accessor} {method : Method}
    (h : accessorMethod config a members m = .ok method) :
    memberOf members m.name = .ok method.name ∧
      translate a m.type m.nullable = .ok method.returnType ∧ method.parameters = [] ∧
        method.annotations = [] := by
  obtain ⟨name, hname, h⟩ := bind_eq_ok.mp h
  obtain ⟨type, htype, h⟩ := bind_eq_ok.mp h
  obtain ⟨doc, _, h⟩ := bind_eq_ok.mp h
  obtain rfl := Except.ok.inj h
  exact ⟨hname, htype, rfl, rfl⟩

theorem componentParameter_spec {members : List (String × String)} {c : Component}
    {parameter : Parameter} (h : componentParameter a members c = .ok parameter) :
    memberOf members c.name = .ok parameter.name ∧
      translate a c.type c.nullable = .ok parameter.type := by
  obtain ⟨name, hname, h⟩ := bind_eq_ok.mp h
  obtain ⟨type, htype, h⟩ := bind_eq_ok.mp h
  obtain rfl := Except.ok.inj h
  exact ⟨hname, htype⟩

/-! ## Declarations -/

theorem interfaceDeclaration_spec {d : GeneratedInterface} {declared : Declaration}
    (h : interfaceDeclaration config a d = .ok declared) :
    ∃ members methods doc, a.memberTable legalMember d.toTypeHead = .ok members ∧
      d.accessors.mapM (accessorMethod config a members) = .ok methods ∧
      declared = .mk { name := d.name, javadoc := doc, methods }
        (.interfaceShape (d.parent.toList.map .generated)) [] := by
  obtain ⟨members, hmembers, h⟩ := bind_eq_ok.mp h
  obtain ⟨methods, hmethods, h⟩ := bind_eq_ok.mp h
  obtain ⟨doc, _, h⟩ := bind_eq_ok.mp h
  exact ⟨members, methods, doc, hmembers, hmethods, (Except.ok.inj h).symm⟩

/-- A record has its components, and with the copy-with protocol a staging class that copies them.
-/
theorem recordDeclaration_spec {d : GeneratedRecord} {declared : Declaration}
    (h : recordDeclaration config a d = .ok declared) :
    ∃ members components doc, a.memberTable legalMember d.toTypeHead = .ok members ∧
      d.components.mapM (componentParameter a members) = .ok components ∧
      match d.copyWith with
      | none => declared =
          .mk { name := d.name, javadoc := doc, annotations := d.decorations.map decoration }
            (.recordShape components (d.implements.map .generated)) []
      | some copy => ∃ stagingDoc, declared =
          .mk { name := d.name, javadoc := doc, annotations := d.decorations.map decoration
                methods := [withMethod d.name copy.marker] }
            (.recordShape components (d.implements.map .generated ++
              [.generic CopyProtocol.contract [.named d.name, .named copy.stagingName]]))
            [stagingClass stagingDoc d.name components] := by
  obtain ⟨members, hmembers, h⟩ := bind_eq_ok.mp h
  obtain ⟨components, hcomponents, h⟩ := bind_eq_ok.mp h
  obtain ⟨renamed, _, h⟩ := bind_eq_ok.mp h
  obtain ⟨doc, _, h⟩ := bind_eq_ok.mp h
  refine ⟨members, components, doc, hmembers, hcomponents, ?_⟩
  cases hcopy : d.copyWith with
  | none =>
      simp only [hcopy] at h
      exact (Except.ok.inj h).symm
  | some copy =>
      simp only [hcopy] at h
      obtain ⟨stagingDoc, _, h⟩ := bind_eq_ok.mp h
      exact ⟨stagingDoc, (Except.ok.inj h).symm⟩

theorem interfaceDeclaration_ok (h : a.Describes config g) {r : Resolution}
    (hr : r ∈ a.resolutions) (t : TypePath) :
    ∃ declared, interfaceDeclaration config a (Analysis.interfaceOf g r t) = .ok declared := by
  have hmembers := h.memberTable_ok legalMember hr
    (show (Analysis.interfaceOf g r t).toTypeHead.source = r.source from rfl)
  have hmethod : ∀ m ∈ (Analysis.interfaceOf g r t).accessors, ∃ method,
      accessorMethod config a (allocateMembers legalMember [] r.properties) m = .ok method := by
    intro m hm
    obtain ⟨hformed, hproperty⟩ := h.accessor_spec hr hm
    obtain ⟨name, hname⟩ := h.exists_member legalMember hr hproperty
    obtain ⟨type, htype⟩ := translate_ok h hformed m.nullable
    obtain ⟨doc, hdoc⟩ := javadoc_ok config (d := { lead := m.doc }) (by simp)
    exact ⟨_, by simp only [accessorMethod, hname, htype, hdoc, ok_bind, pure_eq]; rfl⟩
  obtain ⟨methods, hmethods⟩ := mapM_total hmethod
  obtain ⟨doc, hdoc⟩ := javadoc_ok config
    (d := (Analysis.interfaceOf g r t).doc) (by simp [Analysis.interfaceOf])
  exact ⟨_, by simp only [interfaceDeclaration, hmembers, hmethods, hdoc, ok_bind, pure_eq]; rfl⟩

theorem recordDeclaration_ok (h : a.Describes config g) {r : Resolution}
    (hr : r ∈ a.resolutions) (t : TypePath) :
    ∃ declared, recordDeclaration config a (Analysis.recordOf config g r t) = .ok declared := by
  have hmembers := h.memberTable_ok legalMember hr
    (show (Analysis.recordOf config g r t).toTypeHead.source = r.source from rfl)
  have hcomponent : ∀ c ∈ (Analysis.recordOf config g r t).components, ∃ parameter,
      componentParameter a (allocateMembers legalMember [] r.properties) c = .ok parameter := by
    intro c hc
    obtain ⟨hformed, hproperty⟩ := h.component_spec hr hc
    obtain ⟨name, hname⟩ := h.exists_member legalMember hr hproperty
    obtain ⟨type, htype⟩ := translate_ok h hformed c.nullable
    exact ⟨_, by simp only [componentParameter, hname, htype, ok_bind, pure_eq]; rfl⟩
  obtain ⟨components, hcomponents⟩ := mapM_total hcomponent
  obtain ⟨renamed, hrenamed, hsolid⟩ := h.recordDoc_ok legalMember hr t
  obtain ⟨doc, hdoc⟩ := javadoc_ok config hsolid.entries
  obtain ⟨stagingLines, hstaging⟩ := javadoc_ok config
    (d := stagingDoc (Analysis.recordOf config g r t).name) (by simp [stagingDoc])
  cases hcopy : (Analysis.recordOf config g r t).copyWith with
  | none =>
      exact ⟨_, by simp only [recordDeclaration, hmembers, hcomponents, hrenamed, hdoc, hcopy,
        ok_bind, pure_eq]; rfl⟩
  | some copy =>
      exact ⟨_, by simp only [recordDeclaration, hmembers, hcomponents, hrenamed, hdoc, hcopy,
        hstaging, ok_bind, pure_eq]; rfl⟩

theorem declaration_ok (h : a.Describes config g) {d : GeneratedType} (hd : d ∈ a.types) :
    ∃ declared, declaration config a d = .ok declared := by
  obtain ⟨r, hr, ⟨t, _, rfl⟩ | ⟨t, _, rfl⟩⟩ := h.mem_types.mp hd
  · exact interfaceDeclaration_ok h hr t
  · exact recordDeclaration_ok h hr t

/-! ## Imports -/

theorem Ty.mem_argumentImports {ts : List Ty} :
    n ∈ argumentImports ts ↔ ∃ t ∈ ts, n ∈ t.imports := by
  induction ts with
  | nil => simp [argumentImports]
  | cons t ts ih => simp [argumentImports, ih]

theorem mem_nestedImports {ds : List Declaration} :
    n ∈ nestedImports ds ↔ ∃ d ∈ ds, n ∈ d.imports := by
  induction ds with
  | nil => simp [nestedImports]
  | cons d ds ih => simp [nestedImports, ih]

theorem primitive?_imports {name : String} {t : Ty} (h : primitive? name = some t)
    (nullable : Bool) : (if nullable then t.nullable else t).imports = [] := by
  unfold primitive? at h
  split at h <;> cases h <;> cases nullable <;> rfl

theorem Ty.argumentImports_generated (ts : List TypePath) :
    argumentImports (ts.map .generated) = [] := by
  induction ts with
  | nil => rfl
  | cons t ts ih => simpa [argumentImports, imports] using ih

theorem decoration_imports (names : List String) :
    annotationImports (names.map decoration) = names := by
  simp [annotationImports, decoration, List.filterMap_map, Function.comp_def]

theorem implements_imports (ts : List TypePath) (name staging : String) :
    Ty.argumentImports (ts.map .generated ++
      [.generic CopyProtocol.contract [.named name, .named staging]]) = [] := by
  induction ts with
  | nil => rfl
  | cons t ts ih => simpa [Ty.argumentImports, Ty.imports] using ih

theorem withMethod_imports (name marker : String) :
    (withMethod name marker).imports = ["java.util.function.Consumer"] := rfl

/-- The staging class needs what the components need. -/
theorem stagingClass_imports (doc : List String) (name : String) (components : List Parameter) :
    (stagingClass doc name components).imports = parameterImports components := by
  simp [stagingClass, Declaration.imports, annotationImports, Shape.imports, parameterImports,
    Method.imports, Ty.imports, nestedImports, List.flatMap_map]

/-- A record needs what its components and its decorations need, and a consumer for its copy-with
protocol. -/
theorem mem_recordDeclaration_imports {d : GeneratedRecord} {declared : Declaration}
    (h : recordDeclaration config a d = .ok declared) :
    ∃ members components, a.memberTable legalMember d.toTypeHead = .ok members ∧
      d.components.mapM (componentParameter a members) = .ok components ∧
      (n ∈ declared.imports ↔ n ∈ parameterImports components ∨ n ∈ d.decorations ∨
        d.copyWith.isSome = true ∧ n = "java.util.function.Consumer") := by
  obtain ⟨members, components, doc, hmembers, hcomponents, hdeclared⟩ :=
    recordDeclaration_spec h
  refine ⟨members, components, hmembers, hcomponents, ?_⟩
  cases hcopy : d.copyWith with
  | none =>
      simp only [hcopy] at hdeclared
      subst hdeclared
      simp [Declaration.imports, Shape.imports, Ty.argumentImports_generated, decoration_imports,
        nestedImports, or_comm]
  | some copy =>
      simp only [hcopy] at hdeclared
      obtain ⟨stagingDoc, rfl⟩ := hdeclared
      simp [Declaration.imports, Shape.imports, decoration_imports, implements_imports,
        withMethod_imports, nestedImports, stagingClass_imports]
      tauto

/-- The imports of a declaration and those around it, in whatever order they are met. -/
theorem mem_imports_nest {head : Head} {shape : Shape} {nested others : List Declaration} :
    n ∈ (Declaration.mk head shape (nested ++ others)).imports ↔
      n ∈ (Declaration.mk head shape nested).imports ∨ ∃ d ∈ others, n ∈ d.imports := by
  simp only [Declaration.imports, List.mem_append, mem_nestedImports, or_and_right, exists_or,
    or_assoc]

/-! ## Units -/

/-- The unit of a container is its own type's declaration with the others nested in it. -/
theorem containerUnit_spec {comment : String} {group : String × List GeneratedType}
    {unit : CompilationUnit} (h : containerUnit config a comment group = .ok unit) :
    ∃ top head shape nested others, group.2.find? (·.head.isModuleType) = some top ∧
      declaration config a top = .ok (.mk head shape nested) ∧
      (group.2.eraseP (·.head.isModuleType)).mapM (declaration config a) = .ok others ∧
      unit.container = group.1 ∧ unit.types = [.mk head shape (nested ++ others)] ∧
      unit.imports = (Declaration.mk head shape (nested ++ others)).imports.eraseDups := by
  rw [containerUnit] at h
  split at h
  · cases h
  · rename_i top hfind
    obtain ⟨⟨head, shape, nested⟩, hdeclared, h⟩ := bind_eq_ok.mp h
    obtain ⟨others, hothers, h⟩ := bind_eq_ok.mp h
    obtain rfl := Except.ok.inj h
    exact ⟨top, head, shape, nested, others, hfind, hdeclared, hothers, rfl, rfl, rfl⟩

/-- The units of a result are those of its containers and then the copy-with contract. -/
theorem units_spec {comment : String} {us : List (String × CompilationUnit)}
    (h : units config a comment = .ok us) :
    ∃ modules, us = modules ++ a.contract.toList.map (fun c =>
        (filePath config CopyProtocol.contract, contractUnit config comment c)) ∧
      List.Forall₂ (fun group e => e.1 = filePath config group.1 ∧
        containerUnit config a comment group = .ok e.2) (groups a) modules := by
  obtain ⟨modules, hmodules, h⟩ := bind_eq_ok.mp h
  refine ⟨modules, (Except.ok.inj h).symm, (mapM_eq_ok.mp hmodules).imp ?_⟩
  intro group e he
  obtain ⟨unit, hunit, he⟩ := bind_eq_ok.mp he
  obtain rfl := Except.ok.inj he
  exact ⟨rfl, hunit⟩

/-- Every container of a result has a type of its own, so it becomes a unit. -/
theorem containerUnit_ok (h : a.Describes config g) (comment : String)
    {group : String × List GeneratedType} (hgroup : group ∈ groups a) :
    ∃ unit, containerUnit config a comment group = .ok unit := by
  obtain ⟨container, hcontainer, rfl⟩ := List.mem_map.mp hgroup
  obtain ⟨d, hd, rfl⟩ := List.mem_map.mp (List.mem_eraseDups.mp hcontainer)
  let ds := a.types.filter (·.head.container == d.head.container)
  have hsub : ∀ x ∈ ds, x ∈ a.types := fun x hx => (List.mem_filter.mp hx).1
  have htop : (ds.find? (·.head.isModuleType)).isSome := by
    rw [List.find?_isSome]
    obtain ⟨r, hr, hown⟩ := h.mem_types.mp hd
    have hk : d.head.container = r.container := by
      rcases hown with ⟨t, _, rfl⟩ | ⟨t, _, rfl⟩ <;> rfl
    obtain ⟨top, htop, hcontainer, hmodule⟩ := h.exists_container_type hr
    exact ⟨top, List.mem_filter.mpr ⟨htop, by simp [hcontainer, hk]⟩, hmodule⟩
  obtain ⟨top, hfind⟩ := Option.isSome_iff_exists.mp htop
  obtain ⟨⟨head, shape, nested⟩, hdeclared⟩ :=
    declaration_ok h (hsub top (List.mem_of_find?_eq_some hfind))
  obtain ⟨others, hothers⟩ : ∃ others,
      (ds.eraseP (·.head.isModuleType)).mapM (declaration config a) = .ok others :=
    mapM_total fun x hx => declaration_ok h (hsub x (List.mem_of_mem_eraseP hx))
  exact ⟨_, by simp only [containerUnit, ds, hfind, hdeclared, hothers, ok_bind, pure_eq]; rfl⟩

theorem units_ok (h : a.Describes config g) (comment : String) :
    ∃ us, units config a comment = .ok us := by
  have hgroup : ∀ group ∈ groups a, ∃ entry,
      (return (filePath config group.1, ← containerUnit config a comment group) :
        Except TargetFault (String × CompilationUnit)) = .ok entry := by
    intro group hgroup
    obtain ⟨unit, hunit⟩ := containerUnit_ok h comment hgroup
    exact ⟨(filePath config group.1, unit), by rw [hunit, ok_bind, pure_eq]⟩
  obtain ⟨modules, hmodules⟩ := mapM_total hgroup
  exact ⟨_, by simp only [units, hmodules, ok_bind]; rfl⟩

/-- The result of a loaded graph can always be written. -/
theorem generate_ok (h : a.Describes config g) (comment : String) :
    ∃ files, generate config a comment = .ok files := by
  obtain ⟨us, hus⟩ := units_ok h comment
  exact ⟨_, by rw [generate, hus]; rfl⟩

end RecordGen.Java

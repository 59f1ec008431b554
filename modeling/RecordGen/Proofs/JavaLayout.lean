import RecordGen.Proofs.LegalNames

/-! # What lies where in Java

A run writes one file for every module, and one for the copy-with contract. No two files have the
same path, and every path leads down from the folder it starts in. The file of a module declares the
types of the module's container: the container's own type, and nested in it the others. -/

namespace RecordGen

namespace Java

open Fallible ClassGraph

/-! ## Paths -/

/-- The folders of the package. -/
def packageFolders (config : Config) : List String :=
  if config.javaPackage.isEmpty then []
  else (config.javaPackage.toList.splitOn '.').map String.ofList

/-- The names on the way that a path leads. -/
def pathSteps (path : String) : List String :=
  (path.toList.splitOn '/').map String.ofList

/-- A name that leads to an entry of a folder: to neither the folder itself nor the one above it,
and not further down than to the entry. -/
structure IsEntryName (name : String) : Prop where
  ne_empty : name ≠ ""
  ne_here : name ≠ "."
  ne_above : name ≠ ".."
  single : '/' ∉ name.toList

theorem filePath_eq (config : Config) (name : String) :
    filePath config name = "/".intercalate (packageFolders config ++ [name ++ ".java"]) := by
  rw [filePath, packageFolders]
  split <;> simp

theorem pathSteps_intercalate {names : List String} (hne : names ≠ [])
    (h : ∀ name ∈ names, '/' ∉ name.toList) : pathSteps ("/".intercalate names) = names := by
  have hslash : "/".toList = ['/'] := rfl
  rw [pathSteps, String.toList_intercalate, hslash, List.splitOn_intercalate]
  · simp [List.map_map, Function.comp_def]
  · simpa using h
  · simpa using hne

/-- A configuration that passes its checks has no package, or one of proper segments. -/
theorem isSegment_of_validate {config : Config} (h : config.validate = .ok ()) :
    ∀ folder ∈ packageFolders config, isSegment folder.toList = true := by
  obtain ⟨-, -, -, -, hpackage, -⟩ := Config.validate_eq_ok.mp h
  intro folder hfolder
  rw [packageFolders] at hfolder
  split at hfolder
  · cases hfolder
  · rename_i hempty
    obtain ⟨segment, hsegment, rfl⟩ := List.mem_map.mp hfolder
    have hqualified := hpackage.resolve_left fun h => hempty (String.isEmpty_iff.mpr h)
    rw [isQualifiedName, Bool.and_eq_true, List.all_eq_true] at hqualified
    simpa using hqualified.2 segment hsegment

/-- A segment of a package is an identifier, and a line feed may follow. -/
theorem IsEntryName.of_isSegment {folder : String} (h : isSegment folder.toList = true) :
    IsEntryName folder := by
  have hno : ∀ c, c ≠ '\n' → (Text.continuesIdentifier c || c == '$') = false →
      (Text.opensIdentifier c || c == '$') = false → c ∉ folder.toList := by
    intro c hline hrest hstart hmem
    rw [isSegment, Bool.and_eq_true] at h
    have hword := h.1
    have hdropped : c ∈ Text.dropFinalNewline folder.toList := by
      rw [Text.dropFinalNewline]
      split
      · rename_i hlast
        rw [← List.dropLast_append_getLast? _ hlast, List.mem_append] at hmem
        exact hmem.resolve_right fun hc => hline (List.mem_singleton.mp hc)
      · exact hmem
    cases hs : Text.dropFinalNewline folder.toList with
    | nil => simp [hs] at hdropped
    | cons d ds =>
        rw [hs, Text.isWord, Bool.and_eq_true, List.all_eq_true] at hword
        rw [hs] at hdropped
        rcases List.mem_cons.mp hdropped with rfl | hc
        · exact absurd hword.1 (by simp [hstart])
        · exact absurd (hword.2 c hc) (by simp [hrest])
  have hpoint := hno '.' (by decide) (by decide) (by decide)
  refine ⟨?_, ?_, ?_, hno '/' (by decide) (by decide) (by decide)⟩
  · rintro rfl
    exact absurd h (by decide)
  · rintro rfl
    exact hpoint (by decide)
  · rintro rfl
    exact hpoint (by decide)

/-- The name of a source file. -/
theorem IsEntryName.source {name : String} (h : '/' ∉ name.toList) :
    IsEntryName (name ++ ".java") := by
  have hlength : 5 ≤ (name ++ ".java").length := by
    rw [String.length_append]
    exact Nat.le_add_left _ _
  refine ⟨?_, ?_, ?_, by simpa using h⟩ <;>
  · intro heq
    rw [heq] at hlength
    exact absurd hlength (by decide)

/-- A path of a run: the folders of the package, and in the last one the file of a type. -/
theorem pathSteps_filePath {config : Config} (hvalid : config.validate = .ok ()) {name : String}
    (hname : '/' ∉ name.toList) :
    pathSteps (filePath config name) = packageFolders config ++ [name ++ ".java"] ∧
      ∀ step ∈ pathSteps (filePath config name), IsEntryName step := by
  have hentry : ∀ step ∈ packageFolders config ++ [name ++ ".java"], IsEntryName step := by
    intro step hstep
    rcases List.mem_append.mp hstep with hstep | hstep
    · exact .of_isSegment (isSegment_of_validate hvalid step hstep)
    · exact List.mem_singleton.mp hstep ▸ .source hname
  have hsteps := pathSteps_intercalate (by simp) fun step hstep => (hentry step hstep).single
  rw [← filePath_eq] at hsteps
  exact ⟨hsteps, hsteps.symm ▸ hentry⟩

theorem filePath_inj {config : Config} (hvalid : config.validate = .ok ()) {name name' : String}
    (hname : '/' ∉ name.toList) (hname' : '/' ∉ name'.toList)
    (h : filePath config name = filePath config name') : name = name' := by
  have hsteps := (pathSteps_filePath hvalid hname).1
  rw [h, (pathSteps_filePath hvalid hname').1] at hsteps
  have hfiles := List.singleton_inj.mp (List.append_cancel_left hsteps)
  exact (String.append_left_inj ".java").mp hfiles.symm

/-! ## Declared types -/

/-- An interface is written as an interface, and a record as a record. -/
def Shape.IsOf : Shape → GeneratedType → Prop
  | interfaceShape _, .interface _ => True
  | recordShape _ _, .record _ => True
  | _, _ => False

def Shape.isClass : Shape → Bool
  | classShape _ _ => true
  | interfaceShape _ => false
  | recordShape _ _ => false

/-- A declaration of a generated type, with nothing nested in it but its staging class. -/
structure Declares (d : GeneratedType) (declared : Declaration) : Prop where
  name : declared.head.name = d.head.name
  shape : declared.shape.IsOf d
  nested : declared.nested.map (·.head.name) = d.nestedNames
  classes : ∀ n ∈ declared.nested, n.shape.isClass = true ∧ n.nested = []

mutual

/-- The locations of the interfaces and records that a declaration declares, itself or inside. -/
def Declaration.locations (outer : List String) : Declaration → List (List String)
  | .mk head shape nested =>
    (if shape.isClass then [] else [outer ++ [head.name]]) ++
      nestedLocations (outer ++ [head.name]) nested

def nestedLocations (outer : List String) : List Declaration → List (List String)
  | [] => []
  | d :: ds => d.locations outer ++ nestedLocations outer ds

end

theorem nestedLocations_eq (outer : List String) (ds : List Declaration) :
    nestedLocations outer ds = ds.flatMap (·.locations outer) := by
  induction ds with
  | nil => rfl
  | cons d ds ih => rw [nestedLocations, ih, List.flatMap_cons]

variable {config : Config} {g : ClassGraph} {a : Analysis}

theorem declaration_declares {d : GeneratedType} {declared : Declaration}
    (h : declaration config a d = .ok declared) : Declares d declared := by
  cases d with
  | interface d =>
      obtain ⟨members, methods, doc, -, -, rfl⟩ := interfaceDeclaration_spec h
      exact ⟨rfl, trivial, rfl, by simp [Declaration.nested]⟩
  | record d =>
      obtain ⟨members, components, doc, -, -, hdeclared⟩ := recordDeclaration_spec h
      cases hcopy : d.copyWith with
      | none =>
          rw [hcopy] at hdeclared
          subst hdeclared
          exact ⟨rfl, trivial, by simp [Declaration.nested, GeneratedType.nestedNames, hcopy],
            by simp [Declaration.nested]⟩
      | some copy =>
          rw [hcopy] at hdeclared
          obtain ⟨stagingDoc, rfl⟩ := hdeclared
          refine ⟨rfl, trivial, ?_, ?_⟩
          · simp [Declaration.nested, GeneratedType.nestedNames, hcopy, stagingClass,
              Declaration.head]
          · simp [Declaration.nested, stagingClass, Declaration.shape, Shape.isClass]

namespace Declares

variable {d : GeneratedType} {declared : Declaration}

theorem isClass_eq (h : Declares d declared) : declared.shape.isClass = false := by
  have hshape := h.shape
  cases hs : declared.shape with
  | classShape _ _ => simp [hs, Shape.IsOf] at hshape
  | interfaceShape _ => rfl
  | recordShape _ _ => rfl

/-- A staging class is neither an interface nor a record. -/
theorem nestedLocations_eq (h : Declares d declared) (outer : List String) :
    nestedLocations outer declared.nested = [] := by
  rw [Java.nestedLocations_eq, List.flatMap_eq_nil_iff]
  intro n hn
  obtain ⟨hclass, hnested⟩ := h.classes n hn
  obtain ⟨head, shape, nested⟩ := n
  simp only [Declaration.shape, Declaration.nested] at hclass hnested
  simp [Declaration.locations, hclass, hnested, nestedLocations]

theorem locations_eq (h : Declares d declared) (outer : List String) :
    declared.locations outer = [outer ++ [d.head.name]] := by
  have hclass := h.isClass_eq
  have hnested := h.nestedLocations_eq
  have hname := h.name
  obtain ⟨head, shape, nested⟩ := declared
  simp only [Declaration.shape, Declaration.nested, Declaration.head] at hclass hnested hname
  simp [Declaration.locations, hclass, hnested, hname]

end Declares

/-- The unit of a container: on top the container's own type, and nested in it after its staging
class the other types of the container, in the order of the result. -/
def DeclaresContainer (a : Analysis) (container : String) (unit : CompilationUnit) : Prop :=
  ∃ own ∈ a.types, ∃ head shape staging others, own.head.path = ⟨container, container⟩ ∧
    unit.types = [.mk head shape (staging ++ others)] ∧ Declares own (.mk head shape staging) ∧
    List.Forall₂ Declares ((a.types.filter (·.head.container == container)).filter
      (!·.head.isModuleType)) others

/-! ## Containers -/

theorem eraseP_eq_filter {α : Type} {p : α → Bool} {xs : List α}
    (h : xs.Pairwise fun x y => p x = true → p y = false) : xs.eraseP p = xs.filter (!p ·) := by
  induction h with
  | nil => rfl
  | @cons x xs hx _ ih =>
      cases hp : p x with
      | true =>
          rw [List.eraseP_cons_of_pos hp, List.filter_cons_of_neg (by simp [hp]),
            List.filter_eq_self.mpr]
          intro y hy
          simp [hx y hy hp]
      | false =>
          rw [List.eraseP_cons_of_neg (by simp [hp]), List.filter_cons_of_pos (by simp [hp]), ih]

/-- Of the types of a container all stay but its own. -/
theorem eraseP_isModuleType (h : a.Describes config g) (container : String) :
    (a.types.filter (·.head.container == container)).eraseP (·.head.isModuleType) =
      (a.types.filter (·.head.container == container)).filter (!·.head.isModuleType) := by
  apply eraseP_eq_filter
  have hnodup := (h.paths_nodup.of_map _).filter (·.head.container == container)
  refine hnodup.imp_of_mem fun {d d'} hd hd' hne hmodule => ?_
  by_contra hmodule'
  obtain ⟨hd, hcontainer⟩ := List.mem_filter.mp hd
  obtain ⟨hd', hcontainer'⟩ := List.mem_filter.mp hd'
  rw [beq_iff_eq] at hcontainer hcontainer'
  exact hne (eq_of_isModuleType h hd hd' (hcontainer.trans hcontainer'.symm) hmodule
    (by simpa using hmodule'))

theorem containerUnit_declares (h : a.Describes config g) {comment container : String}
    {unit : CompilationUnit} (hunit : containerUnit config a comment
      (container, a.types.filter (·.head.container == container)) = .ok unit) :
    DeclaresContainer a container unit := by
  obtain ⟨own, head, shape, staging, others, hfind, hdeclared, hothers, -, htypes, -⟩ :=
    containerUnit_spec hunit
  obtain ⟨hown, hcontainer⟩ := List.mem_filter.mp (List.mem_of_find?_eq_some hfind)
  have hmodule : own.head.path.isModuleType = true := by
    rw [← h.isModuleType_eq hown]
    simpa using List.find?_some hfind
  rw [beq_iff_eq] at hcontainer
  rw [eraseP_isModuleType h] at hothers
  refine ⟨own, hown, head, shape, staging, others, ?_, htypes, declaration_declares hdeclared,
    (mapM_eq_ok.mp hothers).imp fun _ _ => declaration_declares⟩
  rw [TypePath.isModuleType, beq_iff_eq] at hmodule
  have hname : own.head.name = own.head.container := hmodule
  rw [TypeHead.path, hname, hcontainer]

theorem groups_containers (a : Analysis) :
    (groups a).map (·.1) = (a.types.map (·.head.container)).eraseDups := by
  simp [groups, Function.comp_def]

/-- The containers of a result are those of the modules. -/
theorem containers_perm (h : a.Describes config g) :
    ((groups a).map (·.1)).Perm ((Naming.housing g).map (·.2)) := by
  rw [groups_containers, List.perm_ext_iff_of_nodup (nodup_eraseDups _)
    (Naming.housing_containers_nodup g)]
  intro container
  rw [List.mem_eraseDups]
  have hn := h.linked.nameable
  constructor
  · intro hmem
    obtain ⟨d, hd, rfl⟩ := List.mem_map.mp hmem
    obtain ⟨s, c, -, hfind⟩ := h.exists_allocated (List.mem_map_of_mem (f := (·.head.path)) hd)
    obtain ⟨e, he, hentry⟩ := Naming.exists_allotment_of_find? hfind
    obtain ⟨-, -, hcontainer⟩ := Allotment.entry_eq_some.mp hentry
    obtain ⟨m, hm, he⟩ := List.mem_flatMap.mp he
    exact List.mem_map.mpr ⟨m, hm, (Naming.ofModule_container e he).symm.trans hcontainer⟩
  · intro hmem
    obtain ⟨⟨m, container⟩, hm, rfl⟩ := List.mem_map.mp hmem
    obtain ⟨s, hs⟩ := Naming.exists_container_type (p := config.interfacePrefix) hn hm
    have hmodule := Naming.mem_modules_of_mem_housing hm
    obtain ⟨r, hr, rfl⟩ := h.resolved.complete m (h.linked.mem_modules.mp hmodule).1
    rw [← h.resolved.typeOf_eq hn hr s] at hs
    have hpath : ⟨container, container⟩ ∈ a.types.map (·.head.path) := by
      cases s with
      | interface => exact h.counterpart_mem hr (Or.inl ((h.resolved.interface_eq hr).trans hs))
      | record => exact h.counterpart_mem hr (Or.inr ((h.resolved.record_eq hr).trans hs))
    obtain ⟨d, hd, hpath⟩ := List.mem_map.mp hpath
    exact List.mem_map.mpr ⟨d, hd, congrArg TypePath.container hpath⟩

theorem not_mem_of_isAlphanum {name : String} (h : ∀ c ∈ name.toList, c.isAlphanum = true) :
    '/' ∉ name.toList :=
  fun hmem => absurd (h _ hmem) (by decide)

theorem housing_plain (h : a.Describes config g) {container : String}
    (hcontainer : container ∈ (Naming.housing g).map (·.2)) :
    '/' ∉ container.toList ∧ container ≠ CopyProtocol.contract := by
  obtain ⟨⟨m, container⟩, hm, rfl⟩ := List.mem_map.mp hcontainer
  refine ⟨not_mem_of_isAlphanum (Naming.plain_container h.linked.nameable hm).alphanum, ?_⟩
  rintro rfl
  have hfree : CopyProtocol.contract ∉ protocolTypes :=
    Naming.not_mem_protocolTypes_of_mem_housing hm
  exact hfree (by decide)

/-! ## Locations -/

theorem location_injective : Function.Injective TypePath.location := by
  rintro ⟨name, container⟩ ⟨name', container'⟩ h
  simp only [TypePath.location, TypePath.isModuleType, beq_iff_eq] at h
  split at h <;> split at h <;> simp_all

theorem locations_of_declares {ds : List GeneratedType} {declared : List Declaration}
    (h : List.Forall₂ Declares ds declared) (outer : List String) :
    nestedLocations outer declared = ds.map fun d => outer ++ [d.head.name] := by
  induction h with
  | nil => rfl
  | cons hd _ ih => rw [nestedLocations, hd.locations_eq, ih, List.map_cons, List.singleton_append]

/-- One type of a container is the container's own. -/
theorem filter_isModuleType (h : a.Describes config g) {own : GeneratedType} (hown : own ∈ a.types)
    {container : String} (hpath : own.head.path = ⟨container, container⟩) :
    (a.types.filter (·.head.container == container)).filter (·.head.isModuleType) = [own] := by
  have hmodule : own.head.isModuleType = true := by
    simp [h.isModuleType_eq hown, hpath, TypePath.isModuleType]
  have hcontainer : own.head.container = container := congrArg TypePath.container hpath
  apply List.perm_singleton.mp
  rw [List.perm_ext_iff_of_nodup (((h.paths_nodup.of_map _).filter _).filter _)
    (List.nodup_singleton own)]
  intro d
  simp only [List.mem_filter, beq_iff_eq, List.mem_singleton]
  constructor
  · rintro ⟨⟨hd, hdcontainer⟩, hdmodule⟩
    exact eq_of_isModuleType h hd hown (hdcontainer.trans hcontainer.symm) hdmodule hmodule
  · rintro rfl
    exact ⟨⟨hown, hcontainer⟩, hmodule⟩

/-- The location of a type that is nested in its container. -/
theorem location_of_nested (h : a.Describes config g) {container : String} {d : GeneratedType}
    (hd : d ∈ (a.types.filter (·.head.container == container)).filter (!·.head.isModuleType)) :
    d.head.path.location = [container, d.head.name] := by
  simp only [List.mem_filter, beq_iff_eq, Bool.not_eq_true'] at hd
  obtain ⟨⟨hd, hcontainer⟩, hmodule⟩ := hd
  rw [h.isModuleType_eq hd] at hmodule
  rw [TypePath.location, hmodule, ← hcontainer]
  rfl

/-- The interfaces and records of a container's unit are the types of the container. -/
theorem DeclaresContainer.locations_perm (h : a.Describes config g) {container : String}
    {unit : CompilationUnit} (hunit : DeclaresContainer a container unit) :
    (nestedLocations [] unit.types).Perm
      ((a.types.filter (·.head.container == container)).map (·.head.path.location)) := by
  obtain ⟨own, hown, head, shape, staging, others, hpath, htypes, hdeclares, hothers⟩ := hunit
  have hname : head.name = own.head.name := hdeclares.name
  have hclass : shape.isClass = false := hdeclares.isClass_eq
  have hstaging : ∀ outer, nestedLocations outer staging = [] := hdeclares.nestedLocations_eq
  have hinside : nestedLocations [container] (staging ++ others) =
      nestedLocations [container] others := by
    rw [nestedLocations_eq, List.flatMap_append, ← nestedLocations_eq, hstaging, List.nil_append,
      nestedLocations_eq]
  have hnested : nestedLocations [container] others =
      ((a.types.filter (·.head.container == container)).filter (!·.head.isModuleType)).map
        (·.head.path.location) := by
    rw [locations_of_declares hothers]
    exact List.map_congr_left fun d hd => (location_of_nested h hd).symm
  have hperm := (List.filter_append_perm (·.head.isModuleType)
    (a.types.filter (·.head.container == container))).map (·.head.path.location)
  rw [filter_isModuleType h hown hpath, List.map_append, ← hnested] at hperm
  have hown : own.head.name = container := congrArg TypePath.name hpath
  simpa [htypes, nestedLocations, Declaration.locations, hclass, hname, hown, hinside, hpath,
    TypePath.location, TypePath.isModuleType] using hperm

/-- The groups hold every type of a result once. -/
theorem groups_perm (h : a.Describes config g) : ((groups a).flatMap (·.2)).Perm a.types := by
  have hnodup : a.types.Nodup := h.paths_nodup.of_map _
  rw [groups, List.flatMap_map, List.perm_ext_iff_of_nodup _ hnodup]
  · intro d
    simp only [List.mem_flatMap, List.mem_eraseDups, List.mem_map, List.mem_filter, beq_iff_eq]
    constructor
    · rintro ⟨_, -, hd, -⟩
      exact hd
    · intro hd
      exact ⟨_, ⟨d, hd, rfl⟩, hd, rfl⟩
  · rw [List.nodup_flatMap]
    refine ⟨fun container _ => hnodup.filter _, (nodup_eraseDups _).imp ?_⟩
    intro container container' hne d hd hd'
    simp only [List.mem_filter, beq_iff_eq] at hd hd'
    exact hne (hd.2.symm.trans hd'.2)

theorem locations_nodup (h : a.Describes config g) : (a.types.map (·.head.path.location) ++
    if config.withers then [[CopyProtocol.contract]] else []).Nodup := by
  rw [List.nodup_append]
  refine ⟨?_, by split <;> simp, ?_⟩
  · have hnodup := h.paths_nodup.map location_injective
    rwa [List.map_map] at hnodup
  · rintro _ hlocation _ hcontract rfl
    obtain ⟨d, hd, hlocation⟩ := List.mem_map.mp hlocation
    have hmem : d.head.container ∈ (groups a).map (·.1) := by
      rw [groups_containers, List.mem_eraseDups]
      exact List.mem_map_of_mem hd
    refine (housing_plain h ((containers_perm h).mem_iff.mp hmem)).2 ?_
    split at hcontract
    · rw [List.mem_singleton.mp hcontract, TypePath.location] at hlocation
      split at hlocation
      · exact List.singleton_inj.mp hlocation
      · exact absurd (congrArg List.length hlocation) (by simp)
    · cases hcontract

/-! ## Units -/

/-- Where the units of a result lie, and what each of them declares. -/
structure FileLayout (config : Config) (g : ClassGraph) (a : Analysis)
    (us : List (String × CompilationUnit)) : Prop where
  /-- One file for every module, and one for the contract if records can be copied. -/
  files : (us.map (·.1)).Perm ((Naming.housing g).map (filePath config ·.2) ++
    if config.withers then [filePath config CopyProtocol.contract] else [])
  apart : (us.map (·.1)).Nodup
  paths : ∀ e ∈ us, ∃ top, e.2.types = [top] ∧
    pathSteps e.1 = packageFolders config ++ [top.head.name ++ ".java"] ∧
    ∀ step ∈ pathSteps e.1, IsEntryName step
  modules : ∀ m ∈ Naming.housing g, ∃ unit, (filePath config m.2, unit) ∈ us ∧
    DeclaresContainer a m.2 unit
  contract : config.withers = true → ∃ unit, (filePath config CopyProtocol.contract, unit) ∈ us ∧
    unit.types = [contractDeclaration ⟨config.marker⟩]
  /-- Every interface and record is declared, and nothing else of these kinds but the contract. -/
  declared : (nestedLocations [] (us.flatMap (·.2.types))).Perm
    (a.types.map (·.head.path.location) ++
      if config.withers then [[CopyProtocol.contract]] else [])
  once : (nestedLocations [] (us.flatMap (·.2.types))).Nodup

/-- The units of the modules, one for each group of the result. -/
theorem units_modules (h : a.Describes config g) {comment : String}
    {us : List (String × CompilationUnit)} (hus : units config a comment = .ok us) :
    ∃ modules contract, us = modules ++ contract ∧
      List.Forall₂ (fun group e => e.1 = filePath config group.1 ∧
        DeclaresContainer a group.1 e.2 ∧ (nestedLocations [] e.2.types).Perm
          (group.2.map (·.head.path.location))) (groups a) modules ∧
      contract = if config.withers then
        [(filePath config CopyProtocol.contract, contractUnit config comment ⟨config.marker⟩)]
      else [] := by
  obtain ⟨modules, rfl, hmodules⟩ := units_spec hus
  refine ⟨modules, _, rfl, ?_, ?_⟩
  · refine ((List.forall₂_and_left _ _).mpr ⟨fun _ hgroup => hgroup, hmodules⟩).imp ?_
    rintro group e ⟨hgroup, hpath, hunit⟩
    obtain ⟨container, -, rfl⟩ := List.mem_map.mp hgroup
    have hdeclares := containerUnit_declares h hunit
    exact ⟨hpath, hdeclares, hdeclares.locations_perm h⟩
  · rw [h.contract]
    split <;> rfl

section Layout

variable {comment : String} {us : List (String × CompilationUnit)}

theorem units_files (h : a.Describes config g) (hus : units config a comment = .ok us) :
    (us.map (·.1)).Perm ((Naming.housing g).map (filePath config ·.2) ++
      if config.withers then [filePath config CopyProtocol.contract] else []) := by
  obtain ⟨modules, contract, rfl, hmodules, rfl⟩ := units_modules h hus
  have hpaths : modules.map (·.1) = (groups a).map (filePath config ·.1) := by
    rw [← List.forall₂_eq_eq_eq, List.forall₂_map_left_iff, List.forall₂_map_right_iff]
    exact hmodules.flip.imp fun _ _ hgroup => hgroup.1
  rw [List.map_append, hpaths]
  refine List.Perm.append ?_ (by split <;> simp)
  have hperm := (containers_perm h).map (filePath config)
  rw [List.map_map, List.map_map] at hperm
  exact hperm

theorem units_apart (h : a.Describes config g) (hvalid : config.validate = .ok ())
    (hus : units config a comment = .ok us) : (us.map (·.1)).Nodup := by
  have hplain : ∀ m ∈ Naming.housing g, '/' ∉ m.2.toList ∧ m.2 ≠ CopyProtocol.contract :=
    fun m hm => housing_plain h (List.mem_map_of_mem hm)
  have hslash : '/' ∉ CopyProtocol.contract.toList := by decide
  rw [(units_files h hus).nodup_iff, List.nodup_append]
  refine ⟨?_, by split <;> simp, ?_⟩
  · have hnodup := List.pairwise_map.mp (Naming.housing_containers_nodup g)
    refine List.pairwise_map.mpr (hnodup.imp_of_mem fun hm hm' hne hpath => hne ?_)
    exact filePath_inj hvalid (hplain _ hm).1 (hplain _ hm').1 hpath
  · rintro _ hpath _ hcontract rfl
    obtain ⟨m, hm, hpath⟩ := List.mem_map.mp hpath
    split at hcontract
    · rw [List.mem_singleton.mp hcontract] at hpath
      exact (hplain m hm).2 (filePath_inj hvalid (hplain m hm).1 hslash hpath)
    · cases hcontract

/-- The locations of declarations, unit by unit. -/
theorem locations_flatMap (us : List (String × CompilationUnit)) :
    nestedLocations [] (us.flatMap (·.2.types)) =
      us.flatMap fun e => nestedLocations [] e.2.types := by
  simp [nestedLocations_eq, List.flatMap_assoc]

theorem units_declared (h : a.Describes config g) (hus : units config a comment = .ok us) :
    (nestedLocations [] (us.flatMap (·.2.types))).Perm (a.types.map (·.head.path.location) ++
      if config.withers then [[CopyProtocol.contract]] else []) := by
  obtain ⟨modules, contract, rfl, hmodules, rfl⟩ := units_modules h hus
  have hgroups : (modules.flatMap fun e => nestedLocations [] e.2.types).Perm
      ((groups a).flatMap fun group => group.2.map (·.head.path.location)) := by
    clear hus
    generalize groups a = gs at hmodules
    induction hmodules with
    | nil => exact .refl _
    | cons hgroup _ ih =>
        rw [List.flatMap_cons, List.flatMap_cons]
        exact hgroup.2.2.append ih
  rw [locations_flatMap, List.flatMap_append]
  refine (hgroups.trans ?_).append (by split <;> rfl)
  rw [← List.map_flatMap]
  exact (groups_perm h).map _

theorem units_layout (h : a.Describes config g) (hvalid : config.validate = .ok ())
    (hus : units config a comment = .ok us) : FileLayout config g a us where
  files := units_files h hus
  apart := units_apart h hvalid hus
  paths := by
    obtain ⟨modules, contract, rfl, hmodules, rfl⟩ := units_modules h hus
    intro e he
    rcases List.mem_append.mp he with he | he
    · obtain ⟨group, hgroup, hpath, ⟨own, -, head, shape, staging, others, hown, htypes, hdeclares,
        -⟩, -⟩ := hmodules.exists_left e he
      have hname : head.name = group.1 :=
        (show head.name = own.head.name from hdeclares.name).trans (congrArg TypePath.name hown)
      have hslash := (housing_plain h ((containers_perm h).mem_iff.mp
        (List.mem_map_of_mem hgroup))).1
      rw [hpath]
      refine ⟨_, htypes, ?_⟩
      rw [Declaration.head, hname]
      exact pathSteps_filePath hvalid hslash
    · split at he
      · rw [List.mem_singleton.mp he]
        exact ⟨_, rfl, pathSteps_filePath hvalid (by decide)⟩
      · cases he
  modules := by
    obtain ⟨modules, contract, rfl, hmodules, rfl⟩ := units_modules h hus
    intro m hm
    obtain ⟨group, hgroup, hcontainer⟩ := List.mem_map.mp
      ((containers_perm h).mem_iff.mpr (List.mem_map_of_mem hm))
    obtain ⟨⟨path, unit⟩, he, hpath, hdeclares, -⟩ := hmodules.exists_right group hgroup
    rw [hcontainer] at hpath hdeclares
    obtain rfl : path = _ := hpath
    exact ⟨unit, List.mem_append_left _ he, hdeclares⟩
  contract := by
    obtain ⟨modules, contract, rfl, -, rfl⟩ := units_modules h hus
    intro hwithers
    refine ⟨contractUnit config comment ⟨config.marker⟩, List.mem_append_right _ ?_, rfl⟩
    simp [hwithers]
  declared := units_declared h hus
  once := (units_declared h hus).nodup_iff.mpr (locations_nodup h)

end Layout

/-- Every type of a run in Java is declared once, and every file lies apart from the others: the
module files and the file of the contract, each with the declarations it is named for. -/
theorem generate_layout {r : Run} {doc : Json} {files : Files} (hrecords : r.config.records = true)
    (hvalidate : r.validate = .ok .java) (h : r.generate (.document doc) = .ok files) :
    ∃ g a us, Document.load doc = .ok g ∧ r.analyze (.document doc) = .ok a ∧
      units r.config a (r.banner .java) = .ok us ∧
      files = us.map (fun e => (e.1, e.2.print r.config.indent)) ∧
      FileLayout r.config g a us := by
  obtain ⟨language, g, a, hlanguage, hload, hanalyze, hemit⟩ := Run.generate_ok hrecords h
  obtain rfl := Except.ok.inj (hvalidate.symm.trans hlanguage)
  obtain ⟨us, hus, hfiles⟩ := bind_eq_ok.mp hemit
  have hd := analyze_describes (Document.load_linked hload) hanalyze
  obtain ⟨_, hconfig, -⟩ := bind_eq_ok.mp hvalidate
  refine ⟨g, a, us, hload, ?_, hus, (Except.ok.inj hfiles).symm, units_layout hd hconfig hus⟩
  simp only [Run.analyze, hvalidate, Source.load, hload, hanalyze, mapError_ok, ok_bind]

/-- A run in a package, with records that can be copied. -/
def packaged : Run where
  config := { withers := true, javaPackage := "geometry.shapes" }

theorem generate_layout_packaged : packaged.config.records = true ∧
    packaged.validate = .ok .java ∧
    ∃ files, packaged.generate (.document Document.shapes) = .ok files ∧
    ∃ g a us, Document.load Document.shapes = .ok g ∧
      packaged.analyze (.document Document.shapes) = .ok a ∧
      units packaged.config a (packaged.banner .java) = .ok us ∧
      files = us.map (fun e => (e.1, e.2.print packaged.config.indent)) ∧
      FileLayout packaged.config g a us := by
  have hvalidate : packaged.validate = .ok .java := by rfl
  have hok : (packaged.generate (.document Document.shapes)).isOk = true := by decide +kernel
  obtain ⟨files, h⟩ := exists_ok hok
  exact ⟨rfl, hvalidate, files, h, generate_layout rfl hvalidate h⟩

end Java

end RecordGen

import RecordGen.Proofs.JavaUnits

/-! # What Java declarations declare and refer to

A unit declares the types of its container, and what its declarations refer to are types of the
result. A reference stands in the clauses of a top-level type or inside a body. -/

namespace RecordGen

namespace Java

open Fallible ClassGraph

/-! ## References -/

namespace Ty

mutual

/-- The generated types that a type mentions. -/
def references : Ty → List TypePath
  | imported _ arguments => argumentReferences arguments
  | generic _ arguments => argumentReferences arguments
  | annotated _ inner => references inner
  | generated t => [t]
  | named _ => []
  | scalar _ => []
  | boxed _ => []
  | platform _ => []

def argumentReferences : List Ty → List TypePath
  | [] => []
  | t :: ts => references t ++ argumentReferences ts

end

theorem mem_argumentReferences {ts : List Ty} {u : TypePath} :
    u ∈ argumentReferences ts ↔ ∃ t ∈ ts, u ∈ t.references := by
  induction ts with
  | nil => simp [argumentReferences]
  | cons t ts ih => simp [argumentReferences, ih]

theorem argumentReferences_append (ts us : List Ty) :
    argumentReferences (ts ++ us) = argumentReferences ts ++ argumentReferences us := by
  induction ts with
  | nil => rfl
  | cons t ts ih => rw [List.cons_append, argumentReferences, argumentReferences, ih,
      List.append_assoc]

@[simp] theorem argumentReferences_generated (ts : List TypePath) :
    argumentReferences (ts.map generated) = ts := by
  induction ts with
  | nil => rfl
  | cons t ts ih => rw [List.map_cons, argumentReferences, ih, references, List.singleton_append]

end Ty

def parameterReferences (ps : List Parameter) : List TypePath :=
  ps.flatMap (·.type.references)

def Method.references (m : Method) : List TypePath :=
  m.returnType.references ++ parameterReferences m.parameters

def TypeParameter.references (p : TypeParameter) : List TypePath :=
  p.type.references ++ p.bound.toList.flatMap Ty.references

def Head.references (h : Head) : List TypePath :=
  h.typeParameters.flatMap TypeParameter.references ++ h.methods.flatMap Method.references

/-- The generated types that the clauses of a header list. -/
def Shape.clauseReferences : Shape → List TypePath
  | .interfaceShape parents => Ty.argumentReferences parents
  | .recordShape _ implements => Ty.argumentReferences implements
  | .classShape _ _ => []

/-- The generated types among the components, fields and parameters. -/
def Shape.memberReferences : Shape → List TypePath
  | .interfaceShape _ => []
  | .recordShape components _ => parameterReferences components
  | .classShape fields constructors =>
    fields.flatMap (·.type.references) ++
      constructors.flatMap fun c => parameterReferences c.parameters

mutual

/-- The generated types that a declaration mentions where its own nested types are in scope: in its
body, which its components and the clauses of its nested types belong to. -/
def Declaration.bodyReferences : Declaration → List TypePath
  | .mk head shape nested => head.references ++ shape.memberReferences ++ nestedReferences nested

def nestedReferences : List Declaration → List TypePath
  | [] => []
  | d :: ds => d.shape.clauseReferences ++ d.bodyReferences ++ nestedReferences ds

end

theorem mem_nestedReferences {ds : List Declaration} {u : TypePath} : u ∈ nestedReferences ds ↔
    ∃ d ∈ ds, u ∈ d.shape.clauseReferences ∨ u ∈ d.bodyReferences := by
  induction ds with
  | nil => simp [nestedReferences]
  | cons d ds ih => simp [nestedReferences, ih, or_assoc]

/-- The generated types in the clauses of the top-level types of a unit. -/
def CompilationUnit.clauseReferences (u : CompilationUnit) : List TypePath :=
  u.types.flatMap (·.shape.clauseReferences)

/-- The generated types in the bodies of the top-level types of a unit. -/
def CompilationUnit.bodyReferences (u : CompilationUnit) : List TypePath :=
  u.types.flatMap Declaration.bodyReferences

end Java

/-! ## Generated types -/

/-- The interfaces that a type extends or implements. -/
def GeneratedType.supertypes : GeneratedType → List TypePath
  | interface d => d.parent.toList
  | record d => d.implements

/-- The names of the types inside a type's own declaration. -/
def GeneratedType.nestedNames : GeneratedType → List String
  | interface _ => []
  | record d => d.copyWith.toList.map fun _ => CopyProtocol.staging

theorem GeneratedType.eq_staging_of_mem_nestedNames {d : GeneratedType} {name : String}
    (h : name ∈ d.nestedNames) : name = CopyProtocol.staging := by
  cases d with
  | interface d => simp [nestedNames] at h
  | record d =>
      obtain ⟨_, _, rfl⟩ := List.mem_map.mp h
      rfl

namespace Analysis.Describes

variable {config : Config} {g : ClassGraph} {a : Analysis}

theorem supertypes_mem (h : a.Describes config g) {d : GeneratedType} (hd : d ∈ a.types)
    {t : TypePath} (ht : t ∈ d.supertypes) : t ∈ a.types.map (·.head.path) := by
  obtain ⟨r, hr, ⟨u, _, rfl⟩ | ⟨u, hu, rfl⟩⟩ := h.mem_types.mp hd
  · exact h.parent_mem hr (Option.mem_toList.mp ht)
  · exact h.implements_mem hr ht

/-- A type that is its container extends or implements types that are theirs. -/
theorem supertypes_isModuleType (h : a.Describes config g) {d : GeneratedType} (hd : d ∈ a.types)
    (hmodule : d.head.isModuleType = true) {t : TypePath} (ht : t ∈ d.supertypes) :
    t.isModuleType = true := by
  obtain ⟨r, hr, ⟨u, hu, rfl⟩ | ⟨u, hu, rfl⟩⟩ := h.mem_types.mp hd
  · obtain ⟨r', hr', hdescends, ht⟩ := h.resolved.exists_parent hr (Option.mem_toList.mp ht)
    exact h.isModuleType_of_descendsFrom hr hr' hdescends (Or.inl hu) hmodule ht
  · have hcontract : t ∈ r.contracts := by
      simpa [GeneratedType.supertypes, recordOf, Resolution.implements, hu] using ht
    obtain ⟨r', hr', hdescends, ht⟩ := (h.resolved.mem_contracts hr).mp hcontract
    exact h.isModuleType_of_descendsFrom hr hr' hdescends (Or.inr hu) hmodule ht

end Analysis.Describes

namespace Java

open Fallible ClassGraph

variable {config : Config} {g : ClassGraph} {a : Analysis}

/-! ## Declarations -/

theorem primitive?_references {name : String} {t : Ty} (h : primitive? name = some t)
    (nullable : Bool) : (if nullable then t.nullable else t).references = [] := by
  unfold primitive? at h
  split at h <;> cases h <;> cases nullable <;> rfl

/-- A property type mentions types of the result only. -/
theorem translate_references (h : a.Describes config g) {t : PropertyType}
    (ht : t.Formed g.LinksTo) : ∀ {nullable : Bool} {ty : Ty}, translate a t nullable = .ok ty →
      ∀ u ∈ ty.references, u ∈ a.types.map (·.head.path) := by
  induction ht with
  | primitive hname =>
      intro nullable ty hty u hu
      obtain ⟨t, ht⟩ := exists_primitive hname
      rw [translate, ht] at hty
      obtain rfl := Except.ok.inj hty
      simp [primitive?_references ht] at hu
  | reference hlinks =>
      intro nullable ty hty u hu
      obtain ⟨r, hr, t, -, ht, hcounterpart⟩ := h.counterpart_ok hlinks
      rw [translate, hcounterpart, map_ok] at hty
      obtain rfl := Except.ok.inj hty
      obtain rfl : u = t := by simpa [Ty.references] using hu
      exact h.counterpart_mem hr (Resolution.eq_of_counterpart? ht)
  | collection harity _ ih =>
      intro nullable ty hty u hu
      obtain ⟨qualified, hq⟩ := exists_collection harity
      simp only [translate, hq, translateArguments_eq] at hty
      obtain ⟨arguments, harguments, rfl⟩ := map_eq_ok.mp hty
      rw [Ty.references, Ty.mem_argumentReferences] at hu
      obtain ⟨ty, hmem, hu⟩ := hu
      obtain ⟨t, ht, hty⟩ := (mapM_eq_ok.mp harguments).exists_left ty hmem
      exact ih t ht hty u hu
  | optional _ ih =>
      intro nullable ty hty u hu
      exact ih (by simpa only [translate] using hty) u hu

/-- How a generated type is declared: under its own name, with its supertypes in the clauses and no
other types nested than its staging class, and with references to types of the result only. -/
structure DeclaredAs (a : Analysis) (d : GeneratedType) (declared : Declaration) : Prop where
  name : declared.head.name = d.head.name
  clauses : declared.shape.clauseReferences = d.supertypes
  nested : declared.nested.map (·.head.name) = d.nestedNames
  references : ∀ t ∈ declared.bodyReferences, t ∈ a.types.map (·.head.path)

theorem interfaceDeclaration_declaredAs (h : a.Describes config g) {r : Resolution}
    (hr : r ∈ a.resolutions) {t : TypePath} {declared : Declaration}
    (hd : interfaceDeclaration config a (Analysis.interfaceOf g r t) = .ok declared) :
    DeclaredAs a (.interface (Analysis.interfaceOf g r t)) declared := by
  obtain ⟨members, methods, doc, -, hmethods, rfl⟩ := interfaceDeclaration_spec hd
  refine ⟨rfl, Ty.argumentReferences_generated _, rfl, fun u hu => ?_⟩
  have hu : u ∈ methods.flatMap Method.references := by
    simpa [Declaration.bodyReferences, Head.references, Shape.memberReferences, nestedReferences]
      using hu
  obtain ⟨method, hmethod, hu⟩ := List.mem_flatMap.mp hu
  obtain ⟨m, hm, hspec⟩ := (mapM_eq_ok.mp hmethods).exists_left method hmethod
  obtain ⟨-, htype, hparameters, -⟩ := accessorMethod_spec hspec
  have hu : u ∈ method.returnType.references := by
    simpa [Method.references, parameterReferences, hparameters] using hu
  exact translate_references h (h.accessor_spec hr hm).1 htype u hu

/-- A record's components mention types of the result only. -/
theorem components_references (h : a.Describes config g) {r : Resolution} (hr : r ∈ a.resolutions)
    {t : TypePath} {members : List (String × String)} {components : List Parameter}
    (hcomponents : (Analysis.recordOf config g r t).components.mapM
      (componentParameter a members) = .ok components) :
    ∀ u ∈ parameterReferences components, u ∈ a.types.map (·.head.path) := by
  intro u hu
  obtain ⟨parameter, hparameter, hu⟩ := List.mem_flatMap.mp hu
  obtain ⟨c, hc, hspec⟩ := (mapM_eq_ok.mp hcomponents).exists_left parameter hparameter
  obtain ⟨-, htype⟩ := componentParameter_spec hspec
  exact translate_references h (h.component_spec hr hc).1 htype u hu

/-- The staging class of a record mentions what the record's components do. -/
theorem stagingClass_references (doc : List String) (name : String) (components : List Parameter) :
    nestedReferences [stagingClass doc name components] = parameterReferences components := by
  simp [stagingClass, nestedReferences, Declaration.bodyReferences, Declaration.shape,
    Shape.clauseReferences, Shape.memberReferences, Head.references, Method.references,
    parameterReferences, Ty.references, List.flatMap_map]

theorem withMethod_references (name marker : String) : (withMethod name marker).references = [] :=
  rfl

theorem recordDeclaration_declaredAs (h : a.Describes config g) {r : Resolution}
    (hr : r ∈ a.resolutions) {t : TypePath} {declared : Declaration}
    (hd : recordDeclaration config a (Analysis.recordOf config g r t) = .ok declared) :
    DeclaredAs a (.record (Analysis.recordOf config g r t)) declared := by
  obtain ⟨members, components, doc, -, hcomponents, hdeclared⟩ := recordDeclaration_spec hd
  have hreferences := components_references h hr hcomponents
  cases hcopy : (Analysis.recordOf config g r t).copyWith with
  | none =>
      rw [hcopy] at hdeclared
      subst hdeclared
      refine ⟨rfl, Ty.argumentReferences_generated _, ?_, fun u hu => ?_⟩
      · simp [GeneratedType.nestedNames, hcopy, Declaration.nested]
      · apply hreferences
        simpa [Declaration.bodyReferences, Head.references, Shape.memberReferences,
          nestedReferences] using hu
  | some copy =>
      rw [hcopy] at hdeclared
      obtain ⟨stagingDoc, rfl⟩ := hdeclared
      refine ⟨rfl, ?_, ?_, fun u hu => ?_⟩
      · simp [Declaration.shape, Shape.clauseReferences, Ty.argumentReferences_append,
          Ty.argumentReferences, Ty.references, GeneratedType.supertypes]
      · simp [GeneratedType.nestedNames, hcopy, Declaration.nested, stagingClass, Declaration.head]
      · apply hreferences
        simpa [Declaration.bodyReferences, Head.references, Shape.memberReferences,
          stagingClass_references, withMethod_references] using hu

theorem declaration_declaredAs (h : a.Describes config g) {d : GeneratedType} (hd : d ∈ a.types)
    {declared : Declaration} (hdeclared : declaration config a d = .ok declared) :
    DeclaredAs a d declared := by
  obtain ⟨r, hr, ⟨t, _, rfl⟩ | ⟨t, _, rfl⟩⟩ := h.mem_types.mp hd
  · exact interfaceDeclaration_declaredAs h hr hdeclared
  · exact recordDeclaration_declaredAs h hr hdeclared

/-! ## Units -/

/-- How the types of a container are declared: the container's own type at the top with its nested
types, and each of the others nested in it. -/
structure Houses (a : Analysis) (container : String) (whole : Declaration) : Prop where
  name : whole.head.name = container
  clauses : ∀ t ∈ whole.shape.clauseReferences,
    t ∈ a.types.map (·.head.path) ∧ t.isModuleType = true
  references : ∀ t ∈ whole.bodyReferences, t ∈ a.types.map (·.head.path)
  own : ∀ d ∈ a.types, d.head.container = container → d.head.isModuleType = true →
    ∀ name ∈ d.nestedNames, ∃ n ∈ whole.nested, n.head.name = name
  others : ∀ d ∈ a.types, d.head.container = container → d.head.isModuleType = false →
    ∃ n ∈ whole.nested, n.head.name = d.head.name ∧ n.nested.map (·.head.name) = d.nestedNames
  only : ∀ n ∈ whole.nested, n.head.name = CopyProtocol.staging ∨ ∃ d ∈ a.types,
    d.head.container = container ∧ d.head.isModuleType = false ∧ d.head.name = n.head.name

/-- A container has one type of its own. -/
theorem eq_of_isModuleType (h : a.Describes config g) {d d' : GeneratedType} (hd : d ∈ a.types)
    (hd' : d' ∈ a.types) (hcontainer : d.head.container = d'.head.container)
    (hmodule : d.head.isModuleType = true) (hmodule' : d'.head.isModuleType = true) : d = d' := by
  apply List.inj_on_of_nodup_map h.paths_nodup hd hd'
  rw [h.isModuleType_eq hd, TypePath.isModuleType, beq_iff_eq] at hmodule
  rw [h.isModuleType_eq hd', TypePath.isModuleType, beq_iff_eq] at hmodule'
  simp only [TypeHead.path] at hmodule hmodule' ⊢
  rw [hmodule, hmodule', hcontainer]

/-- The types nested in a container are all but its own. -/
theorem mem_eraseP_isModuleType (h : a.Describes config g) {ds : List GeneratedType}
    {container : String} (hds : ds = a.types.filter (·.head.container == container))
    {d : GeneratedType} : d ∈ ds.eraseP (·.head.isModuleType) ↔
      d ∈ a.types ∧ d.head.container = container ∧ d.head.isModuleType = false := by
  have hmem : ∀ d, d ∈ ds ↔ d ∈ a.types ∧ d.head.container = container := by simp [hds]
  constructor
  · intro hd
    obtain ⟨htypes, hcontainer⟩ := (hmem d).mp (List.mem_of_mem_eraseP hd)
    refine ⟨htypes, hcontainer, ?_⟩
    by_contra hmodule
    rw [Bool.not_eq_false] at hmodule
    have hnodup : ds.Nodup := hds ▸ (h.paths_nodup.of_map _).filter _
    obtain ⟨top, before, after, -, htop, hsplit, herase⟩ :=
      List.exists_of_eraseP (p := (·.head.isModuleType)) (List.mem_of_mem_eraseP hd) hmodule
    obtain ⟨htop', htopContainer⟩ := (hmem top).mp (by simp [hsplit])
    obtain rfl := eq_of_isModuleType h htypes htop' (hcontainer.trans htopContainer.symm) hmodule
      htop
    rw [herase] at hd
    rw [hsplit, List.nodup_middle, List.nodup_cons] at hnodup
    exact hnodup.1 hd
  · rintro ⟨htypes, hcontainer, hmodule⟩
    rw [List.mem_eraseP_of_neg (by simp [hmodule])]
    exact (hmem d).mpr ⟨htypes, hcontainer⟩

/-- A container's own declaration, once those of the other types are nested in it. -/
theorem houses (h : a.Describes config g) {container : String} {ds : List GeneratedType}
    (hds : ∀ d, d ∈ ds ↔
      d ∈ a.types ∧ d.head.container = container ∧ d.head.isModuleType = false)
    {top : GeneratedType} (htop : top ∈ a.types) (hcontainer : top.head.container = container)
    (hmodule : top.head.isModuleType = true) {head : Head} {shape : Shape}
    {nested others : List Declaration} (hdeclared : DeclaredAs a top (.mk head shape nested))
    (hothers : List.Forall₂ (fun d declared => declaration config a d = .ok declared) ds others) :
    Houses a container (.mk head shape (nested ++ others)) where
  name := by
    have hname : head.name = top.head.name := hdeclared.name
    have hpath := h.isModuleType_eq htop
    rw [hmodule, eq_comm, TypePath.isModuleType, beq_iff_eq] at hpath
    exact hname.trans (hpath.trans hcontainer)
  clauses t ht := by
    have ht : t ∈ top.supertypes := hdeclared.clauses ▸ ht
    exact ⟨h.supertypes_mem htop ht, h.supertypes_isModuleType htop hmodule ht⟩
  references t ht := by
    rw [Declaration.bodyReferences, List.mem_append, mem_nestedReferences] at ht
    rcases ht with ht | ⟨n, hn, ht⟩
    · apply hdeclared.references
      rw [Declaration.bodyReferences]
      exact List.mem_append_left _ ht
    · rcases List.mem_append.mp hn with hn | hn
      · apply hdeclared.references
        rw [Declaration.bodyReferences, List.mem_append, mem_nestedReferences]
        exact Or.inr ⟨n, hn, ht⟩
      · obtain ⟨d, hd, hok⟩ := hothers.exists_left n hn
        obtain ⟨htypes, -, -⟩ := (hds d).mp hd
        have hn := declaration_declaredAs h htypes hok
        rcases ht with ht | ht
        · exact h.supertypes_mem htypes (hn.clauses ▸ ht)
        · exact hn.references t ht
  own d hd hk hown name hname := by
    obtain rfl := eq_of_isModuleType h hd htop (hk.trans hcontainer.symm) hown hmodule
    rw [← hdeclared.nested] at hname
    obtain ⟨n, hn, rfl⟩ := List.mem_map.mp hname
    exact ⟨n, List.mem_append_left _ hn, rfl⟩
  others d hd hk hnested := by
    obtain ⟨n, hn, hok⟩ := hothers.exists_right d ((hds d).mpr ⟨hd, hk, hnested⟩)
    have hn' := declaration_declaredAs h hd hok
    exact ⟨n, List.mem_append_right _ hn, hn'.name, hn'.nested⟩
  only n hn := by
    rcases List.mem_append.mp hn with hn | hn
    · left
      apply top.eq_staging_of_mem_nestedNames
      rw [← hdeclared.nested]
      exact List.mem_map_of_mem hn
    · obtain ⟨d, hd, hok⟩ := hothers.exists_left n hn
      obtain ⟨htypes, hk, hnested⟩ := (hds d).mp hd
      exact Or.inr ⟨d, htypes, hk, hnested, (declaration_declaredAs h htypes hok).name.symm⟩

theorem containerUnit_houses (h : a.Describes config g) {comment : String}
    {group : String × List GeneratedType} (hgroup : group ∈ groups a) {unit : CompilationUnit}
    (hunit : containerUnit config a comment group = .ok unit) :
    unit.container = group.1 ∧ ∃ whole, unit.types = [whole] ∧ Houses a group.1 whole := by
  obtain ⟨container, -, rfl⟩ := List.mem_map.mp hgroup
  obtain ⟨top, head, shape, nested, others, hfind, hdeclared, hothers, hcontainer, htypes, -⟩ :=
    containerUnit_spec hunit
  refine ⟨hcontainer, _, htypes, ?_⟩
  have hmodule : top.head.isModuleType = true := by simpa using List.find?_some hfind
  obtain ⟨htop, hcontainer⟩ := List.mem_filter.mp (List.mem_of_find?_eq_some hfind)
  rw [beq_iff_eq] at hcontainer
  exact houses h (fun _ => mem_eraseP_isModuleType h rfl) htop hcontainer hmodule
    (declaration_declaredAs h htop hdeclared) (mapM_eq_ok.mp hothers)

/-- What the units of a result declare: each the types of a container or the copy-with contract,
and together the types of every container and the contract if there is one. -/
structure Lays (a : Analysis) (us : List (String × CompilationUnit)) : Prop where
  units : ∀ e ∈ us, (∃ whole, e.2.types = [whole] ∧ Houses a e.2.container whole) ∨
    ∃ contract, e.2.types = [contractDeclaration contract]
  complete : ∀ d ∈ a.types, ∃ e ∈ us, ∃ whole, e.2.types = [whole] ∧
    Houses a d.head.container whole
  contract : ∀ contract ∈ a.contract, ∃ e ∈ us, e.2.types = [contractDeclaration contract]

theorem units_lays (h : a.Describes config g) {comment : String}
    {us : List (String × CompilationUnit)} (hus : units config a comment = .ok us) :
    Lays a us := by
  obtain ⟨modules, rfl, hmodules⟩ := units_spec hus
  refine ⟨?_, ?_, ?_⟩
  · intro e he
    rcases List.mem_append.mp he with he | he
    · obtain ⟨group, hgroup, -, hok⟩ := hmodules.exists_left e he
      obtain ⟨hcontainer, hhouses⟩ := containerUnit_houses h hgroup hok
      exact Or.inl (hcontainer ▸ hhouses)
    · obtain ⟨contract, -, rfl⟩ := List.mem_map.mp he
      exact Or.inr ⟨contract, rfl⟩
  · intro d hd
    have hgroup : (d.head.container,
        a.types.filter (·.head.container == d.head.container)) ∈ groups a := by
      refine List.mem_map.mpr ⟨d.head.container, ?_, rfl⟩
      exact List.mem_eraseDups.mpr (List.mem_map_of_mem hd)
    obtain ⟨e, he, -, hok⟩ := hmodules.exists_right _ hgroup
    obtain ⟨-, hhouses⟩ := containerUnit_houses h hgroup hok
    exact ⟨e, List.mem_append_left _ he, hhouses⟩
  · intro contract hcontract
    refine ⟨_, List.mem_append_right _ (List.mem_map.mpr ⟨contract, ?_, rfl⟩), rfl⟩
    exact Option.mem_toList.mpr hcontract

namespace Lays

variable {us : List (String × CompilationUnit)}

/-- The container of a type is declared at the top. -/
theorem exists_houses (h : Lays a us) {d : GeneratedType} (hd : d ∈ a.types) :
    ∃ whole ∈ us.flatMap (·.2.types), Houses a d.head.container whole := by
  obtain ⟨e, he, whole, htypes, hwhole⟩ := h.complete d hd
  exact ⟨whole, List.mem_flatMap.mpr ⟨e, he, by simp [htypes]⟩, hwhole⟩

/-- What is declared at the top is a container or the copy-with contract. -/
theorem houses_or_contract (h : Lays a us) {whole : Declaration}
    (hwhole : whole ∈ us.flatMap (·.2.types)) :
    (∃ container, Houses a container whole) ∨
      ∃ contract, whole = contractDeclaration contract := by
  obtain ⟨e, he, hwhole⟩ := List.mem_flatMap.mp hwhole
  rcases h.units e he with ⟨whole', htypes, hhouses⟩ | ⟨contract, htypes⟩
  · obtain rfl : whole = whole' := by simpa [htypes] using hwhole
    exact Or.inl ⟨_, hhouses⟩
  · exact Or.inr ⟨contract, by simpa [htypes] using hwhole⟩

/-- In the clauses of a unit's own type stand types that are their containers. -/
theorem clauseReferences_mem (h : Lays a us) {e : String × CompilationUnit} (he : e ∈ us) :
    ∀ t ∈ e.2.clauseReferences, t ∈ a.types.map (·.head.path) ∧ t.isModuleType = true := by
  intro t ht
  rcases h.units e he with ⟨whole, htypes, hhouses⟩ | ⟨contract, htypes⟩
  · exact hhouses.clauses t (by simpa [CompilationUnit.clauseReferences, htypes] using ht)
  · rw [CompilationUnit.clauseReferences, htypes] at ht
    cases ht

theorem bodyReferences_mem (h : Lays a us) {e : String × CompilationUnit} (he : e ∈ us) :
    ∀ t ∈ e.2.bodyReferences, t ∈ a.types.map (·.head.path) := by
  intro t ht
  rcases h.units e he with ⟨whole, htypes, hhouses⟩ | ⟨contract, htypes⟩
  · exact hhouses.references t (by simpa [CompilationUnit.bodyReferences, htypes] using ht)
  · rw [CompilationUnit.bodyReferences, htypes] at ht
    cases ht

end Lays

end Java

end RecordGen

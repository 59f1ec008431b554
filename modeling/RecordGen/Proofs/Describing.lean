import RecordGen.Analysis
import RecordGen.Proofs.Members
import RecordGen.Proofs.Substitution

/-! # The generated types of a loaded graph

The result of a loaded graph describes each resolved class once, and every type that it mentions is
among its types. -/

namespace RecordGen

open ClassGraph Fallible

/-! ## Results of the same chain -/

namespace ClassGraph.Resolved

variable {g : ClassGraph} {p : String} {rs : List Resolution}

/-- The types of a class lie in the container of its module, if those of the modules do. -/
theorem container_eq_of_own (hn : (g.modules.map fun m => (g.decl m).name).Nodup)
    (h : g.Resolved p rs) {r : Resolution} (hr : r ∈ rs) (hown : r.source ∈ g.modules →
      (g.decl r.source).isModule = true ∨ (g.decl r.source).name = (g.decl r.source).moduleName)
    {s : Slot} {t : TypePath} (ht : typeOf g (Naming.ofGraph p g) s r.source = some t) :
    t.container = r.container := by
  obtain ⟨l, -, hd⟩ := h.described r hr
  refine Naming.container_of_ofGraph_find? hn (fun hm => ?_) (typeOf_eq_some.mp ht).2 hd.container
  rcases hown hm with hmodule | hname
  · exact ((checkEnclosing_eq_ok hn).mp (h.checkEnclosing hr)).name_eq hmodule
  · exact hname

theorem container_eq (hn : g.Nameable) (h : g.Resolved p rs) {r : Resolution} (hr : r ∈ rs)
    {s : Slot} {t : TypePath} (ht : typeOf g (Naming.ofGraph p g) s r.source = some t) :
    t.container = r.container :=
  h.container_eq_of_own hn.names_nodup hr (fun hm => Or.inl (hn.modules_are _ hm)) ht

/-- The interface that another one extends is one of an ancestor. -/
theorem exists_parent (h : g.Resolved p rs) {r : Resolution} (hr : r ∈ rs) {t : TypePath}
    (ht : r.parent = some t) :
    ∃ r' ∈ rs, g.DescendsFrom r.source r'.source ∧ r'.interface = some t := by
  obtain ⟨l, hl, hd⟩ := h.described r hr
  rw [hd.parent] at ht
  split at ht
  · obtain ⟨s, hs, hst⟩ := Option.bind_eq_some_iff.mp ht
    have hmem : s ∈ r.source :: l := List.mem_cons_of_mem _ (List.mem_of_head? hs)
    obtain ⟨r', hr', rfl⟩ := h.exists_of_mem_chain hr hl hmem
    exact ⟨r', hr', hl.descendsFrom_iff.mpr hmem, (h.interface_eq hr').trans hst⟩
  · cases ht

/-- The contracts of a class with an interface are the interface and what it extends. -/
theorem contracts_eq (hn : g.Nameable) (h : g.Resolved p rs) {r : Resolution} (hr : r ∈ rs)
    {t : TypePath} (ht : r.interface = some t) :
    (r.parent = none ∧ r.contracts = [t]) ∨
      ∃ u, r.parent = some u ∧ ∃ a ∈ rs, g.DescendsFrom r.source a.source ∧
        a.interface = some u ∧ r.contracts = t :: a.contracts := by
  generalize hts : r.contracts = ts
  cases hts ▸ h.extending_contracts hn hr ht with
  | last hr' ht' hnone =>
      obtain rfl := h.eq_of_interface hr hr' ht ht'
      exact Or.inl ⟨hnone, rfl⟩
  | @next _ _ u us hr' ht' hu hrest =>
      obtain rfl := h.eq_of_interface hr hr' ht ht'
      obtain ⟨a, ha, hdescends, hau⟩ := h.exists_parent hr hu
      obtain rfl := h.extending_unique hrest (h.extending_contracts hn ha hau)
      exact Or.inr ⟨u, hu, a, ha, hdescends, hau, rfl⟩

/-- The properties of a class begin with those of every class it descends from. -/
theorem exists_properties_append (h : g.Resolved p rs) {r a : Resolution} (hr : r ∈ rs)
    (ha : a ∈ rs) (hdescends : g.DescendsFrom r.source a.source) :
    ∃ own, r.properties = a.properties ++ own := by
  obtain ⟨l, hl, hd⟩ := h.described r hr
  obtain ⟨above, habove, hd'⟩ := h.described a ha
  rcases List.mem_cons.mp (hl.descendsFrom_iff.mp hdescends) with heq | hmem
  · obtain rfl := h.eq_of_source hr ha heq.symm
    exact ⟨[], by simp⟩
  · obtain ⟨nearer, above', rfl, habove'⟩ := hl.drop hmem
    obtain rfl := habove.unique habove'
    refine ⟨(r.source :: nearer).reverse.flatMap g.declaredBy, ?_⟩
    rw [hd.properties, hd'.properties, ← List.flatMap_append, ← List.reverse_append]
    rfl

/-- The own properties of a class are among those of its chain. -/
theorem mem_properties (h : g.Resolved p rs) {r : Resolution} (hr : r ∈ rs) {q : Property}
    (hq : q ∈ (g.decl r.source).properties) : ⟨q, r.source⟩ ∈ r.properties := by
  obtain ⟨l, -, hd⟩ := h.described r hr
  rw [hd.properties]
  refine List.mem_flatMap.mpr ⟨r.source, by simp, ?_⟩
  exact List.mem_map_of_mem hq

/-- Every property of a chain is declared by a listed class. -/
theorem declared_of_mem_properties (h : g.Resolved p rs) {r : Resolution} (hr : r ∈ rs)
    {d : Declared} (hd : d ∈ r.properties) :
    d.owner ∈ g.classes ∧ d.property ∈ (g.decl d.owner).properties := by
  obtain ⟨l, hl, hdescribes⟩ := h.described r hr
  rw [hdescribes.properties] at hd
  obtain ⟨c, hc, hdeclared⟩ := List.mem_flatMap.mp hd
  obtain ⟨q, hq, rfl⟩ := List.mem_map.mp hdeclared
  obtain ⟨a, ha, rfl⟩ := h.exists_of_mem_chain hr hl (List.mem_reverse.mp hc)
  exact ⟨h.listed ha, hq⟩

/-- The ancestors of a module are modules, and those of a class are classes. -/
theorem isModule_eq (h : g.Resolved p rs) {r : Resolution} (hr : r ∈ rs) {a : ClassId}
    (hdescends : g.DescendsFrom r.source a) : (g.decl a).isModule = (g.decl r.source).isModule := by
  have hlisted : ∀ c ∈ g.classes, g.checkExtension c = .ok () := by
    intro c hc
    obtain ⟨r, hr, rfl⟩ := h.complete c hc
    exact h.checkExtension hr
  have hboth : a ∈ g.classes ∧ (g.decl a).isModule = (g.decl r.source).isModule := by
    induction hdescends with
    | refl => exact ⟨h.listed hr, rfl⟩
    | tail _ hextends ih =>
        obtain ⟨hmem, heq⟩ := ih
        exact ⟨mem_classes_of_checkExtension (hlisted _ hmem) hextends,
          (isModule_of_checkExtension (hlisted _ hmem) hextends).trans heq⟩
  exact hboth.2

theorem properties_nodup (h : g.Resolved p rs) {r : Resolution} (hr : r ∈ rs) :
    (propertyNames r.properties).Nodup := by
  obtain ⟨l, -, hd⟩ := h.described r hr
  exact hd.names_nodup

end ClassGraph.Resolved

/-- The type of a class's properties is the class's interface or its record. -/
theorem Resolution.eq_of_counterpart? {r : Resolution} {t : TypePath}
    (h : r.counterpart? = some t) : r.interface = some t ∨ r.record = some t := by
  rw [counterpart?] at h
  cases hi : r.interface with
  | none =>
      rw [hi] at h
      exact Or.inr h
  | some u =>
      rw [hi] at h
      exact Or.inl h

namespace Analysis

/-- What a result says about a resolved class is what the class became. -/
theorem resolution?_of_resolved {g : ClassGraph} {p : String} {a : Analysis}
    (h : g.Resolved p a.resolutions) {r : Resolution} (hr : r ∈ a.resolutions) :
    a.resolution? r.source = some r := by
  have hsome : (a.resolution? r.source).isSome := by
    rw [resolution?, List.find?_isSome]
    exact ⟨r, hr, by simp⟩
  obtain ⟨r', hfind⟩ := Option.isSome_iff_exists.mp hsome
  have hsource : r'.source = r.source := by simpa using List.find?_some hfind
  rw [hfind, h.eq_of_source (List.mem_of_find?_eq_some hfind) hr hsource]

theorem counterpart_eq_ok {a : Analysis} {name : String} {target : Option ClassId} {t : TypePath} :
    a.counterpart name target = .ok t ↔
      (target.bind a.resolution?).bind (·.counterpart?) = some t := by
  rw [counterpart]
  cases (target.bind a.resolution?).bind (·.counterpart?) <;> simp

end Analysis

/-! ## The check of a result -/

namespace Analysis

variable {config : Config} {g : ClassGraph} {rs : List Resolution}

theorem interface_mem_types {a : Analysis} {i : GeneratedInterface} (h : i ∈ a.interfaces) :
    .interface i ∈ a.types := by
  obtain ⟨d, hd, hi⟩ := List.mem_filterMap.mp h
  cases d with
  | interface d =>
      obtain rfl := Option.some.inj hi
      exact hd
  | record d => cases hi

theorem record_mem_types {a : Analysis} {d : GeneratedRecord} (h : d ∈ a.records) :
    .record d ∈ a.types := by
  obtain ⟨d', hd', hr⟩ := List.mem_filterMap.mp h
  cases d' with
  | interface d' => cases hr
  | record d' =>
      obtain rfl := Option.some.inj hr
      exact hd'

theorem mem_interfaces_ofResolutions {i : GeneratedInterface} :
    i ∈ (ofResolutions config g rs).interfaces ↔
      ∃ r ∈ rs, ∃ t, r.interface = some t ∧ i = interfaceOf g r t := by
  simp only [ofResolutions, interfaces, List.mem_filterMap, List.mem_flatMap, typesOf,
    List.mem_append, Option.mem_toList, Option.map_eq_some_iff]
  constructor
  · rintro ⟨_, ⟨r, hr, ⟨t, ht, rfl⟩ | ⟨t, ht, rfl⟩⟩, hi⟩
    · exact ⟨r, hr, t, ht, (Option.some.inj hi).symm⟩
    · cases hi
  · rintro ⟨r, hr, t, ht, rfl⟩
    exact ⟨_, ⟨r, hr, Or.inl ⟨t, ht, rfl⟩⟩, rfl⟩

theorem mem_records_ofResolutions {d : GeneratedRecord} :
    d ∈ (ofResolutions config g rs).records ↔
      ∃ r ∈ rs, ∃ t, r.record = some t ∧ d = recordOf config g r t := by
  simp only [ofResolutions, records, List.mem_filterMap, List.mem_flatMap, typesOf,
    List.mem_append, Option.mem_toList, Option.map_eq_some_iff]
  constructor
  · rintro ⟨_, ⟨r, hr, ⟨t, ht, rfl⟩ | ⟨t, ht, rfl⟩⟩, hi⟩
    · cases hi
    · exact ⟨r, hr, t, ht, (Option.some.inj hi).symm⟩
  · rintro ⟨r, hr, t, ht, rfl⟩
    exact ⟨_, ⟨r, hr, Or.inr ⟨t, ht, rfl⟩⟩, rfl⟩

/-- The check of a result finds nothing where interfaces are described in the containers they were
named in: what interfaces extend and records implement are interfaces of resolved classes. -/
theorem check_ofResolutions {p : String} (h : g.Resolved p rs)
    (hk : ∀ r ∈ rs, ∀ t, r.interface = some t → t.container = r.container) :
    (ofResolutions config g rs).check g = .ok () := by
  have hallocated : ∀ r ∈ rs, ∀ t, r.interface = some t →
      t ∈ (ofResolutions config g rs).interfaces.map (·.path) := by
    intro r hr t ht
    refine List.mem_map.mpr ⟨_, mem_interfaces_ofResolutions.mpr ⟨r, hr, t, ht, rfl⟩, ?_⟩
    show (⟨t.name, r.container⟩ : TypePath) = t
    rw [← hk r hr t ht]
  have hnone : ((ofResolutions config g rs).mentions g).find?
      (·.2 ∉ (ofResolutions config g rs).interfaces.map (·.path)) = none := by
    rw [List.find?_eq_none]
    rintro ⟨owner, t⟩ hmention
    rw [decide_eq_true_iff, not_not]
    rcases List.mem_append.mp hmention with hmention | hmention
    · obtain ⟨i, hi, hparent⟩ := List.mem_flatMap.mp hmention
      obtain ⟨r, hr, u, hu, rfl⟩ := mem_interfaces_ofResolutions.mp hi
      obtain ⟨t', ht', heq⟩ := List.mem_map.mp hparent
      obtain ⟨-, rfl⟩ := Prod.mk.inj heq
      obtain ⟨r', hr', -, hi'⟩ := h.exists_parent hr (Option.mem_toList.mp ht')
      exact hallocated r' hr' t' hi'
    · obtain ⟨d, hd, himplements⟩ := List.mem_flatMap.mp hmention
      obtain ⟨r, hr, u, hu, rfl⟩ := mem_records_ofResolutions.mp hd
      obtain ⟨t', ht', heq⟩ := List.mem_map.mp himplements
      obtain ⟨-, rfl⟩ := Prod.mk.inj heq
      have hcontract : t' ∈ r.contracts := by
        simpa [recordOf, Resolution.implements, hu] using ht'
      obtain ⟨r', hr', -, hi⟩ := (h.mem_contracts hr).mp hcontract
      exact hallocated r' hr' t' hi
  simp only [check, hnone]

end Analysis

/-- A class that stands among the modules and can be extended is a module, or lies in a module of
its own name. -/
def ClassGraph.ModulesApart (g : ClassGraph) : Prop :=
  ∀ c ∈ g.classes, c ∈ g.modules → (g.decl c).kind.allowsSubclasses = true →
    (g.decl c).isModule = true ∨ (g.decl c).name = (g.decl c).moduleName

instance (g : ClassGraph) : Decidable g.ModulesApart :=
  inferInstanceAs (Decidable (∀ c ∈ g.classes, c ∈ g.modules →
    (g.decl c).kind.allowsSubclasses = true →
      (g.decl c).isModule = true ∨ (g.decl c).name = (g.decl c).moduleName))

theorem ClassGraph.Nameable.modulesApart {g : ClassGraph} (h : g.Nameable) : g.ModulesApart :=
  fun _ _ hm _ => Or.inl (h.modules_are _ hm)

/-- The result of a graph is that of its resolved classes; describing them adds no fault. -/
theorem analyze_eq {config : Config} {workers : Option Int} {g : ClassGraph}
    (hn : (g.modules.map fun m => (g.decl m).name).Nodup) (hapart : g.ModulesApart) :
    analyze config workers g =
      Analysis.ofResolutions config g <$> g.resolve config.interfacePrefix workers := by
  cases hresolve : g.resolve config.interfacePrefix workers with
  | error e => simp [analyze, hresolve]
  | ok rs =>
      have h := resolve_resolved hresolve
      have hcheck : (Analysis.ofResolutions config g rs).check g = .ok () := by
        refine Analysis.check_ofResolutions h fun r hr t ht => ?_
        rw [h.interface_eq hr] at ht
        refine h.container_eq_of_own hn hr (fun hm => ?_) ht
        exact hapart _ (h.listed hr) hm (typeOf_eq_some.mp ht).1
      simp [analyze, hresolve, Analysis.describe, hcheck]

/-! ## Results of whole graphs -/

namespace Analysis

/-- The result of a loaded graph: its types are those of its resolved classes. -/
structure Describes (config : Config) (g : ClassGraph) (a : Analysis) : Prop where
  linked : g.Linked
  resolved : g.Resolved config.interfacePrefix a.resolutions
  types : a.types = a.resolutions.flatMap (typesOf config g)
  contract : a.contract = if config.withers then some ⟨config.marker⟩ else none

namespace Describes

variable {config : Config} {g : ClassGraph} {a : Analysis}

theorem mem_interfaces (h : a.Describes config g) {i : GeneratedInterface} :
    i ∈ a.interfaces ↔
      ∃ r ∈ a.resolutions, ∃ t, r.interface = some t ∧ i = interfaceOf g r t := by
  rw [interfaces, h.types]
  exact mem_interfaces_ofResolutions

theorem mem_records (h : a.Describes config g) {d : GeneratedRecord} :
    d ∈ a.records ↔
      ∃ r ∈ a.resolutions, ∃ t, r.record = some t ∧ d = recordOf config g r t := by
  rw [records, h.types]
  exact mem_records_ofResolutions

theorem interface_path (h : a.Describes config g) {r : Resolution} (hr : r ∈ a.resolutions)
    {t : TypePath} (ht : r.interface = some t) : (interfaceOf g r t).path = t := by
  rw [h.resolved.interface_eq hr] at ht
  have hcontainer := h.resolved.container_eq h.linked.nameable hr ht
  show (⟨t.name, r.container⟩ : TypePath) = t
  rw [← hcontainer]

theorem record_path (h : a.Describes config g) {r : Resolution} (hr : r ∈ a.resolutions)
    {t : TypePath} (ht : r.record = some t) : (recordOf config g r t).path = t := by
  rw [h.resolved.record_eq hr] at ht
  have hcontainer := h.resolved.container_eq h.linked.nameable hr ht
  show (⟨t.name, r.container⟩ : TypePath) = t
  rw [← hcontainer]

/-- Every interface of a resolved class is described. -/
theorem exists_interface (h : a.Describes config g) {r : Resolution} (hr : r ∈ a.resolutions)
    {t : TypePath} (ht : r.interface = some t) :
    interfaceOf g r t ∈ a.interfaces ∧ (interfaceOf g r t).path = t :=
  ⟨h.mem_interfaces.mpr ⟨r, hr, t, ht, rfl⟩, h.interface_path hr ht⟩

/-- The types of a resolved class are among the paths of the result. -/
theorem counterpart_mem (h : a.Describes config g) {r : Resolution} (hr : r ∈ a.resolutions)
    {t : TypePath} (ht : r.interface = some t ∨ r.record = some t) :
    t ∈ a.types.map (·.head.path) := by
  rw [h.types, List.map_flatMap]
  refine List.mem_flatMap.mpr ⟨r, hr, ?_⟩
  rcases ht with ht | ht
  · refine List.mem_map.mpr ⟨.interface (interfaceOf g r t), ?_, h.interface_path hr ht⟩
    simp [typesOf, ht]
  · refine List.mem_map.mpr ⟨.record (recordOf config g r t), ?_, h.record_path hr ht⟩
    simp [typesOf, ht]

theorem parent_mem (h : a.Describes config g) {r : Resolution} (hr : r ∈ a.resolutions)
    {t : TypePath} (ht : r.parent = some t) : t ∈ a.types.map (·.head.path) := by
  obtain ⟨r', hr', -, hi⟩ := h.resolved.exists_parent hr ht
  exact h.counterpart_mem hr' (Or.inl hi)

theorem implements_mem (h : a.Describes config g) {r : Resolution} (hr : r ∈ a.resolutions)
    {t : TypePath} (ht : t ∈ r.implements) : t ∈ a.types.map (·.head.path) := by
  rw [Resolution.implements] at ht
  split at ht
  · obtain ⟨r', hr', -, hi⟩ := (h.resolved.mem_contracts hr).mp ht
    exact h.counterpart_mem hr' (Or.inl hi)
  · cases ht

/-- In every container lies a type of the container's own name. -/
theorem exists_container_type (h : a.Describes config g) {r : Resolution}
    (hr : r ∈ a.resolutions) : ∃ d ∈ a.types, d.head.container = r.container ∧
      d.head.isModuleType = true := by
  have hn := h.linked.nameable
  obtain ⟨l, -, hd⟩ := h.resolved.described r hr
  obtain ⟨m, hhoused, hname⟩ := (Naming.ofGraph_container_find? hn.names_nodup).mp hd.container
  have hm : m ∈ g.modules := Naming.mem_modules_of_mem_housing hhoused
  obtain ⟨r', hr', rfl⟩ := h.resolved.complete m (h.linked.mem_modules.mp hm).1
  obtain ⟨s, hs⟩ := Naming.exists_container_type (p := config.interfacePrefix) hn hhoused
  have htype : typeOf g (Naming.ofGraph config.interfacePrefix g) s r'.source =
      some ⟨r.container, r.container⟩ := by
    rw [h.resolved.typeOf_eq hn hr' s, hs]
  have hcontainer := h.resolved.container_eq hn hr' htype
  cases s with
  | interface =>
      rw [← h.resolved.interface_eq hr'] at htype
      refine ⟨.interface (interfaceOf g r' ⟨r.container, r.container⟩), ?_, hcontainer.symm, ?_⟩
      · rw [h.types]
        exact List.mem_flatMap.mpr ⟨r', hr', by simp [typesOf, htype]⟩
      · simp [GeneratedType.head, interfaceOf, TypePath.isModuleType]
  | record =>
      rw [← h.resolved.record_eq hr'] at htype
      refine ⟨.record (recordOf config g r' ⟨r.container, r.container⟩), ?_, hcontainer.symm, ?_⟩
      · rw [h.types]
        exact List.mem_flatMap.mpr ⟨r', hr', by simp [typesOf, htype]⟩
      · simp [GeneratedType.head, recordOf, TypePath.isModuleType]

/-- Every type of the result is the interface or the record of a resolved class. -/
theorem mem_types (h : a.Describes config g) {d : GeneratedType} : d ∈ a.types ↔
    ∃ r ∈ a.resolutions, (∃ t, r.interface = some t ∧ d = .interface (interfaceOf g r t)) ∨
      ∃ t, r.record = some t ∧ d = .record (recordOf config g r t) := by
  simp only [h.types, List.mem_flatMap, typesOf, List.mem_append, Option.mem_toList,
    Option.map_eq_some_iff, eq_comm (a := d)]

/-- A type is its container's own exactly if it has the container's name. -/
theorem isModuleType_eq (h : a.Describes config g) {d : GeneratedType} (hd : d ∈ a.types) :
    d.head.isModuleType = d.head.path.isModuleType := by
  obtain ⟨r, hr, ⟨t, ht, rfl⟩ | ⟨t, ht, rfl⟩⟩ := h.mem_types.mp hd
  · exact congrArg TypePath.isModuleType (h.interface_path hr ht).symm
  · exact congrArg TypePath.isModuleType (h.record_path hr ht).symm

/-- The types above a module's own type are themselves modules' own types. -/
theorem isModuleType_of_descendsFrom (h : a.Describes config g) {r r' : Resolution}
    (hr : r ∈ a.resolutions) (hr' : r' ∈ a.resolutions)
    (hdescends : g.DescendsFrom r.source r'.source) {t u : TypePath} (ht : r.interface = some t ∨
      r.record = some t) (hmodule : t.isModuleType = true) (hu : r'.interface = some u) :
    u.isModuleType = true := by
  have hn := h.linked.nameable
  have hsource : (g.decl r.source).isModule = true := by
    rcases ht with ht | ht
    · rw [h.resolved.interface_eq hr, h.resolved.typeOf_eq hn hr] at ht
      exact Naming.isModule_of_isModuleType hn ht hmodule
    · rw [h.resolved.record_eq hr, h.resolved.typeOf_eq hn hr] at ht
      exact Naming.isModule_of_isModuleType hn ht hmodule
  have hsource' := (h.resolved.isModule_eq hr hdescends).trans hsource
  rw [h.resolved.interface_eq hr', h.resolved.typeOf_eq hn hr'] at hu
  exact Naming.isModuleType_of_isModule hn
    (h.linked.mem_modules.mpr ⟨h.resolved.listed hr', hsource'⟩) hu

/-- Every path of the result was allocated for a class. -/
theorem exists_allocated (h : a.Describes config g) {t : TypePath}
    (ht : t ∈ a.types.map (·.head.path)) : ∃ s, ∃ c ∈ g.classes,
      ((Naming.ofGraph config.interfacePrefix g).at s).find? c = some t := by
  have hn := h.linked.nameable
  obtain ⟨d, hd, rfl⟩ := List.mem_map.mp ht
  obtain ⟨r, hr, ⟨u, hu, rfl⟩ | ⟨u, hu, rfl⟩⟩ := h.mem_types.mp hd
  · refine ⟨.interface, r.source, h.resolved.listed hr, ?_⟩
    rw [← h.resolved.typeOf_eq hn hr, ← h.resolved.interface_eq hr, hu]
    exact congrArg some (h.interface_path hr hu).symm
  · refine ⟨.record, r.source, h.resolved.listed hr, ?_⟩
    rw [← h.resolved.typeOf_eq hn hr, ← h.resolved.record_eq hr, hu]
    exact congrArg some (h.record_path hr hu).symm

/-- The paths that one class adds to the result. -/
theorem typesOf_paths (h : a.Describes config g) {r : Resolution} (hr : r ∈ a.resolutions) :
    (typesOf config g r).map (·.head.path) = r.interface.toList ++ r.record.toList := by
  rw [typesOf, List.map_append]
  congr 1
  · cases hi : r.interface with
    | none => rfl
    | some t => exact congrArg (fun t => [t]) (h.interface_path hr hi)
  · cases hrecord : r.record with
    | none => rfl
    | some t => exact congrArg (fun t => [t]) (h.record_path hr hrecord)

/-- No two types of the result have the same path. -/
theorem paths_nodup (h : a.Describes config g) : (a.types.map (·.head.path)).Nodup := by
  have hn := h.linked.nameable
  have hpaths : a.types.map (·.head.path) =
      a.resolutions.flatMap fun r => r.interface.toList ++ r.record.toList := by
    rw [h.types, List.map_flatMap]
    exact List.flatMap_congr fun r hr => h.typesOf_paths hr
  rw [hpaths, List.nodup_flatMap]
  constructor
  · intro r hr
    refine List.nodup_append.mpr ⟨by cases r.interface <;> simp, by cases r.record <;> simp, ?_⟩
    rintro t ht u hu rfl
    exact h.resolved.record_ne_interface hr hr (Option.mem_toList.mp ht)
      (Option.mem_toList.mp hu)
  · have hboth : a.resolutions.Pairwise fun r r' => r ∈ a.resolutions ∧ r' ∈ a.resolutions :=
      List.pairwise_of_forall_mem_list fun r hr r' hr' => ⟨hr, hr'⟩
    refine ((List.pairwise_map.mp h.resolved.sources_nodup).and hboth).imp ?_
    rintro r r' ⟨hne, hr, hr'⟩ t ht ht'
    have hdiffer : r ≠ r' := fun heq => hne (congrArg Resolution.source heq)
    rcases List.mem_append.mp ht with ht | ht <;> rcases List.mem_append.mp ht' with ht' | ht' <;>
      rw [Option.mem_toList] at ht ht'
    · exact hdiffer (h.resolved.eq_of_interface hr hr' ht ht')
    · exact h.resolved.record_ne_interface hr hr' ht ht'
    · exact h.resolved.record_ne_interface hr' hr ht' ht
    · exact hdiffer (h.resolved.eq_of_record hr hr' ht ht')

theorem resolution?_eq (h : a.Describes config g) {r : Resolution} (hr : r ∈ a.resolutions) :
    a.resolution? r.source = some r :=
  resolution?_of_resolved h.resolved hr

/-- A linked reference leads to a type of the result. -/
theorem counterpart_ok (h : a.Describes config g) {name : String} {target : Option ClassId}
    (hlinks : g.LinksTo name target) :
    ∃ r ∈ a.resolutions, ∃ t, target = some r.source ∧ r.counterpart? = some t ∧
      a.counterpart name target = .ok t := by
  obtain ⟨c, hc, rfl, -⟩ := hlinks
  obtain ⟨r, hr, rfl⟩ := h.resolved.complete c hc
  obtain ⟨t, ht⟩ := h.resolved.exists_counterpart h.linked.nameable hr
  refine ⟨r, hr, t, rfl, ht, ?_⟩
  simp [counterpart, h.resolution?_eq hr, ht]

/-- An accessor stands for a property of the chain, and its type is linked. -/
theorem accessor_spec (h : a.Describes config g) {r : Resolution} (hr : r ∈ a.resolutions)
    {t : TypePath} {m : Accessor} (hm : m ∈ (interfaceOf g r t).accessors) :
    m.type.Formed g.LinksTo ∧ ∃ d ∈ r.properties, d.property.name = m.name := by
  obtain ⟨p, hp, rfl⟩ := List.mem_map.mp hm
  exact ⟨h.linked.types r.source (h.resolved.listed hr) p hp, _,
    h.resolved.mem_properties hr hp, rfl⟩

/-- A component stands for a property of the chain, and its type is linked. -/
theorem component_spec (h : a.Describes config g) {r : Resolution} (hr : r ∈ a.resolutions)
    {t : TypePath} {c : Component} (hc : c ∈ (recordOf config g r t).components) :
    c.type.Formed g.LinksTo ∧ ∃ d ∈ r.properties, d.property.name = c.name := by
  obtain ⟨d, hd, rfl⟩ := List.mem_map.mp hc
  obtain ⟨hlisted, hproperty⟩ := h.resolved.declared_of_mem_properties hr hd
  exact ⟨h.linked.types d.owner hlisted _ hproperty, d, hd, rfl⟩

/-- The components of a record have member names of their own. -/
theorem memberNames_nodup (h : a.Describes config g) {escape : String → String}
    (he : Lengthens escape) {r : Resolution} (hr : r ∈ a.resolutions) {t : TypePath}
    {names : List String} (hnames : List.Forall₂ (fun (c : Component) n =>
      memberOf (allocateMembers escape [] r.properties) c.name = .ok n)
      (recordOf config g r t).components names) : names.Nodup := by
  have hn := h.resolved.properties_nodup hr
  have hdiffer : (recordOf config g r t).components.Pairwise fun c c' => c.name ≠ c'.name := by
    have hkeys : (recordOf config g r t).components.map (·.name) = propertyNames r.properties := by
      simp [recordOf, propertyNames, Function.comp_def]
    exact List.pairwise_map.mp (hkeys ▸ hn)
  refine hnames.pairwise (fun hc hc' hne heq => hne ?_) hdiffer
  exact eq_of_memberOf he hn hc (heq ▸ hc')

/-- Every property of a chain has a member name in each type of the chain's class. -/
theorem exists_member (h : a.Describes config g) (escape : String → String) {r : Resolution}
    (hr : r ∈ a.resolutions) {name : String} (hname : ∃ d ∈ r.properties, d.property.name = name) :
    ∃ member, memberOf (allocateMembers escape [] r.properties) name = .ok member := by
  obtain ⟨d, hd, rfl⟩ := hname
  exact exists_memberOf escape (h.resolved.properties_nodup hr) hd

/-- The documentation of a record can be written under its member names. -/
theorem recordDoc_ok (h : a.Describes config g) (escape : String → String) {r : Resolution}
    (hr : r ∈ a.resolutions) (t : TypePath) :
    ∃ doc, renameEntries (allocateMembers escape [] r.properties) (recordOf config g r t).doc =
      .ok doc ∧ doc.Solid := by
  have hentry : ∀ e ∈ (recordOf config g r t).doc.entries, ∃ name,
      memberOf (allocateMembers escape [] r.properties) e.1 = .ok name := by
    intro e he
    obtain ⟨p, hp, hentry⟩ := List.mem_filterMap.mp he
    obtain ⟨d, hd, rfl⟩ := List.mem_map.mp hp
    obtain ⟨_, _, rfl⟩ := Option.map_eq_some_iff.mp hentry
    exact h.exists_member escape hr ⟨d, hd, rfl⟩
  obtain ⟨doc, hdoc, hsolid, -⟩ := renameEntries_ok (Documentation.ofClass_solid _ _) hentry
  exact ⟨doc, hdoc, hsolid⟩

theorem memberTable_ok (h : a.Describes config g) (escape : String → String) {r : Resolution}
    (hr : r ∈ a.resolutions) {head : TypeHead} (hsource : head.source = r.source) :
    a.memberTable escape head = .ok (allocateMembers escape [] r.properties) := by
  simp [memberTable, hsource, h.resolution?_eq hr]

end Describes

/-! ## Analyzing loaded graphs -/

theorem ofResolutions_describes {config : Config} {g : ClassGraph} {rs : List Resolution}
    (hlinked : g.Linked) (h : g.Resolved config.interfacePrefix rs) :
    (ofResolutions config g rs).Describes config g where
  linked := hlinked
  resolved := h
  types := rfl
  contract := rfl

end Analysis

/-- A result holds what the classes of its graph became, also if the graph was not loaded. -/
theorem analyze_resolved {config : Config} {workers : Option Int} {g : ClassGraph} {a : Analysis}
    (h : analyze config workers g = .ok a) : g.Resolved config.interfacePrefix a.resolutions := by
  obtain ⟨rs, hrs, h⟩ := bind_eq_ok.mp h
  obtain ⟨_, -, h⟩ := bind_eq_ok.mp h
  obtain rfl := Except.ok.inj h
  exact resolve_resolved hrs

theorem analyze_describes {config : Config} {workers : Option Int} {g : ClassGraph}
    {a : Analysis} (hlinked : g.Linked) (h : analyze config workers g = .ok a) :
    a.Describes config g := by
  rw [analyze_eq hlinked.nameable.names_nodup hlinked.nameable.modulesApart] at h
  obtain ⟨rs, hrs, rfl⟩ := map_eq_ok.mp h
  exact Analysis.ofResolutions_describes hlinked (resolve_resolved hrs)

end RecordGen

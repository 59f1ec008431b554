import RecordGen.Proofs.Describing

/-! # Where the components of records come from

A record stores what the interfaces it implements promise, the farthest first. What its class
declares beyond them it stores only if the class has no interface that promises it. -/

namespace RecordGen

open ClassGraph Fallible

/-- What an interface adds to the records that implement it: one component for each accessor,
declared in the class of the interface. -/
def GeneratedInterface.contribution (g : ClassGraph) (i : GeneratedInterface) : List Component :=
  i.accessors.map fun m => ⟨m.name, m.type, m.nullable, m.doc, g.fullName i.source⟩

/-- What a class adds to a record by itself. -/
def ClassGraph.ownComponents (g : ClassGraph) (c : ClassId) : List Component :=
  (g.decl c).properties.map fun p => ⟨p.name, p.type, p.nullable, p.doc, g.fullName c⟩

namespace Analysis

/-- In a result, a path stands for one interface only. -/
def Denotes (a : Analysis) (t : TypePath) (i : GeneratedInterface) : Prop :=
  a.interfaces.filter (·.path == t) = [i]

variable {config : Config} {g : ClassGraph} {a : Analysis}

/-- An interface promises what its class declares. -/
theorem interfaceOf_contribution (r : Resolution) (t : TypePath) :
    (interfaceOf g r t).contribution g = g.ownComponents r.source := by
  simp [GeneratedInterface.contribution, interfaceOf, ownComponents, Function.comp_def]

/-- A record has one level of components for each class of its chain. -/
theorem recordOf_components {r : Resolution} {l : List ClassId} (t : TypePath)
    (h : r.properties = (r.source :: l).reverse.flatMap g.declaredBy) :
    (recordOf config g r t).components = (r.source :: l).reverse.flatMap g.ownComponents := by
  simp only [recordOf, h, List.map_flatMap]
  refine List.flatMap_congr fun c _ => ?_
  simp [declaredBy, ownComponents, Function.comp_def]

namespace Describes

theorem interface_paths_nodup (h : a.Describes config g) : (a.interfaces.map (·.path)).Nodup := by
  have hsublist : (a.interfaces.map (·.path)).Sublist (a.types.map (·.head.path)) := by
    rw [interfaces]
    generalize a.types = ds
    induction ds with
    | nil => exact .slnil
    | cons d ds ih =>
        cases d with
        | interface i => exact ih.cons_cons _
        | record d => exact ih.cons _
  exact h.paths_nodup.sublist hsublist

/-- The interface of a resolved class stands for what the class is described as. -/
theorem denotes (h : a.Describes config g) {r : Resolution} (hr : r ∈ a.resolutions)
    {t : TypePath} (ht : r.interface = some t) : a.Denotes t (interfaceOf g r t) := by
  obtain ⟨hmem, hpath⟩ := h.exists_interface hr ht
  have hfilter := filter_key_eq h.interface_paths_nodup hmem
  rwa [hpath] at hfilter

/-- Whatever interface a type of the result names, the result describes it once. -/
theorem exists_denoted (h : a.Describes config g) {e : String × TypePath}
    (he : e ∈ a.mentions g) : ∃ i, a.Denotes e.2 i := by
  have hinterface : ∃ r ∈ a.resolutions, r.interface = some e.2 := by
    rcases List.mem_append.mp he with he | he
    · obtain ⟨i, hi, he⟩ := List.mem_flatMap.mp he
      obtain ⟨r, hr, u, -, rfl⟩ := h.mem_interfaces.mp hi
      obtain ⟨t, ht, rfl⟩ := List.mem_map.mp he
      obtain ⟨r', hr', -, hi'⟩ := h.resolved.exists_parent hr (Option.mem_toList.mp ht)
      exact ⟨r', hr', hi'⟩
    · obtain ⟨d, hd, he⟩ := List.mem_flatMap.mp he
      obtain ⟨r, hr, u, hu, rfl⟩ := h.mem_records.mp hd
      obtain ⟨t, ht, rfl⟩ := List.mem_map.mp he
      have ht : t ∈ r.contracts := by simpa [recordOf, Resolution.implements, hu] using ht
      obtain ⟨r', hr', -, hi'⟩ := (h.resolved.mem_contracts hr).mp ht
      exact ⟨r', hr', hi'⟩
  obtain ⟨r, hr, ht⟩ := hinterface
  exact ⟨_, h.denotes hr ht⟩

/-- The result has an interface of a class exactly if the class became one. -/
theorem any_source_eq (h : a.Describes config g) {r : Resolution} (hr : r ∈ a.resolutions) :
    a.interfaces.any (·.source == r.source) = r.interface.isSome := by
  rw [Bool.eq_iff_iff, List.any_eq_true, Option.isSome_iff_exists]
  constructor
  · rintro ⟨i, hi, hsource⟩
    obtain ⟨r', hr', t, ht, rfl⟩ := h.mem_interfaces.mp hi
    obtain rfl := h.resolved.eq_of_source hr' hr (by simpa [interfaceOf] using hsource)
    exact ⟨t, ht⟩
  · rintro ⟨t, ht⟩
    exact ⟨_, (h.exists_interface hr ht).1, by simp [interfaceOf]⟩

/-- Every class above another one has an interface. -/
theorem interface_isSome_of_above (h : a.Describes config g) {r : Resolution}
    (hr : r ∈ a.resolutions) {l : List ClassId} (hl : g.Above r.source l) {c : ClassId}
    (hc : c ∈ l) : ∃ r' ∈ a.resolutions, r'.source = c ∧ r'.interface.isSome := by
  have hmem : c ∈ r.source :: l := List.mem_cons_of_mem _ hc
  obtain ⟨r', hr', rfl⟩ := h.resolved.exists_of_mem_chain hr hl hmem
  refine ⟨r', hr', rfl, Option.isSome_iff_ne_none.mpr fun hnone => ?_⟩
  obtain rfl := h.resolved.eq_of_descendsFrom h.linked.nameable hr hr'
    (hl.descendsFrom_iff.mpr hmem) hnone
  exact hl.not_mem hc

/-- Classes with interfaces are met again behind the paths of their interfaces. -/
theorem exists_denoted_chain (h : a.Describes config g) {cs : List ClassId}
    (hcs : ∀ c ∈ cs, ∃ r ∈ a.resolutions, r.source = c ∧ r.interface.isSome) :
    ∃ is, List.Forall₂ a.Denotes
        (cs.filterMap (typeOf g (Naming.ofGraph config.interfacePrefix g) .interface)) is ∧
      is.map (·.contribution g) = cs.map g.ownComponents := by
  induction cs with
  | nil => exact ⟨[], .nil, rfl⟩
  | cons c cs ih =>
      obtain ⟨is, hdenotes, hlevels⟩ := ih fun x hx => hcs x (List.mem_cons_of_mem _ hx)
      obtain ⟨r, hr, rfl, hsome⟩ := hcs c List.mem_cons_self
      obtain ⟨t, ht⟩ := Option.isSome_iff_exists.mp hsome
      refine ⟨interfaceOf g r t :: is, ?_, ?_⟩
      · rw [List.filterMap_cons_some ((h.resolved.interface_eq hr).symm.trans ht)]
        exact .cons (h.denotes hr ht) hdenotes
      · rw [List.map_cons, interfaceOf_contribution, hlevels, List.map_cons]

/-- The components of a record are the contributions of the interfaces it implements, read from last
to first, and those of its class, if the class has no interface. -/
theorem exists_contributions (h : a.Describes config g) {d : GeneratedRecord}
    (hd : d ∈ a.records) : ∃ is, List.Forall₂ a.Denotes d.implements is ∧
      d.components = is.reverse.flatMap (·.contribution g) ++
        if a.interfaces.any (·.source == d.source) then [] else g.ownComponents d.source := by
  obtain ⟨r, hr, u, hu, rfl⟩ := h.mem_records.mp hd
  obtain ⟨l, hl, hdescribes⟩ := h.resolved.described r hr
  have himplements : (recordOf config g r u).implements = (r.source :: l).filterMap
      (typeOf g (Naming.ofGraph config.interfacePrefix g) .interface) := by
    simp [recordOf, Resolution.implements, hu, hdescribes.contracts]
  have hsource : (recordOf config g r u).source = r.source := rfl
  have habove := fun c hc => h.interface_isSome_of_above hr hl (c := c) hc
  rw [himplements, hsource, h.any_source_eq hr, recordOf_components u hdescribes.properties]
  cases hi : r.interface with
  | some t =>
      have hchain : ∀ c ∈ r.source :: l, ∃ r' ∈ a.resolutions, r'.source = c ∧
          r'.interface.isSome := by
        intro c hc
        rcases List.mem_cons.mp hc with rfl | hc
        · exact ⟨r, hr, rfl, by simp [hi]⟩
        · exact habove c hc
      obtain ⟨is, hdenotes, hlevels⟩ := h.exists_denoted_chain hchain
      refine ⟨is, hdenotes, ?_⟩
      simp [List.flatMap_def, List.map_reverse, hlevels]
  | none =>
      obtain ⟨is, hdenotes, hlevels⟩ := h.exists_denoted_chain habove
      have hown : typeOf g (Naming.ofGraph config.interfacePrefix g) .interface r.source = none :=
        (h.resolved.interface_eq hr).symm.trans hi
      refine ⟨is, by rwa [List.filterMap_cons_none hown], ?_⟩
      simp [List.flatMap_def, List.map_reverse, hlevels]

end Describes

end Analysis

/-! ## Loaded graphs -/

/-- A result describes every interface it names once. Its records store what the interfaces that
they implement promise, from the last to the first, and what their own class declares if the class
has no interface; every component is declared in the class it comes from. -/
theorem analyze_components {doc : Json} {g : ClassGraph} {config : Config} {workers : Option Int}
    {a : Analysis} (hload : Document.load doc = .ok g) (h : analyze config workers g = .ok a) :
    (∀ e ∈ a.mentions g, ∃ i, a.Denotes e.2 i) ∧
      ∀ d ∈ a.records, ∃ is, List.Forall₂ a.Denotes d.implements is ∧
        d.components = is.reverse.flatMap (·.contribution g) ++
          if a.interfaces.any (·.source == d.source) then [] else g.ownComponents d.source := by
  have hdescribes := analyze_describes (Document.load_linked hload) h
  exact ⟨fun e he => hdescribes.exists_denoted he, fun d hd => hdescribes.exists_contributions hd⟩

theorem analyze_components_shapes : ∃ g a, Document.load Document.shapes = .ok g ∧
    analyze {} none g = .ok a ∧ (∀ e ∈ a.mentions g, ∃ i, a.Denotes e.2 i) ∧
      ∀ d ∈ a.records, ∃ is, List.Forall₂ a.Denotes d.implements is ∧
        d.components = is.reverse.flatMap (·.contribution g) ++
          if a.interfaces.any (·.source == d.source) then [] else g.ownComponents d.source := by
  have hok : (Document.load Document.shapes >>= analyze {} none).isOk = true := by decide +kernel
  obtain ⟨a, h⟩ := exists_ok hok
  obtain ⟨g, hload, ha⟩ := bind_eq_ok.mp h
  exact ⟨g, a, hload, ha, analyze_components hload ha⟩

end RecordGen

import RecordGen.Proofs.GrowingGraphs

/-! # What old classes become in a larger graph

Each stage of an analysis reads the graph in declaration order and keeps what it has found: classes
are placed, containers and types are named, and classes are resolved as they were before the graph
grew. So the result of the smaller graph is the beginning of the result of the larger one. -/

namespace RecordGen

open Fallible

namespace ClassGraph

variable {g g' : ClassGraph}

/-! ## The order of classes -/

theorem place_grows {placed order : List ClassId} {c : ClassId}
    (h : g.place placed c = .ok order) : placed <+: order := by
  obtain ⟨path, -, rfl⟩ := map_eq_ok.mp h
  exact List.prefix_append _ _

/-- Classes that are placed stay in front. -/
theorem foldlM_place_grows {cs : List ClassId} : ∀ {placed order : List ClassId},
    cs.foldlM g.place placed = .ok order → placed <+: order := by
  induction cs with
  | nil =>
      intro placed order h
      obtain rfl : placed = order := by simpa using h
      exact List.prefix_refl _
  | cons c cs ih =>
      intro placed order h
      rw [List.foldlM_cons] at h
      obtain ⟨middle, hmiddle, h⟩ := bind_eq_ok.mp h
      exact (place_grows hmiddle).trans (ih h)

namespace GrowsTo

theorem length_classes_le (h : g.GrowsTo g') : g.classes.length ≤ g'.classes.length := by
  obtain ⟨more, hmore, -⟩ := h.exists_classes
  rw [hmore, List.length_append]
  omega

theorem checkExtension_persists (h : g.GrowsTo g') {c : ClassId} (hc : c ∈ g.classes) :
    Persists (g.checkExtension c) (g'.checkExtension c) := by
  rintro ⟨⟩ hok
  refine checkExtension_eq_ok.mpr fun s hs => ?_
  rw [Extends, h.decl_eq hc] at hs
  obtain ⟨hlisted, hmodule, hkind⟩ := checkExtension_eq_ok.mp hok s hs
  rw [h.decl_eq hc, h.decl_eq hlisted]
  exact ⟨h.mem_classes hlisted, hmodule, hkind⟩

/-- A walk that succeeds passes the same classes. The number of steps allowed grows with the graph,
and neither walk uses them up. -/
theorem climb_persists (h : g.GrowsTo g') (hg' : g'.Linked) {placed : List ClassId} :
    ∀ {steps steps' : Nat} {path : List ClassId} {next : Option ClassId},
      g.Climbing placed next path → path.length + steps = g.classes.length + 1 → steps ≤ steps' →
      Persists (g.climb placed steps path next) (g'.climb placed steps' path next) := by
  intro steps
  induction steps with
  | zero =>
      intro steps' path next hclimb hlen _
      have hle := (hclimb.path_nodup.subperm hclimb.path_mem).length_le
      omega
  | succ steps ih =>
      intro steps' path next hclimb hlen hle
      obtain ⟨steps', rfl⟩ := Nat.exists_eq_add_of_le' (Nat.lt_of_lt_of_le (Nat.succ_pos _) hle)
      cases next with
      | none =>
          rw [climb_none, climb_none]
          exact .refl _
      | some c =>
          have hc := hclimb.next_mem c rfl
          intro out hout
          rw [climb_some] at hout ⊢
          by_cases hplaced : c ∈ placed
          · rwa [if_pos hplaced] at hout ⊢
          · rw [if_neg hplaced] at hout ⊢
            by_cases hpath : c ∈ path
            · simp [hpath] at hout
            · rw [if_neg hpath] at hout ⊢
              obtain ⟨⟨⟩, he, hout⟩ := bind_eq_ok.mp hout
              obtain ⟨⟨⟩, hx, hout⟩ := bind_eq_ok.mp hout
              have hsteps : (c :: path).length + steps = g.classes.length + 1 := by
                simp only [List.length_cons]
                omega
              rw [hg'.checkEnclosing c (h.mem_classes hc), ok_bind,
                h.checkExtension_persists hc _ hx, ok_bind, h.decl_eq hc]
              exact ih (hclimb.up hplaced hpath he hx) hsteps (Nat.le_of_succ_le_succ hle) _ hout

theorem foldlM_place_persists (h : g.GrowsTo g') (hg' : g'.Linked) {cs : List ClassId} :
    ∀ {placed : List ClassId}, cs ⊆ g.classes →
      Persists (cs.foldlM g.place placed) (cs.foldlM g'.place placed) := by
  induction cs with
  | nil =>
      intro placed _
      rw [List.foldlM_nil, List.foldlM_nil]
      exact .refl _
  | cons c cs ih =>
      intro placed hcs
      rw [List.foldlM_cons, List.foldlM_cons]
      refine .bind ?_ fun _ _ => ih fun x hx => hcs (List.mem_cons_of_mem _ hx)
      have hc : c ∈ g.classes := hcs List.mem_cons_self
      have hsteps : g.classes.length + 1 ≤ g'.classes.length + 1 :=
        Nat.succ_le_succ h.length_classes_le
      exact (h.climb_persists hg' (.start hc) (by simp) hsteps).map _

/-- The old classes keep their order, in front of the new ones. -/
theorem ancestryOrder_grows (h : g.GrowsTo g') (hg' : g'.Linked) {order order' : List ClassId}
    (ho : g.ancestryOrder = .ok order) (ho' : g'.ancestryOrder = .ok order') :
    order <+: order' := by
  obtain ⟨more, hmore, -⟩ := h.exists_classes
  rw [ancestryOrder, hmore, List.foldlM_append,
    h.foldlM_place_persists hg' (List.Subset.refl _) _ ho, ok_bind] at ho'
  exact foldlM_place_grows ho'

end GrowsTo

end ClassGraph

/-! ## Names -/

theorem containerNames_grows (ms ns : List String) : ∀ taken : List String,
    containerNames taken ms <+: containerNames taken (ms ++ ns) := by
  induction ms with
  | nil =>
      intro taken
      exact List.nil_prefix
  | cons m ms ih =>
      intro taken
      rw [List.cons_append, containerNames, containerNames, List.cons_prefix_cons]
      exact ⟨rfl, ih _⟩

namespace ClassGraph.GrowsTo

open Naming

variable {g g' : ClassGraph} {p : String}

/-- The old modules keep their containers. -/
theorem housing_grows (h : g.GrowsTo g') : housing g <+: housing g' := by
  obtain ⟨more, hmore⟩ := h.exists_modules
  have hnames : g.modules.map (fun m => (g'.decl m).name) =
      g.modules.map fun m => (g.decl m).name := by
    refine List.map_congr_left fun m hm => ?_
    rw [h.decl_eq (h.mem_classes_of_mem_modules hm)]
  obtain ⟨rest, hrest⟩ := containerNames_grows (g.modules.map fun m => (g.decl m).name)
    (more.map fun m => (g'.decl m).name) protocolTypes
  refine ⟨more.zip rest, ?_⟩
  rw [housing, housing, hmore, List.map_append, hnames, ← hrest, List.zip_append (by simp)]

theorem ofModule_eq (h : g.GrowsTo g') {module : ClassId × String} (hm : module ∈ housing g) :
    ofModule p g' module = ofModule p g module := by
  have hmodule : module.1 ∈ g.modules := mem_modules_of_mem_housing hm
  have hlisted : module.1 ∈ g.classes := h.mem_classes_of_mem_modules hmodule
  have hmembers : (g.membersOf (g.decl module.1).name).map
      (fun c => ((g'.decl c).name, (g'.decl c).kind)) =
      (g.membersOf (g.decl module.1).name).map fun c => ((g.decl c).name, (g.decl c).kind) :=
    List.map_congr_left fun c hc => by rw [h.decl_eq (mem_membersOf.mp hc).1]
  simp only [ofModule, h.decl_eq hlisted, h.membersOf_eq hmodule, hmembers]

/-- The old classes keep their names. -/
theorem allotments_grows (h : g.GrowsTo g') : allotments p g <+: allotments p g' := by
  obtain ⟨more, hmore⟩ := h.housing_grows
  have hold : (housing g).flatMap (ofModule p g') = allotments p g :=
    List.flatMap_congr fun m hm => h.ofModule_eq hm
  refine ⟨more.flatMap (ofModule p g'), ?_⟩
  rw [← hold, ← List.flatMap_append, hmore, allotments]

theorem typeOf_eq (h : g.GrowsTo g') (hg : g.Linked) (hg' : g'.Linked) (s : Slot) {c : ClassId}
    (hc : c ∈ g.classes) : typeOf g' (ofGraph p g') s c = typeOf g (ofGraph p g) s c := by
  rw [typeOf, typeOf, h.decl_eq hc]
  by_cases hfills : (g.decl c).kind.fills s = true
  · obtain ⟨_, -, htypes⟩ := exists_ofGraph_find? (p := p) hg.nameable hc (hg.checkEnclosing c hc)
    obtain ⟨t, ht, -⟩ := htypes s hfills
    obtain ⟨e, he, hentry⟩ := (ofGraph_find? hg.nameable).mp ht
    have ht' : ((ofGraph p g').at s).find? c = some t :=
      (ofGraph_find? hg'.nameable).mpr ⟨e, h.allotments_grows.subset he, hentry⟩
    rw [if_pos hfills, if_pos hfills, ht, ht']
  · rw [if_neg hfills, if_neg hfills]

theorem container_of_some (h : g.GrowsTo g') (hg : g.Linked) (hg' : g'.Linked)
    {name container : String} (hk : (ofGraph p g).containers.find? name = some container) :
    (ofGraph p g').containers.find? name = some container := by
  obtain ⟨m, hm, hname⟩ := (ofGraph_container_find? hg.nameable.names_nodup).mp hk
  have hmodule : m ∈ g.modules := mem_modules_of_mem_housing hm
  refine (ofGraph_container_find? hg'.nameable.names_nodup).mpr
    ⟨m, h.housing_grows.subset hm, ?_⟩
  rw [h.decl_eq (hg.mem_modules.mp hmodule).1, hname]

/-! ## Resolved classes -/

theorem declare_persists (c : ClassId) (ps : List Property) : ∀ inherited : List Declared,
    Persists (g.declare c inherited ps) (g'.declare c inherited ps) := by
  induction ps with
  | nil =>
      intro inherited
      exact .refl _
  | cons q ps ih =>
      intro inherited out hout
      rw [declare] at hout ⊢
      split at hout
      · cases hout
      · exact ih _ out hout

theorem extend_persists (h : g.GrowsTo g') {c : ClassId} (hc : c ∈ g.classes)
    (inherited : List Declared) : Persists (g.extend inherited c) (g'.extend inherited c) := by
  rw [extend, extend, h.decl_eq hc]
  exact declare_persists c _ inherited

theorem below_persists (h : g.GrowsTo g') (hg : g.Linked) (hg' : g'.Linked)
    (above : Option Resolution) {c : ClassId} (hc : c ∈ g.classes) :
    Persists (Resolution.below g (ofGraph p g) above c)
      (Resolution.below g' (ofGraph p g') above c) := by
  intro r hr
  obtain ⟨properties, container, hproperties, hk, rfl⟩ := Resolution.below_eq_ok.mp hr
  refine Resolution.below_eq_ok.mpr ⟨properties, container, h.extend_persists hc _ _ hproperties,
    ?_, ?_⟩
  · rw [h.decl_eq hc]
    exact h.container_of_some hg hg' hk
  · simp only [h.typeOf_eq hg hg' _ hc, h.fullName_eq hc]

theorem above (h : g.GrowsTo g') (hg : g.Linked) {c : ClassId} {l : List ClassId}
    (hl : g.Above c l) : c ∈ g.classes → g'.Above c l := by
  induction hl with
  | root hroot =>
      intro hc
      exact .root (by rw [h.decl_eq hc, hroot])
  | step hs _ ih =>
      intro hc
      refine .step ?_ (ih (hg.superclasses _ hc _ hs))
      rw [Extends, h.decl_eq hc, hs]

/-- Every old class becomes what it became. -/
theorem resolveClass_persists (h : g.GrowsTo g') (hg : g.Linked) (hg' : g'.Linked) {c : ClassId}
    {l : List ClassId} (hl : g.Above c l) : c ∈ g.classes →
      Persists (g.resolveClass (ofGraph p g) c) (g'.resolveClass (ofGraph p g') c) := by
  induction hl with
  | @root c hroot =>
      intro hc
      have hroot' : (g'.decl c).superclass = none := by rw [h.decl_eq hc, hroot]
      rw [resolveClass_root _ hroot, resolveClass_root _ hroot']
      exact h.below_persists hg hg' none hc
  | @step c s l hs hl ih =>
      intro hc
      have hsuper := hg.superclasses c hc s hs
      have hs' : g'.Extends c s := by rw [Extends, h.decl_eq hc, hs]
      rw [resolveClass_step _ hs hl, resolveClass_step _ hs' (h.above hg hl hsuper)]
      exact .bind (ih hsuper) fun r _ => h.below_persists hg hg' (some r) hc

/-- The results of the old classes come first, and are what they were. -/
theorem resolve_grows (h : g.GrowsTo g') (hg : g.Linked) (hg' : g'.Linked)
    {workers : Option Int} {rs rs' : List Resolution} (hrs : g.resolve p workers = .ok rs)
    (hrs' : g'.resolve p workers = .ok rs') : rs <+: rs' := by
  obtain ⟨order, horder, -, hresults⟩ := resolve_eq_ok.mp hrs
  obtain ⟨order', horder', -, hresults'⟩ := resolve_eq_ok.mp hrs'
  obtain ⟨hfirst, hlisted⟩ := ancestryOrder_ok horder
  obtain ⟨more, rfl⟩ := h.ancestryOrder_grows hg' horder horder'
  refine Persists.mapM_append (fun c hc => ?_) hresults hresults'
  obtain ⟨l, hl, -⟩ := hfirst.above c hc
  exact h.resolveClass_persists hg hg' hl ((hlisted c).mp hc)

end ClassGraph.GrowsTo

/-! ## Results -/

/-- A result that begins with another one. Its new types lie in containers of their own. -/
structure Analysis.GrowsTo (a a' : Analysis) : Prop where
  types : ∃ more, a'.types = a.types ++ more ∧
    ∀ d ∈ a.types, ∀ d' ∈ more, d.head.container ≠ d'.head.container
  resolutions : a.resolutions <+: a'.resolutions
  contract : a'.contract = a.contract

namespace ClassGraph.GrowsTo

variable {g g' : ClassGraph} {config : Config} {p : String}

/-- The types of a resolved class are those it had. -/
theorem typesOf_eq (h : g.GrowsTo g') {rs : List Resolution} (hrs : g.Resolved p rs)
    {r : Resolution} (hr : r ∈ rs) :
    Analysis.typesOf config g' r = Analysis.typesOf config g r := by
  have howners : (r.properties.map fun e =>
      (⟨e.property.name, e.property.type, e.property.nullable, e.property.doc,
        g'.fullName e.owner⟩ : Component)) = r.properties.map fun e =>
      ⟨e.property.name, e.property.type, e.property.nullable, e.property.doc,
        g.fullName e.owner⟩ :=
    List.map_congr_left fun e he => by
      rw [h.fullName_eq (hrs.declared_of_mem_properties hr he).1]
  simp only [Analysis.typesOf, Analysis.interfaceOf, Analysis.recordOf,
    h.decl_eq (hrs.listed hr), howners]

/-- A new class lies in a new container. -/
theorem container_ne (h : g.GrowsTo g') (hg : g.Linked) (hg' : g'.Linked)
    {rs rs' : List Resolution} (hrs : g.Resolved p rs) (hrs' : g'.Resolved p rs')
    {r r' : Resolution} (hr : r ∈ rs) (hr' : r' ∈ rs') (hnew : r'.source ∉ g.classes) :
    r.container ≠ r'.container := by
  intro hcontainer
  obtain ⟨_, -, hd⟩ := hrs.described r hr
  obtain ⟨_, -, hd'⟩ := hrs'.described r' hr'
  obtain ⟨m, hm, hname⟩ :=
    (Naming.ofGraph_container_find? hg.nameable.names_nodup).mp hd.container
  obtain ⟨m', hm', hname'⟩ :=
    (Naming.ofGraph_container_find? hg'.nameable.names_nodup).mp hd'.container
  have hmodule : m ∈ g.modules := Naming.mem_modules_of_mem_housing hm
  have hsame : (m, r.container) = (m', r'.container) :=
    List.inj_on_of_nodup_map (Naming.housing_containers_nodup g') (h.housing_grows.subset hm) hm'
      hcontainer
  obtain ⟨rfl, -⟩ := Prod.mk.inj hsame
  refine h.fresh r'.source (hrs'.listed hr') hnew m hmodule ?_
  rw [← hname', h.decl_eq (hg.mem_modules.mp hmodule).1]

end ClassGraph.GrowsTo

theorem Analysis.container_of_mem_typesOf {config : Config} {g : ClassGraph} {r : Resolution}
    {d : GeneratedType} (hd : d ∈ typesOf config g r) : d.head.container = r.container := by
  rw [typesOf, List.mem_append, Option.mem_toList, Option.mem_toList, Option.map_eq_some_iff,
    Option.map_eq_some_iff] at hd
  rcases hd with ⟨_, _, rfl⟩ | ⟨_, _, rfl⟩ <;> rfl

/-- The result of a graph that grows begins with the result it had. -/
theorem analyze_growsTo {g g' : ClassGraph} (h : g.GrowsTo g') (hg : g.Linked) (hg' : g'.Linked)
    {config : Config} {workers : Option Int} {a a' : Analysis}
    (ha : analyze config workers g = .ok a) (ha' : analyze config workers g' = .ok a') :
    a.GrowsTo a' := by
  rw [analyze_eq hg.nameable.names_nodup hg.nameable.modulesApart] at ha
  rw [analyze_eq hg'.nameable.names_nodup hg'.nameable.modulesApart] at ha'
  obtain ⟨rs, hrs, rfl⟩ := map_eq_ok.mp ha
  obtain ⟨rs', hrs', rfl⟩ := map_eq_ok.mp ha'
  obtain ⟨more, rfl⟩ := h.resolve_grows hg hg' hrs hrs'
  have hresolved := ClassGraph.resolve_resolved hrs
  have hresolved' := ClassGraph.resolve_resolved hrs'
  have hold : rs.flatMap (Analysis.typesOf config g') = rs.flatMap (Analysis.typesOf config g) :=
    List.flatMap_congr fun r hr => h.typesOf_eq hresolved hr
  have hnew : ∀ r' ∈ more, r'.source ∉ g.classes := by
    intro r' hr' hlisted
    obtain ⟨r, hr, hsource⟩ := hresolved.complete _ hlisted
    have hn := hresolved'.sources_nodup
    rw [List.map_append, List.nodup_append] at hn
    exact hn.2.2 _ (List.mem_map_of_mem hr) _ (List.mem_map_of_mem hr') hsource
  refine ⟨⟨more.flatMap (Analysis.typesOf config g'), ?_, fun d hd d' hd' => ?_⟩,
    List.prefix_append _ _, rfl⟩
  · simp only [Analysis.ofResolutions, List.flatMap_append, hold]
  · obtain ⟨r, hr, hd⟩ := List.mem_flatMap.mp hd
    obtain ⟨r', hr', hd'⟩ := List.mem_flatMap.mp hd'
    rw [Analysis.container_of_mem_typesOf hd, Analysis.container_of_mem_typesOf hd']
    exact h.container_ne hg hg' hresolved hresolved' hr (List.mem_append_right _ hr') (hnew r' hr')

end RecordGen

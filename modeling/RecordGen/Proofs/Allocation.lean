import Mathlib.Data.List.Induction
import Mathlib.Data.List.Nodup
import RecordGen.Hierarchy
import RecordGen.Proofs.Fallible
import RecordGen.Proofs.FreshNames

/-! # Which names a graph allocates

The names of a graph are read as a list of allotments, one for each class that gets names. No two
types of the list have the same path. -/

namespace RecordGen

/-! ## The two types of a class -/

/-- The types that a class can become. -/
inductive Slot where
  | interface
  | record
deriving DecidableEq

def ClassNames.at (n : ClassNames) : Slot → Option String
  | .interface => n.interface
  | .record => n.record

def Naming.at (n : Naming) : Slot → Table ClassId TypePath
  | .interface => n.interfaces
  | .record => n.records

/-- Whether classes of a kind become the type. -/
def Extensibility.fills (k : Extensibility) : Slot → Bool
  | .interface => k.allowsSubclasses
  | .record => k.allowsInstances

namespace ClassNames

theorem mem_toList {n : ClassNames} {x : String} : x ∈ n.toList ↔ ∃ s, n.at s = some x := by
  rw [toList, List.mem_append, Option.mem_toList, Option.mem_toList]
  constructor
  · rintro (h | h)
    · exact ⟨.interface, h⟩
    · exact ⟨.record, h⟩
  · rintro ⟨s, h⟩
    cases s with
    | interface => exact Or.inl h
    | record => exact Or.inr h

/-- The interface and the record of a class have different names. -/
theorem slot_unique {n : ClassNames} (h : n.toList.Nodup) {s s' : Slot} {x : String}
    (hs : n.at s = some x) (hs' : n.at s' = some x) : s = s' := by
  have hdisjoint : ∀ y, n.interface = some y → n.record ≠ some y := by
    intro y hi hr
    have := (List.nodup_append.mp h).2.2 y (by simp [hi]) y (by simp [hr])
    exact this rfl
  cases s <;> cases s'
  · rfl
  · exact absurd hs' (hdisjoint x hs)
  · exact absurd hs (hdisjoint x hs')
  · rfl

end ClassNames

/-! ## Tables filled one entry after the other -/

namespace Table

variable {κ β : Type} [DecidableEq κ]

/-- A table filled with entries holds nothing else. -/
theorem mem_of_find?_foldl_insert {es : List (κ × β)} {k : κ} {v : β}
    (h : (es.foldl (fun t e => t.insert e.1 e.2) (∅ : Table κ β)).find? k = some v) :
    (k, v) ∈ es := by
  induction es using List.reverseRecOn with
  | nil => simp at h
  | append_singleton es e ih =>
      rw [List.foldl_append, List.foldl_cons, List.foldl_nil, find?_insert] at h
      split at h
      · rename_i hk
        obtain rfl := hk
        obtain rfl := Option.some.inj h
        simp
      · exact List.mem_append_left _ (ih h)

/-- Every key that is filled in has a value. -/
theorem exists_find?_foldl_insert {es : List (κ × β)} {k : κ} (h : k ∈ es.map (·.1)) :
    ∃ v, (es.foldl (fun t e => t.insert e.1 e.2) (∅ : Table κ β)).find? k = some v := by
  induction es using List.reverseRecOn with
  | nil => simp at h
  | append_singleton es e ih =>
      rw [List.foldl_append, List.foldl_cons, List.foldl_nil, find?_insert]
      by_cases hk : e.1 = k
      · exact ⟨e.2, if_pos hk⟩
      · rw [if_neg hk]
        apply ih
        simpa [Ne.symm hk] using h

/-- A table filled with entries of different keys holds exactly these entries. -/
theorem find?_foldl_insert {es : List (κ × β)} (h : (es.map (·.1)).Nodup) {k : κ} {v : β} :
    (es.foldl (fun t e => t.insert e.1 e.2) (∅ : Table κ β)).find? k = some v ↔ (k, v) ∈ es := by
  induction es using List.reverseRecOn with
  | nil => simp
  | append_singleton es e ih =>
      obtain ⟨k', w⟩ := e
      rw [List.map_append, List.nodup_append] at h
      have hnew : ∀ u, (k', u) ∉ es := by
        intro u hu
        exact h.2.2 k' (List.mem_map.mpr ⟨_, hu, rfl⟩) k' (by simp) rfl
      rw [List.foldl_append, List.foldl_cons, List.foldl_nil, find?_insert]
      by_cases hk : k' = k
      · subst hk
        simp [hnew, eq_comm]
      · simp [hk, Ne.symm hk, ih h.1]

end Table

/-! ## Allotments -/

/-- The names that a class gets, in the container of its module. -/
structure Allotment where
  container : String
  source : ClassId
  names : ClassNames

namespace Allotment

/-- The entry for one of the two types of the class. -/
def entry (s : Slot) (e : Allotment) : Option (ClassId × TypePath) :=
  (e.names.at s).map fun n => (e.source, ⟨n, e.container⟩)

/-- The types that are named. -/
def paths (e : Allotment) : List TypePath :=
  e.names.toList.map (⟨·, e.container⟩)

theorem entry_eq_some {s : Slot} {e : Allotment} {c : ClassId} {t : TypePath} :
    e.entry s = some (c, t) ↔
      e.source = c ∧ e.names.at s = some t.name ∧ e.container = t.container := by
  obtain ⟨name, container⟩ := t
  simp only [entry, Option.map_eq_some_iff, Prod.mk.injEq, TypePath.mk.injEq]
  constructor
  · rintro ⟨n, hn, hc, rfl, hk⟩
    exact ⟨hc, hn, hk⟩
  · rintro ⟨hc, hn, hk⟩
    exact ⟨name, hn, hc, rfl, hk⟩

theorem mem_paths {e : Allotment} {t : TypePath} :
    t ∈ e.paths ↔ ∃ s, e.entry s = some (e.source, t) := by
  obtain ⟨name, container⟩ := t
  simp only [paths, List.mem_map, ClassNames.mem_toList, TypePath.mk.injEq, entry_eq_some,
    true_and]
  constructor
  · rintro ⟨n, ⟨s, hs⟩, rfl, hk⟩
    exact ⟨s, hs, hk⟩
  · rintro ⟨s, hs, hk⟩
    exact ⟨name, ⟨s, hs⟩, rfl, hk⟩

end Allotment

namespace Naming

open Allotment

/-- The allotments of a module and its classes. -/
def ofModule (p : String) (g : ClassGraph) (module : ClassId × String) : List Allotment :=
  let d := g.decl module.1
  let (own, taken) := moduleNames module.2 d.kind
  let named := classNames p taken
    ((g.membersOf d.name).map fun c => ((g.decl c).name, (g.decl c).kind))
  ⟨module.2, module.1, own⟩ :: ((g.membersOf d.name).zip named).map fun e => ⟨module.2, e.1, e.2⟩

/-- The modules of a graph, each with its container. -/
def housing (g : ClassGraph) : List (ClassId × String) :=
  g.modules.zip (containerNames protocolTypes (g.modules.map fun m => (g.decl m).name))

def allotments (p : String) (g : ClassGraph) : List Allotment :=
  (housing g).flatMap (ofModule p g)

/-! ## The names of a graph are its allotments -/

/-- Enters one type of an allotment, if the class becomes it. -/
def enter (s : Slot) (t : Table ClassId TypePath) (e : Allotment) : Table ClassId TypePath :=
  match e.entry s with
  | some b => t.insert b.1 b.2
  | none => t

theorem addClass_at (n : Naming) (container : String) (c : ClassId) (names : ClassNames)
    (s : Slot) : (n.addClass container c names).at s = enter s (n.at s) ⟨container, c, names⟩ := by
  cases s with
  | interface =>
      cases h : names.interface <;> simp [addClass, Naming.at, enter, entry, ClassNames.at, h]
  | record =>
      cases h : names.record <;> simp [addClass, Naming.at, enter, entry, ClassNames.at, h]

theorem foldl_addClass_at (container : String) (es : List (ClassId × ClassNames)) (n : Naming)
    (s : Slot) : (es.foldl (fun n e => n.addClass container e.1 e.2) n).at s =
      (es.map fun e => (⟨container, e.1, e.2⟩ : Allotment)).foldl (enter s) (n.at s) := by
  induction es generalizing n with
  | nil => rfl
  | cons e es ih => simp [ih, addClass_at]

theorem addModule_at (p : String) (g : ClassGraph) (n : Naming) (module : ClassId × String)
    (s : Slot) :
    (addModule p g n module).at s = (ofModule p g module).foldl (enter s) (n.at s) := by
  obtain ⟨m, container⟩ := module
  simp only [addModule, ofModule, foldl_addClass_at, List.foldl_cons, addClass_at]
  cases s <;> rfl

theorem foldl_addModule_at (p : String) (g : ClassGraph) (ms : List (ClassId × String))
    (n : Naming) (s : Slot) : (ms.foldl (addModule p g) n).at s =
      (ms.flatMap (ofModule p g)).foldl (enter s) (n.at s) := by
  induction ms generalizing n with
  | nil => rfl
  | cons m ms ih => simp [ih, addModule_at]

theorem foldl_enter (es : List Allotment) (s : Slot) (t : Table ClassId TypePath) :
    es.foldl (enter s) t = (es.filterMap (entry s)).foldl (fun t e => t.insert e.1 e.2) t := by
  induction es generalizing t with
  | nil => rfl
  | cons e es ih => cases h : e.entry s <;> simp [enter, h, ih]

theorem ofGraph_at (p : String) (g : ClassGraph) (s : Slot) :
    (ofGraph p g).at s =
      ((allotments p g).filterMap (entry s)).foldl (fun t e => t.insert e.1 e.2) ∅ := by
  show (List.foldl (addModule p g) {} (housing g)).at s = _
  have hempty : Naming.at {} s = ∅ := by cases s <;> rfl
  rw [foldl_addModule_at, hempty, foldl_enter, allotments]

@[simp] theorem addClass_containers (n : Naming) (container : String) (c : ClassId)
    (names : ClassNames) : (n.addClass container c names).containers = n.containers := rfl

theorem foldl_addClass_containers (container : String) (es : List (ClassId × ClassNames))
    (n : Naming) :
    (es.foldl (fun n e => n.addClass container e.1 e.2) n).containers = n.containers := by
  induction es generalizing n with
  | nil => rfl
  | cons e es ih => simp [ih]

theorem foldl_addModule_containers (p : String) (g : ClassGraph) (ms : List (ClassId × String))
    (n : Naming) : (ms.foldl (addModule p g) n).containers =
      (ms.map fun m => ((g.decl m.1).name, m.2)).foldl (fun t e => t.insert e.1 e.2)
        n.containers := by
  induction ms generalizing n with
  | nil => rfl
  | cons m ms ih =>
      simp only [List.foldl_cons, List.map_cons, ih, addModule, foldl_addClass_containers,
        addClass_containers]

theorem ofGraph_containers (p : String) (g : ClassGraph) : (ofGraph p g).containers =
    ((housing g).map fun m => ((g.decl m.1).name, m.2)).foldl (fun t e => t.insert e.1 e.2) ∅ :=
  foldl_addModule_containers p g (housing g) {}

end Naming

/-! ## Graphs whose names are allocated once -/

namespace ClassGraph

/-- The modules are module nodes with different names, and no class is listed twice. -/
structure Nameable (g : ClassGraph) : Prop where
  modules_are : ∀ m ∈ g.modules, (g.decl m).isModule = true
  names_nodup : (g.modules.map fun m => (g.decl m).name).Nodup
  classes_nodup : g.classes.Nodup

variable {g : ClassGraph}

theorem mem_membersOf {name : String} {c : ClassId} : c ∈ g.membersOf name ↔
    c ∈ g.classes ∧ (g.decl c).isModule = false ∧ (g.decl c).moduleName = name := by
  simp [membersOf]

end ClassGraph

namespace Naming

open Allotment ClassGraph

variable {g : ClassGraph} {p : String}

theorem housing_map_fst (g : ClassGraph) : (housing g).map (·.1) = g.modules :=
  List.map_fst_zip (by simp)

theorem mem_modules_of_mem_housing {module : ClassId × String} (hm : module ∈ housing g) :
    module.1 ∈ g.modules := by
  rw [← housing_map_fst g]
  exact List.mem_map_of_mem hm

theorem housing_map_snd (g : ClassGraph) : (housing g).map (·.2) =
    containerNames protocolTypes (g.modules.map fun m => (g.decl m).name) :=
  List.map_snd_zip (by simp)

/-- The classes of a module's allotments: the module, then its members. -/
theorem ofModule_sources (p : String) (g : ClassGraph) (module : ClassId × String) :
    (ofModule p g module).map Allotment.source =
      module.1 :: g.membersOf (g.decl module.1).name := by
  have hlen : ∀ (taken : List String) (cs : List (String × Extensibility)),
      (classNames p taken cs).length = cs.length := fun taken cs =>
    (classNames_forall₂ p taken cs).length_eq.symm
  simp only [ofModule, List.map_cons, List.map_map]
  congr 1
  exact List.map_fst_zip (by simp [hlen])

/-- No class gets names twice. -/
theorem allotments_sources_nodup (h : g.Nameable) :
    ((allotments p g).map Allotment.source).Nodup := by
  have hsources : (allotments p g).map Allotment.source =
      (housing g).flatMap fun m => m.1 :: g.membersOf (g.decl m.1).name := by
    simp only [allotments, List.map_flatMap, ofModule_sources]
  rw [hsources, List.nodup_flatMap]
  have hmodule : ∀ m ∈ housing g, (g.decl m.1).isModule = true := by
    intro m hm
    exact h.modules_are _ (mem_modules_of_mem_housing hm)
  constructor
  · intro m hm
    refine List.nodup_cons.mpr ⟨?_, h.classes_nodup.filter _⟩
    intro hmem
    rw [mem_membersOf, hmodule m hm] at hmem
    simp at hmem
  · have hnames : (housing g).Pairwise fun m m' => (g.decl m.1).name ≠ (g.decl m'.1).name := by
      have hn := h.names_nodup
      rw [← housing_map_fst g, List.map_map] at hn
      exact List.pairwise_map.mp hn
    have hboth : (housing g).Pairwise fun m m' => m ∈ housing g ∧ m' ∈ housing g :=
      List.pairwise_of_forall_mem_list fun m hm m' hm' => ⟨hm, hm'⟩
    refine (hnames.and hboth).imp ?_
    rintro m m' ⟨hne, hm, hm'⟩ c hc hc'
    rcases List.mem_cons.mp hc with rfl | hc
    · rcases List.mem_cons.mp hc' with heq | hc'
      · exact hne (by rw [heq])
      · rw [mem_membersOf, hmodule m hm] at hc'
        simp at hc'
    · rcases List.mem_cons.mp hc' with rfl | hc'
      · rw [mem_membersOf, hmodule m' hm'] at hc
        simp at hc
      · exact hne ((mem_membersOf.mp hc).2.2.symm.trans (mem_membersOf.mp hc').2.2)

/-- Every type of a class is named by one of the allotments. -/
theorem exists_allotment_of_find? {s : Slot} {c : ClassId} {t : TypePath}
    (h : ((ofGraph p g).at s).find? c = some t) :
    ∃ e ∈ allotments p g, e.entry s = some (c, t) := by
  rw [ofGraph_at] at h
  exact List.mem_filterMap.mp (Table.mem_of_find?_foldl_insert h)

/-- A class has a type exactly if one of the allotments names it. -/
theorem ofGraph_find? (h : g.Nameable) {s : Slot} {c : ClassId} {t : TypePath} :
    ((ofGraph p g).at s).find? c = some t ↔ ∃ e ∈ allotments p g, e.entry s = some (c, t) := by
  rw [ofGraph_at, Table.find?_foldl_insert, List.mem_filterMap]
  have hn := List.pairwise_map.mp (allotments_sources_nodup (p := p) h)
  rw [List.Nodup, List.pairwise_map, List.pairwise_filterMap]
  refine hn.imp ?_
  rintro e e' hne ⟨c, t⟩ he ⟨c', t'⟩ he' heq
  obtain ⟨hc, -, -⟩ := entry_eq_some.mp he
  obtain ⟨hc', -, -⟩ := entry_eq_some.mp he'
  exact hne (hc.trans (heq.trans hc'.symm))

/-- A class with one allotment has the types that it names. -/
theorem ofGraph_find?_of_sole {e : Allotment} (he : e ∈ allotments p g)
    (hsole : ∀ e' ∈ allotments p g, e'.source = e.source → e' = e) (s : Slot) :
    ((ofGraph p g).at s).find? e.source = (e.names.at s).map (⟨·, e.container⟩) := by
  have hfound : ∀ t, ((ofGraph p g).at s).find? e.source = some t →
      e.entry s = some (e.source, t) := by
    intro t ht
    obtain ⟨e', he', hentry⟩ := exists_allotment_of_find? ht
    exact hsole e' he' (entry_eq_some.mp hentry).1 ▸ hentry
  cases hname : e.names.at s with
  | none =>
      refine Option.eq_none_iff_forall_not_mem.mpr fun t ht => ?_
      have hnamed := (entry_eq_some.mp (hfound t ht)).2.1
      rw [hname] at hnamed
      cases hnamed
  | some name =>
      have hkey : e.source ∈ ((allotments p g).filterMap (entry s)).map (·.1) := by
        refine List.mem_map.mpr ⟨(e.source, ⟨name, e.container⟩), ?_, rfl⟩
        exact List.mem_filterMap.mpr ⟨e, he, entry_eq_some.mpr ⟨rfl, hname, rfl⟩⟩
      obtain ⟨t, ht⟩ := Table.exists_find?_foldl_insert hkey
      rw [← ofGraph_at] at ht
      obtain ⟨-, hnamed, hcontainer⟩ := entry_eq_some.mp (hfound t ht)
      obtain rfl : name = t.name := Option.some.inj (hname.symm.trans hnamed)
      rw [ht, hcontainer, Option.map_some]

/-- The container of a module name, if the graph has a module of that name. -/
theorem ofGraph_container_find? (hn : (g.modules.map fun m => (g.decl m).name).Nodup)
    {name container : String} : (ofGraph p g).containers.find? name = some container ↔
      ∃ m, (m, container) ∈ housing g ∧ (g.decl m).name = name := by
  rw [ofGraph_containers, Table.find?_foldl_insert]
  · simp
  · rw [← housing_map_fst g, List.map_map] at hn
    rwa [List.map_map]

/-- A module name has one container. -/
theorem housing_unique (hn : (g.modules.map fun m => (g.decl m).name).Nodup)
    {module module' : ClassId × String} (hm : module ∈ housing g) (hm' : module' ∈ housing g)
    (hname : (g.decl module.1).name = (g.decl module'.1).name) : module = module' := by
  rw [← housing_map_fst g, List.map_map] at hn
  exact List.inj_on_of_nodup_map hn hm hm' hname

/-! ## The names of one module -/

theorem ofModule_container {module : ClassId × String} :
    ∀ e ∈ ofModule p g module, e.container = module.2 := by
  intro e he
  rcases List.mem_cons.mp he with rfl | he
  · rfl
  · obtain ⟨_, _, rfl⟩ := List.mem_map.mp he
    rfl

theorem ofModule_names (p : String) (g : ClassGraph) (module : ClassId × String) :
    (ofModule p g module).map Allotment.names =
      (moduleNames module.2 (g.decl module.1).kind).1 ::
        classNames p (moduleNames module.2 (g.decl module.1).kind).2
          ((g.membersOf (g.decl module.1).name).map
            fun c => ((g.decl c).name, (g.decl c).kind)) := by
  simp only [ofModule, List.map_cons, List.map_map]
  congr 1
  apply List.map_snd_zip
  refine Nat.le_of_eq ?_
  rw [← (classNames_forall₂ _ _ _).length_eq, List.length_map]

/-- The names of one module differ, and none is a name of the copy-with protocol. -/
theorem ofModule_names_fresh {module : ClassId × String} (h : module.2 ∉ protocolTypes) :
    (((ofModule p g module).map Allotment.names).flatMap ClassNames.toList).Nodup ∧
      ∀ e ∈ ofModule p g module, ∀ x ∈ e.names.toList, x ∉ protocolTypes := by
  obtain ⟨hown, -, htaken, hownfree, hprotocol, -, -⟩ :=
    moduleNames_spec module.2 (g.decl module.1).kind h
  obtain ⟨hnodup, hfree⟩ := classNames_fresh p (moduleNames module.2 (g.decl module.1).kind).2
    ((g.membersOf (g.decl module.1).name).map fun c => ((g.decl c).name, (g.decl c).kind))
  constructor
  · rw [ofModule_names, List.flatMap_cons, List.nodup_append]
    refine ⟨hown, hnodup, ?_⟩
    rintro x hx y hy rfl
    obtain ⟨n, hn, hxn⟩ := List.mem_flatMap.mp hy
    exact hfree n hn x hxn (htaken x hx)
  · intro e he x hx
    have hmem := List.mem_map_of_mem (f := Allotment.names) he
    rw [ofModule_names] at hmem
    rcases List.mem_cons.mp hmem with heq | hmem
    · exact hownfree x (heq ▸ hx)
    · exact fun hp => hfree _ hmem x hx (hprotocol x hp)

theorem flatMap_paths {es : List Allotment} {container : String}
    (h : ∀ e ∈ es, e.container = container) : es.flatMap Allotment.paths =
      ((es.map Allotment.names).flatMap ClassNames.toList).map (⟨·, container⟩) := by
  induction es with
  | nil => rfl
  | cons e es ih =>
      rw [List.flatMap_cons, ih fun e he => h e (by simp [he])]
      simp [paths, h e (by simp)]

/-! ## No path is allocated twice -/

theorem not_mem_protocolTypes_of_mem_housing {module : ClassId × String}
    (h : module ∈ housing g) : module.2 ∉ protocolTypes := by
  apply (containerNames_fresh protocolTypes (g.modules.map fun m => (g.decl m).name)).2
  rw [← housing_map_snd]
  exact List.mem_map_of_mem h

/-- Neither a type nor its container has a name of the copy-with protocol. -/
theorem not_mem_protocolTypes_of_find? {s : Slot} {c : ClassId} {t : TypePath}
    (ht : ((ofGraph p g).at s).find? c = some t) :
    t.name ∉ protocolTypes ∧ t.container ∉ protocolTypes := by
  obtain ⟨e, he, hentry⟩ := exists_allotment_of_find? ht
  obtain ⟨-, hname, hcontainer⟩ := entry_eq_some.mp hentry
  have hmem : t.name ∈ e.names.toList := ClassNames.mem_toList.mpr ⟨s, hname⟩
  obtain ⟨⟨m, container⟩, hm, he⟩ := List.mem_flatMap.mp he
  have hk : t.container = container := hcontainer.symm.trans (ofModule_container e he)
  have hfree := not_mem_protocolTypes_of_mem_housing hm
  exact ⟨(ofModule_names_fresh hfree).2 e he _ hmem, hk ▸ hfree⟩

/-- Different modules have different containers. -/
theorem housing_containers_nodup (g : ClassGraph) : ((housing g).map (·.2)).Nodup := by
  rw [housing_map_snd]
  exact (containerNames_fresh _ _).1

theorem allotments_paths_nodup (p : String) (g : ClassGraph) :
    ((allotments p g).flatMap Allotment.paths).Nodup := by
  have hpaths : ∀ m ∈ housing g, (ofModule p g m).flatMap Allotment.paths =
      (((ofModule p g m).map Allotment.names).flatMap ClassNames.toList).map (⟨·, m.2⟩) :=
    fun m _ => flatMap_paths ofModule_container
  rw [allotments, List.flatMap_assoc, List.nodup_flatMap]
  constructor
  · intro m hm
    rw [hpaths m hm]
    refine (ofModule_names_fresh (not_mem_protocolTypes_of_mem_housing hm)).1.map ?_
    intro x y hxy
    exact congrArg TypePath.name hxy
  · refine (List.pairwise_map.mp (housing_containers_nodup g)).imp ?_
    rintro m m' hne t ht ht'
    have hcontainer : ∀ m, t ∈ (ofModule p g m).flatMap Allotment.paths → t.container = m.2 := by
      intro m ht
      rw [flatMap_paths ofModule_container] at ht
      obtain ⟨_, _, rfl⟩ := List.mem_map.mp ht
      rfl
    exact hne ((hcontainer m ht).symm.trans (hcontainer m' ht'))

/-- Two types of a graph that have the same path are the same type of the same class. -/
theorem ofGraph_injective {s s' : Slot} {c c' : ClassId} {t : TypePath}
    (hs : ((ofGraph p g).at s).find? c = some t) (hs' : ((ofGraph p g).at s').find? c' = some t) :
    s = s' ∧ c = c' := by
  obtain ⟨e, he, hentry⟩ := exists_allotment_of_find? hs
  obtain ⟨e', he', hentry'⟩ := exists_allotment_of_find? hs'
  obtain ⟨rfl, hname, -⟩ := entry_eq_some.mp hentry
  obtain ⟨rfl, hname', -⟩ := entry_eq_some.mp hentry'
  have hnodup := allotments_paths_nodup p g
  have hmem : t ∈ e.paths := mem_paths.mpr ⟨s, hentry⟩
  have hmem' : t ∈ e'.paths := mem_paths.mpr ⟨s', hentry'⟩
  obtain rfl : e = e' := eq_of_mem_of_nodup_flatMap hnodup he he' hmem hmem'
  have hnames : e.names.toList.Nodup := ((List.nodup_flatMap.mp hnodup).1 e he).of_map _
  exact ⟨ClassNames.slot_unique hnames hname hname', rfl⟩

/-! ## Every listed class gets its names -/

theorem exists_housing {c m : ClassId} (h : g.enclosing? c = some m) :
    (g.decl m).name = (g.decl c).moduleName ∧ ∃ container, (m, container) ∈ housing g := by
  have hm : m ∈ g.modules := List.mem_of_find?_eq_some h
  rw [← housing_map_fst g] at hm
  obtain ⟨⟨m', container⟩, hmem, rfl⟩ := List.mem_map.mp hm
  refine ⟨?_, container, hmem⟩
  simpa using List.find?_some h

/-- The module of a class that is checked has a container. -/
theorem exists_container {c : ClassId} (he : g.checkEnclosing c = .ok ()) :
    ∃ k, (ofGraph p g).containers.find? (g.decl c).moduleName = some k := by
  cases henc : g.enclosing? c with
  | none => simp [checkEnclosing, henc] at he
  | some m =>
      obtain ⟨hname, container, hmem⟩ := exists_housing henc
      rw [ofGraph_containers, ← hname]
      apply Table.exists_find?_foldl_insert
      rw [List.map_map]
      exact List.mem_map.mpr ⟨(m, container), hmem, rfl⟩

/-- A module and each of its classes have an allotment, which names the types their kinds ask for.
-/
theorem exists_allotted {m : ClassId} {container : String} (hm : (m, container) ∈ housing g)
    {c : ClassId} (hc : c ∈ m :: g.membersOf (g.decl m).name) :
    ∃ e ∈ ofModule p g (m, container), e.source = c ∧
      ∀ s, (e.names.at s).isSome = (g.decl c).kind.fills s := by
  rcases List.mem_cons.mp hc with rfl | hc
  · obtain ⟨-, -, -, -, -, hi, hr⟩ := moduleNames_spec container (g.decl c).kind
      (not_mem_protocolTypes_of_mem_housing hm)
    refine ⟨_, List.mem_cons_self, rfl, fun s => ?_⟩
    cases s with
    | interface => exact hi
    | record => exact hr
  · have hnamed := List.forall₂_map_left_iff.mp
      (classNames_forall₂ p (moduleNames container (g.decl m).kind).2
        ((g.membersOf (g.decl m).name).map fun c => ((g.decl c).name, (g.decl c).kind)))
    obtain ⟨n, hzip, hi, hr⟩ := hnamed.exists_zip c hc
    refine ⟨⟨container, c, n⟩, List.mem_cons_of_mem _ ?_, rfl, fun s => ?_⟩
    · exact List.mem_map.mpr ⟨(c, n), hzip, rfl⟩
    · cases s with
      | interface => exact hi
      | record => exact hr

/-- The allotment of a class whose module is declared names the types its kind asks for. -/
theorem exists_allotment {c : ClassId} (hc : c ∈ g.classes) (he : g.checkEnclosing c = .ok ()) :
    ∃ m container, (m, container) ∈ housing g ∧ (g.decl m).name = (g.decl c).moduleName ∧
      ∃ e ∈ ofModule p g (m, container), e.source = c ∧
        ∀ s, (e.names.at s).isSome = (g.decl c).kind.fills s := by
  cases henc : g.enclosing? c with
  | none => simp [checkEnclosing, henc] at he
  | some m =>
      have hown : (g.decl c).isModule = true → m = c := by
        intro hmodule
        by_contra hne
        simp [checkEnclosing, henc, hmodule, hne] at he
      obtain ⟨hname, container, hmem⟩ := exists_housing henc
      refine ⟨m, container, hmem, hname, exists_allotted hmem ?_⟩
      cases hmodule : (g.decl c).isModule with
      | true => exact hown hmodule ▸ List.mem_cons_self
      | false => exact List.mem_cons_of_mem _ (mem_membersOf.mpr ⟨hc, hmodule, hname.symm⟩)

/-- A listed class whose module is declared has every type its kind asks for. -/
theorem exists_find?_of_fills {c : ClassId} (hc : c ∈ g.classes) (he : g.checkEnclosing c = .ok ())
    {s : Slot} (hs : (g.decl c).kind.fills s = true) :
    ∃ t, ((ofGraph p g).at s).find? c = some t := by
  obtain ⟨m, container, hmem, -, e, hallot, rfl, hfills⟩ := exists_allotment (p := p) hc he
  obtain ⟨n, hn⟩ := Option.isSome_iff_exists.mp ((hfills s).trans hs)
  rw [ofGraph_at]
  apply Table.exists_find?_foldl_insert
  refine List.mem_map.mpr ⟨(e.source, ⟨n, e.container⟩), List.mem_filterMap.mpr ⟨e, ?_, ?_⟩, rfl⟩
  · exact List.mem_flatMap.mpr ⟨(m, container), hmem, hallot⟩
  · exact entry_eq_some.mpr ⟨rfl, hn, rfl⟩

/-- If the graph is nameable, these types lie in the container of the class's module. -/
theorem exists_ofGraph_find? (h : g.Nameable) {c : ClassId} (hc : c ∈ g.classes)
    (he : g.checkEnclosing c = .ok ()) :
    ∃ container, (ofGraph p g).containers.find? (g.decl c).moduleName = some container ∧
      ∀ s, (g.decl c).kind.fills s = true →
        ∃ t, ((ofGraph p g).at s).find? c = some t ∧ t.container = container := by
  obtain ⟨m, container, hmem, hname, e, hallot, rfl, hfills⟩ := exists_allotment (p := p) hc he
  refine ⟨container, (ofGraph_container_find? h.names_nodup).mpr ⟨m, hmem, hname⟩, fun s hs => ?_⟩
  obtain ⟨n, hn⟩ := Option.isSome_iff_exists.mp ((hfills s).trans hs)
  refine ⟨⟨n, container⟩, (ofGraph_find? h).mpr ⟨e, ?_, ?_⟩, rfl⟩
  · exact List.mem_flatMap.mpr ⟨(m, container), hmem, hallot⟩
  · exact entry_eq_some.mpr ⟨rfl, hn, ofModule_container e hallot⟩

/-- The types of a class lie in the container of its module, unless the class stands among the
modules under a name of its own. -/
theorem container_of_ofGraph_find? (hn : (g.modules.map fun m => (g.decl m).name).Nodup) {s : Slot}
    {c : ClassId} {t : TypePath} {container : String}
    (hown : c ∈ g.modules → (g.decl c).name = (g.decl c).moduleName)
    (ht : ((ofGraph p g).at s).find? c = some t)
    (hk : (ofGraph p g).containers.find? (g.decl c).moduleName = some container) :
    t.container = container := by
  obtain ⟨e, he, hentry⟩ := exists_allotment_of_find? ht
  obtain ⟨rfl, -, hcontainer⟩ := entry_eq_some.mp hentry
  obtain ⟨module, hmodule, he⟩ := List.mem_flatMap.mp he
  obtain ⟨m, hm, hname⟩ := (ofGraph_container_find? hn).mp hk
  have hsource : (g.decl module.1).name = (g.decl e.source).moduleName := by
    have hmem := List.mem_map_of_mem (f := Allotment.source) he
    rw [ofModule_sources] at hmem
    rcases List.mem_cons.mp hmem with heq | hmem
    · rw [heq] at hown ⊢
      exact hown (mem_modules_of_mem_housing hmodule)
    · exact (mem_membersOf.mp hmem).2.2.symm
  have hsame := housing_unique hn hmodule hm (hsource.trans hname.symm)
  rw [← hcontainer, ofModule_container e he, hsame]

/-- A listed class whose module is declared has no other types than its kind asks for. -/
theorem fills_of_ofGraph_find? (h : g.Nameable) {s : Slot} {c : ClassId} {t : TypePath}
    (hc : c ∈ g.classes) (he : g.checkEnclosing c = .ok ())
    (ht : ((ofGraph p g).at s).find? c = some t) : (g.decl c).kind.fills s = true := by
  obtain ⟨e, hmem, hentry⟩ := (ofGraph_find? h).mp ht
  obtain ⟨hsource, hname, -⟩ := entry_eq_some.mp hentry
  obtain ⟨m, container, hhoused, -, e', hmem', hsource', hfills⟩ := exists_allotment (p := p) hc he
  have hallot : e' ∈ allotments p g := List.mem_flatMap.mpr ⟨(m, container), hhoused, hmem'⟩
  have heq : e = e' := List.inj_on_of_nodup_map (allotments_sources_nodup h) hmem hallot
    (hsource.trans hsource'.symm)
  rw [← hfills s, ← heq, hname]
  rfl

/-- One of a module's types has the name of its container. -/
theorem exists_container_type (h : g.Nameable) {m : ClassId} {container : String}
    (hm : (m, container) ∈ housing g) :
    ∃ s, ((ofGraph p g).at s).find? m = some ⟨container, container⟩ := by
  obtain ⟨-, hown, -⟩ := moduleNames_spec container (g.decl m).kind
    (not_mem_protocolTypes_of_mem_housing hm)
  obtain ⟨s, hs⟩ := ClassNames.mem_toList.mp hown
  refine ⟨s, (ofGraph_find? h).mpr ⟨⟨container, m, _⟩, ?_, entry_eq_some.mpr ⟨rfl, hs, rfl⟩⟩⟩
  exact List.mem_flatMap.mpr ⟨(m, container), hm, List.mem_cons_self⟩

/-- Only a module's own type has the name of its container. -/
theorem mem_housing_of_isModuleType (h : g.Nameable) {s : Slot} {c : ClassId} {t : TypePath}
    (ht : ((ofGraph p g).at s).find? c = some t) (hmodule : t.isModuleType = true) :
    (c, t.container) ∈ housing g := by
  obtain ⟨e, he, hentry⟩ := exists_allotment_of_find? ht
  obtain ⟨-, -, hcontainer⟩ := entry_eq_some.mp hentry
  obtain ⟨⟨m, container⟩, hm, he⟩ := List.mem_flatMap.mp he
  have hk : container = t.container := (ofModule_container e he).symm.trans hcontainer
  have hpath : (⟨container, container⟩ : TypePath) = t := by
    obtain ⟨name, _⟩ := t
    simp only [TypePath.isModuleType, beq_iff_eq] at hmodule hk
    rw [hk, hmodule]
  obtain ⟨s', hs'⟩ := exists_container_type (p := p) h hm
  rw [hpath] at hs'
  obtain ⟨-, rfl⟩ := ofGraph_injective ht hs'
  exact hk ▸ hm

theorem isModule_of_isModuleType (h : g.Nameable) {s : Slot} {c : ClassId} {t : TypePath}
    (ht : ((ofGraph p g).at s).find? c = some t) (hmodule : t.isModuleType = true) :
    (g.decl c).isModule = true :=
  h.modules_are _ (mem_modules_of_mem_housing (mem_housing_of_isModuleType h ht hmodule))

/-- The interface of a module has the name of its container. -/
theorem isModuleType_of_isModule (h : g.Nameable) {m : ClassId} {t : TypePath} (hm : m ∈ g.modules)
    (ht : ((ofGraph p g).at .interface).find? m = some t) : t.isModuleType = true := by
  rw [← housing_map_fst g] at hm
  obtain ⟨⟨m, container⟩, hhoused, rfl⟩ := List.mem_map.mp hm
  have hallot : ⟨container, m, (moduleNames container (g.decl m).kind).1⟩ ∈ allotments p g :=
    List.mem_flatMap.mpr ⟨(m, container), hhoused, List.mem_cons_self⟩
  obtain ⟨e, he, hentry⟩ := (ofGraph_find? h).mp ht
  obtain ⟨hsource, hname, hcontainer⟩ := entry_eq_some.mp hentry
  obtain rfl := List.inj_on_of_nodup_map (allotments_sources_nodup h) he hallot hsource
  have hown : (moduleNames container (g.decl m).kind).1.interface = some t.name := hname
  rw [TypePath.isModuleType, beq_iff_eq, ← hcontainer]
  cases hkind : (g.decl m).kind with
  | final =>
      rw [hkind] at hown
      cases hown
  | extensible =>
      rw [hkind] at hown
      exact (Option.some.inj hown).symm
  | abstract =>
      rw [hkind] at hown
      exact (Option.some.inj hown).symm

end Naming

end RecordGen

import Mathlib.Data.List.Duplicate
import RecordGen.Proofs.Allocation
import RecordGen.Proofs.Ancestry
import RecordGen.Resolution

/-! # What resolved classes are

A class is resolved from what its superclass became. The recursion is unrolled here once: whatever a
resolution holds is described by the chain above its class. -/

namespace RecordGen

open Fallible

/-- The type of a class in one of the slots, if its kind asks for one. -/
def typeOf (g : ClassGraph) (names : Naming) (s : Slot) (c : ClassId) : Option TypePath :=
  if (g.decl c).kind.fills s then (names.at s).find? c else none

theorem typeOf_eq_some {g : ClassGraph} {names : Naming} {s : Slot} {c : ClassId} {t : TypePath} :
    typeOf g names s c = some t ↔
      (g.decl c).kind.fills s = true ∧ (names.at s).find? c = some t := by
  simp [typeOf]

namespace ClassGraph

variable {g : ClassGraph}

/-! ## Levels of a chain -/

/-- The properties that a class declares itself. -/
def declaredBy (g : ClassGraph) (c : ClassId) : List Declared :=
  (g.decl c).properties.map (⟨·, c⟩)

/-- The names of properties, in their order. -/
def propertyNames (ds : List Declared) : List String :=
  ds.map (·.property.name)

theorem propertyNames_append (ds es : List Declared) :
    propertyNames (ds ++ es) = propertyNames ds ++ propertyNames es :=
  List.map_append

/-- A property that is not found among others may join them. -/
theorem nodup_snoc_of_find? {c : ClassId} {p : Property} {inherited : List Declared}
    (hn : (propertyNames inherited).Nodup)
    (hfind : inherited.find? (·.property.name == p.name) = none) :
    (propertyNames (inherited ++ [⟨p, c⟩])).Nodup := by
  have hnew : p.name ∉ propertyNames inherited := by
    rintro hmem
    obtain ⟨d, hd, hname⟩ := List.mem_map.mp hmem
    have := List.find?_eq_none.mp hfind d hd
    simp [hname] at this
  rw [propertyNames_append, List.nodup_append]
  refine ⟨hn, by simp [propertyNames], ?_⟩
  rintro x hx y hy rfl
  have hxp : x = p.name := by simpa [propertyNames] using hy
  exact hnew (hxp ▸ hx)

/-- A level is added as it is, if no name is repeated. -/
theorem declare_eq_ok {c : ClassId} {ps : List Property} : ∀ {inherited out : List Declared},
    (propertyNames inherited).Nodup → (g.declare c inherited ps = .ok out ↔
      out = inherited ++ ps.map (⟨·, c⟩) ∧ (propertyNames out).Nodup) := by
  induction ps with
  | nil =>
      intro inherited out hn
      simp only [declare, Except.ok.injEq, List.map_nil, List.append_nil]
      constructor
      · rintro rfl
        exact ⟨rfl, hn⟩
      · rintro ⟨rfl, -⟩
        rfl
  | cons p ps ih =>
      intro inherited out hn
      have hout : inherited ++ (p :: ps).map (⟨·, c⟩) =
          (inherited ++ [⟨p, c⟩]) ++ ps.map (⟨·, c⟩) := by simp
      cases hfind : inherited.find? (·.property.name == p.name) with
      | some previous =>
          have hmem := List.mem_of_find?_eq_some hfind
          have hname : previous.property.name = p.name := by simpa using List.find?_some hfind
          simp only [declare, hfind, reduceCtorEq, false_iff, not_and]
          rintro rfl hnodup
          rw [propertyNames_append] at hnodup
          refine (List.nodup_append.mp hnodup).2.2 p.name ?_ p.name ?_ rfl
          · exact List.mem_map.mpr ⟨previous, hmem, hname⟩
          · simp [propertyNames]
      | none =>
          rw [declare, hfind, hout]
          exact ih (nodup_snoc_of_find? hn hfind)

theorem extend_eq_ok {c : ClassId} {inherited out : List Declared}
    (hn : (propertyNames inherited).Nodup) : g.extend inherited c = .ok out ↔
      out = inherited ++ g.declaredBy c ∧ (propertyNames out).Nodup :=
  declare_eq_ok hn

/-- A level is refused at the first of its properties whose name is declared already, above it or in
the level. -/
theorem declare_error {c : ClassId} {ps : List Property} {e : SchemaFault} :
    ∀ {inherited : List Declared}, g.declare c inherited ps = .error e →
      ∃ before p after, ps = before ++ p :: after ∧
        ((propertyNames inherited).Nodup →
          (propertyNames (inherited ++ before.map (⟨·, c⟩))).Nodup) ∧
        ∃ previous ∈ inherited ++ before.map (⟨·, c⟩), previous.property.name = p.name ∧
          e = .conflictingProperty (g.fullName c) p.name (g.fullName previous.owner) := by
  induction ps with
  | nil => simp [declare]
  | cons p ps ih =>
      intro inherited h
      cases hfind : inherited.find? (·.property.name == p.name) with
      | some previous =>
          rw [declare, hfind] at h
          refine ⟨[], p, ps, rfl, by simp, previous, ?_, ?_, (Except.error.inj h).symm⟩
          · simpa using List.mem_of_find?_eq_some hfind
          · simpa using List.find?_some hfind
      | none =>
          rw [declare, hfind] at h
          obtain ⟨before, q, after, rfl, hn, previous, hmem, hname, rfl⟩ := ih h
          refine ⟨p :: before, q, after, rfl, fun hinherited => ?_, previous, by simpa using hmem,
            hname, rfl⟩
          simpa using hn (nodup_snoc_of_find? hinherited hfind)

/-- A class declares a property that its chain declares already. -/
inductive Conflict (g : ClassGraph) : ClassId → SchemaFault → Prop where
  | mk {c a : ClassId} {l : List ClassId} {name : String} : g.Above c l → a ∈ c :: l →
      name ∈ propertyNames (g.declaredBy c) → name ∈ propertyNames (g.declaredBy a) →
      List.Duplicate name (propertyNames ((c :: l).reverse.flatMap g.declaredBy)) →
      Conflict g c (.conflictingProperty (g.fullName c) name (g.fullName a))

/-- A level is refused for a conflict in the chain that ends with it. -/
theorem extend_error {c : ClassId} {l : List ClassId} {e : SchemaFault} (h : g.Above c l)
    (he : g.extend (l.reverse.flatMap g.declaredBy) c = .error e) : g.Conflict c e := by
  obtain ⟨before, p, after, hps, -, previous, hprevious, hname, rfl⟩ := declare_error he
  have hdeclared : g.declaredBy c = before.map (⟨·, c⟩) ++ ⟨p, c⟩ :: after.map (⟨·, c⟩) := by
    simp [declaredBy, hps]
  have hown : p.name ∈ propertyNames (g.declaredBy c) := by
    simp [hdeclared, propertyNames]
  have hchain : ∃ a ∈ c :: l, previous.owner = a ∧ previous ∈ g.declaredBy a := by
    rcases List.mem_append.mp hprevious with hmem | hmem
    · obtain ⟨a, ha, hmem⟩ := List.mem_flatMap.mp hmem
      obtain ⟨q, hq, rfl⟩ := List.mem_map.mp hmem
      exact ⟨a, List.mem_cons_of_mem _ (List.mem_reverse.mp ha), rfl, List.mem_map_of_mem hq⟩
    · obtain ⟨q, hq, rfl⟩ := List.mem_map.mp hmem
      refine ⟨c, List.mem_cons_self, rfl, ?_⟩
      rw [hdeclared]
      exact List.mem_append_left _ hmem
  obtain ⟨a, ha, rfl, hdeclares⟩ := hchain
  refine .mk h ha hown (hname ▸ List.mem_map_of_mem hdeclares) ?_
  have hnames : propertyNames ((c :: l).reverse.flatMap g.declaredBy) =
      propertyNames (l.reverse.flatMap g.declaredBy ++ before.map (⟨·, c⟩)) ++
        p.name :: propertyNames (after.map (⟨·, c⟩)) := by
    simp [hdeclared, propertyNames]
  have hbefore : p.name ∈ propertyNames (l.reverse.flatMap g.declaredBy ++ before.map (⟨·, c⟩)) :=
    List.mem_map.mpr ⟨previous, hprevious, hname⟩
  rw [hnames, List.duplicate_iff_two_le_count, List.count_append, List.count_cons_self]
  have := List.count_pos_iff.mpr hbefore
  omega

/-! ## Flattened chains -/

theorem flatten_root {c : ClassId} (h : (g.decl c).superclass = none) :
    g.flatten c = g.extend [] c := by
  simp [flatten, lineage, (Above.root h).ancestors_eq]

theorem flatten_step {c s : ClassId} {l : List ClassId} (hs : g.Extends c s) (h : g.Above s l) :
    g.flatten c = g.flatten s >>= (g.extend · c) := by
  simp [flatten, lineage, (Above.step hs h).ancestors_eq, h.ancestors_eq]

/-- A chain that repeats no property is flattened to the properties of its classes. -/
theorem flatten_eq_ok {c : ClassId} {l : List ClassId} (h : g.Above c l) : ∀ {out : List Declared},
    g.flatten c = .ok out ↔
      out = (c :: l).reverse.flatMap g.declaredBy ∧ (propertyNames out).Nodup := by
  induction h with
  | root hc =>
      intro out
      have hempty : (propertyNames []).Nodup := List.nodup_nil
      simp [flatten_root hc, extend_eq_ok hempty]
  | @step c s l hs h ih =>
      intro out
      rw [flatten_step hs h, bind_eq_ok]
      have hout : (c :: s :: l).reverse.flatMap g.declaredBy =
          (s :: l).reverse.flatMap g.declaredBy ++ g.declaredBy c := by
        rw [List.reverse_cons (a := c), List.flatMap_append, List.flatMap_singleton]
      constructor
      · rintro ⟨above, habove, hextend⟩
        obtain ⟨rfl, hn⟩ := ih.mp habove
        rwa [hout, ← extend_eq_ok hn]
      · rintro ⟨rfl, hn⟩
        have hn' := hn
        rw [hout, propertyNames_append] at hn'
        have habove := (List.nodup_append.mp hn').1
        refine ⟨_, ih.mpr ⟨rfl, habove⟩, ?_⟩
        rw [extend_eq_ok habove]
        exact ⟨hout, hn⟩

/-- A chain is refused for a conflict of one of its classes. -/
theorem flatten_error {c : ClassId} {l : List ClassId} {e : SchemaFault} (h : g.Above c l)
    (he : g.flatten c = .error e) : ∃ x ∈ c :: l, g.Conflict x e := by
  induction h with
  | @root c hc =>
      rw [flatten_root hc] at he
      exact ⟨c, List.mem_cons_self, extend_error (.root hc) he⟩
  | @step c s l hs h ih =>
      rw [flatten_step hs h] at he
      rcases bind_eq_error.mp he with he | ⟨above, habove, he⟩
      · obtain ⟨x, hx, hconflict⟩ := ih he
        exact ⟨x, List.mem_cons_of_mem _ hx, hconflict⟩
      · obtain ⟨rfl, -⟩ := (flatten_eq_ok h).mp habove
        exact ⟨c, List.mem_cons_self, extend_error (.step hs h) he⟩

/-! ## From a superclass to its subclass -/

theorem resolveClass_root (names : Naming) {c : ClassId} (h : (g.decl c).superclass = none) :
    g.resolveClass names c = Resolution.below g names none c := by
  simp [resolveClass, (Above.root h).ancestors_eq]

theorem resolveClass_step (names : Naming) {c s : ClassId} {l : List ClassId}
    (hs : g.Extends c s) (h : g.Above s l) :
    g.resolveClass names c =
      g.resolveClass names s >>= fun r => Resolution.below g names (some r) c := by
  rw [resolveClass, (Above.step hs h).ancestors_eq, resolveClass, h.ancestors_eq]
  rw [List.reverse_cons, List.foldlM_append]
  cases l.reverse.foldlM (fun r a => some <$> Resolution.below g names r a) none with
  | error e => rfl
  | ok above =>
      simp only [ok_bind, List.foldlM_cons, List.foldlM_nil]
      cases Resolution.below g names above s <;> rfl

end ClassGraph

namespace Resolution

variable {g : ClassGraph} {names : Naming}

/-- What a class becomes below what its superclass became, if its module has a container and its
chain repeats no property. -/
theorem below_eq_ok {above : Option Resolution} {c : ClassId} {r : Resolution} :
    below g names above c = .ok r ↔
      ∃ properties container,
        g.extend ((above.map (·.properties)).getD []) c = .ok properties ∧
        names.containers.find? (g.decl c).moduleName = some container ∧
        r = { source := c
              fullName := g.fullName c
              interface := typeOf g names .interface c
              parent :=
                if (typeOf g names .interface c).isSome then above.bind (·.interface) else none
              record := typeOf g names .record c
              contracts := (typeOf g names .interface c).toList ++
                ((above.map contracts).getD []).filter (· ∉ (typeOf g names .interface c).toList)
              properties
              container } := by
  rw [below, bind_eq_ok]
  constructor
  · rintro ⟨properties, hproperties, h⟩
    cases hk : names.containers.find? (g.decl c).moduleName with
    | none => simp [ofClass, hk] at h
    | some container =>
        simp only [ofClass, hk, Except.ok.injEq] at h
        exact ⟨properties, container, hproperties, rfl, h.symm⟩
  · rintro ⟨properties, container, hproperties, hk, rfl⟩
    refine ⟨properties, hproperties, ?_⟩
    simp only [ofClass, hk]
    rfl

/-- What a class became, told by the chain above it. -/
structure Describes (g : ClassGraph) (names : Naming) (r : Resolution) (c : ClassId)
    (l : List ClassId) : Prop where
  source : r.source = c
  interface : r.interface = typeOf g names .interface c
  parent : r.parent =
    if r.interface.isSome then l.head?.bind (typeOf g names .interface) else none
  record : r.record = typeOf g names .record c
  contracts : r.contracts = (c :: l).filterMap (typeOf g names .interface)
  properties : r.properties = (c :: l).reverse.flatMap g.declaredBy
  names_nodup : (ClassGraph.propertyNames r.properties).Nodup
  container : names.containers.find? (g.decl c).moduleName = some r.container

/-- No two classes have the same interface. -/
def InterfacesDiffer (names : Naming) : Prop :=
  ∀ c c' t, names.interfaces.find? c = some t → names.interfaces.find? c' = some t → c = c'

theorem interfacesDiffer_ofGraph (p : String) (g : ClassGraph) :
    InterfacesDiffer (Naming.ofGraph p g) := by
  intro c c' t hc hc'
  have hc' : ((Naming.ofGraph p g).at .interface).find? c' = some t := hc'
  exact (Naming.ofGraph_injective (s := .interface) hc hc').2

theorem filterMap_typeOf_filter {c : ClassId} {l : List ClassId} (hi : InterfacesDiffer names)
    (hc : c ∉ l) : (l.filterMap (typeOf g names .interface)).filter
      (· ∉ (typeOf g names .interface c).toList) = l.filterMap (typeOf g names .interface) := by
  rw [List.filter_eq_self]
  intro t ht
  obtain ⟨a, ha, hat⟩ := List.mem_filterMap.mp ht
  rw [decide_eq_true_iff, Option.mem_toList]
  intro hct
  have heq := hi a c t (typeOf_eq_some.mp hat).2 (typeOf_eq_some.mp hct).2
  exact hc (heq ▸ ha)

/-- A class that is resolved became what its chain says. -/
theorem describes_of_ok (hi : InterfacesDiffer names) {c : ClassId} {l : List ClassId}
    (h : g.Above c l) : ∀ {r : Resolution}, g.resolveClass names c = .ok r →
      r.Describes g names c l := by
  induction h with
  | @root c hc =>
      intro r hr
      rw [ClassGraph.resolveClass_root names hc] at hr
      obtain ⟨properties, container, hproperties, hk, rfl⟩ := below_eq_ok.mp hr
      obtain ⟨rfl, hn⟩ := (ClassGraph.extend_eq_ok (by simp [ClassGraph.propertyNames])).mp
        hproperties
      refine ⟨rfl, rfl, ?_, rfl, ?_, by simp, hn, hk⟩
      · simp
      · cases htype : typeOf g names .interface c <;> simp [htype]
  | @step c s l hs h ih =>
      intro r hr
      rw [ClassGraph.resolveClass_step names hs h] at hr
      obtain ⟨above, habove, hr⟩ := bind_eq_ok.mp hr
      have hd := ih habove
      obtain ⟨properties, container, hproperties, hk, rfl⟩ := below_eq_ok.mp hr
      obtain ⟨hout, hn⟩ := (ClassGraph.extend_eq_ok hd.names_nodup).mp hproperties
      have hc : c ∉ s :: l := (ClassGraph.Above.step hs h).not_mem
      refine ⟨rfl, rfl, ?_, rfl, ?_, ?_, hn, hk⟩
      · simp [hd.interface]
      · simp only [Option.map_some, Option.getD_some, hd.contracts]
        rw [filterMap_typeOf_filter hi hc]
        cases htype : typeOf g names .interface c <;> simp [htype]
      · simp only [hout, hd.properties]
        rw [List.reverse_cons (a := c), List.flatMap_append]
        simp

theorem source_of_ok {c : ClassId} {l : List ClassId} (h : g.Above c l) {r : Resolution}
    (hr : g.resolveClass names c = .ok r) : r.source = c := by
  cases h with
  | root hc =>
      rw [ClassGraph.resolveClass_root names hc] at hr
      obtain ⟨_, _, _, _, rfl⟩ := below_eq_ok.mp hr
      rfl
  | step hs h =>
      rw [ClassGraph.resolveClass_step names hs h] at hr
      obtain ⟨_, _, hr⟩ := bind_eq_ok.mp hr
      obtain ⟨_, _, _, _, rfl⟩ := below_eq_ok.mp hr
      rfl

/-- The properties of a class that is resolved are those of its flattened chain. -/
theorem flatten_of_ok {c : ClassId} {l : List ClassId} (h : g.Above c l) {r : Resolution}
    (hr : g.resolveClass names c = .ok r) : g.flatten c = .ok r.properties := by
  induction h generalizing r with
  | root hc =>
      rw [ClassGraph.resolveClass_root names hc] at hr
      obtain ⟨properties, _, hproperties, -, rfl⟩ := below_eq_ok.mp hr
      exact (ClassGraph.flatten_root hc).trans hproperties
  | step hs h ih =>
      rw [ClassGraph.resolveClass_step names hs h] at hr
      obtain ⟨above, habove, hr⟩ := bind_eq_ok.mp hr
      obtain ⟨properties, _, hproperties, -, rfl⟩ := below_eq_ok.mp hr
      rw [ClassGraph.flatten_step hs h, ih habove]
      exact hproperties

/-- Where every module has a container, a class fails only if its chain cannot be flattened. -/
theorem flatten_of_error {c : ClassId} {l : List ClassId} (h : g.Above c l) {e : SchemaFault}
    (hk : ∀ x ∈ c :: l, ∃ k, names.containers.find? (g.decl x).moduleName = some k)
    (he : g.resolveClass names c = .error e) : g.flatten c = .error e := by
  have hbelow : ∀ {x : ClassId} {above : Option Resolution}, x ∈ c :: l →
      below g names above x = .error e →
      g.extend ((above.map (·.properties)).getD []) x = .error e := by
    intro x above hx h
    obtain ⟨k, hk⟩ := hk x hx
    rcases bind_eq_error.mp h with h | ⟨properties, _, h⟩
    · exact h
    · simp [ofClass, hk] at h
  induction h with
  | @root c hc =>
      rw [ClassGraph.resolveClass_root names hc] at he
      exact (ClassGraph.flatten_root hc).trans (hbelow List.mem_cons_self he)
  | @step c s l hs h ih =>
      rw [ClassGraph.resolveClass_step names hs h] at he
      rw [ClassGraph.flatten_step hs h]
      rcases bind_eq_error.mp he with he | ⟨above, habove, he⟩
      · rw [ih (fun x hx => hk x (List.mem_cons_of_mem _ hx)) he
          fun hx => hbelow (List.mem_cons_of_mem _ hx)]
        rfl
      · rw [flatten_of_ok h habove]
        exact hbelow List.mem_cons_self he

end Resolution

/-! ## Whole graphs -/

namespace ClassGraph

variable {g : ClassGraph}

/-- With and without workers the same classes are visited. -/
theorem mem_visits {workers : Option Int} {order : List ClassId} {c : ClassId} :
    c ∈ g.visits workers order ↔ c ∈ order := by
  rw [visits]
  split
  · simp only [trees, List.mem_flatten, List.mem_map, List.mem_eraseDups]
    constructor
    · rintro ⟨_, ⟨_, _, rfl⟩, hc⟩
      exact (List.mem_filter.mp hc).1
    · intro hc
      exact ⟨_, ⟨g.root c, ⟨c, hc, rfl⟩, rfl⟩, List.mem_filter.mpr ⟨hc, by simp⟩⟩
  · rfl

theorem forall₂_filterMap {α β : Type} {f : α → Option β} {P : α → β → Prop} {xs : List α}
    (h : ∀ x ∈ xs, ∃ y, f x = some y ∧ P x y) : List.Forall₂ P xs (xs.filterMap f) := by
  induction xs with
  | nil => exact .nil
  | cons x xs ih =>
      obtain ⟨y, hy, hp⟩ := h x (by simp)
      rw [List.filterMap_cons_some hy]
      exact .cons hp (ih fun z hz => h z (by simp [hz]))

/-- A graph that resolves passed its checks, and each class became what it becomes by itself. -/
theorem resolve_ok {p : String} {workers : Option Int} {rs : List Resolution}
    (h : g.resolve p workers = .ok rs) :
    ∃ order, g.ancestryOrder = .ok order ∧ g.checkReferences = .ok () ∧
      List.Forall₂ (fun c r => g.resolveClass (Naming.ofGraph p g) c = .ok r) order rs := by
  obtain ⟨order, horder, h⟩ := bind_eq_ok.mp h
  obtain ⟨⟨⟩, hrefs, h⟩ := bind_eq_ok.mp h
  obtain ⟨found, hfound, h⟩ := bind_eq_ok.mp h
  obtain rfl := Except.ok.inj h
  refine ⟨order, horder, hrefs, forall₂_filterMap fun c hc => ?_⟩
  obtain ⟨hfirst, -⟩ := ancestryOrder_ok horder
  have hresults := mapM_eq_ok.mp hfound
  have hsource : ∀ x ∈ g.visits workers order, ∀ r,
      g.resolveClass (Naming.ofGraph p g) x = .ok r → r.source = x := by
    intro x hx r hr
    obtain ⟨l, hl, -⟩ := hfirst.above x (mem_visits.mp hx)
    exact Resolution.source_of_ok hl hr
  obtain ⟨r, hr, hok⟩ := hresults.exists_right c (mem_visits.mpr hc)
  have hsome : (found.find? (·.source == c)).isSome := by
    rw [List.find?_isSome]
    exact ⟨r, hr, by simp [hsource c (mem_visits.mpr hc) r hok]⟩
  obtain ⟨r', hfind⟩ := Option.isSome_iff_exists.mp hsome
  refine ⟨r', hfind, ?_⟩
  obtain ⟨x, hx, hok'⟩ := hresults.exists_left r' (List.mem_of_find?_eq_some hfind)
  have hxc : x = c := by
    rw [← hsource x hx r' hok']
    simpa using List.find?_some hfind
  exact hxc ▸ hok'

/-- In an order, a class fails to resolve exactly where its chain cannot be flattened. -/
theorem AncestorFirst.flatten_of_error {order : List ClassId} (h : g.AncestorFirst order)
    {p : String} {c : ClassId} (hc : c ∈ order) {e : SchemaFault}
    (he : g.resolveClass (Naming.ofGraph p g) c = .error e) : g.flatten c = .error e := by
  obtain ⟨l, hl, hmem⟩ := h.above c hc
  exact Resolution.flatten_of_error hl
    (fun x hx => Naming.exists_container (h.checks x (hmem x hx)).1) he

theorem resolve_eq {p : String} {workers : Option Int} {order : List ClassId}
    (horder : g.ancestryOrder = .ok order) (hrefs : g.checkReferences = .ok ()) :
    g.resolve p workers = (fun found => order.filterMap fun c => found.find? (·.source == c)) <$>
      (g.visits workers order).mapM (g.resolveClass (Naming.ofGraph p g)) := by
  cases h : (g.visits workers order).mapM (g.resolveClass (Naming.ofGraph p g)) <;>
    simp [resolve, horder, hrefs, h]

/-- With and without workers the same graphs resolve, to the same results. -/
theorem resolve_eq_ok {p : String} {workers : Option Int} {rs : List Resolution} :
    g.resolve p workers = .ok rs ↔
      ∃ order, g.ancestryOrder = .ok order ∧ g.checkReferences = .ok () ∧
        order.mapM (g.resolveClass (Naming.ofGraph p g)) = .ok rs := by
  constructor
  · intro h
    obtain ⟨order, horder, hrefs, hresults⟩ := resolve_ok h
    exact ⟨order, horder, hrefs, mapM_eq_ok.mpr hresults⟩
  · rintro ⟨order, horder, hrefs, hresults⟩
    have htotal : ∀ c ∈ g.visits workers order, ∃ r,
        g.resolveClass (Naming.ofGraph p g) c = .ok r := fun c hc => by
      obtain ⟨r, -, hr⟩ := (mapM_eq_ok.mp hresults).exists_right c (mem_visits.mp hc)
      exact ⟨r, hr⟩
    obtain ⟨found, hfound⟩ := mapM_total htotal
    have hok : ∃ rs', g.resolve p workers = .ok rs' := by
      rw [resolve_eq horder hrefs, hfound]
      exact ⟨_, rfl⟩
    obtain ⟨rs', hok⟩ := hok
    obtain ⟨order', horder', -, hresults'⟩ := resolve_ok hok
    obtain rfl := Except.ok.inj (horder.symm.trans horder')
    rw [hok, ← hresults, mapM_eq_ok.mpr hresults']

/-- A graph fails to resolve where its order or its references do, or one of its classes does. -/
theorem resolve_error {p : String} {workers : Option Int} {e : SchemaFault}
    (h : g.resolve p workers = .error e) :
    g.ancestryOrder = .error e ∨ g.checkReferences = .error e ∨
      ∃ order, g.ancestryOrder = .ok order ∧
        ∃ c ∈ order, g.resolveClass (Naming.ofGraph p g) c = .error e := by
  rcases bind_eq_error.mp h with h | ⟨order, horder, h⟩
  · exact Or.inl h
  · rcases bind_eq_error.mp h with h | ⟨_, _, h⟩
    · exact Or.inr (Or.inl h)
    · rcases bind_eq_error.mp h with h | ⟨_, _, h⟩
      · obtain ⟨c, hc, he⟩ := mapM_eq_error h
        exact Or.inr (Or.inr ⟨order, horder, c, mem_visits.mp hc, he⟩)
      · simp at h

/-- The results of a graph: one for each listed class, in an ancestor-first order, and each
described by the chain above its class. -/
structure Resolved (g : ClassGraph) (p : String) (rs : List Resolution) : Prop where
  ordered : g.AncestorFirst (rs.map (·.source))
  complete : ∀ c ∈ g.classes, ∃ r ∈ rs, r.source = c
  described : ∀ r ∈ rs, ∃ l, g.Above r.source l ∧
    r.Describes g (Naming.ofGraph p g) r.source l

theorem resolve_resolved {p : String} {workers : Option Int} {rs : List Resolution}
    (hr : g.resolve p workers = .ok rs) : g.Resolved p rs := by
  obtain ⟨order, horder, -, hresults⟩ := resolve_ok hr
  obtain ⟨hfirst, hlisted⟩ := ancestryOrder_ok horder
  have hdiffer := Resolution.interfacesDiffer_ofGraph p g
  have hdescribed : List.Forall₂ (fun c r => r.source = c ∧
      ∃ l, g.Above c l ∧ r.Describes g (Naming.ofGraph p g) c l) order rs := by
    refine ((List.forall₂_and_left order rs).mpr ⟨fun c hc => hc, hresults⟩).imp ?_
    rintro c r ⟨hc, hok⟩
    obtain ⟨l, hl, -⟩ := hfirst.above c hc
    exact ⟨Resolution.source_of_ok hl hok, l, hl, Resolution.describes_of_ok hdiffer hl hok⟩
  have hsources : rs.map (·.source) = order := by
    rw [← List.forall₂_eq_eq_eq, List.forall₂_map_left_iff]
    exact hdescribed.flip.imp fun _ _ h => h.1
  refine ⟨hsources ▸ hfirst, fun c hc => ?_, fun r hmem => ?_⟩
  · obtain ⟨r, hmem, hsource, -⟩ := hdescribed.exists_right c ((hlisted c).mpr hc)
    exact ⟨r, hmem, hsource⟩
  · obtain ⟨c, -, rfl, l, hl, hd⟩ := hdescribed.exists_left r hmem
    exact ⟨l, hl, hd⟩

namespace Resolved

variable {p : String} {rs : List Resolution}

theorem listed (h : g.Resolved p rs) {r : Resolution} (hr : r ∈ rs) : r.source ∈ g.classes :=
  h.ordered.listed _ (List.mem_map_of_mem hr)

theorem sources_nodup (h : g.Resolved p rs) : (rs.map (·.source)).Nodup :=
  h.ordered.nodup

/-- A class has one result. -/
theorem eq_of_source (h : g.Resolved p rs) {r r' : Resolution} (hr : r ∈ rs) (hr' : r' ∈ rs)
    (hs : r.source = r'.source) : r = r' :=
  List.inj_on_of_nodup_map h.sources_nodup hr hr' hs

theorem checkEnclosing (h : g.Resolved p rs) {r : Resolution} (hr : r ∈ rs) :
    g.checkEnclosing r.source = .ok () :=
  (h.ordered.checks _ (List.mem_map_of_mem hr)).1

theorem checkExtension (h : g.Resolved p rs) {r : Resolution} (hr : r ∈ rs) :
    g.checkExtension r.source = .ok () :=
  (h.ordered.checks _ (List.mem_map_of_mem hr)).2

/-- Every class of a chain has a result. -/
theorem exists_of_mem_chain (h : g.Resolved p rs) {r : Resolution} {l : List ClassId}
    (hr : r ∈ rs) (hl : g.Above r.source l) {a : ClassId} (ha : a ∈ r.source :: l) :
    ∃ r' ∈ rs, r'.source = a := by
  obtain ⟨l', hl', hmem⟩ := h.ordered.above _ (List.mem_map_of_mem hr)
  obtain rfl := hl.unique hl'
  simpa using hmem a ha

end Resolved

end ClassGraph

end RecordGen

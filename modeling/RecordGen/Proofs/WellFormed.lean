import RecordGen.Proofs.Resolving

/-! # Which graphs resolve

The links of a graph are checked on a walk that stops at placed classes, its references on a walk
through every type, and the properties of its chains where classes are flattened. Together these
accept exactly the graphs that are well formed, a condition which mentions no walk. -/

namespace RecordGen

open Fallible

/-! ## The references of a type -/

namespace PropertyType

theorem mem_argumentReferences {ts : List PropertyType} {r : String × Option ClassId} :
    r ∈ argumentReferences ts ↔ ∃ t ∈ ts, r ∈ t.references := by
  induction ts with
  | nil => simp [argumentReferences]
  | cons t ts ih => simp [argumentReferences, ih]

mutual

/-- Both walks through a type find the same references. -/
theorem referencesFromLast_perm : ∀ t : PropertyType, t.referencesFromLast.Perm t.references
  | node .primitive _ arguments _ => argumentReferencesFromLast_perm arguments
  | node .reference _ arguments _ => (argumentReferencesFromLast_perm arguments).cons _
  | node .collection _ arguments _ => argumentReferencesFromLast_perm arguments
  | node .optional _ arguments _ => argumentReferencesFromLast_perm arguments

theorem argumentReferencesFromLast_perm : ∀ ts : List PropertyType,
    (argumentReferencesFromLast ts).Perm (argumentReferences ts)
  | [] => .nil
  | t :: ts => by
      rw [argumentReferencesFromLast, argumentReferences]
      exact List.perm_append_comm.trans
        ((referencesFromLast_perm t).append (argumentReferencesFromLast_perm ts))

end

end PropertyType

namespace ClassGraph

variable {g : ClassGraph}

/-! ## Well-formed graphs -/

/-- The module of a class is among the modules, and a module is the one its own name denotes. -/
def Housed (g : ClassGraph) (c : ClassId) : Prop :=
  ∃ m ∈ g.modules, (g.decl m).name = (g.decl c).moduleName ∧ ((g.decl c).isModule = true → m = c)

theorem Housed.name_eq {c : ClassId} (h : g.Housed c) (hmodule : (g.decl c).isModule = true) :
    (g.decl c).name = (g.decl c).moduleName := by
  obtain ⟨m, -, hname, hself⟩ := h
  obtain rfl := hself hmodule
  exact hname

/-- Every link of a listed class leads where it may lead, and no chain repeats a property. -/
structure WellFormed (g : ClassGraph) : Prop where
  housed : ∀ c ∈ g.classes, g.Housed c
  superclasses : ∀ c ∈ g.classes, ∀ s, g.Extends c s →
    s ∈ g.classes ∧ (g.decl s).isModule = (g.decl c).isModule ∧ (g.decl s).kind ≠ .final
  acyclic : ∀ c ∈ g.classes, ¬Relation.TransGen g.Extends c c
  references : ∀ c ∈ g.classes, ∀ p ∈ (g.decl c).properties, ∀ r ∈ p.type.references,
    ∃ t ∈ g.classes, r.2 = some t
  properties : ∀ c ∈ g.classes, ∀ l, g.Above c l →
    ((c :: l).flatMap fun a => (g.decl a).properties.map (·.name)).Nodup

/-- What a fault says about a graph: the place where the graph is not well formed. -/
inductive Flaw (g : ClassGraph) : SchemaFault → Prop where
  | undeclaredModule {c : ClassId} : c ∈ g.classes → ¬g.Housed c →
      Flaw g (.undeclaredModule (g.fullName c) (g.decl c).moduleName)
  | undeclaredSuperclass {c s : ClassId} : c ∈ g.classes → g.Extends c s → s ∉ g.classes →
      Flaw g (.undeclaredSuperclass (g.fullName c) (g.fullName s))
  | mixedExtension {c s : ClassId} : c ∈ g.classes → g.Extends c s →
      (g.decl s).isModule ≠ (g.decl c).isModule →
      Flaw g (.mixedExtension (g.decl c).isModule (g.fullName c) (g.fullName s))
  | finalSuperclass {c s : ClassId} : c ∈ g.classes → g.Extends c s → (g.decl s).kind = .final →
      Flaw g (.finalSuperclass (g.fullName c) (g.fullName s))
  | cyclicAncestry {cycle : List ClassId} : g.Cycle cycle →
      Flaw g (.cyclicAncestry (cycle.map g.fullName))
  | undeclaredType {c : ClassId} {p : Property} {r : String × Option ClassId} : c ∈ g.classes →
      p ∈ (g.decl c).properties → r ∈ p.type.references → (∀ t ∈ g.classes, r.2 ≠ some t) →
      Flaw g (.undeclaredType (g.fullName c) p.name r.1)
  | conflictingProperty {c : ClassId} {e : SchemaFault} : c ∈ g.classes → g.Conflict c e → Flaw g e

theorem propertyNames_chain (g : ClassGraph) (cs : List ClassId) :
    (propertyNames (cs.reverse.flatMap g.declaredBy)).Perm
      (cs.flatMap fun a => (g.decl a).properties.map (·.name)) := by
  have hnames : propertyNames (cs.reverse.flatMap g.declaredBy) =
      cs.reverse.flatMap fun a => (g.decl a).properties.map (·.name) := by
    simp [propertyNames, declaredBy, List.map_flatMap, Function.comp_def]
  rw [hnames]
  exact (List.reverse_perm cs).flatMap_right _

/-- A graph with a flaw is not well formed. -/
theorem Flaw.not_wellFormed {e : SchemaFault} (h : g.Flaw e) : ¬g.WellFormed := by
  intro hw
  cases h with
  | undeclaredModule hc hhoused => exact hhoused (hw.housed _ hc)
  | undeclaredSuperclass hc hs hmem => exact hmem (hw.superclasses _ hc _ hs).1
  | mixedExtension hc hs hne => exact hne (hw.superclasses _ hc _ hs).2.1
  | finalSuperclass hc hs hfinal => exact (hw.superclasses _ hc _ hs).2.2 hfinal
  | cyclicAncestry hcycle =>
      obtain ⟨c, hc, hown⟩ := hcycle.exists_own_ancestor
      exact hw.acyclic c hc hown
  | undeclaredType hc hp hr hne =>
      obtain ⟨t, ht, heq⟩ := hw.references _ hc _ hp _ hr
      exact hne t ht heq
  | conflictingProperty hc hconflict =>
      obtain ⟨habove, -, -, -, hduplicate⟩ := hconflict
      refine List.exists_duplicate_iff_not_nodup.mp ⟨_, hduplicate⟩ ?_
      rw [(propertyNames_chain g _).nodup_iff]
      exact hw.properties _ hc _ habove

/-! ## What the checks accept -/

theorem checkEnclosing_eq_ok (hn : (g.modules.map fun m => (g.decl m).name).Nodup) {c : ClassId} :
    g.checkEnclosing c = .ok () ↔ g.Housed c := by
  have henclosing : ∀ m, g.enclosing? c = some m ↔
      m ∈ g.modules ∧ (g.decl m).name = (g.decl c).moduleName := fun m => find?_key_eq_some hn
  constructor
  · intro h
    cases henc : g.enclosing? c with
    | none => simp [checkEnclosing, henc] at h
    | some m =>
        simp only [checkEnclosing, henc, guard_eq_ok, not_and, not_not, and_true] at h
        obtain ⟨hm, hname⟩ := (henclosing m).mp henc
        exact ⟨m, hm, hname, h⟩
  · rintro ⟨m, hm, hname, hself⟩
    have henc := (henclosing m).mpr ⟨hm, hname⟩
    simpa only [checkEnclosing, henc, guard_eq_ok, not_and, not_not, and_true] using hself

theorem checkExtension_error {c : ClassId} {e : SchemaFault} (hc : c ∈ g.classes)
    (h : g.checkExtension c = .error e) : g.Flaw e := by
  rw [checkExtension] at h
  split at h
  · cases h
  · rename_i s hs
    split at h
    · rename_i hmem
      exact Except.error.inj h ▸ .undeclaredSuperclass hc hs hmem
    · split at h
      · rename_i hne
        exact Except.error.inj h ▸ .mixedExtension hc hs hne
      · split at h
        · rename_i hfinal
          exact Except.error.inj h ▸ .finalSuperclass hc hs hfinal
        · cases h

theorem isDangling_iff {r : String × Option ClassId} :
    g.isDangling r = true ↔ ∀ t ∈ g.classes, r.2 ≠ some t := by
  rw [isDangling]
  cases r.2 with
  | none => simp
  | some t =>
      rw [decide_eq_true_iff]
      constructor
      · rintro ht u hu ⟨⟩
        exact ht hu
      · exact fun h ht => h t ht rfl

theorem checkReferences_eq_ok : g.checkReferences = .ok () ↔ ∀ c ∈ g.classes,
    ∀ p ∈ (g.decl c).properties, ∀ r ∈ p.type.references, ∃ t ∈ g.classes, r.2 = some t := by
  simp only [checkReferences, forM_eq_ok]
  refine forall₄_congr fun c _ p _ => ?_
  have hdangling : g.checkProperty c p = .ok () ↔
      p.type.referencesFromLast.find? g.isDangling = none := by
    rw [checkProperty]
    cases p.type.referencesFromLast.find? g.isDangling <;> simp
  rw [hdangling, List.find?_eq_none]
  refine forall_congr' fun r => ?_
  rw [(p.type.referencesFromLast_perm).mem_iff, isDangling_iff]
  simp

theorem checkReferences_error {e : SchemaFault} (h : g.checkReferences = .error e) : g.Flaw e := by
  obtain ⟨c, hc, h⟩ := forM_eq_error h
  obtain ⟨p, hp, h⟩ := forM_eq_error h
  rw [checkProperty] at h
  split at h
  · rename_i name target hfind
    have hr := (p.type.referencesFromLast_perm).mem_iff.mp (List.mem_of_find?_eq_some hfind)
    have hdangling := isDangling_iff.mp (List.find?_some hfind)
    exact Except.error.inj h ▸ .undeclaredType hc hp hr hdangling
  · cases h

/-! ## What resolves -/

theorem resolve_wellFormed (hn : (g.modules.map fun m => (g.decl m).name).Nodup) {p : String}
    {workers : Option Int} {rs : List Resolution} (h : g.resolve p workers = .ok rs) :
    g.WellFormed := by
  obtain ⟨order, horder, hreferences, hresults⟩ := resolve_ok h
  obtain ⟨hfirst, hlisted⟩ := ancestryOrder_ok horder
  refine
    { housed := fun c hc => ?_
      superclasses := fun c hc => ?_
      acyclic := fun c hc => ?_
      references := checkReferences_eq_ok.mp hreferences
      properties := fun c hc l hl => ?_ }
  · exact (checkEnclosing_eq_ok hn).mp (hfirst.checks c ((hlisted c).mpr hc)).1
  · exact checkExtension_eq_ok.mp (hfirst.checks c ((hlisted c).mpr hc)).2
  · obtain ⟨l, hl, -⟩ := hfirst.above c ((hlisted c).mpr hc)
    exact fun hown => hl.not_mem (hl.mem_iff.mpr hown)
  · obtain ⟨r, -, hr⟩ := hresults.exists_right c ((hlisted c).mpr hc)
    obtain ⟨hproperties, hnodup⟩ := (flatten_eq_ok hl).mp (Resolution.flatten_of_ok hl hr)
    rwa [hproperties, (propertyNames_chain g _).nodup_iff] at hnodup

theorem resolve_flaw (hn : (g.modules.map fun m => (g.decl m).name).Nodup) {p : String}
    {workers : Option Int} {e : SchemaFault} (h : g.resolve p workers = .error e) : g.Flaw e := by
  rcases resolve_error h with h | h | ⟨order, horder, c, hc, h⟩
  · rcases ancestryOrder_error h with ⟨cycle, hcycle, rfl⟩ | ⟨c, hc, h | h⟩
    · exact .cyclicAncestry hcycle
    · rw [checkEnclosing_error h]
      refine .undeclaredModule hc fun hhoused => ?_
      rw [(checkEnclosing_eq_ok hn).mpr hhoused] at h
      cases h
    · exact checkExtension_error hc h
  · exact checkReferences_error h
  · obtain ⟨hfirst, hlisted⟩ := ancestryOrder_ok horder
    obtain ⟨l, hl, hmem⟩ := hfirst.above c hc
    obtain ⟨x, hx, hconflict⟩ := flatten_error hl (hfirst.flatten_of_error hc h)
    exact .conflictingProperty ((hlisted x).mp (hmem x hx)) hconflict

/-- A graph resolves exactly if it is well formed. -/
theorem exists_resolve_iff (hn : (g.modules.map fun m => (g.decl m).name).Nodup) (p : String)
    (workers : Option Int) : (∃ rs, g.resolve p workers = .ok rs) ↔ g.WellFormed := by
  constructor
  · rintro ⟨rs, h⟩
    exact resolve_wellFormed hn h
  · intro hw
    cases h : g.resolve p workers with
    | ok rs => exact ⟨rs, rfl⟩
    | error e => exact absurd hw (resolve_flaw hn h).not_wellFormed

end ClassGraph

end RecordGen

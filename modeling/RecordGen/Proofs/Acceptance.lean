import RecordGen.Proofs.Describing

/-! # Which graphs are accepted

Resolving accepts exactly the well-formed graphs and says what is wrong with every other one.
Describing what was resolved adds no fault, as long as no class takes the place of a module. -/

namespace RecordGen

open Fallible ClassGraph

/-- A graph whose modules have different names resolves exactly if it is well formed, and fails with
a flaw that it has. If its modules are kept apart from its classes, it has a result exactly if it
resolves, and fails as resolving does. -/
theorem accepts_iff_wellFormed (g : ClassGraph)
    (hn : (g.modules.map fun m => (g.decl m).name).Nodup) (p : String) (workers : Option Int) :
    ((∃ rs, g.resolve p workers = .ok rs ∧ g.Resolved p rs) ↔ g.WellFormed) ∧
      ((∃ e, g.resolve p workers = .error e ∧ g.Flaw e) ↔ ¬g.WellFormed) ∧
      (g.ModulesApart → ∀ config : Config,
        ((∃ a, analyze config workers g = .ok a) ↔ g.WellFormed) ∧
          ∀ e, analyze config workers g = .error e ↔
            g.resolve config.interfacePrefix workers = .error e) := by
  refine ⟨?_, ?_, fun hapart config => ⟨?_, fun e => ?_⟩⟩
  · rw [← exists_resolve_iff hn p workers]
    exact ⟨fun ⟨rs, h, _⟩ => ⟨rs, h⟩, fun ⟨rs, h⟩ => ⟨rs, h, resolve_resolved h⟩⟩
  · constructor
    · rintro ⟨e, -, hflaw⟩
      exact hflaw.not_wellFormed
    · rw [← exists_resolve_iff hn p workers]
      intro hfails
      cases h : g.resolve p workers with
      | ok rs => exact absurd ⟨rs, h⟩ hfails
      | error e => exact ⟨e, rfl, resolve_flaw hn h⟩
  · rw [analyze_eq hn hapart, ← exists_resolve_iff hn config.interfacePrefix workers]
    simp only [map_eq_ok]
    exact ⟨fun ⟨_, rs, h, _⟩ => ⟨rs, h⟩, fun ⟨rs, h⟩ => ⟨_, rs, h, rfl⟩⟩
  · rw [analyze_eq hn hapart, map_eq_error]

namespace ClassGraph

/-- A class of one module that extends a class of another and refers to it, listed before it. -/
def layered : ClassGraph where
  decls := [
    { name := "base", isModule := true, moduleName := "base" },
    { name := "app", isModule := true, moduleName := "app" },
    { name := "Shape", kind := .abstract, moduleName := "base"
      properties := [⟨"area", .primitive "Number", false, none⟩] },
    { name := "Group", kind := .extensible, superclass := some 2, moduleName := "app"
      properties := [⟨"parts", .collection "List" [.optional (.reference "base.Shape" (some 2))],
        false, none⟩] }]
  modules := [0, 1]
  classes := [3, 1, 2, 0]

/-- A class of one module that stands among the modules. -/
def misplaced : ClassGraph where
  decls := [
    { name := "b", isModule := true, moduleName := "b" },
    { name := "a", kind := .extensible, moduleName := "b" }]
  modules := [0, 1]
  classes := [0, 1]

end ClassGraph

theorem layered_accepted :
    (layered.modules.map fun m => (layered.decl m).name).Nodup ∧ layered.ModulesApart ∧
      layered.WellFormed ∧ (∃ rs, layered.resolve "I" none = .ok rs ∧ layered.Resolved "I" rs) ∧
      ∃ a, analyze {} none layered = .ok a := by
  have hn : (layered.modules.map fun m => (layered.decl m).name).Nodup := by decide
  have hapart : layered.ModulesApart := by decide
  obtain ⟨hresolve, -, hanalyze⟩ := accepts_iff_wellFormed layered hn "I" none
  obtain ⟨rs, hrs⟩ := exists_ok (x := layered.resolve "I" none) (by decide +kernel)
  have hw := hresolve.mp ⟨rs, hrs, resolve_resolved hrs⟩
  exact ⟨hn, hapart, hw, hresolve.mpr hw, (hanalyze hapart {}).1.mpr hw⟩

/-- A class among the modules gets its interface in a container of its own name, where it is not
described: the graph resolves, and its result is refused. -/
theorem misplaced_refused :
    (misplaced.modules.map fun m => (misplaced.decl m).name).Nodup ∧
      (∃ rs, misplaced.resolve "I" none = .ok rs) ∧
      analyze {} none misplaced = .error (.unallocatedInterface "b.a" "A") :=
  ⟨by decide, exists_ok (by decide +kernel), eq_error_of (by decide +kernel)⟩

end RecordGen

import RecordGen.Proofs.Ancestry

/-! # Walks that end, and cycles

The walk up from a class ends without a bound on its steps, for a class that comes a second time
stops it and there are only so many listed classes to pass. A cycle that it reports is a simple one,
cut out of the walk at the class that came twice. No class on a cycle or below one is ever placed,
so a cycle of correctly linked classes does not stay hidden. -/

namespace RecordGen.ClassGraph

open Fallible

variable {g : ClassGraph} {placed path : List ClassId} {next : Option ClassId}

/-! ## The walk without a bound -/

/-- How the walk up goes on from the class to look at next, `path` being passed, topmost first. Each
rule but the last one ends it, and no rule counts the steps. -/
inductive Ascent (g : ClassGraph) (placed : List ClassId) :
    List ClassId → Option ClassId → Except SchemaFault (List ClassId) → Prop where
  | root {path : List ClassId} : Ascent g placed path none (.ok path)
  | met {path : List ClassId} {c : ClassId} : c ∈ placed → Ascent g placed path (some c) (.ok path)
  | cycle {path : List ClassId} {c : ClassId} : c ∉ placed → c ∈ path →
      Ascent g placed path (some c)
        (.error (.cyclicAncestry ((path.reverse.dropWhile (· ≠ c) ++ [c]).map g.fullName)))
  | enclosing {path : List ClassId} {c : ClassId} {e : SchemaFault} : c ∉ placed → c ∉ path →
      g.checkEnclosing c = .error e → Ascent g placed path (some c) (.error e)
  | extension {path : List ClassId} {c : ClassId} {e : SchemaFault} : c ∉ placed → c ∉ path →
      g.checkEnclosing c = .ok () → g.checkExtension c = .error e →
      Ascent g placed path (some c) (.error e)
  | up {path : List ClassId} {c : ClassId} {result : Except SchemaFault (List ClassId)} :
      c ∉ placed → c ∉ path → g.checkEnclosing c = .ok () → g.checkExtension c = .ok () →
      Ascent g placed (c :: path) (g.decl c).superclass result →
      Ascent g placed path (some c) result

/-- The walks up from some classes in turn, each of which places the classes it has passed. -/
inductive Placement (g : ClassGraph) :
    List ClassId → List ClassId → Except SchemaFault (List ClassId) → Prop where
  | done {placed : List ClassId} : Placement g placed [] (.ok placed)
  | stopped {placed cs : List ClassId} {c : ClassId} {e : SchemaFault} :
      g.Ascent placed [] (some c) (.error e) → Placement g placed (c :: cs) (.error e)
  | passed {placed cs path : List ClassId} {c : ClassId}
      {result : Except SchemaFault (List ClassId)} : g.Ascent placed [] (some c) (.ok path) →
      Placement g (placed ++ path) cs result → Placement g placed (c :: cs) result

/-- The bounded walk follows the rules to their end. -/
theorem Ascent.climb_eq {result : Except SchemaFault (List ClassId)}
    (h : g.Ascent placed path next result) : ∀ {steps : Nat}, g.Climbing placed next path →
    path.length + steps = g.classes.length + 1 → g.climb placed steps path next = result := by
  induction h with
  | root => exact fun _ _ => climb_none _ _ _
  | met hplaced =>
      intro steps hclimb hlen
      obtain ⟨rest, rfl⟩ := hclimb.exists_step hlen
      rw [climb_some, if_pos hplaced]
  | cycle hplaced hpath =>
      intro steps hclimb hlen
      obtain ⟨rest, rfl⟩ := hclimb.exists_step hlen
      rw [climb_some, if_neg hplaced, if_pos hpath]
  | enclosing hplaced hpath he =>
      intro steps hclimb hlen
      obtain ⟨rest, rfl⟩ := hclimb.exists_step hlen
      rw [climb_some, if_neg hplaced, if_neg hpath, he, error_bind]
  | extension hplaced hpath he hx =>
      intro steps hclimb hlen
      obtain ⟨rest, rfl⟩ := hclimb.exists_step hlen
      rw [climb_some, if_neg hplaced, if_neg hpath, he, hx, ok_bind, error_bind]
  | up hplaced hpath he hx _ ih =>
      intro steps hclimb hlen
      obtain ⟨rest, rfl⟩ := hclimb.exists_step hlen
      rw [climb_some, if_neg hplaced, if_neg hpath, he, hx, ok_bind, ok_bind]
      exact ih (hclimb.up hplaced hpath he hx) (by simp only [List.length_cons]; omega)

/-- The rules come to an end, by as many steps as the bound allows. -/
theorem ascent_climb {steps : Nat} : ∀ {path : List ClassId} {next : Option ClassId},
    g.Climbing placed next path → path.length + steps = g.classes.length + 1 →
    g.Ascent placed path next (g.climb placed steps path next) := by
  induction steps with
  | zero =>
      intro path next hclimb hlen
      obtain ⟨rest, hrest⟩ := hclimb.exists_step hlen
      cases hrest
  | succ steps ih =>
      intro path next hclimb hlen
      cases next with
      | none => exact (climb_none placed _ path).symm ▸ .root
      | some c =>
          rw [climb_some]
          by_cases hplaced : c ∈ placed
          · exact if_pos hplaced ▸ .met hplaced
          · rw [if_neg hplaced]
            by_cases hpath : c ∈ path
            · exact if_pos hpath ▸ .cycle hplaced hpath
            · rw [if_neg hpath]
              cases he : g.checkEnclosing c with
              | error e => exact .enclosing hplaced hpath he
              | ok _ =>
                  cases hx : g.checkExtension c with
                  | error e => exact .extension hplaced hpath he hx
                  | ok _ =>
                      refine .up hplaced hpath he hx (ih (hclimb.up hplaced hpath he hx) ?_)
                      simp only [List.length_cons]
                      omega

theorem ascent_iff {c : ClassId} (hc : c ∈ g.classes) {result : Except SchemaFault (List ClassId)} :
    g.Ascent placed [] (some c) result ↔
      g.climb placed (g.classes.length + 1) [] (some c) = result := by
  constructor
  · exact fun h => h.climb_eq (.start hc) (by simp)
  · rintro rfl
    exact ascent_climb (.start hc) (by simp)

/-- Placing listed classes in turn ends, with what the bounded walks come to. -/
theorem placement_iff {cs : List ClassId} (hcs : cs ⊆ g.classes)
    {result : Except SchemaFault (List ClassId)} :
    g.Placement placed cs result ↔ cs.foldlM g.place placed = result := by
  induction cs generalizing placed result with
  | nil =>
      constructor
      · rintro ⟨⟩
        rfl
      · rintro rfl
        exact .done
  | cons c cs ih =>
      obtain ⟨hc, hcs⟩ := List.cons_subset.mp hcs
      rw [List.foldlM_cons, place]
      constructor
      · rintro (_ | hstop | ⟨hup, hrest⟩)
        · rw [(ascent_iff hc).mp hstop, map_error, error_bind]
        · rw [(ascent_iff hc).mp hup, map_ok, ok_bind]
          exact (ih hcs).mp hrest
      · rintro rfl
        cases hclimb : g.climb placed (g.classes.length + 1) [] (some c) with
        | error e =>
            rw [map_error, error_bind]
            exact .stopped ((ascent_iff hc).mpr hclimb)
        | ok path =>
            rw [map_ok, ok_bind]
            exact .passed ((ascent_iff hc).mpr hclimb) ((ih hcs).mpr rfl)

/-! ## Cycles -/

/-- The check of a superclass reports no cycle. -/
theorem checkExtension_ne_cyclicAncestry (c : ClassId) (names : List String) :
    g.checkExtension c ≠ .error (.cyclicAncestry names) := by
  rw [checkExtension]
  split
  · simp
  · split_ifs <;> simp

/-- What is cut out of a walk when a class comes a second time starts at that class and holds no
class twice. -/
theorem Climbing.exists_simple {c : ClassId} (h : g.Climbing placed (some c) path) (hc : c ∈ path) :
    ∃ between, path.reverse.dropWhile (· ≠ c) = c :: between ∧ (c :: between).Nodup := by
  obtain ⟨between, hcut⟩ := dropWhile_ne_eq_cons (List.mem_reverse.mpr hc)
  have hnodup : path.reverse.Nodup := List.nodup_reverse.mpr h.path_nodup
  exact ⟨between, hcut, hcut ▸ hnodup.sublist (List.dropWhile_sublist _)⟩

/-- A cycle that is reported is one, and a simple one. -/
theorem cycle_of_ancestryOrder {names : List String}
    (h : g.ancestryOrder = .error (.cyclicAncestry names)) :
    ∃ c between, names = (c :: between ++ [c]).map g.fullName ∧ (c :: between).Nodup ∧
      g.Cycle (c :: between ++ [c]) := by
  rcases ancestryOrder_stops h with ⟨placed, c, passed, hclimb, hc, heq⟩ | ⟨c, -, hcheck | hcheck⟩
  · obtain ⟨between, hcut, hnodup⟩ := hclimb.exists_simple hc
    have hcycle := hclimb.cycle hc
    rw [hcut] at heq hcycle
    exact ⟨c, between, SchemaFault.cyclicAncestry.inj heq, hnodup, hcycle⟩
  · cases checkEnclosing_error hcheck
  · exact absurd hcheck (checkExtension_ne_cyclicAncestry c names)

/-- No order has a place for a class that is its own ancestor. -/
theorem ancestryOrder_ne_ok {c : ClassId} (hc : c ∈ g.classes)
    (hown : Relation.TransGen g.Extends c c) (order : List ClassId) :
    g.ancestryOrder ≠ .ok order := by
  intro h
  obtain ⟨hfirst, hlisted⟩ := ancestryOrder_ok h
  obtain ⟨l, hl, -⟩ := hfirst.above c ((hlisted c).mpr hc)
  exact hl.not_mem (hl.mem_iff.mpr hown)

/-- The walk over all classes ends, with the result of the bounded one. If it reports a cycle, the
classes on it are different, each extends the next and the last one the first, which is blamed. If
nothing else is wrong with the links, a class that is its own ancestor leads to such a report. -/
theorem ancestryOrder_cycles (g : ClassGraph) :
    (g.Placement [] g.classes g.ancestryOrder ∧
      ∀ result, g.Placement [] g.classes result → result = g.ancestryOrder) ∧
    (∀ e names, g.ancestryOrder = .error e → e = .cyclicAncestry names →
      ∃ c between, (c :: between).Nodup ∧ (c :: between ++ [c]).IsChain g.Extends ∧
        (∀ x ∈ c :: between, x ∈ g.classes) ∧
        e.message = "Cyclic ancestry: " ++
          " -> ".intercalate ((c :: between ++ [c]).map g.fullName) ∧
        e.class? = some (g.fullName c) ∧ e.declarers = (c :: between).map g.fullName) ∧
    ((∀ c ∈ g.classes, g.checkEnclosing c = .ok () ∧ g.checkExtension c = .ok ()) →
      (∃ c ∈ g.classes, Relation.TransGen g.Extends c c) →
      ∃ names, g.ancestryOrder = .error (.cyclicAncestry names)) := by
  refine ⟨⟨?_, fun result h => ?_⟩, ?_, ?_⟩
  · exact (placement_iff (List.Subset.refl _)).mpr rfl
  · exact ((placement_iff (List.Subset.refl _)).mp h).symm
  · rintro e names h rfl
    obtain ⟨c, between, rfl, hnodup, hcycle⟩ := cycle_of_ancestryOrder h
    refine ⟨c, between, hnodup, hcycle.links, fun x hx => ?_, rfl, by simp [SchemaFault.class?], ?_⟩
    · exact hcycle.listed x (List.mem_append_left _ hx)
    · rw [SchemaFault.declarers, List.map_append, List.map_singleton, List.dropLast_concat]
  · rintro hchecks ⟨c, hc, hown⟩
    cases h : g.ancestryOrder with
    | ok order => exact absurd h (ancestryOrder_ne_ok hc hown order)
    | error e =>
        rcases ancestryOrder_error h with ⟨cycle, -, rfl⟩ | ⟨d, hd, hcheck | hcheck⟩
        · exact ⟨_, rfl⟩
        · simp [(hchecks d hd).1] at hcheck
        · simp [(hchecks d hd).2] at hcheck

/-- Two classes that extend each other, met from a class below them when others are placed. -/
def tailed : ClassGraph where
  decls := [
    { name := "m", isModule := true, moduleName := "m" },
    { name := "Root", kind := .abstract, moduleName := "m" },
    { name := "Tail", superclass := some 3, moduleName := "m" },
    { name := "Odd", kind := .extensible, superclass := some 4, moduleName := "m" },
    { name := "Even", kind := .extensible, superclass := some 3, moduleName := "m" },
    { name := "Leaf", superclass := some 1, moduleName := "m" }]
  modules := [0]
  classes := [0, 5, 1, 2, 3, 4]

theorem ancestryOrder_cycles_tailed :
    let e := SchemaFault.cyclicAncestry ["m.Odd", "m.Even", "m.Odd"]
    ((∀ c ∈ tailed.classes, tailed.checkEnclosing c = .ok () ∧ tailed.checkExtension c = .ok ()) ∧
      ∃ c ∈ tailed.classes, Relation.TransGen tailed.Extends c c) ∧
    (∃ names, tailed.ancestryOrder = .error (.cyclicAncestry names)) ∧
    tailed.ancestryOrder = .error e ∧
      ∃ c between, (c :: between).Nodup ∧ (c :: between ++ [c]).IsChain tailed.Extends ∧
        e.class? = some (tailed.fullName c) ∧
        e.declarers = (c :: between).map tailed.fullName := by
  intro e
  have hchecks : ∀ c ∈ tailed.classes,
      tailed.checkEnclosing c = .ok () ∧ tailed.checkExtension c = .ok () := by decide
  have hown : ∃ c ∈ tailed.classes, Relation.TransGen tailed.Extends c c :=
    ⟨3, by decide, .tail (.single (b := 4) rfl) rfl⟩
  have hfault : tailed.ancestryOrder = .error e := by decide
  obtain ⟨-, hreported, hfound⟩ := ancestryOrder_cycles tailed
  obtain ⟨c, between, hnodup, hlinks, -, -, hclass, hdeclarers⟩ := hreported e _ hfault rfl
  exact ⟨⟨hchecks, hown⟩, hfound hchecks hown, hfault, c, between, hnodup, hlinks, hclass,
    hdeclarers⟩

end RecordGen.ClassGraph

import RecordGen.Proofs.Sessions

/-! # Inheritance trees

Classes that share a root form a tree, and the trees split an ancestor-first order. So workers may
take the trees in any order: the same graphs resolve to the same results, and a graph that does not
resolve fails where its first tree fails that does. -/

namespace RecordGen

open Fallible

namespace ClassGraph

variable {g : ClassGraph} {order : List ClassId}

/-! ## Roots -/

/-- The superclass of a class of an order has a chain and is in the order. -/
theorem AncestorFirst.above_superclass (h : g.AncestorFirst order) {c s : ClassId} (hc : c ∈ order)
    (hs : g.Extends c s) : s ∈ order ∧ ∃ l, g.Above s l := by
  obtain ⟨l, hl, hmem⟩ := h.above c hc
  cases hl with
  | root hnone =>
      rw [hs] at hnone
      cases hnone
  | @step _ s' l hs' hl =>
      obtain rfl := Option.some.inj (hs.symm.trans hs')
      exact ⟨hmem s (by simp), l, hl⟩

theorem AncestorFirst.root_eq (h : g.AncestorFirst order) {c s : ClassId} (hc : c ∈ order)
    (hs : g.Extends c s) : g.root c = g.root s := by
  obtain ⟨-, l, hl⟩ := h.above_superclass hc hs
  rw [ClassGraph.root, ClassGraph.root, (Above.step hs hl).ancestors_eq, hl.ancestors_eq,
    List.getLast?_cons, Option.getD_some]

/-! ## Parts of an order -/

/-- A part of an order that holds the superclasses of its classes is in order itself. -/
theorem AncestorFirst.filter (h : g.AncestorFirst order) {p : ClassId → Bool}
    (hp : ∀ c ∈ order, ∀ s, g.Extends c s → p c = true → p s = true) :
    g.AncestorFirst (order.filter p) := by
  induction h with
  | nil => exact .nil
  | @snoc placed c hplaced hnew hc hencl hext hs ih =>
      have ih := ih fun x hx => hp x (List.mem_append_left _ hx)
      rw [List.filter_append]
      by_cases hpc : p c = true
      · rw [List.filter_cons_of_pos hpc, List.filter_nil]
        refine .snoc ih (fun hmem => hnew (List.mem_filter.mp hmem).1) hc hencl hext ?_
        intro s hextends
        exact List.mem_filter.mpr ⟨hs s hextends, hp c (by simp) s hextends hpc⟩
      · rw [List.filter_cons_of_neg hpc, List.filter_nil, List.append_nil]
        exact ih

/-- Lists of classes that split an order: together they hold every listed class once, each holds the
superclasses of its classes, and each is an ancestor-first part of the order. -/
structure Partition (g : ClassGraph) (order : List ClassId) (parts : List (List ClassId)) :
    Prop where
  nodup : parts.flatten.Nodup
  complete : ∀ c, c ∈ parts.flatten ↔ c ∈ g.classes
  closed : ∀ t ∈ parts, ∀ c ∈ t, ∀ s, g.Extends c s → s ∈ t
  ancestorFirst : ∀ t ∈ parts, g.AncestorFirst t
  sublist : ∀ t ∈ parts, t.Sublist order

theorem trees_partition (h : g.ancestryOrder = .ok order) : g.Partition order (g.trees order) := by
  obtain ⟨hfirst, hlisted⟩ := ancestryOrder_ok h
  have htree : ∀ t ∈ g.trees order, ∃ r, t = order.filter (g.root · == r) := by
    intro t ht
    obtain ⟨r, -, rfl⟩ := List.mem_map.mp ht
    exact ⟨r, rfl⟩
  refine ⟨?_, fun c => ?_, ?_, ?_, ?_⟩
  · rw [List.nodup_flatten]
    refine ⟨fun t ht => ?_, ?_⟩
    · obtain ⟨r, rfl⟩ := htree t ht
      exact hfirst.nodup.filter _
    · rw [trees, List.pairwise_map]
      refine (nodup_eraseDups _).imp ?_
      intro r r' hne c hc hc'
      have hr : g.root c = r := by simpa using (List.mem_filter.mp hc).2
      have hr' : g.root c = r' := by simpa using (List.mem_filter.mp hc').2
      exact hne (hr.symm.trans hr')
  · have hvisits : c ∈ g.visits (some 2) order ↔ c ∈ order := mem_visits
    rw [← hlisted, ← hvisits, visits]
    simp
  · intro t ht c hc s hs
    obtain ⟨r, rfl⟩ := htree t ht
    obtain ⟨hc, hroot⟩ := List.mem_filter.mp hc
    exact List.mem_filter.mpr
      ⟨(hfirst.above_superclass hc hs).1, hfirst.root_eq hc hs ▸ hroot⟩
  · intro t ht
    obtain ⟨r, rfl⟩ := htree t ht
    refine hfirst.filter fun c hc s hs hroot => ?_
    rw [← hfirst.root_eq hc hs]
    exact hroot
  · intro t ht
    obtain ⟨r, rfl⟩ := htree t ht
    exact List.filter_sublist

/-! ## Failures -/

/-- Where a run over parts fails: at a class that repeats a property of its chain, when the chains
of the classes in the parts before, and of those before it in its own part, have all been
flattened. -/
structure FailsFirst (g : ClassGraph) (parts : List (List ClassId)) (c : ClassId)
    (e : SchemaFault) : Prop where
  earlier : ∃ before pre post after, parts = before ++ (pre ++ c :: post) :: after ∧
    ∀ x ∈ before.flatten ++ pre, ∃ ps, g.flatten x = .ok ps
  fails : g.flatten c = .error e
  conflict : g.Conflict c e

/-- A class whose superclass can be flattened fails for a conflict of its own. -/
theorem AncestorFirst.conflict_of_error (h : g.AncestorFirst order) {c : ClassId} (hc : c ∈ order)
    {e : SchemaFault} (hsuper : ∀ s, g.Extends c s → ∃ ps, g.flatten s = .ok ps)
    (he : g.flatten c = .error e) : g.Conflict c e := by
  obtain ⟨l, hl, -⟩ := h.above c hc
  cases hl with
  | root hnone =>
      rw [flatten_root hnone] at he
      exact extend_error (.root hnone) he
  | step hs hl =>
      obtain ⟨ps, hps⟩ := hsuper _ hs
      rw [flatten_step hs hl, hps, ok_bind] at he
      obtain ⟨rfl, -⟩ := (flatten_eq_ok hl).mp hps
      exact extend_error (.step hs hl) he

/-- With several workers, a graph in order fails where the first of its trees fails that does. -/
theorem resolve_trees_error {p : String} {w : Int} (hw : 1 < w) {e : SchemaFault}
    (h : g.resolve p (some w) = .error e) :
    g.ancestryOrder = .error e ∨ ∃ order, g.ancestryOrder = .ok order ∧
      (g.checkReferences = .error e ∨ ∃ c, g.FailsFirst (g.trees order) c e) := by
  rcases bind_eq_error.mp h with h | ⟨order, horder, h⟩
  · exact Or.inl h
  · refine Or.inr ⟨order, horder, ?_⟩
    rcases bind_eq_error.mp h with h | ⟨_, _, h⟩
    · exact Or.inl h
    · rcases bind_eq_error.mp h with h | ⟨_, _, h⟩
      · obtain ⟨hfirst, -⟩ := ancestryOrder_ok horder
        have hpart := trees_partition horder
        have hvisits : g.visits (some w) order = (g.trees order).flatten := by simp [visits, hw]
        rw [hvisits] at h
        obtain ⟨before, pre, c, post, after, htrees, hearlier, hfails⟩ := mapM_flatten_eq_error h
        have hmem : ∀ x ∈ (g.trees order).flatten, x ∈ order := fun x hx =>
          mem_visits.mp (hvisits ▸ hx)
        have hc : c ∈ order := hmem c (by simp [htrees])
        have hflattened : ∀ x ∈ before.flatten ++ pre, ∃ ps, g.flatten x = .ok ps := by
          intro x hx
          obtain ⟨r, hr⟩ := hearlier x hx
          obtain ⟨l, hl, -⟩ := hfirst.above x (hmem x (by
            rw [htrees, List.flatten_append, List.flatten_cons]
            rcases List.mem_append.mp hx with hx | hx <;> simp [hx]))
          exact ⟨_, Resolution.flatten_of_ok hl hr⟩
        have htree : g.AncestorFirst (pre ++ c :: post) :=
          hpart.ancestorFirst _ (by simp [htrees])
        have hfails := hfirst.flatten_of_error hc hfails
        exact Or.inr ⟨c, ⟨before, pre, post, after, htrees, hflattened⟩, hfails,
          hfirst.conflict_of_error hc (fun s hs => hflattened s
            (List.mem_append_right _ (htree.before.2 s hs))) hfails⟩
      · simp at h

end ClassGraph

namespace Session

open ClassGraph

/-- A new session resolves a graph as the graph resolves by itself. -/
theorem resolve_new (config : Config) (l : Loaded) (workers : Option Int) (schedule : Schedule) :
    (({ config } : Session).resolve l workers schedule).1 =
      l.graph.resolve config.interfacePrefix workers := by
  -- No load is remembered in a new session, so it does as if it had loaded the graph.
  have hsound : ({ config, loads := l.id + 1 } : Session).Sound
      (List.replicate (l.id + 1) l.graph) := by
    refine ⟨?_, by simp, ?_, ?_⟩
    · rintro name l' ⟨⟩
    · rintro m ⟨⟩
    · rintro id c ps ⟨⟩
  have hl : (List.replicate (l.id + 1) l.graph)[l.id]? = some l.graph := by simp
  have hloads : (({ config } : Session).resolve l workers schedule).1 =
      (({ config, loads := l.id + 1 } : Session).resolve l workers schedule).1 := by
    simp only [Session.resolve]
    split <;> rfl
  rw [hloads]
  exact (resolve_computes hsound hl workers schedule).answer

/-- Taking the trees in any order is as good as taking the classes one after the other. The trees
split every order; with and without workers a graph is refused alike and resolves to the same list;
and a fault that is not one of the checks before is that of the first failing class of the first
failing tree. -/
theorem resolve_partitioned (config : Config) (l : Loaded) {w : Int} (hw : 1 < w)
    (schedule : Schedule) :
    let sequential := (({ config } : Session).resolve l none).1
    let partitioned := (({ config } : Session).resolve l (some w) schedule).1
    (∀ order, l.graph.ancestryOrder = .ok order →
        l.graph.Partition order (l.graph.trees order)) ∧
      ((∃ e, partitioned = .error e) ↔ ∃ e, sequential = .error e) ∧
      (∀ rs, partitioned = .ok rs ↔ sequential = .ok rs) ∧
      ∀ e, partitioned = .error e →
        (l.graph.ancestryOrder = .error e ∧ sequential = .error e) ∨
        ∃ order, l.graph.ancestryOrder = .ok order ∧
          ((l.graph.checkReferences = .error e ∧ sequential = .error e) ∨
            ∃ c, l.graph.FailsFirst (l.graph.trees order) c e) := by
  simp only [resolve_new]
  have hok : ∀ rs, l.graph.resolve config.interfacePrefix (some w) = .ok rs ↔
      l.graph.resolve config.interfacePrefix none = .ok rs := fun rs => by
    rw [resolve_eq_ok, resolve_eq_ok]
  refine ⟨fun order horder => trees_partition horder, ?_, hok, fun e he => ?_⟩
  · rw [exists_error_iff, exists_error_iff]
    exact forall_congr' fun rs => not_congr (hok rs)
  · rcases resolve_trees_error hw he with horder | ⟨order, horder, hrefs | hfails⟩
    · exact Or.inl ⟨horder, by simp [ClassGraph.resolve, horder]⟩
    · exact Or.inr ⟨order, horder, Or.inl ⟨hrefs, by simp [ClassGraph.resolve, horder, hrefs]⟩⟩
    · exact Or.inr ⟨order, horder, Or.inr hfails⟩

end Session

namespace ClassGraph

/-- Two trees that both fail, the second one at a class listed before the one at which the first one
fails. -/
def feuding : ClassGraph where
  decls := [
    { name := "m", isModule := true, moduleName := "m" },
    { name := "Fish", kind := .extensible, moduleName := "m"
      properties := [⟨"fins", .primitive "Int", false, none⟩] },
    { name := "Bird", kind := .abstract, moduleName := "m"
      properties := [⟨"wings", .primitive "Int", false, none⟩] },
    { name := "Owl", superclass := some 2, moduleName := "m"
      properties := [⟨"wings", .primitive "Any", true, none⟩] },
    { name := "Carp", superclass := some 1, moduleName := "m"
      properties := [⟨"fins", .primitive "Number", false, none⟩] }]
  modules := [0]
  classes := [1, 2, 3, 4, 0]

end ClassGraph

open ClassGraph in
/-- Alone, a run reports the class that is listed first, workers report the tree that is. -/
theorem feuding_partitioned :
    (1 : Int) < 2 ∧ feuding.trees [1, 2, 3, 4, 0] = [[1, 4], [2, 3], [0]] ∧
      (({} : Session).resolve ⟨0, feuding⟩ none).1 =
        .error (.conflictingProperty "m.Owl" "wings" "m.Bird") ∧
      (({} : Session).resolve ⟨0, feuding⟩ (some 2) ⟨List.reverse, List.reverse_perm⟩).1 =
        .error (.conflictingProperty "m.Carp" "fins" "m.Fish") ∧
      ∃ c, feuding.FailsFirst [[1, 4], [2, 3], [0]] c
        (.conflictingProperty "m.Carp" "fins" "m.Fish") := by
  have horder : feuding.ancestryOrder = .ok [1, 2, 3, 4, 0] := by rfl
  have hrefs : feuding.checkReferences = .ok () := by rfl
  have htrees : feuding.trees [1, 2, 3, 4, 0] = [[1, 4], [2, 3], [0]] := by decide +kernel
  have hfails : (({} : Session).resolve ⟨0, feuding⟩ (some 2)
      ⟨List.reverse, List.reverse_perm⟩).1 =
        .error (.conflictingProperty "m.Carp" "fins" "m.Fish") := eq_error_of (by decide +kernel)
  obtain ⟨-, -, -, herror⟩ := Session.resolve_partitioned {} ⟨0, feuding⟩ (w := 2) (by decide)
    ⟨List.reverse, List.reverse_perm⟩
  refine ⟨by decide, htrees, eq_error_of (by decide +kernel), hfails, ?_⟩
  rcases herror _ hfails with ⟨h, -⟩ | ⟨order, h, hrest⟩
  · rw [horder] at h
    cases h
  · obtain rfl := Except.ok.inj (horder.symm.trans h)
    rcases hrest with ⟨h, -⟩ | hfirst
    · rw [hrefs] at h
      cases h
    · rwa [htrees] at hfirst

end RecordGen

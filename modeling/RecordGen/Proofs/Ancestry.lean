import Mathlib.Data.List.Chain
import Mathlib.Data.List.Perm.Subperm
import Mathlib.Data.List.Nodup
import Mathlib.Logic.Relation
import RecordGen.Hierarchy
import RecordGen.Proofs.Fallible

/-! # Ancestors and the ancestor-first order

The chain above a class is described by the superclass links alone, and the bounded walks of a graph
are proved to follow it to its end. -/

namespace RecordGen.ClassGraph

open Fallible

variable {g : ClassGraph}

/-! ## Chains of superclasses -/

/-- A class has another one as its superclass. -/
def Extends (g : ClassGraph) (c s : ClassId) : Prop :=
  (g.decl c).superclass = some s

/-- The superclasses above a class, nearest first, up to one that has none. -/
inductive Above (g : ClassGraph) : ClassId → List ClassId → Prop where
  | root {c : ClassId} : (g.decl c).superclass = none → Above g c []
  | step {c s : ClassId} {l : List ClassId} : g.Extends c s → Above g s l → Above g c (s :: l)

theorem Above.unique {c : ClassId} {l l' : List ClassId} (h : g.Above c l) (h' : g.Above c l') :
    l = l' := by
  induction h generalizing l' with
  | root hc =>
      cases h' with
      | root => rfl
      | step hs => simp [Extends, hc] at hs
  | step hs _ ih =>
      cases h' with
      | root hc => simp [Extends, hc] at hs
      | step hs' h' =>
          obtain rfl : _ = _ := Option.some.inj (hs.symm.trans hs')
          rw [ih h']

/-- The chain of an ancestor is the rest of the chain above it. -/
theorem Above.drop {c a : ClassId} {l : List ClassId} (h : g.Above c l) (ha : a ∈ l) :
    ∃ nearer above, l = nearer ++ a :: above ∧ g.Above a above := by
  induction h with
  | root => simp at ha
  | @step c s l hs h ih =>
      rcases List.mem_cons.mp ha with rfl | ha
      · exact ⟨[], l, rfl, h⟩
      · obtain ⟨nearer, above, rfl, habove⟩ := ih ha
        exact ⟨s :: nearer, above, rfl, habove⟩

/-- No class is among its own ancestors. -/
theorem Above.not_mem {c : ClassId} {l : List ClassId} (h : g.Above c l) : c ∉ l := by
  intro hc
  obtain ⟨nearer, above, hl, habove⟩ := h.drop hc
  have hlen := congrArg List.length (h.unique habove)
  rw [hl] at hlen
  simp at hlen
  omega

theorem Above.nodup {c : ClassId} {l : List ClassId} (h : g.Above c l) : (c :: l).Nodup := by
  induction h with
  | root => simp
  | step hs h ih => exact List.nodup_cons.mpr ⟨(Above.step hs h).not_mem, ih⟩

/-- The chain above a class holds its ancestors and no other class. -/
theorem Above.mem_iff {c a : ClassId} {l : List ClassId} (h : g.Above c l) :
    a ∈ l ↔ Relation.TransGen g.Extends c a := by
  induction h with
  | @root c hc =>
      constructor
      · simp
      · intro ha
        obtain ⟨s, hs, -⟩ := Relation.TransGen.head'_iff.mp ha
        simp [Extends, hc] at hs
  | @step c s l hs h ih =>
      rw [List.mem_cons, ih]
      constructor
      · rintro (rfl | ha)
        · exact .single hs
        · exact .head hs ha
      · intro ha
        obtain ⟨s', hs', ha⟩ := Relation.TransGen.head'_iff.mp ha
        obtain rfl : s = s' := Option.some.inj (hs.symm.trans hs')
        rcases Relation.reflTransGen_iff_eq_or_transGen.mp ha with rfl | ha
        · exact Or.inl rfl
        · exact Or.inr ha

/-! ## The bounded walk up -/

/-- Beyond the declarations of a graph no class has a superclass. -/
theorem lt_length_of_extends {c s : ClassId} (h : g.Extends c s) : c < g.decls.length := by
  by_contra hc
  have hd : g.decl c = {} := by
    simp [decl, List.getD_eq_getElem?_getD, List.getElem?_eq_none (Nat.le_of_not_lt hc)]
  simp [Extends, hd] at h

theorem Above.lt_length {c : ClassId} {l : List ClassId} (h : g.Above c l) :
    ∀ x ∈ (c :: l).dropLast, x < g.decls.length := by
  induction h with
  | root => simp
  | step hs _ ih =>
      intro x hx
      rw [List.dropLast_cons_cons] at hx
      rcases List.mem_cons.mp hx with rfl | hx
      · exact lt_length_of_extends hs
      · exact ih x hx

/-- A chain is no longer than the number of declarations. -/
theorem Above.length_le {c : ClassId} {l : List ClassId} (h : g.Above c l) :
    l.length ≤ g.decls.length := by
  have hn : (c :: l).dropLast.Nodup := h.nodup.sublist (List.dropLast_sublist _)
  have hsub : (c :: l).dropLast ⊆ List.range g.decls.length :=
    fun x hx => List.mem_range.mpr (h.lt_length x hx)
  simpa using (hn.subperm hsub).length_le

theorem ancestorsFrom_eq {c : ClassId} {l : List ClassId} (h : g.Above c l) :
    ∀ (steps : Nat) (seen : List ClassId), l.length ≤ steps → (∀ x ∈ l, x ∉ seen) →
      g.ancestorsFrom steps seen c = l := by
  induction h with
  | root hc =>
      intro steps seen _ _
      cases steps with
      | zero => rfl
      | succ steps => simp [ancestorsFrom, hc]
  | @step c s l hs h ih =>
      intro steps seen hsteps hseen
      cases steps with
      | zero => simp at hsteps
      | succ steps =>
          have hrest : g.ancestorsFrom steps (s :: seen) s = l := by
            apply ih steps (s :: seen) (by simpa using hsteps)
            intro x hx hmem
            rcases List.mem_cons.mp hmem with rfl | hmem
            · exact h.not_mem hx
            · exact hseen x (by simp [hx]) hmem
          have hs' : (g.decl c).superclass = some s := hs
          simp [ancestorsFrom, hs', hseen s (by simp), hrest]

/-- The walk up follows the chain to its end. -/
theorem Above.ancestors_eq {c : ClassId} {l : List ClassId} (h : g.Above c l) :
    g.ancestors c = l := by
  apply ancestorsFrom_eq h
  · exact Nat.le_succ_of_le h.length_le
  · intro x hx hmem
    rw [List.mem_singleton.mp hmem] at hx
    exact h.not_mem hx

theorem Above.ancestors {c : ClassId} {l : List ClassId} (h : g.Above c l) :
    g.Above c (g.ancestors c) := by
  rwa [h.ancestors_eq]

/-! ## Ancestor-first orders -/

/-- Classes in an order in which each is new, listed and correctly linked, and comes after its
superclass. -/
inductive AncestorFirst (g : ClassGraph) : List ClassId → Prop where
  | nil : AncestorFirst g []
  | snoc {placed : List ClassId} {c : ClassId} : AncestorFirst g placed → c ∉ placed →
      c ∈ g.classes → g.checkEnclosing c = .ok () → g.checkExtension c = .ok () →
      (∀ s, g.Extends c s → s ∈ placed) → AncestorFirst g (placed ++ [c])

namespace AncestorFirst

theorem nodup {order : List ClassId} (h : g.AncestorFirst order) : order.Nodup := by
  induction h with
  | nil => exact List.nodup_nil
  | snoc _ hc _ _ _ _ ih =>
      rw [List.nodup_append]
      refine ⟨ih, List.nodup_singleton _, ?_⟩
      rintro x hx y hy rfl
      exact hc (List.mem_singleton.mp hy ▸ hx)

theorem listed {order : List ClassId} (h : g.AncestorFirst order) : ∀ c ∈ order, c ∈ g.classes := by
  induction h with
  | nil => simp
  | snoc _ _ hc _ _ _ ih =>
      intro x hx
      rcases List.mem_append.mp hx with hx | hx
      · exact ih x hx
      · rwa [List.mem_singleton.mp hx]

theorem checks {order : List ClassId} (h : g.AncestorFirst order) :
    ∀ c ∈ order, g.checkEnclosing c = .ok () ∧ g.checkExtension c = .ok () := by
  induction h with
  | nil => simp
  | snoc _ _ _ he hx _ ih =>
      intro x hmem
      rcases List.mem_append.mp hmem with hmem | hmem
      · exact ih x hmem
      · rw [List.mem_singleton.mp hmem]
        exact ⟨he, hx⟩

/-- Every class of the order has a chain, which stays inside the order. -/
theorem above {order : List ClassId} (h : g.AncestorFirst order) :
    ∀ c ∈ order, ∃ l, g.Above c l ∧ ∀ x ∈ c :: l, x ∈ order := by
  induction h with
  | nil => simp
  | @snoc placed c _ _ _ _ _ hs ih =>
      intro x hx
      rcases List.mem_append.mp hx with hx | hx
      · obtain ⟨l, hl, hmem⟩ := ih x hx
        exact ⟨l, hl, fun y hy => List.mem_append_left _ (hmem y hy)⟩
      · obtain rfl := List.mem_singleton.mp hx
        cases hsup : (g.decl x).superclass with
        | none => exact ⟨[], .root hsup, by simp⟩
        | some s =>
            obtain ⟨l, hl, hmem⟩ := ih s (hs s hsup)
            refine ⟨s :: l, .step hsup hl, ?_⟩
            intro y hy
            rcases List.mem_cons.mp hy with rfl | hy
            · simp
            · exact List.mem_append_left _ (hmem y hy)

/-- What stands before a class of an order is an order that holds its superclass. -/
theorem before {pre post : List ClassId} {c : ClassId} (h : g.AncestorFirst (pre ++ c :: post)) :
    g.AncestorFirst pre ∧ ∀ s, g.Extends c s → s ∈ pre := by
  generalize horder : pre ++ c :: post = order at h
  induction h generalizing post with
  | nil => simp at horder
  | @snoc placed d hplaced _ _ _ _ hd ih =>
      rcases post.eq_nil_or_concat with rfl | ⟨post, x, rfl⟩
      · obtain ⟨rfl, hcd⟩ := List.append_inj' horder rfl
        obtain rfl : c = d := by simpa using hcd
        exact ⟨hplaced, hd⟩
      · rw [List.concat_eq_append, ← List.cons_append, ← List.append_assoc] at horder
        exact ih (List.append_inj' horder rfl).1

/-- All ancestors of a class of an order stand before it. -/
theorem ancestors_before {pre post : List ClassId} {c : ClassId} {l : List ClassId}
    (h : g.AncestorFirst (pre ++ c :: post)) (hl : g.Above c l) : ∀ x ∈ l, x ∈ pre := by
  obtain ⟨hpre, hsuper⟩ := h.before
  cases hl with
  | root => simp
  | step hs hl =>
      obtain ⟨l', hl', hmem⟩ := hpre.above _ (hsuper _ hs)
      exact hl.unique hl' ▸ hmem

end AncestorFirst

/-! ## The walk that places classes -/

theorem checkEnclosing_error {c : ClassId} {e : SchemaFault} (h : g.checkEnclosing c = .error e) :
    e = .undeclaredModule (g.fullName c) (g.decl c).moduleName := by
  rw [checkEnclosing] at h
  split at h
  · exact (Except.error.inj h).symm
  · split at h
    · exact (Except.error.inj h).symm
    · cases h

/-- A superclass is listed, is a module exactly if the class is one, and is not final. -/
theorem checkExtension_eq_ok {c : ClassId} : g.checkExtension c = .ok () ↔ ∀ s, g.Extends c s →
    s ∈ g.classes ∧ (g.decl s).isModule = (g.decl c).isModule ∧ (g.decl s).kind ≠ .final := by
  cases hs : (g.decl c).superclass with
  | none => simp [checkExtension, Extends, hs]
  | some s =>
      simp only [checkExtension, Extends, hs, guard_eq_ok, not_not, Option.some.injEq,
        forall_eq', and_true, ne_eq]

theorem mem_classes_of_checkExtension {c s : ClassId} (h : g.checkExtension c = .ok ())
    (hs : g.Extends c s) : s ∈ g.classes :=
  (checkExtension_eq_ok.mp h s hs).1

/-- Modules extend modules, and classes extend classes. -/
theorem isModule_of_checkExtension {c s : ClassId} (h : g.checkExtension c = .ok ())
    (hs : g.Extends c s) : (g.decl s).isModule = (g.decl c).isModule :=
  (checkExtension_eq_ok.mp h s hs).2.1

/-- What another class extends gets an interface. -/
theorem allowsSubclasses_of_extends {c s : ClassId} (h : g.checkExtension c = .ok ())
    (hs : g.Extends c s) : (g.decl s).kind.allowsSubclasses = true := by
  have hopen := (checkExtension_eq_ok.mp h s hs).2.2
  cases hkind : (g.decl s).kind with
  | final => exact absurd hkind hopen
  | extensible => rfl
  | abstract => rfl

/-- The state of a walk up: the class to look at next and the classes passed, topmost first. -/
inductive Climbing (g : ClassGraph) (placed : List ClassId) :
    Option ClassId → List ClassId → Prop where
  | start {c : ClassId} : c ∈ g.classes → Climbing g placed (some c) []
  | up {c : ClassId} {path : List ClassId} : Climbing g placed (some c) path → c ∉ placed →
      c ∉ path → g.checkEnclosing c = .ok () → g.checkExtension c = .ok () →
      Climbing g placed (g.decl c).superclass (c :: path)

namespace Climbing

variable {placed path : List ClassId} {next : Option ClassId}

theorem next_mem (h : g.Climbing placed next path) : ∀ c ∈ next, c ∈ g.classes := by
  cases h with
  | start hc => simpa using hc
  | up _ _ _ _ hx => exact fun s hs => mem_classes_of_checkExtension hx hs

theorem path_mem (h : g.Climbing placed next path) : ∀ c ∈ path, c ∈ g.classes := by
  induction h with
  | start => simp
  | up h _ _ _ _ ih =>
      intro x hx
      rcases List.mem_cons.mp hx with rfl | hx
      · exact h.next_mem x rfl
      · exact ih x hx

theorem path_nodup (h : g.Climbing placed next path) : path.Nodup := by
  induction h with
  | start => exact List.nodup_nil
  | up _ _ hc _ _ ih => exact List.nodup_cons.mpr ⟨hc, ih⟩

/-- The classes passed are different listed ones, so there is always a step left. -/
theorem exists_step (h : g.Climbing placed next path) {steps : Nat}
    (hlen : path.length + steps = g.classes.length + 1) : ∃ rest, steps = rest + 1 := by
  have hle := (h.path_nodup.subperm h.path_mem).length_le
  exact ⟨g.classes.length - path.length, by omega⟩

/-- The classes passed, and the one to look at next, extend each other in turn. -/
theorem isChain (h : g.Climbing placed next path) :
    (path.reverse ++ next.toList).IsChain g.Extends := by
  induction h with
  | start => simp
  | @up c path _ _ _ _ _ ih =>
      rw [List.reverse_cons, List.isChain_append]
      refine ⟨ih, by cases (g.decl c).superclass <;> simp, ?_⟩
      intro x hx s hs
      obtain rfl : c = x := by simpa using hx
      simpa [Extends] using hs

/-- A walk is still one after a class off its path is placed. -/
theorem place {x : ClassId} (h : g.Climbing placed next path) (hx : x ∉ path) :
    g.Climbing (placed ++ [x]) next path := by
  induction h with
  | start hc => exact .start hc
  | @up c path _ hplaced hpath he hs ih =>
      rw [List.mem_cons, not_or] at hx
      refine .up (ih hx.2) ?_ hpath he hs
      simp [hplaced, Ne.symm hx.1]

end Climbing

/-- When a walk has reached a root or a placed class, its path can be placed, topmost first. -/
theorem AncestorFirst.append_path {path : List ClassId} : ∀ {placed : List ClassId}
    {next : Option ClassId}, g.AncestorFirst placed → g.Climbing placed next path →
    (∀ c ∈ next, c ∈ placed) → g.AncestorFirst (placed ++ path) := by
  induction path with
  | nil =>
      intro placed next hplaced _ _
      simpa using hplaced
  | cons c path ih =>
      intro placed next hplaced hclimb hnext
      cases hclimb with
      | up hclimb hc hpath he hx =>
          have hmem := hclimb.next_mem c rfl
          have hsnoc : g.AncestorFirst (placed ++ [c]) := .snoc hplaced hc hmem he hx hnext
          have hrest := ih hsnoc (hclimb.place hpath) (by simp)
          simpa using hrest

@[simp] theorem climb_none (placed : List ClassId) (steps : Nat) (path : List ClassId) :
    g.climb placed steps path none = .ok path := by
  cases steps <;> rfl

theorem climb_some (placed : List ClassId) (steps : Nat) (path : List ClassId) (c : ClassId) :
    g.climb placed (steps + 1) path (some c) =
      if c ∈ placed then .ok path
      else if c ∈ path then
        .error (.cyclicAncestry ((path.reverse.dropWhile (· ≠ c) ++ [c]).map g.fullName))
      else g.checkEnclosing c >>= fun _ => g.checkExtension c >>= fun _ =>
        g.climb placed steps (c :: path) (g.decl c).superclass := rfl

/-- A walk that succeeds ends at a root or at a placed class, and not for want of steps. -/
theorem climb_ok {placed : List ClassId} : ∀ {steps : Nat} {path out : List ClassId}
    {next : Option ClassId}, g.Climbing placed next path →
    path.length + steps = g.classes.length + 1 → g.climb placed steps path next = .ok out →
    ∃ last, g.Climbing placed last out ∧ (∀ c ∈ last, c ∈ placed) ∧ path ⊆ out ∧
      ∀ c ∈ next, c ∈ placed ∨ c ∈ out := by
  intro steps
  induction steps with
  | zero =>
      intro path out next hclimb hlen _
      obtain ⟨rest, hrest⟩ := hclimb.exists_step hlen
      cases hrest
  | succ steps ih =>
      intro path out next hclimb hlen h
      cases next with
      | none =>
          obtain rfl : path = out := by simpa using h
          exact ⟨none, hclimb, by simp, List.Subset.refl _, by simp⟩
      | some c =>
          rw [climb_some] at h
          by_cases hplaced : c ∈ placed
          · rw [if_pos hplaced] at h
            cases h
            exact ⟨some c, hclimb, by simpa using hplaced, List.Subset.refl _, by simp [hplaced]⟩
          · rw [if_neg hplaced] at h
            by_cases hpath : c ∈ path
            · simp [hpath] at h
            · rw [if_neg hpath] at h
              obtain ⟨⟨⟩, he, h⟩ := bind_eq_ok.mp h
              obtain ⟨⟨⟩, hx, h⟩ := bind_eq_ok.mp h
              have hup := hclimb.up hplaced hpath he hx
              have hsteps : (c :: path).length + steps = g.classes.length + 1 := by
                simp only [List.length_cons]
                omega
              obtain ⟨last, hlast, hend, hsub, -⟩ := ih hup hsteps h
              refine ⟨last, hlast, hend, fun x hx => hsub (by simp [hx]), ?_⟩
              intro x hx
              obtain rfl : c = x := by simpa using hx
              exact Or.inr (hsub (by simp))

/-- Placing a listed class keeps the order, and places the class. -/
theorem place_ok {placed order : List ClassId} {c : ClassId} (hplaced : g.AncestorFirst placed)
    (hc : c ∈ g.classes) (h : g.place placed c = .ok order) :
    g.AncestorFirst order ∧ c ∈ order ∧ placed ⊆ order := by
  obtain ⟨path, hpath, rfl⟩ := map_eq_ok.mp h
  obtain ⟨last, hclimb, hend, -, hmem⟩ := climb_ok (.start hc) (by simp) hpath
  refine ⟨hplaced.append_path hclimb hend, ?_, List.subset_append_left _ _⟩
  simpa using hmem c rfl

/-- What one class after the other preserves holds of the whole order. -/
theorem ancestryOrder_induction {P : List ClassId → List ClassId → Prop} {order : List ClassId}
    (hnil : P [] []) (hsnoc : ∀ done c rest placed order, g.classes = done ++ c :: rest →
      P done placed → g.place placed c = .ok order → P (done ++ [c]) order)
    (h : g.ancestryOrder = .ok order) : P g.classes order := by
  have hfold : ∀ (rest done placed : List ClassId), g.classes = done ++ rest → P done placed →
      rest.foldlM g.place placed = .ok order → P g.classes order := by
    intro rest
    induction rest with
    | nil =>
        intro done placed hclasses hp h
        obtain rfl : placed = order := by simpa using h
        rwa [hclasses, List.append_nil]
    | cons c rest ih =>
        intro done placed hclasses hp h
        rw [List.foldlM_cons] at h
        obtain ⟨middle, hmiddle, h⟩ := bind_eq_ok.mp h
        exact ih (done ++ [c]) middle (by simpa using hclasses)
          (hsnoc done c rest placed middle hclasses hp hmiddle) h
  exact hfold g.classes [] [] rfl hnil h

/-- An order that is found holds the listed classes, each once, correctly linked and after its
superclass. -/
theorem ancestryOrder_ok {order : List ClassId} (h : g.ancestryOrder = .ok order) :
    g.AncestorFirst order ∧ ∀ c, c ∈ order ↔ c ∈ g.classes := by
  have hplaced : g.AncestorFirst order ∧ g.classes ⊆ order := by
    refine ancestryOrder_induction (P := fun done placed => g.AncestorFirst placed ∧ done ⊆ placed)
      ⟨.nil, List.Subset.refl _⟩ ?_ h
    rintro done c rest placed order hclasses ⟨hfirst, hsub⟩ hplace
    obtain ⟨horder, hc, hkept⟩ := place_ok hfirst (by simp [hclasses]) hplace
    exact ⟨horder, List.append_subset.mpr ⟨fun x hx => hkept (hsub hx), by simpa using hc⟩⟩
  exact ⟨hplaced.1, fun c => ⟨hplaced.1.listed c, fun hc => hplaced.2 hc⟩⟩

/-! ## What can be wrong with the order -/

/-- Listed classes each extending the next, the first one again at the end. -/
structure Cycle (g : ClassGraph) (cycle : List ClassId) : Prop where
  closed : ∃ c between, cycle = c :: between ++ [c]
  links : cycle.IsChain g.Extends
  listed : ∀ c ∈ cycle, c ∈ g.classes

theorem Cycle.exists_own_ancestor {cycle : List ClassId} (h : g.Cycle cycle) :
    ∃ c ∈ g.classes, Relation.TransGen g.Extends c c := by
  obtain ⟨c, between, rfl⟩ := h.closed
  refine ⟨c, h.listed c (by simp), ?_⟩
  have hlinks := h.links
  rw [List.cons_append, List.isChain_cons] at hlinks
  obtain ⟨hfirst, hrest⟩ := hlinks
  cases between with
  | nil => exact .single (hfirst c rfl)
  | cons s between =>
      refine Relation.TransGen.head' (hfirst s rfl) ?_
      exact List.relationReflTransGen_of_exists_isChain_cons (between ++ [c]) hrest (by simp)

theorem dropWhile_ne_eq_cons {c : ClassId} {l : List ClassId} (h : c ∈ l) :
    ∃ rest, l.dropWhile (· ≠ c) = c :: rest := by
  induction l with
  | nil => simp at h
  | cons x l ih =>
      by_cases hx : x = c
      · exact ⟨l, by simp [hx]⟩
      · obtain ⟨rest, hrest⟩ := ih ((List.mem_cons.mp h).resolve_left (Ne.symm hx))
        exact ⟨rest, by rw [List.dropWhile_cons_of_pos (by simpa using hx), hrest]⟩

/-- A walk that comes to a class it has passed has found a cycle. -/
theorem Climbing.cycle {placed path : List ClassId} {c : ClassId}
    (h : g.Climbing placed (some c) path) (hc : c ∈ path) :
    g.Cycle (path.reverse.dropWhile (· ≠ c) ++ [c]) := by
  have hsuffix := List.dropWhile_suffix (l := path.reverse) (· ≠ c)
  refine ⟨?_, ?_, ?_⟩
  · obtain ⟨rest, hrest⟩ := dropWhile_ne_eq_cons (List.mem_reverse.mpr hc)
    exact ⟨c, rest, by rw [hrest]⟩
  · refine h.isChain.suffix ?_
    obtain ⟨before, hbefore⟩ := hsuffix
    exact ⟨before, by rw [← List.append_assoc, hbefore]; rfl⟩
  · intro x hx
    rcases List.mem_append.mp hx with hx | hx
    · exact h.path_mem x (List.mem_reverse.mp (hsuffix.subset hx))
    · rw [List.mem_singleton.mp hx]
      exact h.next_mem c rfl

/-- A walk fails where it comes to a class it has passed, or where a listed class fails a check. -/
theorem climb_error {placed : List ClassId} {e : SchemaFault} : ∀ {steps : Nat}
    {path : List ClassId} {next : Option ClassId}, g.Climbing placed next path →
    g.climb placed steps path next = .error e →
    (∃ c passed, g.Climbing placed (some c) passed ∧ c ∈ passed ∧
      e = .cyclicAncestry ((passed.reverse.dropWhile (· ≠ c) ++ [c]).map g.fullName)) ∨
      ∃ c ∈ g.classes, g.checkEnclosing c = .error e ∨ g.checkExtension c = .error e := by
  intro steps
  induction steps with
  | zero =>
      intro path next _ h
      simp [climb] at h
  | succ steps ih =>
      intro path next hclimb h
      cases next with
      | none => simp at h
      | some c =>
          have hc := hclimb.next_mem c rfl
          rw [climb_some] at h
          by_cases hplaced : c ∈ placed
          · simp [hplaced] at h
          · rw [if_neg hplaced] at h
            by_cases hpath : c ∈ path
            · rw [if_pos hpath] at h
              exact Or.inl ⟨c, path, hclimb, hpath, (Except.error.inj h).symm⟩
            · rw [if_neg hpath, bind_eq_error] at h
              rcases h with h | ⟨⟨⟩, he, h⟩
              · exact Or.inr ⟨c, hc, Or.inl h⟩
              · rcases bind_eq_error.mp h with h | ⟨⟨⟩, hx, h⟩
                · exact Or.inr ⟨c, hc, Or.inr h⟩
                · exact ih (hclimb.up hplaced hpath he hx) h

/-- The order fails where the walk up from some class does. -/
theorem ancestryOrder_stops {e : SchemaFault} (h : g.ancestryOrder = .error e) :
    (∃ placed c passed, g.Climbing placed (some c) passed ∧ c ∈ passed ∧
      e = .cyclicAncestry ((passed.reverse.dropWhile (· ≠ c) ++ [c]).map g.fullName)) ∨
      ∃ c ∈ g.classes, g.checkEnclosing c = .error e ∨ g.checkExtension c = .error e := by
  have hfold : ∀ (cs : List ClassId), cs ⊆ g.classes → ∀ placed,
      cs.foldlM g.place placed = .error e → ∃ c ∈ cs, ∃ before, g.place before c = .error e := by
    intro cs
    induction cs with
    | nil => simp
    | cons c cs ih =>
        intro hcs placed h
        rw [List.foldlM_cons] at h
        rcases bind_eq_error.mp h with h | ⟨middle, _, h⟩
        · exact ⟨c, by simp, placed, h⟩
        · obtain ⟨x, hx, before, hbefore⟩ := ih (fun x hx => hcs (by simp [hx])) middle h
          exact ⟨x, by simp [hx], before, hbefore⟩
  obtain ⟨c, hc, before, hbefore⟩ := hfold g.classes (List.Subset.refl _) [] h
  exact (climb_error (.start hc) (map_eq_error.mp hbefore)).imp_left fun h => ⟨before, h⟩

theorem ancestryOrder_error {e : SchemaFault} (h : g.ancestryOrder = .error e) :
    (∃ cycle, g.Cycle cycle ∧ e = .cyclicAncestry (cycle.map g.fullName)) ∨
      ∃ c ∈ g.classes, g.checkEnclosing c = .error e ∨ g.checkExtension c = .error e := by
  refine (ancestryOrder_stops h).imp_left ?_
  rintro ⟨placed, c, passed, hclimb, hc, rfl⟩
  exact ⟨_, hclimb.cycle hc, rfl⟩

end RecordGen.ClassGraph

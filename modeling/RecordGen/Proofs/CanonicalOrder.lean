import Mathlib.Data.List.TakeWhile
import Mathlib.Data.Prod.Lex
import RecordGen.Proofs.AncestryWalks
import RecordGen.Proofs.FreshNames

/-! # The ancestor-first order is a sort

A class gets its place when the first class that leads up to it is placed, and the ancestors that
get theirs with it stand before it. So the order is the one by these two numbers. Nothing moves
where superclasses are listed first. -/

namespace RecordGen.ClassGraph

open Fallible

variable {g : ClassGraph} {done placed order rest l : List ClassId} {c d x : ClassId}

/-! ## Ranks -/

/-- A class leads up to itself and to its ancestors. -/
def LeadsTo (g : ClassGraph) (d c : ClassId) : Prop :=
  d = c ∨ c ∈ g.ancestors d

instance (g : ClassGraph) (d c : ClassId) : Decidable (g.LeadsTo d c) :=
  inferInstanceAs (Decidable (_ ∨ _))

/-- The position of the first listed class that leads up to a class. -/
def reachedAt (g : ClassGraph) (c : ClassId) : Nat :=
  g.classes.findIdx fun d => g.LeadsTo d c

/-- The rank of a class: where it is reached, and below how many ancestors it stands. -/
def rank (g : ClassGraph) (c : ClassId) : Nat ×ₗ Nat :=
  toLex (g.reachedAt c, (g.ancestors c).length)

/-- Every superclass stands before the classes that extend it. -/
def SuperclassFirst (g : ClassGraph) (cs : List ClassId) : Prop :=
  ∀ pre c post, cs = pre ++ c :: post → ∀ s, g.Extends c s → s ∈ pre

theorem Above.leadsTo_iff (h : g.Above c l) : g.LeadsTo c x ↔ x ∈ c :: l := by
  rw [LeadsTo, h.ancestors_eq, List.mem_cons, eq_comm]

/-- On the way up, the number of further ancestors shrinks. -/
theorem Above.pairwise_length (h : g.Above c l) :
    (c :: l).Pairwise fun a b => (g.ancestors b).length < (g.ancestors a).length := by
  induction h with
  | root => exact List.pairwise_singleton _ _
  | @step c s l hs h ih =>
      refine List.pairwise_cons.mpr ⟨fun b hb => ?_, ih⟩
      rw [(Above.step hs h).ancestors_eq]
      obtain ⟨nearer, above, hl, habove⟩ := (Above.step hs h).drop hb
      rw [habove.ancestors_eq, hl]
      simp only [List.length_append, List.length_cons]
      omega

theorem reachedAt_lt (hclasses : g.classes = done ++ rest) (hx : ∃ d ∈ done, g.LeadsTo d x) :
    g.reachedAt x < done.length := by
  have hlt : done.findIdx (fun d => g.LeadsTo d x) < done.length :=
    List.findIdx_lt_length.mpr (by simpa using hx)
  rwa [reachedAt, hclasses, List.findIdx_append, if_pos hlt]

theorem reachedAt_eq (hclasses : g.classes = done ++ c :: rest)
    (hx : ¬∃ d ∈ done, g.LeadsTo d x) (hc : g.LeadsTo c x) : g.reachedAt x = done.length := by
  have hge : ¬done.findIdx (fun d => g.LeadsTo d x) < done.length := by
    rw [List.findIdx_lt_length]
    simpa using hx
  rw [reachedAt, hclasses, List.findIdx_append, if_neg hge, List.findIdx_cons]
  simp [hc]

/-! ## What one class adds -/

/-- A walk that ends has passed the part of the chain below the first placed class. -/
theorem Ascent.path_eq (hl : g.Above c l) : ∀ {path out : List ClassId},
    g.Ascent placed path (some c) (.ok out) →
    out = ((c :: l).takeWhile (· ∉ placed)).reverse ++ path := by
  induction hl with
  | root hc =>
      intro path out h
      cases h with
      | met hplaced => simp [hplaced]
      | up hplaced _ _ _ h =>
          rw [hc] at h
          cases h
          simp [hplaced]
  | step hs _ ih =>
      intro path out h
      cases h with
      | met hplaced => simp [hplaced]
      | up hplaced _ _ _ h =>
          rw [hs] at h
          simp [hplaced, ih h]

/-- A class is placed together with its ancestors up to the first placed one, topmost first. -/
theorem place_eq (hc : c ∈ g.classes) (hl : g.Above c l) (h : g.place placed c = .ok order) :
    order = placed ++ ((c :: l).takeWhile (· ∉ placed)).reverse := by
  obtain ⟨path, hpath, rfl⟩ := map_eq_ok.mp h
  rw [((ascent_iff hc).mpr hpath).path_eq hl, List.append_nil]

/-- Placing a class adds it and its ancestors, no others. -/
theorem place_mem_iff (hplaced : g.AncestorFirst placed) (hc : c ∈ g.classes)
    (h : g.place placed c = .ok order) : x ∈ order ↔ x ∈ placed ∨ g.LeadsTo c x := by
  obtain ⟨hfirst, hmem, hsub⟩ := place_ok hplaced hc h
  obtain ⟨l, hl, hchain⟩ := hfirst.above c hmem
  rw [hl.leadsTo_iff]
  constructor
  · intro hx
    rw [place_eq hc hl h] at hx
    refine (List.mem_append.mp hx).imp_right fun hx => ?_
    exact (List.takeWhile_sublist _).subset (List.mem_reverse.mp hx)
  · rintro (hx | hx)
    · exact hsub hx
    · exact hchain x hx

/-! ## The order by rank -/

/-- The classes placed once those of `done` are: these and their ancestors, by rank. -/
structure Ranked (g : ClassGraph) (done placed : List ClassId) : Prop where
  first : g.AncestorFirst placed
  mem_iff : ∀ x, x ∈ placed ↔ ∃ d ∈ done, g.LeadsTo d x
  sorted : placed.Pairwise (g.rank · < g.rank ·)

theorem Ranked.place (hclasses : g.classes = done ++ c :: rest) (h : g.Ranked done placed)
    (hplace : g.place placed c = .ok order) : g.Ranked (done ++ [c]) order := by
  have hc : c ∈ g.classes := by simp [hclasses]
  obtain ⟨hfirst, hmem, -⟩ := place_ok h.first hc hplace
  refine ⟨hfirst, fun x => ?_, ?_⟩
  · rw [place_mem_iff h.first hc hplace, h.mem_iff]
    simp [or_and_right, exists_or]
  obtain ⟨l, hl, -⟩ := hfirst.above c hmem
  obtain rfl := place_eq hc hl hplace
  -- the classes that are new are reached at `c`, the others before it
  have hnew : ∀ x ∈ (c :: l).takeWhile (· ∉ placed), g.reachedAt x = done.length := by
    intro x hx
    have hfresh : x ∉ placed := by simpa using List.mem_takeWhile_imp hx
    rw [h.mem_iff] at hfresh
    exact reachedAt_eq hclasses hfresh (hl.leadsTo_iff.mpr ((List.takeWhile_sublist _).subset hx))
  have hold : ∀ x ∈ placed, g.reachedAt x < done.length :=
    fun x hx => reachedAt_lt hclasses ((h.mem_iff x).mp hx)
  refine List.pairwise_append.mpr ⟨h.sorted, ?_, fun x hx y hy => ?_⟩
  · rw [List.pairwise_reverse]
    refine (hl.pairwise_length.sublist (List.takeWhile_sublist _)).imp_of_mem ?_
    intro a b ha hb hlt
    exact Prod.Lex.toLex_lt_toLex.mpr (.inr ⟨(hnew b hb).trans (hnew a ha).symm, hlt⟩)
  · refine Prod.Lex.toLex_lt_toLex.mpr (.inl ?_)
    exact (hold x hx).trans_eq (hnew y (List.mem_reverse.mp hy)).symm

theorem ranked_ancestryOrder (h : g.ancestryOrder = .ok order) : g.Ranked g.classes order :=
  ancestryOrder_induction ⟨.nil, by simp, .nil⟩
    (fun _ _ _ _ _ hclasses hranked hplace => hranked.place hclasses hplace) h

/-- Classes that are sorted strictly by rank are what sorting them by rank gives. -/
theorem mergeSort_rank_eq {cs : List ClassId} (hmem : ∀ x, x ∈ cs ↔ x ∈ order)
    (hsorted : order.Pairwise (g.rank · < g.rank ·)) :
    cs.eraseDups.mergeSort (fun a b => decide (g.rank a ≤ g.rank b)) = order := by
  have hranks : (order.map g.rank).Nodup := List.pairwise_map.mpr (hsorted.imp fun h => h.ne)
  have hsort : (cs.eraseDups.mergeSort fun a b => decide (g.rank a ≤ g.rank b)).Pairwise
      (g.rank · ≤ g.rank ·) := by
    refine (List.pairwise_mergeSort ?_ ?_ _).imp fun h => by simpa using h
    · intro a b c hab hbc
      simp only [decide_eq_true_eq] at hab hbc ⊢
      exact hab.trans hbc
    · intro a b
      simpa using le_total (g.rank a) (g.rank b)
  refine List.Perm.eq_of_pairwise ?_ hsort (hsorted.imp fun h => h.le) ?_
  · intro a b ha hb hab hba
    have ha : a ∈ order := by
      rwa [List.mem_mergeSort, List.mem_eraseDups, hmem] at ha
    exact List.inj_on_of_nodup_map hranks ha hb (hab.antisymm hba)
  · refine (List.mergeSort_perm _ _).trans ?_
    rw [List.perm_ext_iff_of_nodup (nodup_eraseDups cs) hranks.of_map]
    simpa using hmem

/-! ## The declaration order -/

theorem eraseDups_concat (cs : List ClassId) (c : ClassId) :
    (cs ++ [c]).eraseDups = if c ∈ cs then cs.eraseDups else cs.eraseDups ++ [c] := by
  rw [List.eraseDups_append]
  split_ifs with hc <;> simp [List.removeAll, hc, List.eraseDups_cons]

/-- A class whose superclass is placed is placed alone. -/
theorem place_superclassFirst (hc : c ∈ g.classes) (hl : g.Above c l)
    (hsuper : ∀ s, g.Extends c s → s ∈ placed) (h : g.place placed c = .ok order) :
    order = if c ∈ placed then placed else placed ++ [c] := by
  rw [place_eq hc hl h]
  split_ifs with hplaced
  · simp [hplaced]
  · cases hl with
    | root => simp [hplaced]
    | step hs _ => simp [hplaced, hsuper _ hs]

/-- Nothing moves where superclasses are listed first. -/
theorem ancestryOrder_eq_eraseDups (hsuper : g.SuperclassFirst g.classes)
    (h : g.ancestryOrder = .ok order) : order = g.classes.eraseDups := by
  obtain ⟨hfirst, hlisted⟩ := ancestryOrder_ok h
  refine ancestryOrder_induction (P := fun done placed => placed = done.eraseDups) rfl ?_ h
  rintro done c rest placed out hclasses rfl hplace
  have hc : c ∈ g.classes := by simp [hclasses]
  obtain ⟨l, hl, -⟩ := hfirst.above c ((hlisted c).mpr hc)
  have hdone : ∀ s, g.Extends c s → s ∈ done.eraseDups :=
    fun s hs => List.mem_eraseDups.mpr (hsuper done c rest hclasses s hs)
  rw [place_superclassFirst hc hl hdone hplace, eraseDups_concat]
  simp only [List.mem_eraseDups]

/-- The order holds the listed classes, each once and after its superclass, and is the one by rank.
Where superclasses are listed first it is the declaration order. -/
theorem ancestryOrder_canonical (h : g.ancestryOrder = .ok order) :
    (∀ c, c ∈ order ↔ c ∈ g.classes) ∧ order.Nodup ∧ g.SuperclassFirst order ∧
      order.Pairwise (g.rank · < g.rank ·) ∧
      order = g.classes.eraseDups.mergeSort (fun a b => decide (g.rank a ≤ g.rank b)) ∧
      (g.SuperclassFirst g.classes →
        order = g.classes.eraseDups ∧ (g.classes.Nodup → order = g.classes)) := by
  obtain ⟨hfirst, hlisted⟩ := ancestryOrder_ok h
  have hsorted := (ranked_ancestryOrder h).sorted
  refine ⟨hlisted, hfirst.nodup, ?_, hsorted, ?_, fun hsuper => ?_⟩
  · rintro pre c post rfl
    exact hfirst.before.2
  · exact (mergeSort_rank_eq (fun c => (hlisted c).symm) hsorted).symm
  · have horder := ancestryOrder_eq_eraseDups hsuper h
    exact ⟨horder, fun hnodup => horder.trans (eraseDups_of_nodup hnodup)⟩

/-- Two trees listed from their leaves, one of the leaves twice. -/
def scattered : ClassGraph where
  decls := [
    { name := "m", isModule := true, moduleName := "m" },
    { name := "Root", kind := .abstract, moduleName := "m" },
    { name := "Branch", kind := .extensible, superclass := some 1, moduleName := "m" },
    { name := "Leaf", superclass := some 2, moduleName := "m" },
    { name := "Trunk", kind := .abstract, moduleName := "m" },
    { name := "Bud", superclass := some 2, moduleName := "m" },
    { name := "Twig", superclass := some 4, moduleName := "m" }]
  modules := [0]
  classes := [3, 0, 6, 5, 2, 1, 4, 3]

theorem ancestryOrder_canonical_scattered :
    let order := [1, 2, 3, 0, 4, 6, 5]
    let settled := { scattered with classes := order }
    scattered.ancestryOrder = .ok order ∧ order.Pairwise (scattered.rank · < scattered.rank ·) ∧
      order = scattered.classes.eraseDups.mergeSort
        (fun a b => decide (scattered.rank a ≤ scattered.rank b)) ∧
      settled.SuperclassFirst settled.classes ∧ settled.classes.Nodup ∧
      ∃ out, settled.ancestryOrder = .ok out ∧ out = settled.classes := by
  intro order settled
  have horder : scattered.ancestryOrder = .ok order := by decide
  have hsettled : settled.ancestryOrder = .ok order := by decide
  obtain ⟨-, hnodup, hsuper, hsorted, hsort, -⟩ := ancestryOrder_canonical horder
  obtain ⟨-, -, -, -, -, hdeclared⟩ := ancestryOrder_canonical hsettled
  exact ⟨horder, hsorted, hsort, hsuper, hnodup, order, hsettled, (hdeclared hsuper).2 hnodup⟩

end RecordGen.ClassGraph

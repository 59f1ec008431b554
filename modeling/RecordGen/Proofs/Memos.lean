import RecordGen.Proofs.Resolving
import RecordGen.Session

/-! # Remembered results are those of a new computation

A memo is sound if each of its entries is what would be computed without it. Looking a class up
walks down from the nearest remembered class of its chain, and so does the same as computing the
class from its superclass; every step of that walk keeps the memos sound, also one that fails. -/

namespace RecordGen

open Fallible ClassGraph

/-! ## Splitting a chain -/

section SplitChain

variable {β : Type} {known : ClassId → Option β} {c : ClassId} {path : List ClassId}

@[simp] theorem splitChain_nil : splitChain known [] = ([], none) := rfl

theorem splitChain_known {v : β} (h : known c = some v) :
    splitChain known (c :: path) = ([], some v) := by
  simp [splitChain, h]

theorem splitChain_missing (h : known c = none) : splitChain known (c :: path) =
    ((splitChain known path).1 ++ [c], (splitChain known path).2) := by
  simp [splitChain, h]

end SplitChain

/-! ## Remembered flattenings -/

/-- Every remembered flattening is that of the class in the graph of its load; `graphs` holds the
graphs in the order of their loads. -/
def SoundFlattenings (graphs : List ClassGraph) (memo : FlatMemo) : Prop :=
  ∀ id c ps, memo.find? (id, c) = some ps → ∃ g, graphs[id]? = some g ∧ g.flatten c = .ok ps

variable {graphs : List ClassGraph} {l : Loaded} {names : Naming}

theorem SoundFlattenings.insert {memo : FlatMemo} (h : SoundFlattenings graphs memo) {id : Nat}
    {g : ClassGraph} (hg : graphs[id]? = some g) {c : ClassId} {ps : List Declared}
    (hps : g.flatten c = .ok ps) : SoundFlattenings graphs (memo.insert (id, c) ps) := by
  intro id' c' ps' hfind
  rw [Table.find?_insert] at hfind
  split at hfind
  · rename_i heq
    obtain ⟨rfl, rfl⟩ := Prod.mk.inj heq
    exact ⟨g, hg, Option.some.inj hfind ▸ hps⟩
  · exact h id' c' ps' hfind

theorem flattenDown_snoc (cs : List ClassId) (c : ClassId) :
    ∀ (above : List Declared) (memo : FlatMemo), flattenDown l (cs ++ [c]) above memo =
      match flattenDown l cs above memo with
      | (.error e, memo) => (.error e, memo)
      | (.ok ps, memo) => flattenDown l [c] ps memo := by
  induction cs with
  | nil => intro above memo; rfl
  | cons d cs ih =>
      intro above memo
      rw [List.cons_append, flattenDown, flattenDown]
      cases l.graph.extend above d with
      | error e => rfl
      | ok ps => exact ih ps _

theorem flattenClass_known {c : ClassId} {memo : FlatMemo} {ps : List Declared}
    (h : memo.find? (l.id, c) = some ps) : flattenClass l c memo = (.ok ps, memo) := by
  simp [flattenClass, @splitChain_known _ (fun d => memo.find? (l.id, d)) _ _ _ h, flattenDown]

theorem flattenClass_root {c : ClassId} {memo : FlatMemo} (h : memo.find? (l.id, c) = none)
    (hc : (l.graph.decl c).superclass = none) :
    flattenClass l c memo = flattenDown l [c] [] memo := by
  simp [flattenClass, (Above.root hc).ancestors_eq,
    @splitChain_missing _ (fun d => memo.find? (l.id, d)) _ _ h]

theorem flattenClass_step {c s : ClassId} {above : List ClassId} {memo : FlatMemo}
    (h : memo.find? (l.id, c) = none) (hs : l.graph.Extends c s) (hl : l.graph.Above s above) :
    flattenClass l c memo =
      match flattenClass l s memo with
      | (.error e, memo) => (.error e, memo)
      | (.ok ps, memo) => flattenDown l [c] ps memo := by
  simp only [flattenClass, (Above.step hs hl).ancestors_eq, hl.ancestors_eq,
    @splitChain_missing _ (fun d => memo.find? (l.id, d)) _ _ h, flattenDown_snoc]

/-- A condition on memos which makes the entry of a class with a chain its flattening, and which
lasts when such an entry is added. -/
structure KeepsFlattenings (l : Loaded) (sound : FlatMemo → Prop) : Prop where
  found : ∀ {memo c chain ps}, sound memo → l.graph.Above c chain →
    memo.find? (l.id, c) = some ps → l.graph.flatten c = .ok ps
  added : ∀ {memo c chain ps}, sound memo → l.graph.Above c chain →
    l.graph.flatten c = .ok ps → sound (memo.insert (l.id, c) ps)

/-- What is remembered of a class of a loaded graph is its flattening. -/
theorem SoundFlattenings.keeps (hg : graphs[l.id]? = some l.graph) :
    KeepsFlattenings l (SoundFlattenings graphs) where
  found := by
    intro memo c chain ps hm _ hfind
    obtain ⟨g, hloaded, hflat⟩ := hm l.id c ps hfind
    rwa [Option.some.inj (hg.symm.trans hloaded)]
  added hm _ hflat := hm.insert hg hflat

section

variable {sound : FlatMemo → Prop} {c : ClassId} {chain : List ClassId}

/-- A class below what its superclass flattens to. -/
theorem flattenDown_singleton (hkeeps : KeepsFlattenings l sound) (hl : l.graph.Above c chain)
    {above : List Declared} {memo : FlatMemo} (hm : sound memo)
    (hflat : l.graph.flatten c = l.graph.extend above c) :
    (flattenDown l [c] above memo).1 = l.graph.flatten c ∧
      sound (flattenDown l [c] above memo).2 := by
  rw [flattenDown, hflat]
  cases hextend : l.graph.extend above c with
  | error e => exact ⟨rfl, hm⟩
  | ok ps => exact ⟨rfl, hkeeps.added hm hl (hflat.trans hextend)⟩

/-- Flattening with the help of a sound memo gives what flattening gives, and keeps the memo
sound. -/
theorem flattenClass_keeps (hkeeps : KeepsFlattenings l sound) (hl : l.graph.Above c chain) :
    ∀ {memo : FlatMemo}, sound memo →
      (flattenClass l c memo).1 = l.graph.flatten c ∧ sound (flattenClass l c memo).2 := by
  have hknown : ∀ {c : ClassId} {chain : List ClassId} {memo : FlatMemo} {ps : List Declared},
      l.graph.Above c chain → sound memo → memo.find? (l.id, c) = some ps →
      (flattenClass l c memo).1 = l.graph.flatten c ∧ sound (flattenClass l c memo).2 := by
    intro c chain memo ps hl hm hfind
    rw [flattenClass_known hfind]
    exact ⟨(hkeeps.found hm hl hfind).symm, hm⟩
  induction hl with
  | @root c hc =>
      intro memo hm
      cases hfind : memo.find? (l.id, c) with
      | some ps => exact hknown (.root hc) hm hfind
      | none =>
          rw [flattenClass_root hfind hc]
          exact flattenDown_singleton hkeeps (.root hc) hm (flatten_root hc)
  | @step c s chain hs hl ih =>
      intro memo hm
      cases hfind : memo.find? (l.id, c) with
      | some ps => exact hknown (.step hs hl) hm hfind
      | none =>
          obtain ⟨hsuper, hm'⟩ := ih hm
          have hflat := flatten_step hs hl
          rw [← hsuper] at hflat
          rw [flattenClass_step hfind hs hl]
          -- The superclass may fail: then the class fails alike and the memo keeps what it got.
          cases hres : flattenClass l s memo with
          | mk result memo' =>
              rw [hres] at hflat hm'
              cases result with
              | error e => exact ⟨hflat.symm, hm'⟩
              | ok ps => exact flattenDown_singleton hkeeps (.step hs hl) hm' hflat

theorem flattenClass_spec (hg : graphs[l.id]? = some l.graph) (hl : l.graph.Above c chain)
    {memo : FlatMemo} (hm : SoundFlattenings graphs memo) :
    (flattenClass l c memo).1 = l.graph.flatten c ∧
      SoundFlattenings graphs (flattenClass l c memo).2 :=
  flattenClass_keeps (SoundFlattenings.keeps hg) hl hm

end

/-! ## Remembered resolutions -/

/-- Every remembered resolution and flattening is what a new computation gives. -/
structure Memos.Sound (graphs : List ClassGraph) (l : Loaded) (names : Naming) (memos : Memos) :
    Prop where
  resolved : ∀ c r, memos.resolved.find? c = some r → l.graph.resolveClass names c = .ok r
  flattened : SoundFlattenings graphs memos.flattened

theorem resolveDown_cons (c : ClassId) (cs : List ClassId) (above : Option Resolution)
    (memos : Memos) : resolveDown l names (c :: cs) above memos =
      match (flattenClass l c memos.flattened).1.bind
        (Resolution.ofClass l.graph names above c) with
      | .error e => (.error e, ⟨memos.resolved, (flattenClass l c memos.flattened).2⟩)
      | .ok r => resolveDown l names cs (some r)
          ⟨memos.resolved.insert c r, (flattenClass l c memos.flattened).2⟩ := rfl

theorem resolveDown_snoc (cs : List ClassId) (s c : ClassId) :
    ∀ (above : Option Resolution) (memos : Memos),
      resolveDown l names (cs ++ [s] ++ [c]) above memos =
        match resolveDown l names (cs ++ [s]) above memos with
        | (.error e, memos) => (.error e, memos)
        | (.ok (), memos) => resolveDown l names [c] (memos.resolved.find? s) memos := by
  induction cs with
  | nil =>
      intro above memos
      simp only [List.nil_append, List.cons_append]
      rw [resolveDown_cons s [c], resolveDown_cons s []]
      cases (flattenClass l s memos.flattened).1.bind
        (Resolution.ofClass l.graph names above s) with
      | error e => rfl
      | ok r => simp [resolveDown]
  | cons d cs ih =>
      intro above memos
      simp only [List.cons_append]
      rw [resolveDown_cons d, resolveDown_cons d]
      cases (flattenClass l d memos.flattened).1.bind
        (Resolution.ofClass l.graph names above d) with
      | error e => rfl
      | ok r => exact ih _ _

theorem resolveRemembered_known {c : ClassId} {memos : Memos} {r : Resolution}
    (h : memos.resolved.find? c = some r) :
    resolveRemembered l names c memos = (.ok (), memos) := by
  simp [resolveRemembered, splitChain_known h, resolveDown]

theorem resolveRemembered_root {c : ClassId} {memos : Memos} (h : memos.resolved.find? c = none)
    (hc : (l.graph.decl c).superclass = none) :
    resolveRemembered l names c memos = resolveDown l names [c] none memos := by
  simp [resolveRemembered, (Above.root hc).ancestors_eq, splitChain_missing h]

theorem resolveRemembered_step {c s : ClassId} {above : List ClassId} {memos : Memos}
    (h : memos.resolved.find? c = none) (hs : l.graph.Extends c s)
    (hl : l.graph.Above s above) : resolveRemembered l names c memos =
      match resolveRemembered l names s memos with
      | (.error e, memos) => (.error e, memos)
      | (.ok (), memos) => resolveDown l names [c] (memos.resolved.find? s) memos := by
  simp only [resolveRemembered, (Above.step hs hl).ancestors_eq, hl.ancestors_eq,
    splitChain_missing h]
  cases hfind : memos.resolved.find? s with
  | some r => simp [splitChain_known hfind, resolveDown, hfind]
  | none =>
      rw [splitChain_missing hfind]
      exact resolveDown_snoc _ s c _ memos

/-- What resolving a list of classes comes to. -/
def outcomeOf (l : Loaded) (names : Naming) (cs : List ClassId) : Except SchemaFault Unit :=
  (fun _ => ()) <$> cs.mapM (l.graph.resolveClass names)

theorem outcomeOf_singleton (c : ClassId) :
    outcomeOf l names [c] = (fun _ => ()) <$> l.graph.resolveClass names c := by
  cases h : l.graph.resolveClass names c <;> simp [outcomeOf, h]

theorem outcomeOf_append (cs ds : List ClassId) :
    outcomeOf l names (cs ++ ds) = outcomeOf l names cs >>= fun _ => outcomeOf l names ds := by
  simp only [outcomeOf, List.mapM_append]
  cases cs.mapM (l.graph.resolveClass names) <;>
    cases ds.mapM (l.graph.resolveClass names) <;> simp

theorem outcomeOf_flatten (ts : List (List ClassId)) :
    outcomeOf l names ts.flatten = ts.forM (outcomeOf l names) := by
  induction ts with
  | nil => rfl
  | cons t ts ih =>
      rw [List.flatten_cons, outcomeOf_append, ih]
      rfl

/-- What a walk over classes does to the memos: it ends as resolving these classes does, and every
class it has resolved is remembered. -/
structure Remembers (graphs : List ClassGraph) (l : Loaded) (names : Naming) (cs : List ClassId)
    (before : Memos) (result : Except SchemaFault Unit × Memos) : Prop where
  outcome : result.1 = outcomeOf l names cs
  sound : result.2.Sound graphs l names
  keeps : ∀ c r, before.resolved.find? c = some r → result.2.resolved.find? c = some r
  found : result.1 = .ok () → ∀ c ∈ cs, ∃ r, result.2.resolved.find? c = some r

/-- A class below what its superclass became. -/
theorem resolveDown_singleton (hg : graphs[l.id]? = some l.graph) {c : ClassId}
    {chain : List ClassId} (hl : l.graph.Above c chain) {above : Option Resolution} {memos : Memos}
    (hm : memos.Sound graphs l names)
    (habove : l.graph.resolveClass names c =
      l.graph.flatten c >>= Resolution.ofClass l.graph names above c) :
    Remembers graphs l names [c] memos (resolveDown l names [c] above memos) := by
  obtain ⟨hflat, hflattened⟩ := flattenClass_spec hg hl hm.flattened
  rw [resolveDown_cons, hflat]
  change l.graph.resolveClass names c = (l.graph.flatten c).bind _ at habove
  rw [← habove]
  cases hres : l.graph.resolveClass names c with
  | error e =>
      refine ⟨by simp [hres, outcomeOf_singleton], ⟨hm.resolved, hflattened⟩, ?_, by simp⟩
      exact fun _ _ h => h
  | ok r =>
      refine ⟨by simp [hres, resolveDown, outcomeOf_singleton], ⟨?_, hflattened⟩, ?_, ?_⟩
      · intro d r' hfind
        simp only [resolveDown, Table.find?_insert] at hfind
        split at hfind
        · rename_i heq
          obtain rfl := heq
          rw [hres, Option.some.inj hfind]
        · exact hm.resolved d r' hfind
      · intro d r' hfind
        simp only [resolveDown, Table.find?_insert]
        split
        · rename_i heq
          obtain rfl := heq
          have hsame := hm.resolved c r' hfind
          rw [hres] at hsame
          rw [Except.ok.inj hsame]
        · exact hfind
      · intro _ d hd
        rw [List.mem_singleton.mp hd]
        exact ⟨r, by simp [resolveDown]⟩

/-- A class that is remembered already. -/
theorem Memos.Sound.remembers {c : ClassId} {memos : Memos} {r : Resolution}
    (hm : memos.Sound graphs l names) (hfind : memos.resolved.find? c = some r) :
    Remembers graphs l names [c] memos (resolveRemembered l names c memos) := by
  rw [resolveRemembered_known hfind]
  refine ⟨by simp [hm.resolved c r hfind, outcomeOf_singleton], hm, fun _ _ h => h, ?_⟩
  intro _ d hd
  exact ⟨r, List.mem_singleton.mp hd ▸ hfind⟩

theorem resolveClass_below {g : ClassGraph} {c s : ClassId} {chain : List ClassId}
    (hs : g.Extends c s) (hl : g.Above s chain) {r : Resolution}
    (hsuper : g.resolveClass names s = .ok r) :
    g.resolveClass names c = g.flatten c >>= Resolution.ofClass g names (some r) c := by
  rw [resolveClass_step names hs hl, hsuper, flatten_step hs hl,
    Resolution.flatten_of_ok hl hsuper]
  rfl

/-- Resolving a class with the help of sound memos gives what resolving it gives. -/
theorem resolveRemembered_spec (hg : graphs[l.id]? = some l.graph) {c : ClassId}
    {chain : List ClassId} (hl : l.graph.Above c chain) :
    ∀ {memos : Memos}, memos.Sound graphs l names →
      Remembers graphs l names [c] memos (resolveRemembered l names c memos) := by
  induction hl with
  | @root c hc =>
      intro memos hm
      cases hfind : memos.resolved.find? c with
      | some r => exact hm.remembers hfind
      | none =>
          rw [resolveRemembered_root hfind hc]
          refine resolveDown_singleton hg (.root hc) hm ?_
          rw [resolveClass_root names hc, flatten_root hc]
          rfl
  | @step c s chain hs hl ih =>
      intro memos hm
      cases hfind : memos.resolved.find? c with
      | some r => exact hm.remembers hfind
      | none =>
          rw [resolveRemembered_step hfind hs hl]
          obtain ⟨houtcome, hsound, hkeeps, hfound⟩ := ih hm
          cases hres : resolveRemembered l names s memos with
          | mk result memos' =>
              rw [hres] at houtcome hsound hkeeps hfound
              cases result with
              | error e =>
                  refine ⟨?_, hsound, hkeeps, by simp⟩
                  rw [outcomeOf_singleton, eq_comm, map_eq_error] at houtcome
                  simp [outcomeOf_singleton, resolveClass_step names hs hl, houtcome]
              | ok _ =>
                  -- The walk has just remembered the superclass, and goes on from there.
                  obtain ⟨r, hr⟩ : ∃ r, memos'.resolved.find? s = some r := hfound rfl s (by simp)
                  have hbelow := resolveClass_below hs hl (hsound.resolved s r hr)
                  obtain ⟨houtcome', hsound', hkeeps', hfound'⟩ :=
                    resolveDown_singleton hg (.step hs hl) hsound hbelow
                  show Remembers graphs l names [c] memos
                    (resolveDown l names [c] (memos'.resolved.find? s) memos')
                  rw [hr]
                  exact ⟨houtcome', hsound', fun d r' h => hkeeps' d r' (hkeeps d r' h), hfound'⟩

/-! ## Lists of classes -/

namespace Remembers

variable {cs ds : List ClassId} {before middle after : Memos}

/-- A walk that fails fails on every longer list. -/
theorem append_error {e : SchemaFault} (h : Remembers graphs l names cs before (.error e, middle)) :
    Remembers graphs l names (cs ++ ds) before (.error e, middle) := by
  refine ⟨?_, h.sound, h.keeps, by simp⟩
  simp [outcomeOf_append, ← h.outcome]

/-- One walk after another, where the second one starts whether the first one fails or not. -/
theorem append {first second : Except SchemaFault Unit}
    (h : Remembers graphs l names cs before (first, middle))
    (h' : Remembers graphs l names ds middle (second, after)) :
    Remembers graphs l names (cs ++ ds) before (first >>= fun _ => second, after) := by
  refine ⟨?_, h'.sound, fun c r hc => h'.keeps c r (h.keeps c r hc), fun hok c hc => ?_⟩
  · rw [outcomeOf_append, ← h.outcome, ← h'.outcome]
  · obtain ⟨⟨⟩, rfl, rfl⟩ := bind_eq_ok.mp hok
    rcases List.mem_append.mp hc with hc | hc
    · obtain ⟨r, hr⟩ := h.found rfl c hc
      exact ⟨r, h'.keeps c r hr⟩
    · exact h'.found rfl c hc

end Remembers

theorem resolveList_spec (hg : graphs[l.id]? = some l.graph) {cs : List ClassId}
    (hcs : ∀ c ∈ cs, ∃ chain, l.graph.Above c chain) : ∀ {memos : Memos},
      memos.Sound graphs l names →
      Remembers graphs l names cs memos (resolveList l names cs memos) := by
  induction cs with
  | nil =>
      intro memos hm
      exact ⟨rfl, hm, fun _ _ h => h, by simp⟩
  | cons c cs ih =>
      intro memos hm
      obtain ⟨chain, hl⟩ := hcs c (by simp)
      have hfirst := resolveRemembered_spec hg hl hm
      rw [resolveList]
      cases hres : resolveRemembered l names c memos with
      | mk result memos' =>
          rw [hres] at hfirst
          cases result with
          | error e => exact hfirst.append_error
          | ok _ =>
              have hrest := ih (fun d hd => hcs d (by simp [hd])) hfirst.sound
              exact hfirst.append hrest

/-! ## Trees under a schedule -/

/-- Each tree ends as it would alone, in whatever order the trees are taken, and the classes of a
tree that does not fail are remembered. -/
theorem runTrees_spec (hg : graphs[l.id]? = some l.graph) {schedule : List (List ClassId)}
    (hchains : ∀ t ∈ schedule, ∀ c ∈ t, ∃ chain, l.graph.Above c chain) :
    ∀ {memos : Memos}, memos.Sound graphs l names →
      (runTrees l names schedule memos).1 = schedule.map (fun t => (t, outcomeOf l names t)) ∧
      (runTrees l names schedule memos).2.Sound graphs l names ∧
      (∀ c r, memos.resolved.find? c = some r →
        (runTrees l names schedule memos).2.resolved.find? c = some r) ∧
      ∀ t ∈ schedule, outcomeOf l names t = .ok () → ∀ c ∈ t, ∃ r,
        (runTrees l names schedule memos).2.resolved.find? c = some r := by
  induction schedule with
  | nil =>
      intro memos hm
      exact ⟨rfl, hm, fun _ _ h => h, by simp⟩
  | cons t ts ih =>
      intro memos hm
      have hfirst := resolveList_spec hg (hchains t (by simp)) hm
      obtain ⟨houtcomes, hsound, hkeeps, hfound⟩ :=
        ih (fun t' ht' => hchains t' (by simp [ht'])) hfirst.sound
      refine ⟨?_, hsound, fun c r hc => hkeeps c r (hfirst.keeps c r hc), ?_⟩
      · show (t, (resolveList l names t memos).1) :: _ = _
        rw [List.map_cons, houtcomes, hfirst.outcome]
      · intro t' ht' hok c hc
        rcases List.mem_cons.mp ht' with rfl | ht'
        · obtain ⟨r, hr⟩ := hfirst.found (hfirst.outcome.trans hok) c hc
          exact ⟨r, hkeeps c r hr⟩
        · exact hfound t' ht' hok c hc

/-- In every order of the trees the same comes of them as of their classes one after the other. -/
theorem resolveTrees_spec (hg : graphs[l.id]? = some l.graph) {schedule trees : List (List ClassId)}
    (hperm : schedule.Perm trees)
    (hchains : ∀ t ∈ trees, ∀ c ∈ t, ∃ chain, l.graph.Above c chain) {memos : Memos}
    (hm : memos.Sound graphs l names) :
    Remembers graphs l names trees.flatten memos
      (resolveTrees l names schedule trees memos) := by
  obtain ⟨houtcomes, hsound, hkeeps, hfound⟩ :=
    runTrees_spec hg (fun t ht => hchains t (hperm.mem_iff.mp ht)) hm
  have hreport : (resolveTrees l names schedule trees memos).1 =
      outcomeOf l names trees.flatten := by
    rw [outcomeOf_flatten]
    show trees.forM (fun t => ((runTrees l names schedule memos).1.lookup t).getD (.ok ())) = _
    rw [houtcomes]
    refine forM_congr fun t ht => ?_
    rw [List.lookup_graph _ (hperm.mem_iff.mpr ht), Option.getD_some]
  refine ⟨hreport, hsound, hkeeps, fun hok c hc => ?_⟩
  rw [hreport, outcomeOf_flatten] at hok
  obtain ⟨t, ht, hct⟩ := List.mem_flatten.mp hc
  exact hfound t (hperm.mem_iff.mpr ht) (forM_eq_ok.mp hok t ht) c hct

/-- What is remembered of the classes that a walk has resolved is what they become. -/
theorem Remembers.filterMap_eq {cs : List ClassId} {before after : Memos}
    (h : Remembers graphs l names cs before (.ok (), after)) {order : List ClassId}
    {rs : List Resolution} (hsub : order ⊆ cs)
    (hrs : List.Forall₂ (fun c r => l.graph.resolveClass names c = .ok r) order rs) :
    order.filterMap after.resolved.find? = rs := by
  induction hrs with
  | nil => rfl
  | @cons c r order rs hr _ ih =>
      obtain ⟨r', hfind⟩ := h.found rfl c (hsub (by simp))
      have hsame := h.sound.resolved c r' hfind
      rw [hr] at hsame
      rw [List.filterMap_cons_some hfind, ih fun d hd => hsub (by simp [hd]), Except.ok.inj hsame]

/-! ## Whole graphs -/

/-- With or without workers, resolving walks over the visited classes. -/
theorem resolve_walk {memos : Memos} {names : Naming} (hl : graphs[l.id]? = some l.graph)
    (hm : memos.Sound graphs l names) {order : List ClassId}
    (hfirst : l.graph.AncestorFirst order) (workers : Option Int) (schedule : Schedule) :
    Remembers graphs l names (l.graph.visits workers order) memos
      (if workers.any (1 < ·) then
        resolveTrees l names (schedule.take (l.graph.trees order)) (l.graph.trees order) memos
      else resolveList l names order memos) := by
  have hchain : ∀ c ∈ order, ∃ chain, l.graph.Above c chain := fun c hc => by
    obtain ⟨chain, hchain, -⟩ := hfirst.above c hc
    exact ⟨chain, hchain⟩
  rw [visits]
  split
  · refine resolveTrees_spec hl (schedule.perm _) (fun t ht c hc => ?_) hm
    obtain ⟨r, -, rfl⟩ := List.mem_map.mp ht
    exact hchain c (List.mem_filter.mp hc).1
  · exact resolveList_spec hl hchain hm

/-- What comes of the walk, read in the order of the classes, is what resolving the graph gives. -/
theorem Remembers.resolve_eq {p : String} {workers : Option Int}
    {order : List ClassId} {before after : Memos} {outcome : Except SchemaFault Unit}
    (h : Remembers graphs l (Naming.ofGraph p l.graph) (l.graph.visits workers order) before
      (outcome, after))
    (horder : l.graph.ancestryOrder = .ok order) (hrefs : l.graph.checkReferences = .ok ()) :
    outcome.map (fun _ => order.filterMap after.resolved.find?) = l.graph.resolve p workers := by
  have houtcome : outcome = _ := h.outcome
  have hresolve := @ClassGraph.resolve_eq _ p workers order horder hrefs
  rw [outcomeOf] at houtcome
  cases hfound : (l.graph.visits workers order).mapM
      (l.graph.resolveClass (Naming.ofGraph p l.graph)) with
  | error e =>
      rw [hfound, map_error] at houtcome hresolve
      rw [houtcome, hresolve]
      rfl
  | ok found =>
      rw [hfound, map_ok] at houtcome hresolve
      subst houtcome
      obtain ⟨order', horder', -, hresults⟩ := resolve_ok hresolve
      obtain rfl := Except.ok.inj (horder.symm.trans horder')
      have hfiltered := h.filterMap_eq (fun c hc => mem_visits.mpr hc) hresults
      rw [hresolve, ← hfiltered]
      rfl

end RecordGen

import Mathlib.Logic.Relation
import RecordGen.Proofs.Sessions

/-! # What is remembered does not change

Graphs may be changed between the steps of a session, and then a memo need not hold what would be
computed now. It still answers what it answered first: an entry is written under a key that has
none, and nothing takes an entry away but a resolution of another graph, which makes the memo of
resolutions new. All of it holds of arbitrary graphs, also of those whose superclasses form a cycle
or that are changed in the middle of a chain that is remembered in part. -/

namespace RecordGen

open Fallible ClassGraph

/-! ## Tables that grow -/

namespace Table

variable {κ β : Type} [DecidableEq κ] {t t' t'' : Table κ β}

/-- Every entry of a table stands in another one. -/
def Within (t t' : Table κ β) : Prop :=
  ∀ k v, t.find? k = some v → t'.find? k = some v

theorem Within.refl (t : Table κ β) : t.Within t :=
  fun _ _ h => h

theorem Within.trans (h : t.Within t') (h' : t'.Within t'') : t.Within t'' :=
  fun k v hk => h' k v (h k v hk)

theorem within_insert {k : κ} {v : β} (h : t.find? k = none) : t.Within (t.insert k v) := by
  intro k' w hk'
  by_cases heq : k = k'
  · simp [← heq, h] at hk'
  · simp [heq, hk']

end Table

/-! ## Chains of any graph -/

namespace ClassGraph

theorem ancestorsFrom_spec (g : ClassGraph) (steps : Nat) : ∀ (seen : List ClassId) (c : ClassId),
    (g.ancestorsFrom steps seen c).Nodup ∧ ∀ a ∈ g.ancestorsFrom steps seen c, a ∉ seen := by
  induction steps with
  | zero => simp [ancestorsFrom]
  | succ steps ih =>
      intro seen c
      rw [ancestorsFrom]
      cases (g.decl c).superclass with
      | none => simp
      | some s =>
          by_cases hs : s ∈ seen
          · simp [hs]
          · obtain ⟨hnodup, hnew⟩ := ih (s :: seen) s
            simp only [hs, if_false, List.nodup_cons, List.mem_cons]
            refine ⟨⟨fun h => hnew s h List.mem_cons_self, hnodup⟩, ?_⟩
            rintro a (rfl | ha)
            · exact hs
            · exact fun h => hnew a ha (List.mem_cons_of_mem s h)

/-- A walk up passes no class twice, whether it ends at a root or where a cycle closes. -/
theorem nodup_ancestors (g : ClassGraph) (c : ClassId) : (c :: g.ancestors c).Nodup := by
  obtain ⟨hnodup, hnew⟩ := g.ancestorsFrom_spec (g.decls.length + 1) [c] c
  exact List.nodup_cons.mpr ⟨fun h => hnew c h List.mem_cons_self, hnodup⟩

end ClassGraph

/-- The missing part of a chain is missing throughout, and what it stands on is remembered. -/
theorem splitChain_spec {β : Type} (known : ClassId → Option β) {path : List ClassId}
    (hpath : path.Nodup) :
    (∀ c ∈ (splitChain known path).1, c ∈ path ∧ known c = none) ∧
      (splitChain known path).1.Nodup ∧
      ∀ v, (splitChain known path).2 = some v → ∃ c, known c = some v := by
  induction path with
  | nil => simp
  | cons c path ih =>
      cases h : known c with
      | some v =>
          rw [splitChain_known h]
          exact ⟨by simp, List.nodup_nil, fun w hw => ⟨c, h.trans hw⟩⟩
      | none =>
          obtain ⟨hc, hpath⟩ := List.nodup_cons.mp hpath
          obtain ⟨hmissing, hnodup, habove⟩ := ih hpath
          rw [splitChain_missing h]
          refine ⟨?_, ?_, habove⟩
          · intro d hd
            rcases List.mem_append.mp hd with hd | hd
            · exact ⟨List.mem_cons_of_mem c (hmissing d hd).1, (hmissing d hd).2⟩
            · rw [List.mem_singleton.mp hd]
              exact ⟨List.mem_cons_self, h⟩
          · rw [List.nodup_append]
            refine ⟨hnodup, List.nodup_singleton c, ?_⟩
            rintro d hd e he rfl
            exact hc (List.mem_singleton.mp he ▸ (hmissing d hd).1)

/-! ## Remembered flattenings -/

/-- No remembered flattening repeats a property. -/
def DistinctFlattenings (memo : FlatMemo) : Prop :=
  ∀ key ps, memo.find? key = some ps → (propertyNames ps).Nodup

variable {l l' : Loaded} {names : Naming} {memo memo' : FlatMemo} {c : ClassId}
  {ps above : List Declared}

theorem flattenDown_within {cs : List ClassId} (hcs : cs.Nodup)
    (hmissing : ∀ c ∈ cs, memo.find? (l.id, c) = none) :
    memo.Within (flattenDown l cs above memo).2 := by
  induction cs generalizing above memo with
  | nil => exact .refl memo
  | cons c cs ih =>
      obtain ⟨hc, hcs⟩ := List.nodup_cons.mp hcs
      rw [flattenDown]
      cases l.graph.extend above c with
      | error e => exact .refl memo
      | ok ps =>
          refine (Table.within_insert (hmissing c (by simp))).trans (ih hcs fun d hd => ?_)
          have hne : c ≠ d := fun h => hc (h ▸ hd)
          simpa [hne] using hmissing d (by simp [hd])

theorem flattenDown_distinct {cs : List ClassId} (habove : (propertyNames above).Nodup)
    (hmemo : DistinctFlattenings memo) :
    DistinctFlattenings (flattenDown l cs above memo).2 := by
  induction cs generalizing above memo with
  | nil => exact hmemo
  | cons c cs ih =>
      rw [flattenDown]
      cases hps : l.graph.extend above c with
      | error e => exact hmemo
      | ok ps =>
          have hnodup := ((extend_eq_ok habove).mp hps).2
          refine ih hnodup ?_
          intro key qs hfind
          rw [Table.find?_insert] at hfind
          split at hfind
          · exact Option.some.inj hfind ▸ hnodup
          · exact hmemo key qs hfind

/-- Flattening a class takes no flattening away and changes none. -/
theorem flattenClass_within (l : Loaded) (c : ClassId) (memo : FlatMemo) :
    memo.Within (flattenClass l c memo).2 := by
  obtain ⟨hmissing, hnodup, -⟩ :=
    splitChain_spec (fun d => memo.find? (l.id, d)) (l.graph.nodup_ancestors c)
  exact flattenDown_within hnodup fun d hd => (hmissing d hd).2

theorem flattenClass_distinct (hmemo : DistinctFlattenings memo) :
    DistinctFlattenings (flattenClass l c memo).2 := by
  have hsplit :=
    splitChain_spec (fun d => memo.find? (l.id, d)) (l.graph.nodup_ancestors c)
  rw [flattenClass]
  generalize splitChain _ _ = split at hsplit ⊢
  obtain ⟨missing, above⟩ := split
  refine flattenDown_distinct ?_ hmemo
  cases above with
  | none => simp [propertyNames]
  | some ps =>
      obtain ⟨d, hd⟩ := hsplit.2.2 ps rfl
      exact hmemo (l.id, d) ps hd

theorem flattenClass_missing (h : memo.find? (l.id, c) = none) : ∃ missing above,
    flattenClass l c memo =
      match flattenDown l missing above memo with
      | (.error e, memo) => (.error e, memo)
      | (.ok ps, memo) => flattenDown l [c] ps memo := by
  simp only [flattenClass, @splitChain_missing _ (fun d => memo.find? (l.id, d)) _ _ h,
    flattenDown_snoc]
  exact ⟨_, _, rfl⟩

/-- A class that is flattened is remembered with what it was flattened to. -/
theorem flattenClass_remembered (h : (flattenClass l c memo).1 = .ok ps) :
    (flattenClass l c memo).2.find? (l.id, c) = some ps := by
  cases hfind : memo.find? (l.id, c) with
  | some qs =>
      rw [flattenClass_known hfind] at h ⊢
      rw [hfind, Except.ok.inj h]
  | none =>
      obtain ⟨missing, above, hflat⟩ := flattenClass_missing hfind
      rw [hflat] at h ⊢
      generalize flattenDown l missing above memo = result at h ⊢
      obtain ⟨e | qs, memo'⟩ := result
      · simp at h
      · simp only [flattenDown] at h ⊢
        cases hextend : l.graph.extend qs c with
        | error e => simp [hextend] at h
        | ok _ =>
            simp only [hextend, Except.ok.injEq] at h
            simp [h]

/-- Calls of `flattenClass`, each on some graph as it is then, lead from a memo to another. -/
def FlatMemo.Reaches : FlatMemo → FlatMemo → Prop :=
  Relation.ReflTransGen fun memo memo' => ∃ l c, memo' = (flattenClass l c memo).2

namespace FlatMemo.Reaches

theorem call (l : Loaded) (c : ClassId) (memo : FlatMemo) :
    FlatMemo.Reaches memo (flattenClass l c memo).2 :=
  .single ⟨l, c, rfl⟩

theorem within (h : FlatMemo.Reaches memo memo') : memo.Within memo' := by
  induction h with
  | refl => exact .refl memo
  | @tail middle _ _ hcall ih =>
      obtain ⟨l, c, rfl⟩ := hcall
      exact ih.trans (flattenClass_within l c middle)

theorem distinct (h : FlatMemo.Reaches memo memo') (hmemo : DistinctFlattenings memo) :
    DistinctFlattenings memo' := by
  induction h with
  | refl => exact hmemo
  | tail _ hcall ih =>
      obtain ⟨l, c, rfl⟩ := hcall
      exact flattenClass_distinct ih

/-- A call that has succeeded for a class is answered alike for ever, whatever became of the class
and of those above it. -/
theorem flattenClass_eq (hok : (flattenClass l c memo).1 = .ok ps)
    (h : FlatMemo.Reaches (flattenClass l c memo).2 memo') (hid : l'.id = l.id) :
    (flattenClass l' c memo').1 = .ok ps := by
  have hfind := h.within (l.id, c) ps (flattenClass_remembered hok)
  rw [← hid] at hfind
  rw [flattenClass_known hfind]

end FlatMemo.Reaches

/-! ## Remembered resolutions -/

/-- Every remembered resolution is that of its class, with the remembered flattening of it. -/
def Memos.Keyed (id : Nat) (memos : Memos) : Prop :=
  ∀ c r, memos.resolved.find? c = some r →
    r.source = c ∧ memos.flattened.find? (id, c) = some r.properties

/-- What a walk over classes of a graph does to the memos. -/
structure Memos.Grows (id : Nat) (before after : Memos) : Prop where
  flattened : before.flattened.Reaches after.flattened
  resolved : before.resolved.Within after.resolved
  keyed : before.Keyed id → after.Keyed id

namespace Memos

variable {id : Nat} {memos memos' memos'' : Memos} {r : Resolution}

theorem Grows.refl (memos : Memos) : memos.Grows id memos :=
  ⟨.refl, .refl _, fun h => h⟩

theorem Grows.trans (h : memos.Grows id memos') (h' : memos'.Grows id memos'') :
    memos.Grows id memos'' :=
  ⟨h.flattened.trans h'.flattened, h.resolved.trans h'.resolved, fun hk => h'.keyed (h.keyed hk)⟩

/-- Classes are flattened. -/
theorem grows_flattened (h : memos.flattened.Reaches memo) :
    memos.Grows id ⟨memos.resolved, memo⟩ where
  flattened := h
  resolved := .refl _
  keyed := fun hk c r hr => ⟨(hk c r hr).1, h.within _ _ (hk c r hr).2⟩

/-- A class is resolved that was not. -/
theorem grows_insert (hc : memos.resolved.find? c = none) (hsource : r.source = c)
    (hflat : memos.flattened.find? (id, c) = some r.properties) :
    memos.Grows id ⟨memos.resolved.insert c r, memos.flattened⟩ where
  flattened := .refl
  resolved := Table.within_insert hc
  keyed := by
    intro hk d q hq
    rw [Table.find?_insert] at hq
    split at hq
    · rename_i heq
      obtain rfl := Option.some.inj hq
      exact heq ▸ ⟨hsource, hflat⟩
    · exact hk d q hq

end Memos

theorem Resolution.ofClass_source {g : ClassGraph} {above : Option Resolution} {r : Resolution}
    (h : Resolution.ofClass g names above c ps = .ok r) : r.source = c ∧ r.properties = ps := by
  simp only [Resolution.ofClass] at h
  cases hk : names.containers.find? (g.decl c).moduleName with
  | none => simp [hk] at h
  | some container =>
      rw [hk] at h
      obtain rfl := Except.ok.inj h
      exact ⟨rfl, rfl⟩

section Walks

variable {above : Option Resolution} {memos : Memos}

/-- One level of a walk: a class that was not resolved. -/
theorem resolveDown_level {r : Resolution} (hc : memos.resolved.find? c = none)
    (h : (flattenClass l c memos.flattened).1.bind
      (Resolution.ofClass l.graph names above c) = .ok r) :
    memos.Grows l.id ⟨memos.resolved.insert c r, (flattenClass l c memos.flattened).2⟩ := by
  obtain ⟨ps, hps, hr⟩ := bind_eq_ok.mp h
  obtain ⟨hsource, rfl⟩ := Resolution.ofClass_source hr
  refine (Memos.grows_flattened (.call l c memos.flattened)).trans ?_
  exact Memos.grows_insert hc hsource (flattenClass_remembered hps)

theorem resolveDown_grows {cs : List ClassId} (hcs : cs.Nodup)
    (hmissing : ∀ c ∈ cs, memos.resolved.find? c = none) :
    memos.Grows l.id (resolveDown l names cs above memos).2 := by
  induction cs generalizing above memos with
  | nil => exact .refl memos
  | cons c cs ih =>
      obtain ⟨hc, hcs⟩ := List.nodup_cons.mp hcs
      rw [resolveDown_cons]
      cases hr : (flattenClass l c memos.flattened).1.bind
          (Resolution.ofClass l.graph names above c) with
      | error e => exact Memos.grows_flattened (.call l c memos.flattened)
      | ok r =>
          refine (resolveDown_level (hmissing c (by simp)) hr).trans (ih hcs fun d hd => ?_)
          have hne : c ≠ d := fun h => hc (h ▸ hd)
          simpa [hne] using hmissing d (by simp [hd])

theorem resolveDown_found {cs : List ClassId} (hcs : cs.Nodup)
    (hmissing : ∀ c ∈ cs, memos.resolved.find? c = none)
    (hok : (resolveDown l names cs above memos).1 = .ok ()) :
    ∀ c ∈ cs, ((resolveDown l names cs above memos).2.resolved.find? c).isSome := by
  induction cs generalizing above memos with
  | nil => simp
  | cons c cs ih =>
      obtain ⟨hc, hrestnodup⟩ := List.nodup_cons.mp hcs
      rw [resolveDown_cons] at hok ⊢
      cases hr : (flattenClass l c memos.flattened).1.bind
          (Resolution.ofClass l.graph names above c) with
      | error e => simp [hr] at hok
      | ok r =>
          simp only [hr] at hok ⊢
          have hrest : ∀ d ∈ cs, (memos.resolved.insert c r).find? d = none := fun d hd => by
            have hne : c ≠ d := fun h => hc (h ▸ hd)
            simpa [hne] using hmissing d (by simp [hd])
          intro d hd
          rcases List.mem_cons.mp hd with rfl | hd
          · rw [(resolveDown_grows hrestnodup hrest).resolved d r (by simp)]
            rfl
          · exact ih hrestnodup hrest hok d hd

theorem resolveRemembered_grows (l : Loaded) (names : Naming) (c : ClassId) (memos : Memos) :
    memos.Grows l.id (resolveRemembered l names c memos).2 := by
  obtain ⟨hmissing, hnodup, -⟩ :=
    splitChain_spec memos.resolved.find? (l.graph.nodup_ancestors c)
  exact resolveDown_grows hnodup fun d hd => (hmissing d hd).2

theorem resolveRemembered_found (hok : (resolveRemembered l names c memos).1 = .ok ()) :
    ((resolveRemembered l names c memos).2.resolved.find? c).isSome := by
  cases hfind : memos.resolved.find? c with
  | some r => simp [resolveRemembered_known hfind, hfind]
  | none =>
      obtain ⟨hmissing, hnodup, -⟩ :=
        splitChain_spec memos.resolved.find? (l.graph.nodup_ancestors c)
      refine resolveDown_found hnodup (fun d hd => (hmissing d hd).2) hok c ?_
      simp [splitChain_missing hfind]

theorem resolveList_grows (l : Loaded) (names : Naming) (cs : List ClassId) (memos : Memos) :
    memos.Grows l.id (resolveList l names cs memos).2 := by
  induction cs generalizing memos with
  | nil => exact .refl memos
  | cons c cs ih =>
      have hfirst := resolveRemembered_grows l names c memos
      rw [resolveList]
      generalize resolveRemembered l names c memos = result at hfirst ⊢
      obtain ⟨outcome | _, memos'⟩ := result
      · exact hfirst
      · exact hfirst.trans (ih memos')

theorem resolveList_found {cs : List ClassId}
    (hok : (resolveList l names cs memos).1 = .ok ()) :
    ∀ c ∈ cs, ((resolveList l names cs memos).2.resolved.find? c).isSome := by
  induction cs generalizing memos with
  | nil => simp
  | cons c cs ih =>
      have hfound : (resolveRemembered l names c memos).1 = .ok () →
          ((resolveRemembered l names c memos).2.resolved.find? c).isSome := resolveRemembered_found
      rw [resolveList] at hok ⊢
      generalize resolveRemembered l names c memos = result at hfound hok ⊢
      obtain ⟨outcome | _, memos'⟩ := result
      · simp at hok
      · intro d hd
        rcases List.mem_cons.mp hd with rfl | hd
        · obtain ⟨r, hr⟩ := Option.isSome_iff_exists.mp (hfound rfl)
          rw [(resolveList_grows l names cs memos').resolved d r hr]
          rfl
        · exact ih hok d hd

theorem runTrees_grows (l : Loaded) (names : Naming) (ts : List (List ClassId)) (memos : Memos) :
    memos.Grows l.id (runTrees l names ts memos).2 := by
  induction ts generalizing memos with
  | nil => exact .refl memos
  | cons t ts ih => exact (resolveList_grows l names t memos).trans (ih _)

/-- Every tree that is taken has an outcome, and if that is a success its classes are remembered. -/
theorem runTrees_found (l : Loaded) (names : Naming) (ts : List (List ClassId)) (memos : Memos) :
    ∀ t ∈ ts, ∃ outcome, (runTrees l names ts memos).1.lookup t = some outcome ∧
      (outcome = .ok () → ∀ c ∈ t, ((runTrees l names ts memos).2.resolved.find? c).isSome) := by
  induction ts generalizing memos with
  | nil => simp
  | cons t ts ih =>
      intro u hu
      have hgrows := runTrees_grows l names ts (resolveList l names t memos).2
      by_cases heq : u = t
      · subst heq
        refine ⟨(resolveList l names u memos).1, by simp [runTrees], fun hok c hc => ?_⟩
        obtain ⟨r, hr⟩ := Option.isSome_iff_exists.mp (resolveList_found hok c hc)
        exact Option.isSome_iff_exists.mpr ⟨r, hgrows.resolved c r hr⟩
      · obtain ⟨outcome, hlookup, hfound⟩ :=
          ih (resolveList l names t memos).2 u ((List.mem_cons.mp hu).resolve_left heq)
        refine ⟨outcome, ?_, hfound⟩
        have hbeq : (u == t) = false := beq_eq_false_iff_ne.mpr heq
        simpa only [runTrees, List.lookup_cons, hbeq] using hlookup

/-- The walk over the visited classes, with or without workers: the memos grow, and if it ends well
every class of the order is remembered. -/
theorem walk_spec (l : Loaded) (names : Naming) (workers : Option Int) (schedule : Schedule)
    (order : List ClassId) (memos : Memos) :
    let result := if workers.any (1 < ·) then
        resolveTrees l names (schedule.take (l.graph.trees order)) (l.graph.trees order) memos
      else resolveList l names order memos
    memos.Grows l.id result.2 ∧
      (result.1 = .ok () → ∀ c ∈ order, (result.2.resolved.find? c).isSome) := by
  by_cases hworkers : workers.any (1 < ·) = true
  · simp only [hworkers, if_true]
    refine ⟨runTrees_grows l names _ memos, fun hok c hc => ?_⟩
    have hvisits : c ∈ l.graph.visits workers order := mem_visits.mpr hc
    rw [visits, if_pos hworkers] at hvisits
    obtain ⟨t, ht, hct⟩ := List.mem_flatten.mp hvisits
    obtain ⟨outcome, hlookup, hfound⟩ := runTrees_found l names
      (schedule.take (l.graph.trees order)) memos t ((schedule.perm _).mem_iff.mpr ht)
    have hreport := forM_eq_ok.mp hok t ht
    rw [hlookup] at hreport
    exact hfound hreport c hct
  · simp only [hworkers]
    exact ⟨resolveList_grows l names order memos, resolveList_found⟩

end Walks

/-! ## Sessions -/

/-- The classes of a graph can be ordered, and its references lead to listed classes. -/
def ClassGraph.PassesChecks (g : ClassGraph) : Prop :=
  (∃ order, g.ancestryOrder = .ok order) ∧ g.checkReferences = .ok ()

namespace Session

variable {s s' s'' : Session} {id : Nat}

/-- The session after uses one after the other. -/
def after (s : Session) : List Use → Session
  | [] => s
  | u :: us => (s.use u).2.after us

/-- What is remembered of the classes of a graph: nothing, if another graph was resolved last. -/
def resolvedOf (s : Session) (id : Nat) : Table ClassId Resolution :=
  match s.current with
  | some m => if m.id = id then m.resolved else ∅
  | none => ∅

/-- The graph that a use resolves. -/
def resolves? (s : Session) : Use → Option Loaded
  | .step (.resolve name _) _ => s.graphs.find? name
  | .step (.analyze name) _ => s.graphs.find? name
  | .step (.ask name _ .recordComponents) _ => s.graphs.find? name
  | _ => none

/-- No other graph is resolved past its checks. -/
def StaysWith (id : Nat) (s : Session) : List Use → Prop
  | [] => True
  | u :: us => (∀ l, s.resolves? u = some l → l.graph.PassesChecks → l.id = id) ∧
      (s.use u).2.StaysWith id us

/-- What the memos of a session hold in every run. -/
structure Tidy (s : Session) : Prop where
  distinct : DistinctFlattenings s.flattened
  keyed : ∀ id, Memos.Keyed id ⟨s.resolvedOf id, s.flattened⟩

/-- What a session keeps when it resolves a graph, or none. -/
structure Keeps (resolving : Option Loaded) (s s' : Session) : Prop where
  flattened : s.flattened.Reaches s'.flattened
  tidy : s.Tidy → s'.Tidy
  resolved : ∀ id, (∀ l, resolving = some l → l.graph.PassesChecks → l.id = id) →
    (s.resolvedOf id).Within (s'.resolvedOf id)

/-- Classes are flattened at most. -/
theorem keeps_of_flattened (resolving : Option Loaded)
    (h : s'.current = s.current ∧ s.flattened.Reaches s'.flattened) : Keeps resolving s s' := by
  obtain ⟨hcurrent, hflattened⟩ := h
  have hsame : ∀ id, s'.resolvedOf id = s.resolvedOf id := fun id => by
    rw [resolvedOf, hcurrent, resolvedOf]
  refine ⟨hflattened, fun h => ⟨hflattened.distinct h.distinct, fun id => ?_⟩, fun id _ => ?_⟩
  · rw [hsame]
    exact (Memos.grows_flattened hflattened).keyed (h.keyed id)
  · rw [hsame]
    exact .refl _

theorem Keeps.refl (resolving : Option Loaded) (s : Session) : Keeps resolving s s :=
  keeps_of_flattened resolving ⟨rfl, .refl⟩

theorem Keeps.trans {resolving : Option Loaded} (h : Keeps resolving s s')
    (h' : Keeps none s' s'') : Keeps resolving s s'' where
  flattened := h.flattened.trans h'.flattened
  tidy := fun ht => h'.tidy (h.tidy ht)
  resolved := fun id hid => (h.resolved id hid).trans (h'.resolved id (by simp))

/-! ### Resolving -/

theorem memory_resolved (s : Session) (l : Loaded) :
    (s.memory l).id = l.id ∧ (s.memory l).resolved = s.resolvedOf l.id := by
  rw [memory, resolvedOf]
  cases s.current with
  | none => exact ⟨rfl, rfl⟩
  | some m => by_cases hid : m.id = l.id <;> simp [hid]

/-- A graph that does not pass its checks leaves the session as it is. -/
theorem resolve_refused (h : ¬ l.graph.PassesChecks) (workers : Option Int) (schedule : Schedule) :
    (s.resolve l workers schedule).2 = s ∧ ∃ e, (s.resolve l workers schedule).1 = .error e := by
  rw [Session.resolve]
  cases horder : l.graph.ancestryOrder with
  | error e => exact ⟨rfl, e, rfl⟩
  | ok order =>
      cases hrefs : l.graph.checkReferences with
      | error e => exact ⟨rfl, e, rfl⟩
      | ok _ => exact (h ⟨⟨order, horder⟩, hrefs⟩).elim

/-- A graph that passes its checks: what is remembered of it grows, and what is answered is read off
the memo. -/
theorem resolve_spec {order : List ClassId} (horder : l.graph.ancestryOrder = .ok order)
    (hrefs : l.graph.checkReferences = .ok ()) (workers : Option Int) (schedule : Schedule) :
    ∃ memos : Memos, Memos.Grows l.id ⟨s.resolvedOf l.id, s.flattened⟩ memos ∧
      (s.resolve l workers schedule).2.flattened = memos.flattened ∧
      (s.resolve l workers schedule).2.current =
        some { s.memory l with resolved := memos.resolved } ∧
      ∀ rs, (s.resolve l workers schedule).1 = .ok rs →
        rs = order.filterMap memos.resolved.find? ∧
          ∀ c ∈ order, (memos.resolved.find? c).isSome := by
  obtain ⟨-, hresolved⟩ := s.memory_resolved l
  have hwalk := walk_spec l (s.memory l).names workers schedule order
    ⟨(s.memory l).resolved, s.flattened⟩
  rw [Session.resolve]
  simp only [horder, hrefs, ok_bind, pure_eq]
  simp only at hwalk
  generalize (if workers.any (1 < ·) then resolveTrees l (s.memory l).names
    (schedule.take (l.graph.trees order)) (l.graph.trees order)
      ⟨(s.memory l).resolved, s.flattened⟩
    else resolveList l (s.memory l).names order ⟨(s.memory l).resolved, s.flattened⟩) =
      result at hwalk ⊢
  obtain ⟨outcome, memos⟩ := result
  obtain ⟨hgrows, hfound⟩ := hwalk
  refine ⟨memos, hresolved ▸ hgrows, rfl, rfl, fun rs hrs => ?_⟩
  cases outcome with
  | error e => cases hrs
  | ok _ => exact ⟨(Except.ok.inj hrs).symm, hfound rfl⟩

theorem resolve_keeps (s : Session) (l : Loaded) (workers : Option Int) (schedule : Schedule) :
    Keeps (some l) s (s.resolve l workers schedule).2 := by
  by_cases h : l.graph.PassesChecks
  · obtain ⟨⟨order, horder⟩, hrefs⟩ := h
    obtain ⟨memos, hgrows, hflattened, hcurrent, -⟩ :=
      resolve_spec (s := s) horder hrefs workers schedule
    obtain ⟨hid, -⟩ := s.memory_resolved l
    have hresolved : ∀ id, (s.resolve l workers schedule).2.resolvedOf id =
        if l.id = id then memos.resolved else ∅ := fun id => by
      simp [resolvedOf, hcurrent, hid]
    refine ⟨hflattened ▸ hgrows.flattened, fun ht => ⟨?_, fun id => ?_⟩, fun id hstays => ?_⟩
    · exact hflattened ▸ hgrows.flattened.distinct ht.distinct
    · rw [hresolved, hflattened]
      by_cases heq : l.id = id
      · obtain rfl := heq
        simpa using hgrows.keyed (ht.keyed l.id)
      · simp [heq, Memos.Keyed]
    · obtain rfl := hstays l rfl ⟨⟨order, horder⟩, hrefs⟩
      simpa [hresolved] using hgrows.resolved
  · rw [(resolve_refused h workers schedule).1]
    exact .refl _ s

theorem analyze_keeps (s : Session) (l : Loaded) (schedule : Schedule) :
    Keeps (some l) s (s.analyze l schedule).2 := by
  have hresolve := resolve_keeps s l s.workers schedule
  rw [Session.analyze]
  generalize s.resolve l s.workers schedule = result at hresolve ⊢
  obtain ⟨resolved, s'⟩ := result
  simp only
  split
  · exact hresolve
  · exact hresolve.trans (keeps_of_flattened none ⟨rfl, .refl⟩)

theorem flatten_keeps (s : Session) (l : Loaded) (c : ClassId) (resolving : Option Loaded) :
    Keeps resolving s (s.flatten l c).2 :=
  keeps_of_flattened resolving ⟨rfl, .call l c s.flattened⟩

theorem recordComponents_keeps (s : Session) (l : Loaded) (c : ClassId) :
    Keeps (some l) s (s.recordComponents l c).2 := by
  have hresolve := resolve_keeps s l none .inOrder
  rw [Session.recordComponents]
  generalize s.resolve l none = result at hresolve ⊢
  obtain ⟨resolved, s'⟩ := result
  cases resolved with
  | error e => exact hresolve
  | ok rs =>
      simp only
      split
      · exact hresolve
      · exact hresolve.trans (flatten_keeps s' l c none)

/-! ### Uses -/

theorem onGraph_keeps {name : String} {f : Loaded → Except SchemaFault Answer × Session}
    (h : ∀ l, Keeps none s (f l).2) : Keeps none s (s.onGraph name f).2 := by
  rw [Session.onGraph]
  cases s.graphs.find? name with
  | none => exact .refl none s
  | some l => exact h l

theorem onGraph_resolving {name : String} {f : Loaded → Except SchemaFault Answer × Session}
    (h : ∀ l, Keeps (some l) s (f l).2) :
    Keeps (s.graphs.find? name) s (s.onGraph name f).2 := by
  rw [Session.onGraph]
  cases s.graphs.find? name with
  | none => exact .refl none s
  | some l => exact h l

theorem emit_keeps (s : Session) (language : Language) (a : Analysis) (comment : String) :
    Keeps none s (s.emit language a comment).2 := by
  cases language <;> exact keeps_of_flattened none ⟨rfl, .refl⟩

/-- A use, also one that fails or changes a graph from outside. -/
theorem use_keeps (s : Session) (u : Use) : Keeps (s.resolves? u) s (s.use u).2 := by
  cases u with
  | write language a comment => exact emit_keeps s language a comment
  | step x schedule =>
      cases x with
      | load name source =>
          simp only [use, step]
          split
          · exact .refl _ s
          · exact keeps_of_flattened _ ⟨rfl, .refl⟩
      | resolve name workers =>
          exact onGraph_resolving fun l => resolve_keeps s l workers schedule
      | order name => exact onGraph_keeps fun _ => .refl none s
      | analyze name => exact onGraph_resolving fun l => analyze_keeps s l schedule
      | names name => exact onGraph_keeps fun _ => .refl none s
      | generate language comment =>
          simp only [use, step]
          split
          · exact .refl _ s
          · exact emit_keeps s language _ comment
      | ask name c question =>
          cases question with
          | flattening => exact onGraph_keeps fun l => flatten_keeps s l c none
          | recordComponents => exact onGraph_resolving fun l => recordComponents_keeps s l c
          | declaration | membersOf | moduleOf | ancestors | lineage | references =>
              exact onGraph_keeps fun _ => .refl none s
      | change name c change => exact onGraph_keeps fun _ => keeps_of_flattened none ⟨rfl, .refl⟩
      | addClass name d => exact onGraph_keeps fun _ => keeps_of_flattened none ⟨rfl, .refl⟩

/-! ### Runs -/

theorem after_reaches (s : Session) (us : List Use) :
    s.flattened.Reaches (s.after us).flattened := by
  induction us generalizing s with
  | nil => exact .refl
  | cons u us ih => exact (s.use_keeps u).flattened.trans (ih _)

theorem Tidy.after (h : s.Tidy) (us : List Use) : (s.after us).Tidy := by
  induction us generalizing s with
  | nil => exact h
  | cons u us ih => exact ih ((s.use_keeps u).tidy h)

theorem StaysWith.within {us : List Use} (h : s.StaysWith id us) :
    (s.resolvedOf id).Within ((s.after us).resolvedOf id) := by
  induction us generalizing s with
  | nil => exact .refl _
  | cons u us ih =>
      obtain ⟨hu, hus⟩ := h
      exact ((s.use_keeps u).resolved id hu).trans (ih hus)

theorem tidy_new (config : Config) (workers : Option Int) :
    ({ config, workers } : Session).Tidy where
  distinct := by simp [DistinctFlattenings]
  keyed := by simp [Memos.Keyed, resolvedOf]

/-- The classes that a successful resolution lists are those of the graph, each with what is
remembered of it then. -/
theorem Tidy.resolve_ok (h : s.Tidy) {workers : Option Int} {schedule : Schedule}
    {rs : List Resolution} (hrs : (s.resolve l workers schedule).1 = .ok rs) :
    (∀ c, c ∈ rs.map (·.source) ↔ c ∈ l.graph.classes) ∧
      (s.resolvedOf l.id).Within ((s.resolve l workers schedule).2.resolvedOf l.id) ∧
      ∀ r ∈ rs,
        ((s.resolve l workers schedule).2.resolvedOf l.id).find? r.source = some r := by
  by_cases hchecks : l.graph.PassesChecks
  · obtain ⟨⟨order, horder⟩, hrefs⟩ := hchecks
    obtain ⟨memos, hgrows, -, hcurrent, hresults⟩ :=
      resolve_spec (s := s) horder hrefs workers schedule
    obtain ⟨rfl, hfound⟩ := hresults rs hrs
    obtain ⟨hid, -⟩ := s.memory_resolved l
    have hkeyed := hgrows.keyed (h.keyed l.id)
    have hresolved : (s.resolve l workers schedule).2.resolvedOf l.id = memos.resolved := by
      simp [resolvedOf, hcurrent, hid]
    refine ⟨fun c => ?_, hresolved ▸ hgrows.resolved, fun r hr => ?_⟩
    · rw [← (ancestryOrder_ok horder).2 c]
      simp only [List.mem_map, List.mem_filterMap]
      constructor
      · rintro ⟨r, ⟨d, hd, hr⟩, rfl⟩
        rwa [(hkeyed d r hr).1]
      · intro hc
        obtain ⟨r, hr⟩ := Option.isSome_iff_exists.mp (hfound c hc)
        exact ⟨r, ⟨c, hc, hr⟩, (hkeyed c r hr).1⟩
    · obtain ⟨c, -, hr⟩ := List.mem_filterMap.mp hr
      rw [hresolved, (hkeyed c r hr).1, hr]
  · obtain ⟨-, e, he⟩ := resolve_refused (s := s) hchecks workers schedule
    simp [he] at hrs

/-- What a session remembers, it goes on to answer. -/
structure Lasting (s : Session) : Prop where
  flattened : ∀ l c ps, (s.flatten l c).1 = .ok ps → ∀ us l', l'.id = l.id →
    (((s.flatten l c).2.after us).flatten l' c).1 = .ok ps
  /-- All that a step does to the remembered flattenings comes of calls of `flattenClass`. -/
  reaches : ∀ us, s.flattened.Reaches (s.after us).flattened
  /-- Calls in the middle of a step: from the first one that succeeds for a class on, every call for
  the class gives the same. -/
  called : ∀ memo l c ps, s.flattened.Reaches memo → (flattenClass l c memo).1 = .ok ps →
    ∀ memo' l', (flattenClass l c memo).2.Reaches memo' → l'.id = l.id →
      (flattenClass l' c memo').1 = .ok ps
  distinct : ∀ id c ps, s.flattened.find? (id, c) = some ps → (propertyNames ps).Nodup
  /-- A class that a resolution lists is remembered as it is listed. -/
  listed : ∀ l workers schedule rs, (s.resolve l workers schedule).1 = .ok rs → ∀ r ∈ rs,
    ((s.resolve l workers schedule).2.resolvedOf l.id).find? r.source = some r
  /-- A class that is remembered, if only by a resolution that failed after it, is listed so by
  every later resolution of its graph that lists it, until another graph passes its checks. -/
  resolved : ∀ id c r, (s.resolvedOf id).find? c = some r → ∀ us, s.StaysWith id us →
    ∀ l workers schedule rs, l.id = id → ((s.after us).resolve l workers schedule).1 = .ok rs →
      (c ∈ rs.map (·.source) ↔ c ∈ l.graph.classes) ∧ ∀ r' ∈ rs, r'.source = c → r' = r
  /-- The two memos agree. -/
  properties : ∀ id c r, (s.resolvedOf id).find? c = some r →
    s.flattened.find? (id, c) = some r.properties

theorem Tidy.lasting (h : s.Tidy) : s.Lasting where
  flattened := by
    intro l c ps hok us l' hid
    have hreaches := (s.flatten l c).2.after_reaches us
    exact hreaches.flattenClass_eq hok hid
  reaches := s.after_reaches
  called := fun _ _ _ _ _ hok _ _ hreaches hid => hreaches.flattenClass_eq hok hid
  distinct := fun id c ps => h.distinct (id, c) ps
  listed := fun _ _ _ _ hrs => (h.resolve_ok hrs).2.2
  resolved := by
    rintro _ c r hr us hus l workers schedule rs rfl hrs
    obtain ⟨hsources, hwithin, hremembered⟩ := (h.after us).resolve_ok hrs
    refine ⟨hsources c, ?_⟩
    rintro r' hr' rfl
    have hlater := hwithin _ r (hus.within _ r hr)
    exact Option.some.inj ((hremembered r' hr').symm.trans hlater)
  properties := fun id c r hr => (h.keyed id c r hr).2

/-- Memory lasts: whatever a session did before and whatever was done to its graphs. -/
theorem memory_lasts (config : Config) (workers : Option Int) (us : List Use) :
    (({ config, workers } : Session).after us).Lasting :=
  ((tidy_new config workers).after us).lasting

-- A property that a superclass gets later is not seen in a chain that is remembered.
example :
    let s := ({} : Session).after [
      .step (.load "woods" (.graph woods)) .inOrder,
      .step (.ask "woods" 3 .flattening) .inOrder,
      .step (.change "woods" 1 (.addProperty ⟨"age", .primitive "Int", false, none⟩)) .inOrder]
    (s.graphs.find? "woods").map (fun l =>
      ((s.flatten l 3).1.map propertyNames, (l.graph.flatten 3).map propertyNames)) =
        some (.ok ["name", "lives"], .ok ["name", "age", "lives"]) := by
  decide +kernel

end Session

end RecordGen

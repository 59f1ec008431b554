import RecordGen.Proofs.Memos

/-! # What a chain flattens to

The properties of a chain are those of its classes, root first. If two of them have the same name,
the first one that repeats a name is blamed, with the class that had the name before. Whatever was
flattened before, the answer is the same. -/

namespace RecordGen

open Fallible ClassGraph

namespace ClassGraph

variable {g : ClassGraph}

/-! ## Acyclic ancestry -/

/-- No class that is met on the way up from a class is its own ancestor. -/
def HasRoot (g : ClassGraph) (c : ClassId) : Prop :=
  ∀ a, Relation.ReflTransGen g.Extends c a → ¬Relation.TransGen g.Extends a a

/-- The classes passed on a way up to a class, none of them twice. -/
structure PassedTo (g : ClassGraph) (path : List ClassId) (c : ClassId) : Prop where
  hasRoot : g.HasRoot c
  nodup : path.Nodup
  below : ∀ x ∈ path, Relation.TransGen g.Extends x c
  declared : ∀ x ∈ path, x < g.decls.length

namespace PassedTo

variable {path : List ClassId} {c s : ClassId}

theorem up (h : g.PassedTo path c) (hs : g.Extends c s) : g.PassedTo (c :: path) s where
  hasRoot := fun a ha => h.hasRoot a (.head hs ha)
  nodup := List.nodup_cons.mpr ⟨fun hc => h.hasRoot c .refl (h.below c hc), h.nodup⟩
  below := List.forall_mem_cons.mpr ⟨.single hs, fun x hx => (h.below x hx).tail hs⟩
  declared := List.forall_mem_cons.mpr ⟨lt_length_of_extends hs, h.declared⟩

theorem length_le (h : g.PassedTo path c) : path.length ≤ g.decls.length := by
  have hsub : path ⊆ List.range g.decls.length := fun x hx => List.mem_range.mpr (h.declared x hx)
  simpa using (h.nodup.subperm hsub).length_le

/-- There are no more classes to pass than declarations, so the way up ends, at a root. -/
theorem exists_above (steps : Nat) (h : g.PassedTo path c)
    (hsteps : g.decls.length < path.length + steps) : ∃ l, g.Above c l := by
  induction steps generalizing path c with
  | zero =>
      have hle := h.length_le
      omega
  | succ steps ih =>
      cases hs : (g.decl c).superclass with
      | none => exact ⟨[], .root hs⟩
      | some s =>
          obtain ⟨l, hl⟩ := ih (h.up hs) (by simp only [List.length_cons]; omega)
          exact ⟨s :: l, .step hs hl⟩

end PassedTo

theorem HasRoot.exists_above {c : ClassId} (h : g.HasRoot c) : ∃ l, g.Above c l := by
  have hstart : g.PassedTo [] c := ⟨h, List.nodup_nil, by simp, by simp⟩
  exact hstart.exists_above (g.decls.length + 1) (by simp)

theorem Above.hasRoot {c : ClassId} {l : List ClassId} (h : g.Above c l) : g.HasRoot c := by
  intro a ha hcycle
  obtain ⟨above, habove⟩ : ∃ above, g.Above a above := by
    rcases Relation.reflTransGen_iff_eq_or_transGen.mp ha with rfl | ha
    · exact ⟨l, h⟩
    · obtain ⟨_, above, -, habove⟩ := h.drop (h.mem_iff.mpr ha)
      exact ⟨above, habove⟩
  exact habove.not_mem (habove.mem_iff.mpr hcycle)

/-- A class below a class with a chain has a chain. -/
theorem exists_above_of_mem_ancestors {c d : ClassId} (hd : d ∈ g.ancestors c)
    {l : List ClassId} (hl : g.Above d l) : ∃ l', g.Above c l' := by
  have hfrom : ∀ (steps : Nat) (seen : List ClassId) (c : ClassId),
      d ∈ g.ancestorsFrom steps seen c → ∃ l', g.Above c l' := by
    intro steps
    induction steps with
    | zero => simp [ancestorsFrom]
    | succ steps ih =>
        intro seen c h
        rw [ancestorsFrom] at h
        cases hs : (g.decl c).superclass with
        | none => exact ⟨[], .root hs⟩
        | some s =>
            simp only [hs] at h
            split at h
            · cases h
            · rcases List.mem_cons.mp h with rfl | h
              · exact ⟨d :: l, .step hs hl⟩
              · obtain ⟨l', hl'⟩ := ih _ _ h
                exact ⟨s :: l', .step hs hl'⟩
  exact hfrom _ _ _ hd

/-! ## The first repetition -/

/-- Along the levels of a chain, root first, `p` is the first property that repeats a name: the
levels above `c` and the properties of `c` before `p` have different names, and the name of `p` is
among them. The first level that declares the name is `a`. -/
structure FirstRepeat (g : ClassGraph) (levels : List ClassId) (c : ClassId) (p : Property)
    (a : ClassId) : Prop where
  repeats : ∃ above below before after, levels = above ++ c :: below ∧
    (g.decl c).properties = before ++ p :: after ∧
    (propertyNames (above.flatMap g.declaredBy ++ before.map (⟨·, c⟩))).Nodup ∧
    p.name ∈ propertyNames (above.flatMap g.declaredBy ++ before.map (⟨·, c⟩))
  first : levels.find? (fun x => p.name ∈ propertyNames (g.declaredBy x)) = some a

/-- The first level that declares a name stands behind levels that do not. -/
theorem find?_declares {nearer further : List ClassId} {a : ClassId} {name : String}
    (hnearer : name ∉ propertyNames (nearer.flatMap g.declaredBy))
    (ha : name ∈ propertyNames (g.declaredBy a)) :
    (nearer ++ a :: further).find? (fun x => name ∈ propertyNames (g.declaredBy x)) = some a := by
  refine List.find?_eq_some_iff_append.mpr ⟨by simpa using ha, nearer, further, rfl, ?_⟩
  intro x hx
  have hother : name ∉ propertyNames (g.declaredBy x) := fun hname => by
    obtain ⟨d, hd, hname⟩ := List.mem_map.mp hname
    exact hnearer (List.mem_map.mpr ⟨d, List.mem_flatMap.mpr ⟨x, hx, hd⟩, hname⟩)
  simpa using hother

/-- Where names differ, the owner of a property is the first level that declares its name. -/
theorem find?_owner {above : List ClassId} {c : ClassId} {p : Property}
    {before after : List Property} {below : List ClassId} {previous : Declared}
    (hps : (g.decl c).properties = before ++ p :: after)
    (hn : (propertyNames (above.flatMap g.declaredBy ++ before.map (⟨·, c⟩))).Nodup)
    (hmem : previous ∈ above.flatMap g.declaredBy ++ before.map (⟨·, c⟩))
    (hname : previous.property.name = p.name) :
    (above ++ c :: below).find? (fun x => p.name ∈ propertyNames (g.declaredBy x)) =
      some previous.owner := by
  rw [propertyNames_append, List.nodup_append] at hn
  obtain ⟨habove, -, hapart⟩ := hn
  rw [← hname]
  rcases List.mem_append.mp hmem with hprevious | hprevious
  · obtain ⟨a, ha, hdeclared⟩ := List.mem_flatMap.mp hprevious
    obtain ⟨nearer, further, rfl⟩ := List.append_of_mem ha
    have hdeclares : previous.property.name ∈ propertyNames (g.declaredBy a) :=
      List.mem_map_of_mem hdeclared
    obtain ⟨q, -, rfl⟩ := List.mem_map.mp hdeclared
    rw [List.flatMap_append, List.flatMap_cons, propertyNames_append,
      propertyNames_append] at habove
    rw [List.append_assoc, List.cons_append]
    refine find?_declares (fun hnearer => ?_) hdeclares
    exact (List.nodup_append.mp habove).2.2 _ hnearer _ (List.mem_append_left _ hdeclares) rfl
  · have hown : previous.property.name ∈ propertyNames (before.map (⟨·, c⟩)) :=
      List.mem_map_of_mem hprevious
    obtain ⟨q, hq, rfl⟩ := List.mem_map.mp hprevious
    refine find?_declares (fun habove => hapart _ habove _ hown rfl) ?_
    simp only [declaredBy, hps, List.map_append, propertyNames_append]
    exact List.mem_append_left _ hown

/-- A level is added to those above it, or refused at the first repetition of the chain. -/
theorem extend_cases (above : List ClassId) (c : ClassId) (below : List ClassId)
    (hn : (propertyNames (above.flatMap g.declaredBy)).Nodup) :
    (g.extend (above.flatMap g.declaredBy) c = .ok ((above ++ [c]).flatMap g.declaredBy) ∧
      (propertyNames ((above ++ [c]).flatMap g.declaredBy)).Nodup) ∨
    ∃ p a, g.FirstRepeat (above ++ c :: below) c p a ∧ g.extend (above.flatMap g.declaredBy) c =
      .error (.conflictingProperty (g.fullName c) p.name (g.fullName a)) := by
  have hlevels : (above ++ [c]).flatMap g.declaredBy =
      above.flatMap g.declaredBy ++ g.declaredBy c := by simp
  cases h : g.extend (above.flatMap g.declaredBy) c with
  | ok out =>
      obtain ⟨rfl, hnodup⟩ := (extend_eq_ok hn).mp h
      rw [hlevels]
      exact .inl ⟨rfl, hnodup⟩
  | error e =>
      obtain ⟨before, p, after, hps, hnodup, previous, hmem, hname, rfl⟩ := declare_error h
      have hnodup := hnodup hn
      refine .inr ⟨p, previous.owner,
        ⟨⟨above, below, before, after, rfl, hps, hnodup, ?_⟩, ?_⟩, rfl⟩
      · exact hname ▸ List.mem_map_of_mem hmem
      · exact find?_owner hps hnodup hmem hname

/-- A chain whose names all differ flattens to the properties of its levels; any other one is
refused at its first repetition. -/
theorem foldlM_extend_cases (levels : List ClassId) : ∀ (above : List ClassId),
    (propertyNames (above.flatMap g.declaredBy)).Nodup →
    (levels.foldlM g.extend (above.flatMap g.declaredBy) =
        .ok ((above ++ levels).flatMap g.declaredBy) ∧
      (propertyNames ((above ++ levels).flatMap g.declaredBy)).Nodup) ∨
    ∃ c p a, g.FirstRepeat (above ++ levels) c p a ∧
      levels.foldlM g.extend (above.flatMap g.declaredBy) =
        .error (.conflictingProperty (g.fullName c) p.name (g.fullName a)) := by
  induction levels with
  | nil => exact fun above hn => .inl (by simpa using hn)
  | cons c levels ih =>
      intro above hn
      rw [List.foldlM_cons]
      rcases extend_cases above c levels hn with ⟨hok, hnodup⟩ | ⟨p, a, hrepeat, herror⟩
      · have hlevels : above ++ c :: levels = above ++ [c] ++ levels := by simp
        rw [hok, ok_bind, hlevels]
        exact ih _ hnodup
      · rw [herror, error_bind]
        exact .inr ⟨c, p, a, hrepeat, rfl⟩

namespace FirstRepeat

variable {levels : List ClassId} {c c' a a' : ClassId} {p p' : Property}

/-- What the repetition is in the concatenation of the levels. -/
theorem exists_declared (h : g.FirstRepeat levels c p a) :
    ∃ seen rest, levels.flatMap g.declaredBy = seen ++ ⟨p, c⟩ :: rest ∧
      (propertyNames seen).Nodup ∧ p.name ∈ propertyNames seen := by
  obtain ⟨above, below, before, after, rfl, hps, hnodup, hmem⟩ := h.repeats
  refine ⟨_, after.map (⟨·, c⟩) ++ below.flatMap g.declaredBy, ?_, hnodup, hmem⟩
  have hc : g.declaredBy c = before.map (⟨·, c⟩) ++ ⟨p, c⟩ :: after.map (⟨·, c⟩) := by
    simp [declaredBy, hps]
  simp [hc]

/-- A property that repeats a name cannot stand among properties whose names differ. -/
theorem not_nodup_append {seen rest : List Declared} {d : Declared}
    (h : d.property.name ∈ propertyNames seen) : ¬(propertyNames (seen ++ d :: rest)).Nodup := by
  rw [propertyNames_append, List.nodup_append]
  exact fun hnodup => hnodup.2.2 _ h _ List.mem_cons_self rfl

/-- A chain with a repetition has names that do not differ. -/
theorem not_nodup (h : g.FirstRepeat levels c p a) :
    ¬(propertyNames (levels.flatMap g.declaredBy)).Nodup := by
  obtain ⟨seen, rest, hlevels, -, hmem⟩ := h.exists_declared
  rw [hlevels]
  exact not_nodup_append (d := ⟨p, c⟩) hmem

/-- There is one first repetition. -/
theorem unique (h : g.FirstRepeat levels c p a) (h' : g.FirstRepeat levels c' p' a') :
    c = c' ∧ p = p' ∧ a = a' := by
  have hone : ∀ {seen seen' rest rest' : List Declared} {d d' : Declared},
      seen ++ d :: rest = seen' ++ d' :: rest' → (propertyNames seen').Nodup →
      d.property.name ∈ propertyNames seen → seen'.length ≤ seen.length := by
    intro seen seen' rest rest' d d' heq hnodup hmem
    rcases List.append_eq_append_iff.mp heq with ⟨between, rfl, hbetween⟩ | ⟨between, rfl, -⟩
    · cases between with
      | nil => simp
      | cons e between =>
          obtain ⟨rfl, -⟩ := List.cons.inj hbetween
          exact absurd hnodup (not_nodup_append hmem)
    · simp
  obtain ⟨seen, rest, hseen, hnodup, hmem⟩ := h.exists_declared
  obtain ⟨seen', rest', hseen', hnodup', hmem'⟩ := h'.exists_declared
  have heq := hseen.symm.trans hseen'
  have hlength := Nat.le_antisymm (hone heq.symm hnodup hmem') (hone heq hnodup' hmem)
  obtain ⟨-, hrest⟩ := List.append_inj heq hlength
  obtain ⟨hproperty, howner⟩ := Declared.mk.inj (List.cons.inj hrest).1
  have hfirst := h.first
  rw [hproperty, h'.first] at hfirst
  exact ⟨howner, hproperty, (Option.some.inj hfirst).symm⟩

end FirstRepeat

end ClassGraph

/-! ## Flattening after other classes -/

section

variable {l : Loaded}

/-- What is remembered after some classes have been flattened one after the other, those that were
refused among them. -/
def flattenAll (memo : FlatMemo) : List (Loaded × ClassId) → FlatMemo
  | [] => memo
  | (l, c) :: calls => flattenAll (flattenClass l c memo).2 calls

/-- What is remembered of the classes of a graph that have a chain is what they flatten to. -/
def ChainsSound (l : Loaded) (memo : FlatMemo) : Prop :=
  ∀ c above, l.graph.Above c above → ∀ ps, memo.find? (l.id, c) = some ps →
    l.graph.flatten c = .ok ps

theorem chainsSound_keeps (l : Loaded) : KeepsFlattenings l (ChainsSound l) where
  found hm hl hfind := hm _ _ hl _ hfind
  added := by
    intro memo c chain ps hm hl hflat d above hd qs hfind
    rw [Table.find?_insert] at hfind
    split at hfind
    · rename_i heq
      obtain rfl : c = d := (Prod.mk.inj heq).2
      exact Option.some.inj hfind ▸ hflat
    · exact hm d above hd qs hfind

/-- Flattening classes writes no entry but theirs. -/
theorem flattenDown_other {cs : List ClassId} {key : Nat × ClassId}
    (hkey : ∀ c ∈ cs, key ≠ (l.id, c)) : ∀ (above : List Declared) (memo : FlatMemo),
      (flattenDown l cs above memo).2.find? key = memo.find? key := by
  induction cs with
  | nil => exact fun _ _ => rfl
  | cons c cs ih =>
      intro above memo
      obtain ⟨hc, hcs⟩ := List.forall_mem_cons.mp hkey
      rw [flattenDown]
      cases l.graph.extend above c with
      | error e => rfl
      | ok ps => rw [ih hcs, Table.find?_insert, if_neg (Ne.symm hc)]

theorem flattenClass_other {c : ClassId} {key : Nat × ClassId}
    (hkey : ∀ d ∈ c :: l.graph.ancestors c, key ≠ (l.id, d)) (memo : FlatMemo) :
    (flattenClass l c memo).2.find? key = memo.find? key := by
  refine flattenDown_other (fun d hd => hkey d ?_) _ _
  exact (List.takeWhile_sublist _).subset (List.mem_reverse.mp hd)

/-- A call for a class whose ancestry is a cycle writes no entry of a class with a chain. -/
theorem ChainsSound.flattenClass {memo : FlatMemo} (hm : ChainsSound l memo) {l' : Loaded}
    (hl' : l'.id = l.id → l' = l) (c : ClassId) : ChainsSound l (flattenClass l' c memo).2 := by
  by_cases hid : l'.id = l.id
  · obtain rfl := hl' hid
    by_cases hc : ∃ above, l'.graph.Above c above
    · obtain ⟨above, habove⟩ := hc
      exact (flattenClass_keeps (chainsSound_keeps l') habove hm).2
    · intro d above hd ps hfind
      rw [flattenClass_other] at hfind
      · exact hm d above hd ps hfind
      · rintro x hx heq
        obtain rfl : d = x := (Prod.mk.inj heq).2
        rcases List.mem_cons.mp hx with rfl | hx
        · exact hc ⟨above, hd⟩
        · exact hc (exists_above_of_mem_ancestors hx hd)
  · intro d above hd ps hfind
    rw [flattenClass_other fun x _ heq => hid (Prod.mk.inj heq).1.symm] at hfind
    exact hm d above hd ps hfind

theorem ChainsSound.flattenAll {calls : List (Loaded × ClassId)}
    (hcalls : ∀ call ∈ calls, call.1.id = l.id → call.1 = l) {memo : FlatMemo}
    (hm : ChainsSound l memo) : ChainsSound l (flattenAll memo calls) := by
  induction calls generalizing memo with
  | nil => exact hm
  | cons call calls ih =>
      obtain ⟨hcall, hcalls⟩ := List.forall_mem_cons.mp hcalls
      exact ih hcalls (hm.flattenClass hcall call.2)

/-- A class whose ancestry is no cycle flattens to the properties of its chain, root first, if their
names differ. If they do not, the first repetition is blamed. Classes that were flattened before,
on the way up or elsewhere, with or without success, change nothing. -/
theorem flattenClass_rootFirst (l : Loaded) {c : ClassId} (hc : l.graph.HasRoot c)
    {calls : List (Loaded × ClassId)} (hcalls : ∀ call ∈ calls, call.1.id = l.id → call.1 = l) :
    ∃ above, l.graph.Above c above ∧
      let levels := (c :: above).reverse
      let declared := levels.flatMap l.graph.declaredBy
      let answer := (flattenClass l c (flattenAll ∅ calls)).1
      ((propertyNames declared).Nodup → answer = .ok declared) ∧
        (¬(propertyNames declared).Nodup → (∃ x p a, l.graph.FirstRepeat levels x p a) ∧
          ∀ x p a, l.graph.FirstRepeat levels x p a → ∃ e, answer = .error e ∧
            e.class? = some (l.graph.fullName x) ∧ e.property? = some p.name ∧
            e.declarers = [l.graph.fullName a, l.graph.fullName x]) := by
  obtain ⟨above, habove⟩ := hc.exists_above
  have hempty : ChainsSound l ∅ := by simp [ChainsSound]
  have hanswer :=
    (flattenClass_keeps (chainsSound_keeps l) habove (hempty.flattenAll hcalls)).1
  have hlineage : l.graph.lineage c = (c :: above).reverse := by
    rw [lineage, habove.ancestors_eq, List.reverse_cons]
  refine ⟨above, habove, ?_⟩
  simp only [hanswer, ClassGraph.flatten, hlineage]
  rcases foldlM_extend_cases (g := l.graph) (c :: above).reverse [] (by simp [propertyNames]) with
    ⟨hok, hnodup⟩ | ⟨x, p, a, hrepeat, herror⟩
  · exact ⟨fun _ => hok, fun hrepeats => absurd hnodup hrepeats⟩
  · refine ⟨fun hnodup => absurd hnodup hrepeat.not_nodup, fun _ => ⟨⟨x, p, a, hrepeat⟩, ?_⟩⟩
    intro x' p' a' hrepeat'
    obtain ⟨rfl, rfl, rfl⟩ := hrepeat.unique hrepeat'
    exact ⟨_, herror, rfl, rfl, rfl⟩

/-- A chain with two repetitions, the one nearer to its root in the middle of a class, beside a
chain with none and a cycle. -/
def tangled : ClassGraph where
  decls := [
    { name := "m", isModule := true, moduleName := "m" },
    { name := "Root", kind := .abstract, moduleName := "m"
      properties := [⟨"a", .primitive "Int", false, none⟩, ⟨"b", .primitive "Any", true, none⟩] },
    { name := "Middle", kind := .extensible, superclass := some 1, moduleName := "m"
      properties := [⟨"c", .primitive "Int", false, none⟩, ⟨"b", .primitive "Int", false, none⟩,
        ⟨"a", .primitive "Int", false, none⟩] },
    { name := "Leaf", superclass := some 2, moduleName := "m"
      properties := [⟨"c", .primitive "Any", true, none⟩] },
    { name := "Branch", superclass := some 1, moduleName := "m"
      properties := [⟨"d", .primitive "Int", false, none⟩] },
    { name := "Loop", kind := .extensible, superclass := some 5, moduleName := "m" }]
  modules := [0]
  classes := [0, 1, 2, 3, 4, 5]

theorem flattenClass_rootFirst_tangled :
    let l : Loaded := ⟨0, tangled⟩
    let calls := [(l, 5), (l, 4), (⟨1, {}⟩, 3), (l, 2)]
    (tangled.HasRoot 3 ∧ ∀ call ∈ calls, call.1.id = l.id → call.1 = l) ∧
      ∃ e, (flattenClass l 3 (flattenAll ∅ calls)).1 = .error e ∧
        e.class? = some "m.Middle" ∧ e.property? = some "b" ∧
        e.declarers = ["m.Root", "m.Middle"] := by
  intro l calls
  have habove : tangled.Above 3 [2, 1] := .step (s := 2) rfl (.step (s := 1) rfl (.root rfl))
  have hroot : tangled.HasRoot 3 := habove.hasRoot
  have hcalls : ∀ call ∈ calls, call.1.id = l.id → call.1 = l := by
    simp [calls, l]
  have hrepeat : tangled.FirstRepeat [1, 2, 3] 2 ⟨"b", .primitive "Int", false, none⟩ 1 :=
    ⟨⟨[1], [3], [⟨"c", .primitive "Int", false, none⟩], _, rfl, rfl, by decide, by decide⟩,
      by decide⟩
  obtain ⟨above, hl, -, hrefused⟩ := flattenClass_rootFirst l hroot hcalls
  obtain rfl := habove.unique hl
  exact ⟨⟨hroot, hcalls⟩, (hrefused hrepeat.not_nodup).2 _ _ _ hrepeat⟩

end

end RecordGen

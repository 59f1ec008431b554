import RecordGen.Proofs.DocLines
import RecordGen.Proofs.Resolving
import RecordGen.Target.Members

/-! # Member names

Within a type every property has a member name of its own. Names are claimed from the root of the
chain down, so a longer chain only adds names to those of a shorter one. -/

namespace RecordGen

open Fallible

/-- Making a name legal never shortens it. -/
def Lengthens (escape : String → String) : Prop :=
  ∀ name, name.length ≤ (escape name).length

/-! ## One free name -/

/-- The rounds suffice if there are more of them than taken names as long as the wanted one: every
round leaves a taken name behind, for the next one is longer. -/
theorem freeMember_not_mem_of_lt {escape : String → String} (he : Lengthens escape)
    {taken : List String} : ∀ {steps : Nat} {name : String},
    (taken.filter fun t => name.length ≤ t.length).length < steps →
      freeMember escape taken steps name ∉ taken := by
  intro steps
  induction steps with
  | zero =>
      intro name h
      omega
  | succ steps ih =>
      intro name h
      rw [freeMember]
      split
      · rename_i hmem
        apply ih
        have hlonger : name.length < (escape (name ++ "_")).length := by
          have := he (name ++ "_")
          rw [String.length_append] at this
          exact Nat.lt_of_lt_of_le (Nat.lt_succ_self _) this
        have hsub : (taken.filter fun t => (escape (name ++ "_")).length ≤ t.length) =
            (taken.filter fun t => name.length ≤ t.length).filter
              fun t => (escape (name ++ "_")).length ≤ t.length := by
          rw [List.filter_filter]
          refine List.filter_congr fun t _ => ?_
          simp
          omega
        have hfewer : (taken.filter fun t => (escape (name ++ "_")).length ≤ t.length).length <
            (taken.filter fun t => name.length ≤ t.length).length := by
          rw [hsub]
          refine List.length_filter_lt_length_iff_exists.mpr ⟨name, ?_, ?_⟩
          · simpa using hmem
          · simpa using hlonger
        omega
      · rename_i hmem
        exact hmem

theorem freeMember_not_mem {escape : String → String} (he : Lengthens escape)
    (taken : List String) (name : String) :
    freeMember escape taken (taken.length + 1) name ∉ taken := by
  apply freeMember_not_mem_of_lt he
  exact Nat.lt_succ_of_le (List.length_filter_le _ _)

/-! ## The names of a chain -/

variable {escape : String → String}

/-- Properties keep their order. -/
theorem allocateMembers_keys (taken : List String) (ds : List Declared) :
    (allocateMembers escape taken ds).map (·.1) = ClassGraph.propertyNames ds := by
  induction ds generalizing taken with
  | nil => rfl
  | cons d ds ih => simp [allocateMembers, ClassGraph.propertyNames, ih]

/-- Member names differ from each other and from those taken before. -/
theorem allocateMembers_fresh (he : Lengthens escape) (taken : List String)
    (ds : List Declared) :
    ((allocateMembers escape taken ds).map (·.2)).Nodup ∧
      ∀ e ∈ allocateMembers escape taken ds, e.2 ∉ taken := by
  induction ds generalizing taken with
  | nil => simp [allocateMembers]
  | cons d ds ih =>
      have hfree := freeMember_not_mem he taken (escape d.property.name)
      rw [allocateMembers]
      generalize freeMember escape taken (taken.length + 1) (escape d.property.name) = name
        at hfree ⊢
      obtain ⟨hn, hrest⟩ := ih (name :: taken)
      refine ⟨?_, ?_⟩
      · rw [List.map_cons, List.nodup_cons]
        refine ⟨?_, hn⟩
        intro hmem
        obtain ⟨e, he, hname⟩ := List.mem_map.mp hmem
        exact hrest e he (by simp [hname])
      · refine List.forall_mem_cons.mpr ⟨hfree, fun e he hmem => ?_⟩
        exact hrest e he (by simp [hmem])

/-- A free name is one that was made legal. -/
theorem exists_freeMember_eq (escape : String → String) (taken : List String) :
    ∀ (steps : Nat) (name : String),
      ∃ wanted, freeMember escape taken steps (escape name) = escape wanted := by
  intro steps
  induction steps with
  | zero => exact fun name => ⟨name, rfl⟩
  | succ steps ih =>
      intro name
      rw [freeMember]
      split
      · exact ih _
      · exact ⟨name, rfl⟩

theorem exists_escape_eq {taken : List String} {ds : List Declared} :
    ∀ e ∈ allocateMembers escape taken ds, ∃ wanted, e.2 = escape wanted := by
  induction ds generalizing taken with
  | nil => simp [allocateMembers]
  | cons d ds ih =>
      rw [allocateMembers]
      exact List.forall_mem_cons.mpr ⟨exists_freeMember_eq _ _ _ _, ih⟩

section

variable {P : String → Prop}

theorem freeMember_keeps (hescape : ∀ n, P n → P (escape n)) (hlonger : ∀ n, P n → P (n ++ "_"))
    (taken : List String) :
    ∀ (steps : Nat) {n : String}, P n → P (freeMember escape taken steps n) := by
  intro steps
  induction steps with
  | zero => exact fun hn => hn
  | succ steps ih =>
      intro n hn
      rw [freeMember]
      split
      · exact ih (hescape _ (hlonger _ hn))
      · exact hn

/-- What holds of the names of properties holds of their member names, if it survives making a name
legal and an underscore at the end. -/
theorem allocateMembers_keeps (hescape : ∀ n, P n → P (escape n))
    (hlonger : ∀ n, P n → P (n ++ "_")) {taken : List String} {ds : List Declared}
    (h : ∀ d ∈ ds, P d.property.name) : ∀ e ∈ allocateMembers escape taken ds, P e.2 := by
  induction ds generalizing taken with
  | nil => simp [allocateMembers]
  | cons d ds ih =>
      obtain ⟨hd, hds⟩ := List.forall_mem_cons.mp h
      rw [allocateMembers]
      exact List.forall_mem_cons.mpr
        ⟨freeMember_keeps hescape hlonger _ _ (hescape _ hd), ih hds⟩

end

/-- A chain keeps the names of the part above it. -/
theorem allocateMembers_append (escape : String → String) (taken : List String)
    (ds es : List Declared) :
    ∃ more, allocateMembers escape taken (ds ++ es) = allocateMembers escape taken ds ++ more := by
  induction ds generalizing taken with
  | nil => exact ⟨_, rfl⟩
  | cons d ds ih =>
      obtain ⟨more, hmore⟩ := ih _
      exact ⟨more, by rw [List.cons_append, allocateMembers, hmore]; rfl⟩

/-! ## Look-up -/

namespace Table

variable {κ β : Type} [DecidableEq κ]

theorem findEntry_eq_some {k : κ} {v : β} {es : List (κ × β)} (h : (es.map (·.1)).Nodup) :
    findEntry k es = some v ↔ (k, v) ∈ es := by
  induction es with
  | nil => simp [findEntry]
  | cons e es ih =>
      obtain ⟨k', w⟩ := e
      rw [List.map_cons, List.nodup_cons] at h
      have hnew : ∀ u, (k', u) ∉ es := fun u hu => h.1 (List.mem_map.mpr ⟨_, hu, rfl⟩)
      rw [findEntry]
      by_cases hk : k' = k
      · subst hk
        simp [hnew, eq_comm]
      · simp [hk, Ne.symm hk, ih h.2]

theorem mem_of_findEntry {k : κ} {v : β} {es : List (κ × β)} (h : findEntry k es = some v) :
    (k, v) ∈ es := by
  induction es with
  | nil => cases h
  | cons e es ih =>
      rw [findEntry] at h
      split at h
      · rename_i heq
        obtain rfl := Option.some.inj h
        exact heq ▸ List.mem_cons_self
      · exact List.mem_cons_of_mem _ (ih h)

theorem findEntry_eq_none {k : κ} {es : List (κ × β)} :
    findEntry k es = none ↔ ∀ v, (k, v) ∉ es := by
  induction es with
  | nil => simp [findEntry]
  | cons e es ih =>
      rw [findEntry]
      by_cases hk : e.1 = k
      · rw [if_pos hk]
        exact iff_of_false (by simp) fun h => h e.2 (List.mem_cons.mpr (Or.inl (by rw [← hk])))
      · simp [hk, ih, Prod.ext_iff, Ne.symm hk]

/-- What is bound under a name once is found, whatever else is bound. -/
theorem findEntry_eq_of_unique {k : κ} {v : β} {es : List (κ × β)} (h : (k, v) ∈ es)
    (hunique : ∀ w, (k, w) ∈ es → w = v) : findEntry k es = some v := by
  cases hfound : findEntry k es with
  | none => exact absurd h (findEntry_eq_none.mp hfound v)
  | some w => rw [hunique w (mem_of_findEntry hfound)]

theorem findEntry_append {k : κ} {v : β} {es : List (κ × β)} (h : findEntry k es = some v)
    (more : List (κ × β)) : findEntry k (es ++ more) = some v := by
  induction es with
  | nil => simp [findEntry] at h
  | cons e es ih =>
      rw [List.cons_append, findEntry]
      rw [findEntry] at h
      by_cases hk : e.1 = k
      · rwa [if_pos hk] at h ⊢
      · rw [if_neg hk] at h ⊢
        exact ih h

theorem findEntry_map {names : List κ} {n : κ} (hn : n ∈ names) (f : κ → β) :
    findEntry n (names.map fun m => (m, f m)) = some (f n) := by
  induction names with
  | nil => cases hn
  | cons m names ih =>
      rw [List.map_cons, findEntry]
      split
      · rename_i heq
        rw [heq]
      · rename_i hne
        exact ih ((List.mem_cons.mp hn).resolve_left (Ne.symm hne))

theorem insertEntry_map {names : List κ} (hnodup : names.Nodup) {n : κ} (hn : n ∈ names)
    (f : κ → β) (x : β) : insertEntry n x (names.map fun m => (m, f m)) =
      names.map fun m => (m, Function.update f n x m) := by
  induction names with
  | nil => cases hn
  | cons m names ih =>
      obtain ⟨hm, hnodup⟩ := List.nodup_cons.mp hnodup
      rw [List.map_cons, insertEntry, List.map_cons]
      split
      · rename_i heq
        subst heq
        rw [Function.update_self]
        congr 1
        refine List.map_congr_left fun k hk => ?_
        rw [Function.update_of_ne fun heq : k = m => hm (heq ▸ hk)]
      · rename_i hne
        rw [Function.update_of_ne hne,
          ih hnodup ((List.mem_cons.mp hn).resolve_left (Ne.symm hne))]

end Table

theorem memberOf_eq_ok {members : List (String × String)} {property name : String} :
    memberOf members property = .ok name ↔ Table.findEntry property members = some name := by
  rw [memberOf]
  cases Table.findEntry property members <;> simp

theorem memberOf_eq_ok_iff_mem {members : List (String × String)} {property name : String}
    (h : (members.map (·.1)).Nodup) :
    memberOf members property = .ok name ↔ (property, name) ∈ members := by
  rw [memberOf_eq_ok, Table.findEntry_eq_some h]

/-- Every property of a chain has a member name. -/
theorem exists_memberOf (escape : String → String) {ds : List Declared}
    (h : (ClassGraph.propertyNames ds).Nodup) {d : Declared} (hd : d ∈ ds) :
    ∃ name, memberOf (allocateMembers escape [] ds) d.property.name = .ok name := by
  have hkey : d.property.name ∈ (allocateMembers escape [] ds).map (·.1) := by
    rw [allocateMembers_keys]
    exact List.mem_map_of_mem hd
  obtain ⟨⟨_, name⟩, hmem, rfl⟩ := List.mem_map.mp hkey
  exact ⟨name, (memberOf_eq_ok_iff_mem (by rwa [allocateMembers_keys])).mpr hmem⟩

/-- A member name is one that was made legal. -/
theorem exists_escape_of_memberOf {ds : List Declared} (h : (ClassGraph.propertyNames ds).Nodup)
    {property name : String} (hname : memberOf (allocateMembers escape [] ds) property = .ok name) :
    ∃ wanted, name = escape wanted := by
  rw [memberOf_eq_ok_iff_mem (by rwa [allocateMembers_keys])] at hname
  exact exists_escape_eq _ hname

theorem memberOf_keeps {P : String → Prop} (hescape : ∀ n, P n → P (escape n))
    (hlonger : ∀ n, P n → P (n ++ "_")) {ds : List Declared}
    (hds : (ClassGraph.propertyNames ds).Nodup) (h : ∀ d ∈ ds, P d.property.name)
    {property name : String} (hname : memberOf (allocateMembers escape [] ds) property = .ok name) :
    P name := by
  rw [memberOf_eq_ok_iff_mem (by rwa [allocateMembers_keys])] at hname
  exact allocateMembers_keeps hescape hlonger h _ hname

/-- Properties of a chain whose member names agree are the same. -/
theorem eq_of_memberOf (he : Lengthens escape) {ds : List Declared}
    (h : (ClassGraph.propertyNames ds).Nodup) {property property' name : String}
    (hp : memberOf (allocateMembers escape [] ds) property = .ok name)
    (hp' : memberOf (allocateMembers escape [] ds) property' = .ok name) :
    property = property' := by
  have hkeys : ((allocateMembers escape [] ds).map (·.1)).Nodup := by rwa [allocateMembers_keys]
  rw [memberOf_eq_ok_iff_mem hkeys] at hp hp'
  have := List.inj_on_of_nodup_map (allocateMembers_fresh he [] ds).1 hp hp' rfl
  exact congrArg Prod.fst this

/-- A longer chain gives its inherited properties the names they had. -/
theorem memberOf_append {ds es : List Declared} {property name : String}
    (h : memberOf (allocateMembers escape [] ds) property = .ok name) :
    memberOf (allocateMembers escape [] (ds ++ es)) property = .ok name := by
  obtain ⟨more, hmore⟩ := allocateMembers_append escape [] ds es
  rw [hmore, memberOf_eq_ok]
  exact Table.findEntry_append (memberOf_eq_ok.mp h) more

/-! ## Documentation under member names -/

/-- Entries of named properties can be renamed, and no text changes. -/
theorem renameEntries_ok {members : List (String × String)} {d : Documentation} (hd : d.Solid)
    (h : ∀ e ∈ d.entries, ∃ name, memberOf members e.1 = .ok name) :
    ∃ d', renameEntries members d = .ok d' ∧ d'.Solid ∧ d'.isEmpty = d.isEmpty := by
  have hentry : ∀ e ∈ d.entries, ∃ e',
      (return (← memberOf members e.1, e.2) : Except TargetFault (String × String)) = .ok e' := by
    intro e he
    obtain ⟨name, hname⟩ := h e he
    exact ⟨(name, e.2), by rw [hname, ok_bind, pure_eq]⟩
  obtain ⟨entries, hentries⟩ := mapM_total hentry
  have hrenamed := mapM_eq_ok.mp hentries
  refine ⟨{ d with entries }, by rw [renameEntries, hentries]; rfl, ⟨hd.lead, ?_⟩, ?_⟩
  · intro e' he'
    obtain ⟨e, he, hok⟩ := hrenamed.exists_left e' he'
    obtain ⟨name, _, hok⟩ := bind_eq_ok.mp hok
    obtain rfl := Except.ok.inj hok
    exact hd.entries e he
  · have hlength : entries.length = d.entries.length := hrenamed.length_eq.symm
    have hempty : entries.isEmpty = d.entries.isEmpty := by
      rw [Bool.eq_iff_iff, List.isEmpty_iff_length_eq_zero, List.isEmpty_iff_length_eq_zero,
        hlength]
    simp [Documentation.isEmpty, hempty]

end RecordGen

import RecordGen.Proofs.TypeNames

/-! # Which names claims get

The types of a module claim their names one after the other, and so do the modules of a graph their
containers. Every claim asks for a base and gets it, or the base with the smallest number that makes
it new. Here the table of names is read back as these claims, and no name that a claim can get is
reserved. -/

namespace RecordGen

/-! ## Claims in a row -/

/-- The name that a base gets: the base itself if it is free, else the base with the smallest number
from two upward that is free. -/
def IsFirstFree (taken : List String) (base name : String) : Prop :=
  (base ∉ taken ∧ name = base) ∨
    (base ∈ taken ∧ ∃ k, 2 ≤ k ∧ name = base ++ toString k ∧ name ∉ taken ∧
      ∀ j, 2 ≤ j → j < k → base ++ toString j ∈ taken)

theorem uniqueName_isFirstFree (taken : List String) (base : String) :
    IsFirstFree taken base (uniqueName taken base) := by
  by_cases h : base ∈ taken
  · obtain ⟨k, hname, hfree, hbefore⟩ := uniqueName_of_mem h
    refine Or.inr ⟨h, k + 2, by omega, hname, hfree, fun j hj hlt => ?_⟩
    obtain ⟨i, rfl⟩ := Nat.exists_eq_add_of_le' hj
    exact hbefore i (by omega)
  · exact Or.inl ⟨h, uniqueName_of_not_mem h⟩

/-- Only which names are taken counts. -/
theorem IsFirstFree.congr {taken taken' : List String} (h : ∀ x, x ∈ taken ↔ x ∈ taken')
    {base name : String} (hfree : IsFirstFree taken base name) :
    IsFirstFree taken' base name := by
  simpa only [IsFirstFree, h] using hfree

/-- Whatever a claim gets begins with its base. -/
theorem IsFirstFree.exists_append {taken : List String} {base name : String}
    (h : IsFirstFree taken base name) :
    name = base ∨ ∃ k : Nat, name = base ++ toString k := by
  rcases h with ⟨-, rfl⟩ | ⟨-, k, -, rfl, -⟩
  · exact Or.inl rfl
  · exact Or.inr ⟨k, rfl⟩

/-- The names that bases get, claimed one after the other. -/
def claimAll (taken : List String) : List String → List String
  | [] => []
  | b :: bs => uniqueName taken b :: claimAll (uniqueName taken b :: taken) bs

@[simp] theorem claimAll_length (taken bs : List String) :
    (claimAll taken bs).length = bs.length := by
  induction bs generalizing taken with
  | nil => rfl
  | cons b bs ih => simp [claimAll, ih]

theorem claimAll_append (taken bs cs : List String) : claimAll taken (bs ++ cs) =
    claimAll taken bs ++ claimAll ((claimAll taken bs).reverse ++ taken) cs := by
  induction bs generalizing taken with
  | nil => rfl
  | cons b bs ih => simp [claimAll, ih]

/-- A table lists the names of claims in their order. Then every claim has got the first free name
behind those of the claims before it. -/
theorem isFirstFree_of_claimAll {α : Type} {nameOf : α → Option String} {base : α → String}
    {taken : List String} {claims : List α}
    (h : claims.map nameOf = (claimAll taken (claims.map base)).map some) {pre post : List α}
    {q : α} (hsplit : claims = pre ++ q :: post) : ∃ name, nameOf q = some name ∧
      IsFirstFree (taken ++ pre.filterMap nameOf) (base q) name := by
  subst hsplit
  simp only [List.map_append, List.map_cons, claimAll_append, claimAll] at h
  obtain ⟨hpre, hrest⟩ := List.append_inj h (by simp)
  refine ⟨_, (List.cons.inj hrest).1, (uniqueName_isFirstFree _ _).congr fun x => ?_⟩
  have hnames : pre.filterMap nameOf = claimAll taken (pre.map base) := by
    calc pre.filterMap nameOf = (pre.map nameOf).filterMap id := by simp [List.filterMap_map]
      _ = claimAll taken (pre.map base) := by rw [hpre, List.filterMap_map]; simp
  simp [hnames, or_comm]

/-! ## The claims of a graph -/

theorem containerNames_eq (taken ms : List String) : containerNames taken ms =
    claimAll taken (ms.map fun m => safeTypeName (Text.pascalCase m)) := by
  induction ms generalizing taken with
  | nil => rfl
  | cons m ms ih => simp [containerNames, claimAll, ih]

/-- A type of a class that asks for a name. -/
structure NameClaim where
  source : ClassId
  slot : Slot
  base : String

namespace Naming

variable {p : String} {g : ClassGraph}

/-- The claims of a class, its interface's first. -/
def claimsOfClass (p : String) (g : ClassGraph) (c : ClassId) : List NameClaim :=
  let d := g.decl c
  (wantedInterface p d.name d.kind).toList.map (⟨c, .interface, ·⟩) ++
    (wantedRecord d.name d.kind).toList.map (⟨c, .record, ·⟩)

/-- The claims in a module's container, in their order. The module's own type has the name of the
container without a claim; only the record beside the interface of an extensible module needs one.
-/
def claims (p : String) (g : ClassGraph) (m : ClassId) (container : String) : List NameClaim :=
  (if (g.decl m).kind = .extensible then [⟨m, .record, container ++ "Impl"⟩] else []) ++
    (g.membersOf (g.decl m).name).flatMap (claimsOfClass p g)

/-- The simple name of a type of a class. -/
def nameAt (n : Naming) (s : Slot) (c : ClassId) : Option String :=
  ((n.at s).find? c).map (·.name)

end Naming

/-- The names of a module's own types are the container's and what the others claim. All of them are
taken afterwards. -/
theorem moduleNames_eq (container : String) (kind : Extensibility) :
    let claimed := claimAll (container :: protocolTypes)
      (if kind = .extensible then [container ++ "Impl"] else [])
    (moduleNames container kind).1.toList = container :: claimed ∧
      (moduleNames container kind).2 = claimed.reverse ++ container :: protocolTypes := by
  cases kind <;> simp [moduleNames, ClassNames.toList, claim, claimAll]

theorem classNames_eq (p : String) (taken : List String) (cs : List (String × Extensibility)) :
    (classNames p taken cs).flatMap ClassNames.toList = claimAll taken (cs.flatMap fun c =>
      (wantedInterface p c.1 c.2).toList ++ (wantedRecord c.1 c.2).toList) := by
  induction cs generalizing taken with
  | nil => rfl
  | cons c cs ih =>
      obtain ⟨name, kind⟩ := c
      cases kind <;> simp [classNames, claim, claimAll, ih, ClassNames.toList, wantedInterface,
        wantedRecord, Extensibility.allowsSubclasses, Extensibility.allowsInstances]

namespace Naming

open Allotment ClassGraph

variable {p : String} {g : ClassGraph}

/-- The names of a module's types in their order. -/
theorem ofModule_names_eq (p : String) (g : ClassGraph) (m : ClassId) (container : String) :
    ((ofModule p g (m, container)).map Allotment.names).flatMap ClassNames.toList =
      container :: claimAll (container :: protocolTypes)
        ((claims p g m container).map NameClaim.base) := by
  obtain ⟨hown, htaken⟩ := moduleNames_eq container (g.decl m).kind
  rw [ofModule_names, List.flatMap_cons, hown, classNames_eq, htaken, List.cons_append,
    ← claimAll_append]
  congr 2
  rw [claims, List.map_append, List.map_flatMap, List.flatMap_map]
  congr 1
  · split <;> rfl
  · simp [claimsOfClass, Function.comp_def]

theorem nameAt_eq (h : g.Nameable) {e : Allotment} (he : e ∈ allotments p g) (s : Slot) :
    (ofGraph p g).nameAt s e.source = e.names.at s := by
  have hsole : ∀ e' ∈ allotments p g, e'.source = e.source → e' = e := fun e' he' hsource =>
    List.inj_on_of_nodup_map (allotments_sources_nodup h) he' he hsource
  rw [nameAt, ofGraph_find?_of_sole he hsole, Option.map_map]
  exact Option.map_id'

/-- The claims of a class are made for the types that it gets. -/
theorem claimsOfClass_names (h : g.Nameable) {e : Allotment} (he : e ∈ allotments p g)
    (hi : e.names.interface.isSome = (g.decl e.source).kind.allowsSubclasses)
    (hr : e.names.record.isSome = (g.decl e.source).kind.allowsInstances) :
    (claimsOfClass p g e.source).map (fun q => (ofGraph p g).nameAt q.slot q.source) =
      e.names.toList.map some := by
  have hslot : ∀ (wanted named : Option String) (s : Slot), named.isSome = wanted.isSome →
      e.names.at s = named →
      (wanted.toList.map (⟨e.source, s, ·⟩ : String → NameClaim)).map
        (fun q => (ofGraph p g).nameAt q.slot q.source) = named.toList.map some := by
    intro wanted named s hsome hnamed
    cases wanted <;> cases named <;> simp_all [nameAt_eq h he]
  rw [claimsOfClass, List.map_append, ClassNames.toList, List.map_append,
    hslot _ e.names.interface .interface (by simpa using hi) rfl,
    hslot _ e.names.record .record (by simpa using hr) rfl]

/-- The claim of a module is made for the type beside the container's own. -/
theorem ownClaims_names (h : g.Nameable) {m : ClassId} {container : String}
    (hm : (m, container) ∈ housing g) :
    (if (g.decl m).kind = .extensible then
        [(⟨m, .record, container ++ "Impl"⟩ : NameClaim)] else []).map
      (fun q => (ofGraph p g).nameAt q.slot q.source) =
        ((moduleNames container (g.decl m).kind).1.toList.drop 1).map some := by
  have hname := nameAt_eq h (p := p)
    (e := ⟨container, m, (moduleNames container (g.decl m).kind).1⟩)
    (List.mem_flatMap.mpr ⟨_, hm, List.mem_cons_self⟩) .record
  cases hkind : (g.decl m).kind with
  | final => simp [moduleNames, ClassNames.toList]
  | abstract => simp [moduleNames, ClassNames.toList]
  | extensible =>
      rw [hkind] at hname
      simpa [moduleNames, ClassNames.toList, claim, ClassNames.at] using hname

/-- The claims of the classes of a module are made for the types that they get. -/
theorem memberClaims_names (h : g.Nameable) {m : ClassId} {container : String}
    (hm : (m, container) ∈ housing g) :
    ((g.membersOf (g.decl m).name).flatMap (claimsOfClass p g)).map
      (fun q => (ofGraph p g).nameAt q.slot q.source) =
        ((classNames p (moduleNames container (g.decl m).kind).2
          ((g.membersOf (g.decl m).name).map fun c =>
            ((g.decl c).name, (g.decl c).kind))).flatMap ClassNames.toList).map some := by
  have hallotted : ∀ e ∈ (g.membersOf (g.decl m).name).zip
      (classNames p (moduleNames container (g.decl m).kind).2
        ((g.membersOf (g.decl m).name).map fun c => ((g.decl c).name, (g.decl c).kind))),
      (⟨container, e.1, e.2⟩ : Allotment) ∈ allotments p g := fun e he =>
    List.mem_flatMap.mpr ⟨_, hm, List.mem_cons_of_mem _ (List.mem_map.mpr ⟨e, he, rfl⟩)⟩
  obtain ⟨hlength, hfills⟩ := List.forall₂_iff_zip.mp (List.forall₂_map_left_iff.mp
    (classNames_forall₂ p (moduleNames container (g.decl m).kind).2
      ((g.membersOf (g.decl m).name).map fun c => ((g.decl c).name, (g.decl c).kind))))
  generalize classNames p _ _ = named at hallotted hlength hfills ⊢
  have hnames : List.Forall₂ (fun c n => (claimsOfClass p g c).map
      (fun q => (ofGraph p g).nameAt q.slot q.source) = n.toList.map some)
      (g.membersOf (g.decl m).name) named := by
    refine List.forall₂_iff_zip.mpr ⟨hlength, fun {c n} hcn => ?_⟩
    obtain ⟨hi, hr⟩ := hfills hcn
    exact claimsOfClass_names (e := ⟨container, c, n⟩) h (hallotted _ hcn) hi hr
  clear hallotted hlength hfills
  generalize g.membersOf (g.decl m).name = members at hnames ⊢
  induction hnames with
  | nil => rfl
  | cons hn _ ih => simp only [List.flatMap_cons, List.map_append, hn, ih]

/-- The claims in a module's container get their names in their order. -/
theorem claims_names (h : g.Nameable) {m : ClassId} {container : String}
    (hm : (m, container) ∈ housing g) :
    (claims p g m container).map (fun q => (ofGraph p g).nameAt q.slot q.source) =
      (claimAll (container :: protocolTypes)
        ((claims p g m container).map NameClaim.base)).map some := by
  obtain ⟨hown, -⟩ := moduleNames_eq container (g.decl m).kind
  have hall := ofModule_names_eq p g m container
  rw [ofModule_names, List.flatMap_cons, hown, List.cons_append] at hall
  rw [claims, List.map_append, ownClaims_names h hm, memberClaims_names h hm, ← List.map_append,
    hown, List.drop_one, List.tail_cons, (List.cons.inj hall).2, claims]

/-! ## What naming a graph promises -/

/-- A name that stands for nothing else in a target, whatever the case of its letters. -/
structure Spared (name : String) : Prop where
  reserved : Text.lower name ∉ reservedTypeNames
  platform : name ∉ platformTypes
  protocol : name ∉ protocolTypes

/-- The names of a graph: containers and types of different names, for the modules and for whatever
their classes become, none of them reserved, and each the first free one behind those claimed
before it. -/
structure Allocates (n : Naming) (p : String) (g : ClassGraph) : Prop where
  containers : ∀ pre m post, g.modules = pre ++ m :: post →
    ∃ container, n.containers.find? (g.decl m).name = some container ∧
      IsFirstFree
        (protocolTypes ++ pre.filterMap fun m' => n.containers.find? (g.decl m').name)
        (safeTypeName (Text.pascalCase (g.decl m).name)) container
  containers_apart : ∀ {m m' container}, n.containers.find? m = some container →
    n.containers.find? m' = some container → m = m'
  types_apart : ∀ {s s' c c' t}, (n.at s).find? c = some t → (n.at s').find? c' = some t →
    s = s' ∧ c = c'
  types : ∀ m ∈ g.modules, ∀ c ∈ m :: g.membersOf (g.decl m).name, ∀ s,
    (g.decl c).kind.fills s = true →
      ∃ t, (n.at s).find? c = some t ∧ n.containers.find? (g.decl m).name = some t.container
  own : ∀ {s c t}, (n.at s).find? c = some t → t.isModuleType = true →
    c ∈ g.modules ∧ n.containers.find? (g.decl c).name = some t.container
  claimed : ∀ {s c t}, (n.at s).find? c = some t → t.isModuleType = false →
    ∃ m ∈ g.modules, n.containers.find? (g.decl m).name = some t.container ∧
      ∃ pre q post, claims p g m t.container = pre ++ q :: post ∧ q.source = c ∧ q.slot = s ∧
        IsFirstFree (t.container :: protocolTypes ++
          pre.filterMap fun q' => n.nameAt q'.slot q'.source) q.base t.name
  containers_spared : ∀ {m container}, n.containers.find? m = some container → Spared container
  types_spared : ∀ {s c t}, (n.at s).find? c = some t → Spared t.name

/-! ## Every graph is named so -/

/-- The modules claim their containers in their order. -/
theorem containers_eq_claimAll (hn : (g.modules.map fun m => (g.decl m).name).Nodup) :
    (g.modules.map fun m => (ofGraph p g).containers.find? (g.decl m).name) =
      (claimAll protocolTypes
        (g.modules.map fun m => safeTypeName (Text.pascalCase (g.decl m).name))).map some := by
  have hfind : ∀ e ∈ housing g,
      (ofGraph p g).containers.find? (g.decl e.1).name = some e.2 := fun e he =>
    (ofGraph_container_find? hn).mpr ⟨e.1, he, rfl⟩
  calc g.modules.map (fun m => (ofGraph p g).containers.find? (g.decl m).name)
      = (housing g).map (fun e => (ofGraph p g).containers.find? (g.decl e.1).name) := by
        rw [← housing_map_fst g, List.map_map]
        rfl
    _ = ((housing g).map (·.2)).map some := by
        rw [List.map_map]
        exact List.map_congr_left hfind
    _ = _ := by rw [housing_map_snd, containerNames_eq, List.map_map]; rfl

theorem containers_names (h : g.Nameable) :
    (g.modules.map fun m => (ofGraph p g).containers.find? (g.decl m).name) =
      (claimAll protocolTypes
        (g.modules.map fun m => safeTypeName (Text.pascalCase (g.decl m).name))).map some :=
  containers_eq_claimAll h.names_nodup

/-- What a type of a class is called before it is escaped. -/
def stem (p : String) (g : ClassGraph) (s : Slot) (c : ClassId) : String :=
  match s with
  | .interface => p ++ (g.decl c).name
  | .record => (g.decl c).name

/-- A claim is made for the record beside a module's interface, or for a type of a class. -/
theorem claim_cases {m : ClassId} {container : String} {q : NameClaim}
    (hq : q ∈ claims p g m container) :
    (q.source = m ∧ q.base = container ++ "Impl") ∨
      q.source ∈ g.membersOf (g.decl m).name ∧
        q.base = safeTypeName (stem p g q.slot q.source) := by
  rcases List.mem_append.mp hq with hq | hq
  · split at hq
    · obtain rfl := List.mem_singleton.mp hq
      exact Or.inl ⟨rfl, rfl⟩
    · cases hq
  · obtain ⟨c, hc, hq⟩ := List.mem_flatMap.mp hq
    right
    rcases List.mem_append.mp hq with hq | hq
    · obtain ⟨base, hbase, rfl⟩ := List.mem_map.mp hq
      rw [Option.mem_toList, wantedInterface, Option.map_eq_some_iff] at hbase
      obtain ⟨wanted, hwanted, rfl⟩ := hbase
      split at hwanted
      · exact ⟨hc, congrArg safeTypeName (Option.some.inj hwanted).symm⟩
      · cases hwanted
    · obtain ⟨base, hbase, rfl⟩ := List.mem_map.mp hq
      rw [Option.mem_toList, wantedRecord, Option.map_eq_some_iff] at hbase
      obtain ⟨wanted, hwanted, rfl⟩ := hbase
      split at hwanted
      · exact ⟨hc, congrArg safeTypeName (Option.some.inj hwanted).symm⟩
      · cases hwanted

/-- A class claims every type that its kind asks for. -/
theorem exists_claimOfClass {s : Slot} {c : ClassId} (hs : (g.decl c).kind.fills s = true) :
    ∃ q ∈ claimsOfClass p g c, q.source = c ∧ q.slot = s := by
  cases s with
  | interface =>
      obtain ⟨base, hbase⟩ := Option.isSome_iff_exists.mp
        ((wantedInterface_isSome p (g.decl c).name (g.decl c).kind).trans hs)
      exact ⟨⟨c, .interface, base⟩, by simp [claimsOfClass, hbase], rfl, rfl⟩
  | record =>
      obtain ⟨base, hbase⟩ := Option.isSome_iff_exists.mp
        ((wantedRecord_isSome (g.decl c).name (g.decl c).kind).trans hs)
      exact ⟨⟨c, .record, base⟩, by simp [claimsOfClass, hbase], rfl, rfl⟩

/-- A module claims what it gets beside the type that its container is. -/
theorem exists_claimOfModule {s : Slot} {m : ClassId} {container name : String}
    (hname : (moduleNames container (g.decl m).kind).1.at s = some name) (hne : name ≠ container) :
    ∃ q ∈ claims p g m container, q.source = m ∧ q.slot = s := by
  cases hkind : (g.decl m).kind <;> cases s <;> rw [hkind] at hname <;>
    simp [moduleNames, ClassNames.at, claim, Ne.symm hne] at hname
  exact ⟨⟨m, .record, container ++ "Impl"⟩, by simp [claims, hkind], rfl, rfl⟩

/-- A type beside a container's own is claimed. -/
theorem exists_claim {s : Slot} {c : ClassId} {t : TypePath}
    (ht : ((ofGraph p g).at s).find? c = some t) (hown : t.isModuleType = false) :
    ∃ m, (m, t.container) ∈ housing g ∧
      ∃ q ∈ claims p g m t.container, q.source = c ∧ q.slot = s := by
  obtain ⟨e, he, hentry⟩ := exists_allotment_of_find? ht
  obtain ⟨rfl, hname, hcontainer⟩ := entry_eq_some.mp hentry
  obtain ⟨⟨m, container⟩, hm, hemem⟩ := List.mem_flatMap.mp he
  obtain rfl : container = t.container := (ofModule_container e hemem).symm.trans hcontainer
  refine ⟨m, hm, ?_⟩
  rcases List.mem_cons.mp hemem with rfl | hmember
  · refine exists_claimOfModule hname fun heq => ?_
    rw [TypePath.isModuleType, heq, beq_self_eq_true] at hown
    cases hown
  · obtain ⟨⟨c, n⟩, hzip, rfl⟩ := List.mem_map.mp hmember
    obtain ⟨-, hfills⟩ := List.forall₂_iff_zip.mp (List.forall₂_map_left_iff.mp
      (classNames_forall₂ p (moduleNames t.container (g.decl m).kind).2
        ((g.membersOf (g.decl m).name).map fun c => ((g.decl c).name, (g.decl c).kind))))
    obtain ⟨hi, hr⟩ := hfills hzip
    have hs : (g.decl c).kind.fills s = true := by
      cases s with
      | interface => exact hi.symm.trans (by rw [show n.interface = _ from hname]; rfl)
      | record => exact hr.symm.trans (by rw [show n.record = _ from hname]; rfl)
    obtain ⟨q, hq, hsource⟩ := exists_claimOfClass (p := p) hs
    refine ⟨q, List.mem_append_right _ (List.mem_flatMap.mpr ⟨c, ?_, hq⟩), hsource⟩
    exact (List.of_mem_zip hzip).1

/-- A claimed type has got the first name that was free behind the claims before it. -/
theorem exists_claimed (h : g.Nameable) {s : Slot} {c : ClassId} {t : TypePath}
    (ht : ((ofGraph p g).at s).find? c = some t) (hown : t.isModuleType = false) :
    ∃ m, (m, t.container) ∈ housing g ∧ ∃ pre q post,
      claims p g m t.container = pre ++ q :: post ∧ q.source = c ∧ q.slot = s ∧
        IsFirstFree (t.container :: protocolTypes ++
          pre.filterMap fun q' => (ofGraph p g).nameAt q'.slot q'.source) q.base t.name := by
  obtain ⟨m, hm, q, hq, rfl, rfl⟩ := exists_claim ht hown
  obtain ⟨pre, post, hsplit⟩ := List.append_of_mem hq
  refine ⟨m, hm, pre, q, post, hsplit, rfl, rfl, ?_⟩
  obtain ⟨name, hname, hfree⟩ := isFirstFree_of_claimAll (claims_names h hm) hsplit
  rw [nameAt, ht, Option.map_some] at hname
  exact Option.some.inj hname ▸ hfree

/-- The type of a module that is not its container has got a name made from the container's. -/
theorem claimed_own (h : g.Nameable) {s : Slot} {m : ClassId} {t : TypePath}
    (hmodule : (g.decl m).isModule = true) (ht : ((ofGraph p g).at s).find? m = some t)
    (hown : t.isModuleType = false) :
    (m, t.container) ∈ housing g ∧ ∃ taken, IsFirstFree taken (t.container ++ "Impl") t.name := by
  obtain ⟨m', hm, pre, q, post, hsplit, rfl, rfl, hfree⟩ := exists_claimed h ht hown
  have hq : q ∈ claims p g m' t.container := hsplit ▸ List.mem_append_right _ List.mem_cons_self
  rcases claim_cases hq with ⟨rfl, hbase⟩ | ⟨hmember, -⟩
  · exact ⟨hm, _, hbase ▸ hfree⟩
  · rw [(mem_membersOf.mp hmember).2.1] at hmodule
    cases hmodule

/-- A type of a class has got the first name that was free. What was not free was the container, a
name of the copy-with protocol, or another type. -/
theorem claimed_class (h : g.Nameable) {s : Slot} {c : ClassId} {t : TypePath}
    (hmodule : (g.decl c).isModule = false) (ht : ((ofGraph p g).at s).find? c = some t) :
    c ∈ g.classes ∧ ∃ taken, IsFirstFree taken (safeTypeName (stem p g s c)) t.name ∧
      ∀ x ∈ taken, x = t.container ∨ x ∈ protocolTypes ∨
        ∃ s' c' t', ((ofGraph p g).at s').find? c' = some t' ∧ t'.name = x := by
  have hown : t.isModuleType = false := by
    by_contra hown
    rw [isModule_of_isModuleType h ht (by simpa using hown)] at hmodule
    cases hmodule
  obtain ⟨m, hm, pre, q, post, hsplit, rfl, rfl, hfree⟩ := exists_claimed h ht hown
  have hq : q ∈ claims p g m t.container := hsplit ▸ List.mem_append_right _ List.mem_cons_self
  rcases claim_cases hq with ⟨heq, -⟩ | ⟨hmember, hbase⟩
  · rw [heq, h.modules_are m (mem_modules_of_mem_housing hm)] at hmodule
    cases hmodule
  · refine ⟨(mem_membersOf.mp hmember).1, _, hbase ▸ hfree, fun x hx => ?_⟩
    rw [List.cons_append, List.mem_cons, List.mem_append, List.mem_filterMap] at hx
    refine hx.imp_right fun hx => hx.imp_right ?_
    rintro ⟨q', -, hname⟩
    obtain ⟨t', ht', hname⟩ := Option.map_eq_some_iff.mp hname
    exact ⟨_, _, t', ht', hname⟩

/-- Naming a graph keeps all its promises, whatever the prefix of its interfaces. -/
theorem ofGraph_allocates (p : String) (g : ClassGraph) (h : g.Nameable) :
    (ofGraph p g).Allocates p g where
  containers pre m post hsplit := isFirstFree_of_claimAll (containers_names h) hsplit
  containers_apart {m m' container} hm hm' := by
    obtain ⟨x, hx, rfl⟩ := (ofGraph_container_find? h.names_nodup).mp hm
    obtain ⟨x', hx', rfl⟩ := (ofGraph_container_find? h.names_nodup).mp hm'
    have heq := List.inj_on_of_nodup_map (housing_containers_nodup g) hx hx' rfl
    rw [(Prod.mk.inj heq).1]
  types_apart hs hs' := ofGraph_injective hs hs'
  types m hm c hc s hs := by
    rw [← housing_map_fst g] at hm
    obtain ⟨⟨m, container⟩, hhoused, rfl⟩ := List.mem_map.mp hm
    obtain ⟨e, he, rfl, hfills⟩ := exists_allotted (p := p) hhoused hc
    obtain ⟨name, hname⟩ := Option.isSome_iff_exists.mp ((hfills s).trans hs)
    refine ⟨⟨name, container⟩, (ofGraph_find? h).mpr ⟨e, List.mem_flatMap.mpr ⟨_, hhoused, he⟩,
      entry_eq_some.mpr ⟨rfl, hname, ofModule_container e he⟩⟩, ?_⟩
    exact (ofGraph_container_find? h.names_nodup).mpr ⟨m, hhoused, rfl⟩
  own ht hmodule := by
    have hm := mem_housing_of_isModuleType h ht hmodule
    exact ⟨mem_modules_of_mem_housing hm,
      (ofGraph_container_find? h.names_nodup).mpr ⟨_, hm, rfl⟩⟩
  claimed ht hown := by
    obtain ⟨m, hm, pre, q, post, hq⟩ := exists_claimed h ht hown
    exact ⟨m, mem_modules_of_mem_housing hm,
      (ofGraph_container_find? h.names_nodup).mpr ⟨m, hm, rfl⟩, pre, q, post, hq⟩
  containers_spared hk := by
    obtain ⟨m, hm, -⟩ := (ofGraph_container_find? h.names_nodup).mp hk
    exact ⟨(reserved_keptByNaming g p).housing hm, (platform_keptByNaming g p).housing hm,
      not_mem_protocolTypes_of_mem_housing hm⟩
  types_spared ht :=
    ⟨((reserved_keptByNaming g p).typePath ht).1, ((platform_keptByNaming g p).typePath ht).1,
      (not_mem_protocolTypes_of_find? ht).1⟩

end Naming

/-- Two modules whose containers have one base. In the first, every class asks for a name that is
reserved or that another type has before. -/
def ClassGraph.crowded : ClassGraph where
  decls := [
    { name := "m", kind := .extensible, isModule := true, moduleName := "m" },
    { name := "A", kind := .extensible, moduleName := "m" },
    { name := "IA", moduleName := "m" },
    { name := "If", moduleName := "m" },
    { name := "IfType", moduleName := "m" },
    { name := "Memento", moduleName := "m" },
    { name := "MImpl", kind := .abstract, moduleName := "m" },
    { name := "M", isModule := true, moduleName := "M" }]
  modules := [0, 7]
  classes := [0, 1, 2, 3, 4, 5, 6, 7]

namespace Naming

theorem crowded_allocates : ClassGraph.crowded.Nameable ∧
    (ofGraph "I" ClassGraph.crowded).Allocates "I" ClassGraph.crowded := by
  have h : ClassGraph.crowded.Nameable := ⟨by decide, by decide, by decide⟩
  exact ⟨h, ofGraph_allocates "I" ClassGraph.crowded h⟩

example : (ofGraph "I" ClassGraph.crowded).records.entries =
    [(0, ⟨"MImpl", "M"⟩), (1, ⟨"A", "M"⟩), (2, ⟨"IA2", "M"⟩), (3, ⟨"IfType", "M"⟩),
     (4, ⟨"IfType2", "M"⟩), (5, ⟨"Memento2", "M"⟩), (7, ⟨"M2", "M2"⟩)] := by
  decide +kernel

end Naming

end RecordGen

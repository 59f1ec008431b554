import RecordGen.Proofs.NameClaims

/-! # Names are local to a module

What a module and its classes are called depends on the container of the module and on the names and
kinds of its classes, each of them only on those before it. So a graph can grow behind a module, and
a module behind its classes, and every type keeps its name. -/

namespace RecordGen

open ClassGraph

/-! ## Names in a row -/

/-- The first names are claimed as if no others followed. -/
theorem claimAll_take (taken bs : List String) (k : Nat) :
    (claimAll taken bs).take k = claimAll taken (bs.take k) := by
  induction bs generalizing taken k with
  | nil => simp [claimAll]
  | cons b bs ih =>
      cases k with
      | zero => rfl
      | succ k => simp [claimAll, ih]

/-- Further classes change no name of those before them. -/
theorem classNames_prefix (p : String) {cs cs' : List (String × Extensibility)} (h : cs <+: cs') :
    ∀ taken, classNames p taken cs <+: classNames p taken cs' := by
  induction cs generalizing cs' with
  | nil => exact fun taken => List.nil_prefix
  | cons c cs ih =>
      intro taken
      obtain ⟨rest, rfl⟩ := h
      rw [List.cons_append, classNames, classNames, List.cons_prefix_cons]
      exact ⟨rfl, ih (List.prefix_append _ _) _⟩

/-! ## Classes that are named once -/

namespace ClassGraph

/-- The graph lists a class once, and it lists it among no modules. -/
def ListedOnce (g : ClassGraph) (c : ClassId) : Prop :=
  g.classes.count c = 1 ∧ c ∉ g.modules

instance (g : ClassGraph) (c : ClassId) : Decidable (g.ListedOnce c) :=
  inferInstanceAs (Decidable (g.classes.count c = 1 ∧ c ∉ g.modules))

/-- The names and kinds of the classes of a module, in declaration order. -/
def signatures (g : ClassGraph) (m : ClassId) : List (String × Extensibility) :=
  (g.membersOf (g.decl m).name).map fun c => ((g.decl c).name, (g.decl c).kind)

/-- In a graph that can be named, every class of a module is listed once. -/
theorem Nameable.listedOnce {g : ClassGraph} (h : g.Nameable) {m c : ClassId}
    (hc : c ∈ g.membersOf (g.decl m).name) : g.ListedOnce c := by
  obtain ⟨hlisted, hclass, -⟩ := mem_membersOf.mp hc
  refine ⟨List.count_eq_one_of_mem h.classes_nodup hlisted, fun hmodule => ?_⟩
  rw [h.modules_are c hmodule] at hclass
  cases hclass

end ClassGraph

/-- An element that a list holds once is paired once. -/
theorem eq_of_mem_zip_of_count {α β : Type} [DecidableEq α] {xs : List α} {ys : List β} {x : α}
    {y y' : β} (hone : xs.count x ≤ 1) (hy : (x, y) ∈ xs.zip ys) (hy' : (x, y') ∈ xs.zip ys) :
    y = y' := by
  induction xs generalizing ys with
  | nil => simp at hy
  | cons a xs ih =>
      cases ys with
      | nil => simp at hy
      | cons b ys =>
          rw [List.zip_cons_cons, List.mem_cons, Prod.mk.injEq] at hy hy'
          have hlast : x = a → ∀ z, (x, z) ∉ xs.zip ys := by
            rintro rfl z hz
            have hpos := List.count_pos_iff.mpr (List.of_mem_zip hz).1
            rw [List.count_cons_self] at hone
            omega
          rcases hy with ⟨hxa, rfl⟩ | hy
          · rcases hy' with ⟨-, rfl⟩ | hy'
            · rfl
            · exact absurd hy' (hlast hxa _)
          · rcases hy' with ⟨hxa, rfl⟩ | hy'
            · exact absurd hy (hlast hxa _)
            · exact ih (Nat.le_trans (List.count_le_count_cons ..) hone) hy hy'

namespace Naming

open Allotment

variable {p : String} {g g' : ClassGraph}

/-! ## Names of the classes of a module -/

/-- The names of the classes of a module, given its container. -/
def memberNames (p : String) (g : ClassGraph) (m : ClassId) (container : String) :
    List ClassNames :=
  classNames p (moduleNames container (g.decl m).kind).2 (g.signatures m)

theorem memberNames_length (p : String) (g : ClassGraph) (m : ClassId) (container : String) :
    (memberNames p g m container).length = (g.membersOf (g.decl m).name).length := by
  rw [memberNames, ← (classNames_forall₂ _ _ _).length_eq, signatures, List.length_map]

theorem exists_housed {m : ClassId} (hm : m ∈ g.modules) :
    ∃ container, (m, container) ∈ housing g := by
  rw [← housing_map_fst g] at hm
  obtain ⟨⟨_, container⟩, hhoused, rfl⟩ := List.mem_map.mp hm
  exact ⟨container, hhoused⟩

/-- A class that is listed once is allotted the names at its position, and none beside them. -/
theorem allotment_sole (hn : (g.modules.map fun m => (g.decl m).name).Nodup) {m c : ClassId}
    {container : String} (hm : (m, container) ∈ housing g) (hone : g.ListedOnce c)
    {n : ClassNames}
    (hzip : (c, n) ∈ (g.membersOf (g.decl m).name).zip (memberNames p g m container)) :
    (⟨container, c, n⟩ : Allotment) ∈ allotments p g ∧
      ∀ e ∈ allotments p g, e.source = c → e = ⟨container, c, n⟩ := by
  constructor
  · refine List.mem_flatMap.mpr ⟨(m, container), hm, List.mem_cons_of_mem _ ?_⟩
    exact List.mem_map.mpr ⟨(c, n), hzip, rfl⟩
  · rintro e he rfl
    obtain ⟨module, hmodule, he⟩ := List.mem_flatMap.mp he
    rcases List.mem_cons.mp he with heq | he
    · exact absurd (congrArg Allotment.source heq ▸ mem_modules_of_mem_housing hmodule) hone.2
    · obtain ⟨⟨c, n'⟩, hzip', rfl⟩ := List.mem_map.mp he
      -- Only the module that the class names has it among its members.
      have hname := (mem_membersOf.mp (List.of_mem_zip hzip').1).2.2
      have hname' := (mem_membersOf.mp (List.of_mem_zip hzip).1).2.2
      obtain rfl : module = (m, container) :=
        housing_unique hn hmodule hm (hname.symm.trans hname')
      have hcount : (g.membersOf (g.decl m).name).count c ≤ 1 :=
        hone.1 ▸ List.filter_sublist.count_le c
      rw [eq_of_mem_zip_of_count hcount hzip' hzip]

/-- The types of a class that is listed once are named at its position. -/
theorem find?_of_position (hn : (g.modules.map fun m => (g.decl m).name).Nodup) {m c : ClassId}
    {container : String} (hm : (m, container) ∈ housing g) (hone : g.ListedOnce c) {i : Nat}
    (hi : (g.membersOf (g.decl m).name)[i]? = some c) (s : Slot) :
    ∃ n, (memberNames p g m container)[i]? = some n ∧
      ((ofGraph p g).at s).find? c = (n.at s).map (⟨·, container⟩) := by
  obtain ⟨hlt, rfl⟩ := List.getElem?_eq_some_iff.mp hi
  have hlt' : i < (memberNames p g m container).length := by rwa [memberNames_length]
  have hzip : ((g.membersOf (g.decl m).name)[i], (memberNames p g m container)[i]) ∈
      (g.membersOf (g.decl m).name).zip (memberNames p g m container) := by
    refine List.mem_iff_getElem.mpr ⟨i, ?_, List.getElem_zip⟩
    rw [List.length_zip]
    exact Nat.lt_min.mpr ⟨hlt, hlt'⟩
  obtain ⟨hmem, hsole⟩ := allotment_sole hn hm hone hzip
  exact ⟨_, List.getElem?_eq_getElem hlt', ofGraph_find?_of_sole hmem hsole s⟩

/-! ## Names in two graphs -/

/-- The containers of the first modules depend on the names of these modules alone. -/
theorem containers_local (hn : (g.modules.map fun m => (g.decl m).name).Nodup)
    (hn' : (g'.modules.map fun m => (g'.decl m).name).Nodup) {k : Nat}
    (hnames : (g.modules.take k).map (fun m => (g.decl m).name) =
      (g'.modules.take k).map fun m => (g'.decl m).name) :
    (g.modules.take k).map (fun m => (ofGraph p g).containers.find? (g.decl m).name) =
      (g'.modules.take k).map fun m => (ofGraph p g').containers.find? (g'.decl m).name := by
  have hfirst : ∀ {h : ClassGraph}, (h.modules.map fun m => (h.decl m).name).Nodup →
      (h.modules.take k).map (fun m => (ofGraph p h).containers.find? (h.decl m).name) =
        (claimAll protocolTypes (((h.modules.take k).map fun m => (h.decl m).name).map fun name =>
          safeTypeName (Text.pascalCase name))).map some := by
    intro h hh
    rw [List.map_take, containers_eq_claimAll hh, ← List.map_take, claimAll_take, ← List.map_take,
      List.map_map]
    rfl
  rw [hfirst hn, hfirst hn', hnames]

/-- The types of a class depend on the kind and the container of its module and on the names and
kinds of the module's classes up to this one. -/
theorem types_local (hn : (g.modules.map fun m => (g.decl m).name).Nodup)
    (hn' : (g'.modules.map fun m => (g'.decl m).name).Nodup) {m m' : ClassId} {container : String}
    (hm : (m, container) ∈ housing g) (hm' : (m', container) ∈ housing g')
    (hkind : (g.decl m).kind = (g'.decl m').kind) (hbegins : g.signatures m <+: g'.signatures m')
    {i : Nat} {c c' : ClassId} (hc : (g.membersOf (g.decl m).name)[i]? = some c)
    (hc' : (g'.membersOf (g'.decl m').name)[i]? = some c') (hone : g.ListedOnce c)
    (hone' : g'.ListedOnce c') (s : Slot) :
    ((ofGraph p g).at s).find? c = ((ofGraph p g').at s).find? c' := by
  obtain ⟨n, hni, hfind⟩ := find?_of_position (p := p) hn hm hone hc s
  obtain ⟨n', hni', hfind'⟩ := find?_of_position (p := p) hn' hm' hone' hc' s
  have hnames : memberNames p g m container <+: memberNames p g' m' container := by
    rw [memberNames, memberNames, hkind]
    exact classNames_prefix p hbegins _
  have hsame : (memberNames p g' m' container)[i]? = some n := by
    obtain ⟨rest, hrest⟩ := hnames
    rw [← hrest, List.getElem?_append_left (List.getElem?_eq_some_iff.mp hni).1, hni]
  obtain rfl : n' = n := Option.some.inj (hni'.symm.trans hsame)
  rw [hfind, hfind']

/-- Two graphs name alike what they have alike, whatever else they hold: their first modules, if the
names of these agree; and the classes of two modules of the same kind and container, as long as the
names and kinds of the classes agree, one after the other. -/
theorem ofGraph_local (p : String) (g g' : ClassGraph)
    (hn : (g.modules.map fun m => (g.decl m).name).Nodup)
    (hn' : (g'.modules.map fun m => (g'.decl m).name).Nodup) :
    (∀ k, (g.modules.take k).map (fun m => (g.decl m).name) =
        (g'.modules.take k).map (fun m => (g'.decl m).name) →
      (g.modules.take k).map (fun m => (ofGraph p g).containers.find? (g.decl m).name) =
        (g'.modules.take k).map fun m => (ofGraph p g').containers.find? (g'.decl m).name) ∧
    ∀ m ∈ g.modules, ∀ m' ∈ g'.modules, (g.decl m).kind = (g'.decl m').kind →
      (ofGraph p g).containers.find? (g.decl m).name =
        (ofGraph p g').containers.find? (g'.decl m').name →
      g.signatures m <+: g'.signatures m' →
      ∀ (i : Nat) (c c' : ClassId), (g.membersOf (g.decl m).name)[i]? = some c →
        (g'.membersOf (g'.decl m').name)[i]? = some c' → g.ListedOnce c → g'.ListedOnce c' →
        ∀ s, ((ofGraph p g).at s).find? c = ((ofGraph p g').at s).find? c' := by
  refine ⟨fun k hnames => containers_local hn hn' hnames, ?_⟩
  intro m hm m' hm' hkind hcontainer hbegins i c c' hc hc' hone hone' s
  obtain ⟨container, hhoused⟩ := exists_housed hm
  obtain ⟨container', hhoused'⟩ := exists_housed hm'
  obtain rfl : container = container' := by
    rw [(ofGraph_container_find? hn).mpr ⟨m, hhoused, rfl⟩,
      (ofGraph_container_find? hn').mpr ⟨m', hhoused', rfl⟩] at hcontainer
    exact Option.some.inj hcontainer
  exact types_local hn hn' hhoused hhoused' hkind hbegins hc hc' hone hone' s

end Naming

/-! ## Classes in other places -/

namespace ClassGraph

/-- A module with one class. -/
def lone : ClassGraph where
  decls := [
    { name := "m", isModule := true, moduleName := "m" }, { name := "a", moduleName := "m" }]
  modules := [0]
  classes := [0, 1]

/-- The module behind another one, with a second class of the same name. -/
def crowd : ClassGraph where
  decls := [
    { name := "n", isModule := true, moduleName := "n" }, { name := "a", moduleName := "n" },
    { name := "m", isModule := true, moduleName := "m" }, { name := "a", moduleName := "m" },
    { name := "a", moduleName := "m" }]
  modules := [0, 2]
  classes := [0, 1, 2, 3, 4]

end ClassGraph

namespace Naming

theorem ofGraph_local_crowd : (lone.modules.map fun m => (lone.decl m).name).Nodup ∧
    (crowd.modules.map fun m => (crowd.decl m).name).Nodup ∧
    ∀ s, ((ofGraph "I" lone).at s).find? 1 = ((ofGraph "I" crowd).at s).find? 3 := by
  refine ⟨by decide, by decide, ?_⟩
  obtain ⟨-, htypes⟩ := ofGraph_local "I" lone crowd (by decide) (by decide)
  exact htypes 0 (by decide) 2 (by decide) rfl (by decide +kernel) (by decide +kernel) 0 1 3
    (by decide +kernel) (by decide +kernel) (by decide) (by decide)

/-- A class that stands among the modules as well is named as a module, and one that is listed twice
gets the names of its second place. -/
theorem ofGraph_moved :
    let promoted : ClassGraph := { lone with modules := [0, 1] }
    let repeated : ClassGraph := { lone with classes := [0, 1, 1] }
    (∀ g ∈ [lone, promoted, repeated], (g.modules.map fun m => (g.decl m).name).Nodup ∧
      0 ∈ g.modules ∧ (g.decl 0).kind = .final ∧
      (ofGraph "I" g).containers.find? (g.decl 0).name = some "M" ∧
      lone.signatures 0 <+: g.signatures 0 ∧ (g.membersOf (g.decl 0).name)[0]? = some 1) ∧
    ((ofGraph "I" lone).at .record).find? 1 = some ⟨"a", "M"⟩ ∧
    ((ofGraph "I" promoted).at .record).find? 1 = some ⟨"A", "A"⟩ ∧
    ((ofGraph "I" repeated).at .record).find? 1 = some ⟨"a2", "M"⟩ := by
  decide +kernel

end Naming

end RecordGen

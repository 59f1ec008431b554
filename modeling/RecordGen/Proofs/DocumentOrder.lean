import RecordGen.Proofs.Outcomes

/-! # What a loaded document says

The declarations of a loaded graph are the definitions of its document: module after module, each
with its classes, in document order. Every link between them leads to a declaration, so the faults
for missing declarations are left to the loader. -/

namespace RecordGen

open Fallible

/-! ## Lists in blocks -/

/-- What is paired with a list of blocks comes in blocks itself. -/
theorem exists_blocks {α β γ : Type} {R : α → β → Prop} {f : γ → β} {k : γ → List β}
    {bs : List γ} : ∀ {xs : List α}, List.Forall₂ R xs (bs.flatMap fun b => f b :: k b) →
      ∃ parts : List (α × List α), xs = (parts.flatMap fun p => p.1 :: p.2) ∧
        List.Forall₂ (fun b p => R p.1 (f b) ∧ List.Forall₂ R p.2 (k b)) bs parts := by
  induction bs with
  | nil =>
      intro xs h
      obtain rfl := List.forall₂_nil_right_iff.mp h
      exact ⟨[], rfl, .nil⟩
  | cons b bs ih =>
      intro xs h
      rw [List.flatMap_cons, List.cons_append] at h
      obtain ⟨x, rest, hx, hall, rfl⟩ := List.forall₂_cons_right_iff.mp h
      obtain ⟨parts, hrest, hparts⟩ := ih (List.forall₂_drop_append rest _ _ hall)
      have hmembers := List.forall₂_take_append rest _ _ hall
      refine ⟨(x, rest.take (k b).length) :: parts, ?_, .cons ⟨hx, hmembers⟩ hparts⟩
      rw [List.flatMap_cons, ← hrest, List.cons_append, List.take_append_drop]

/-- Two pairings with one list in between pair the outer lists. -/
theorem forall₂_through {α β γ : Type} {R : α → β → Prop} {S : β → γ → Prop} {T : α → γ → Prop}
    (hRS : ∀ x y z, R x y → S y z → T x z) {xs : List α} {ys : List β} (h : List.Forall₂ R xs ys) :
    ∀ {zs : List γ}, List.Forall₂ S ys zs → List.Forall₂ T xs zs := by
  induction h with
  | nil =>
      intro zs h
      obtain rfl := List.forall₂_nil_left_iff.mp h
      exact .nil
  | cons hxy _ ih =>
      intro zs h
      obtain ⟨z, rest, hyz, hrest, rfl⟩ := List.forall₂_cons_left_iff.mp h
      exact .cons (hRS _ _ _ hxy hyz) (ih hrest)

/-- Blocks with different keys, all but one of them left out. -/
theorem flatMap_ite_key {α β κ : Type} [DecidableEq κ] {key : α → κ} {f : α → List β}
    {xs : List α} (hn : (xs.map key).Nodup) {x : α} (hx : x ∈ xs) :
    (xs.flatMap fun y => if key y = key x then f y else []) = f x := by
  induction xs with
  | nil => simp at hx
  | cons y ys ih =>
      rw [List.map_cons, List.nodup_cons] at hn
      rw [List.flatMap_cons]
      by_cases hy : y = x
      · subst hy
        have hrest : (ys.flatMap fun z => if key z = key y then f z else []) = [] := by
          refine List.flatMap_eq_nil_iff.mpr fun z hz => if_neg fun hkey => hn.1 ?_
          exact hkey ▸ List.mem_map_of_mem hz
        rw [hrest, if_pos rfl, List.append_nil]
      · have hx' : x ∈ ys := (List.mem_cons.mp hx).resolve_left (Ne.symm hy)
        have hkey : key y ≠ key x := fun hkey => hn.1 (hkey ▸ List.mem_map_of_mem hx')
        rw [if_neg hkey, List.nil_append, ih hn.2 hx']

/-! ## Definitions of a document -/

namespace Json

/-- The items of a list field of an object; none where the field is missing. -/
def items (v : Json) (key : String) : List Json :=
  match v with
  | .object fields =>
    match field fields key with
    | .list values => values
    | _ => []
  | _ => []

/-- The definition of a declaration: an object that gives its name. -/
def Defines (v : Json) (d : ClassDecl) : Prop :=
  ∃ fields, v = .object fields ∧ field fields "name" = .text d.name

theorem Defines.of_name {v : Json} {d d' : ClassDecl} (h : v.Defines d) (hname : d'.name = d.name) :
    v.Defines d' := by
  rwa [Defines, hname]

end Json

namespace Draft

theorem optionalList_ok {fields : List (String × Json)} {key owner : String} {values : List Json}
    (h : optionalList fields key owner = .ok values) : (Json.object fields).items key = values := by
  rw [optionalList] at h
  rw [Json.items, Json.field]
  split at h
  · rename_i hnone
    cases h
    simp [hnone]
  · rename_i hsome
    cases h
    simp [hsome]
  · cases h

theorem read_defines {place : Place} {v : Json} {d : Draft} (h : read place v = .ok d) :
    v.Defines d.decl := by
  cases v with
  | object fields =>
      rw [read] at h
      split at h
      · rename_i name hname
        split at h
        · simp only [pure_eq, ok_bind] at h
          obtain ⟨kind, hkind, h⟩ := bind_eq_ok.mp h
          obtain ⟨doc, hdoc, h⟩ := bind_eq_ok.mp h
          obtain ⟨superclassName, hsuper, h⟩ := bind_eq_ok.mp h
          obtain ⟨values, hvalues, h⟩ := bind_eq_ok.mp h
          obtain ⟨properties, hproperties, h⟩ := bind_eq_ok.mp h
          obtain rfl := Except.ok.inj h
          exact ⟨fields, rfl, hname⟩
        · simp at h
      · simp at h
  | _ => simp [read] at h

end Draft

namespace Document

/-- The drafts of one module definition: the module, and its classes. -/
structure Block where
  head : Draft
  members : List Draft

namespace Block

def drafts (b : Block) : List Draft :=
  b.head :: b.members

/-- The block was read from a definition. -/
structure ReadFrom (b : Block) (v : Json) : Prop where
  head : Draft.read .module v = .ok b.head
  members : List.Forall₂ (fun w d => Draft.read (.class b.head.decl.name) w = .ok d)
    (v.items "classes") b.members

end Block

theorem readClasses_drafts {moduleName : String} {vs : List Json} : ∀ {before out : List Draft},
    readClasses moduleName before vs = .ok out → ∃ cs, out = before ++ cs ∧
      List.Forall₂ (fun v d => Draft.read (.class moduleName) v = .ok d) vs cs := by
  induction vs with
  | nil =>
      intro before out h
      obtain rfl : before = out := by simpa [readClasses] using h
      exact ⟨[], by simp, .nil⟩
  | cons v vs ih =>
      intro before out h
      rw [readClasses] at h
      obtain ⟨d, hd, h⟩ := bind_eq_ok.mp h
      split at h
      · simp at h
      · obtain ⟨cs, rfl, hcs⟩ := ih h
        exact ⟨d :: cs, by simp, .cons hd hcs⟩

/-- Modules are read block by block, in document order. -/
theorem readModules_blocks {vs : List Json} : ∀ {before out : List Draft},
    readModules before vs = .ok out → ∃ blocks : List Block,
      out = before ++ blocks.flatMap Block.drafts ∧
        List.Forall₂ (fun v b => b.ReadFrom v) vs blocks := by
  induction vs with
  | nil =>
      intro before out h
      obtain rfl : before = out := by simpa [readModules] using h
      exact ⟨[], by simp, .nil⟩
  | cons v vs ih =>
      intro before out h
      rw [readModules] at h
      obtain ⟨d, hd, h⟩ := bind_eq_ok.mp h
      cases v with
      | object fields =>
          simp only at h
          split at h
          · simp at h
          · obtain ⟨values, hvalues, h⟩ := bind_eq_ok.mp h
            obtain ⟨middle, hmiddle, h⟩ := bind_eq_ok.mp h
            obtain ⟨cs, rfl, hcs⟩ := readClasses_drafts hmiddle
            obtain ⟨blocks, rfl, hblocks⟩ := ih h
            refine ⟨⟨d, cs⟩ :: blocks, by simp [Block.drafts], .cons ⟨hd, ?_⟩ hblocks⟩
            rwa [Draft.optionalList_ok hvalues]
      | _ => simp [Draft.read] at hd

theorem drafts_blocks {doc : Json} {ds : List Draft} (h : drafts doc = .ok ds) :
    ∃ blocks : List Block, ds = blocks.flatMap Block.drafts ∧
      List.Forall₂ (fun v b => b.ReadFrom v) (doc.items "modules") blocks := by
  cases doc with
  | object fields =>
      rw [drafts] at h
      split at h
      · rename_i hvalues
        obtain ⟨blocks, rfl, hblocks⟩ := readModules_blocks h
        refine ⟨blocks, by simp, ?_⟩
        simpa only [Json.items, hvalues] using hblocks
      · cases h
  | _ => simp [drafts] at h

end Document

/-! ## Graphs in blocks -/

namespace ClassGraph

variable {g : ClassGraph}

/-- Classes listed block by block: a module and classes declared in it. -/
structure InBlocks (g : ClassGraph) (parts : List (ClassId × List ClassId)) : Prop where
  classes : g.classes = parts.flatMap fun p => p.1 :: p.2
  modules : ∀ p ∈ parts, (g.decl p.1).isModule = true
  members : ∀ p ∈ parts, ∀ c ∈ p.2,
    (g.decl c).isModule = false ∧ (g.decl c).moduleName = (g.decl p.1).name

namespace InBlocks

variable {parts : List (ClassId × List ClassId)}

/-- The modules of a graph are the heads of its blocks. -/
theorem modules_eq (h : g.InBlocks parts) (hg : g.Linked) : g.modules = parts.map (·.1) := by
  rw [hg.modules, h.classes, List.filter_flatMap, ← List.flatMap_pure_eq_map]
  refine List.flatMap_congr fun p hp => ?_
  have hmembers : p.2.filter (fun c => (g.decl c).isModule) = [] :=
    List.filter_eq_nil_iff.mpr fun c hc => by simp [(h.members p hp c hc).1]
  rw [List.filter_cons, if_pos (h.modules p hp), hmembers]
  rfl

/-- The classes of a module are those of its block, in order. -/
theorem membersOf_eq (h : g.InBlocks parts) (hg : g.Linked) {p : ClassId × List ClassId}
    (hp : p ∈ parts) : g.membersOf (g.decl p.1).name = p.2 := by
  have hn : (parts.map fun q => (g.decl q.1).name).Nodup := by
    have hnames := hg.nameable.names_nodup
    rwa [h.modules_eq hg, List.map_map] at hnames
  rw [membersOf, h.classes, List.filter_flatMap, ← flatMap_ite_key (f := fun q => q.2) hn hp]
  refine List.flatMap_congr fun q hq => ?_
  rw [List.filter_cons, if_neg (by simp [h.modules q hq])]
  split
  · rename_i hname
    exact List.filter_eq_self.mpr fun c hc => by simp [h.members q hq c hc, hname]
  · rename_i hname
    exact List.filter_eq_nil_iff.mpr fun c hc => by simp [h.members q hq c hc, hname]

/-- The blocks are the modules with their classes. -/
theorem parts_eq (h : g.InBlocks parts) (hg : g.Linked) :
    parts = g.modules.map fun m => (m, g.membersOf (g.decl m).name) := by
  rw [h.modules_eq hg, List.map_map]
  refine (List.map_id parts).symm.trans (List.map_congr_left fun p hp => ?_)
  simp [h.membersOf_eq hg hp]

end InBlocks

/-- A declaration lies in a module if it gives the module's name as that of its own module. -/
theorem Linked.enclosing?_eq_some (h : g.Linked) {c m : ClassId} :
    g.enclosing? c = some m ↔ m ∈ g.modules ∧ (g.decl m).name = (g.decl c).moduleName :=
  find?_key_eq_some h.nameable.names_nodup

end ClassGraph

namespace Document

/-! ## The document of a graph -/

/-- The definition of a module and its classes, in the order of a graph. -/
structure DefinesModule (g : ClassGraph) (v : Json) (m : ClassId) (members : List ClassId) :
    Prop where
  named : v.Defines (g.decl m)
  isModule : (g.decl m).isModule = true
  members : List.Forall₂ (fun w c => w.Defines (g.decl c) ∧ (g.decl c).isModule = false ∧
    (g.decl c).moduleName = (g.decl m).name) (v.items "classes") members

theorem Block.ReadFrom.definesModule {g : ClassGraph} {v : Json} {b : Block} {m : ClassId}
    {members : List ClassId} (h : b.ReadFrom v) (hhead : Keeps b.head.decl (g.decl m))
    (hmembers : List.Forall₂ (fun c d => Keeps d.decl (g.decl c)) members b.members) :
    DefinesModule g v m members where
  named := (Draft.read_defines h.head).of_name hhead.name
  isModule := by
    rw [hhead.isModule]
    exact (Draft.read_ok h.head).2.1
  members := by
    refine forall₂_through (fun w d c hw hc => ?_) h.members hmembers.flip
    obtain ⟨hclass, hmodule⟩ := (Draft.read_ok hw).2
    refine ⟨(Draft.read_defines hw).of_name hc.name, ?_, ?_⟩
    · rw [hc.isModule, hclass]
    · rw [hc.moduleName, hmodule, hhead.name]

/-- A document is read in two passes: its drafts, and the links of each draft. -/
theorem load_eq_ok {doc : Json} {g : ClassGraph} : load doc = .ok g ↔ ∃ ds decls,
    drafts doc = .ok ds ∧ List.Forall₂ (fun d d' => link (unlinked ds) d = .ok d') ds decls ∧
      g = { unlinked ds with decls } := by
  simp only [load, bind_eq_ok, mapM_eq_ok, pure_eq, Except.ok.injEq]
  constructor
  · rintro ⟨ds, hds, decls, hdecls, rfl⟩
    exact ⟨ds, decls, hds, hdecls, rfl⟩
  · rintro ⟨ds, decls, hds, hdecls, rfl⟩
    exact ⟨ds, hds, decls, hdecls, rfl⟩

/-- The declarations of a loaded graph, by their places, are the drafts in order. -/
theorem keeps_drafts {ds : List Draft} {decls : List ClassDecl}
    (hsound : ∀ d ∈ ds, d.Sound)
    (h : List.Forall₂ (fun d d' => link (unlinked ds) d = .ok d') ds decls) :
    List.Forall₂ (fun c d => Keeps d.decl (({ unlinked ds with decls } : ClassGraph).decl c))
      (unlinked ds).classes ds := by
  refine List.forall₂_iff_get.mpr ⟨by simp [unlinked], fun i hi hlt => ?_⟩
  have hlt' : i < decls.length := h.length_eq ▸ hlt
  have hlink := (link_ok (hsound _ (List.getElem_mem hlt)) (h.get hlt hlt')).1
  simpa [unlinked, ClassGraph.decl, hlt'] using hlink

/-- A loaded graph lists the definitions of its document block by block. -/
theorem load_inBlocks {doc : Json} {g : ClassGraph} (h : load doc = .ok g) :
    ∃ parts, g.InBlocks parts ∧
      List.Forall₂ (fun v p => DefinesModule g v p.1 p.2) (doc.items "modules") parts := by
  obtain ⟨ds, decls, hds, hdecls, rfl⟩ := load_eq_ok.mp h
  obtain ⟨blocks, rfl, hread⟩ := drafts_blocks hds
  obtain ⟨parts, hclasses, hparts⟩ := exists_blocks (f := Block.head) (k := Block.members)
    (keeps_drafts (drafts_ok hds).1.sound hdecls)
  have hdefines := forall₂_through (fun v b p hv hp => hv.definesModule hp.1 hp.2) hread hparts
  refine ⟨parts, ⟨hclasses, fun p hp => ?_, fun p hp c hc => ?_⟩, hdefines⟩
  · obtain ⟨v, -, hv⟩ := hdefines.exists_left p hp
    exact hv.isModule
  · obtain ⟨v, -, hv⟩ := hdefines.exists_left p hp
    obtain ⟨w, -, hw⟩ := hv.members.exists_left c hc
    exact hw.2

/-- A graph that holds the definitions of a document in document order, under different qualified
names, and whose links all lead to its own declarations. -/
structure WellLinked (doc : Json) (g : ClassGraph) : Prop where
  fullNames_nodup : (g.classes.map g.fullName).Nodup
  find?_fullName : ∀ c ∈ g.classes, g.find? (g.fullName c) = some c
  modules : List.Forall₂ (fun v m => DefinesModule g v m (g.membersOf (g.decl m).name))
    (doc.items "modules") g.modules
  classes : g.classes = g.modules.flatMap fun m => m :: g.membersOf (g.decl m).name
  enclosing : ∀ m ∈ g.modules, ∀ c ∈ m :: g.membersOf (g.decl m).name, g.enclosing? c = some m
  properties_nodup : ∀ c ∈ g.classes, ((g.decl c).properties.map (·.name)).Nodup
  superclasses : ∀ c ∈ g.classes, ∀ s, (g.decl c).superclass = some s → s ∈ g.classes
  types : ∀ c ∈ g.classes, ∀ p ∈ (g.decl c).properties, p.type.Formed g.LinksTo

theorem load_wellLinked {doc : Json} {g : ClassGraph} (h : load doc = .ok g) :
    WellLinked doc g := by
  obtain ⟨parts, hblocks, hdefines⟩ := load_inBlocks h
  have hg := load_linked h
  have hparts := hblocks.parts_eq hg
  exact
    { fullNames_nodup := hg.fullNames_nodup
      find?_fullName := fun c hc => (find?_key_eq_some hg.fullNames_nodup).mpr ⟨hc, rfl⟩
      modules := by rwa [hparts, List.forall₂_map_right_iff] at hdefines
      classes := by
        have hclasses := hblocks.classes
        rwa [hparts, List.flatMap_map] at hclasses
      enclosing := fun m hm c hc => by
        refine hg.enclosing?_eq_some.mpr ⟨hm, ?_⟩
        rcases List.mem_cons.mp hc with rfl | hc
        · obtain ⟨hlisted, hmodule⟩ := hg.mem_modules.mp hm
          exact ClassGraph.Housed.name_eq (hg.housed c hlisted) hmodule
        · have hmember := (List.mem_filter.mp hc).2
          simp only [Bool.and_eq_true, beq_iff_eq] at hmember
          exact hmember.2.symm
      properties_nodup := hg.properties_nodup
      superclasses := hg.superclasses
      types := hg.types }

end Document

/-! ## Faults that a loaded graph cannot have -/

/-- The faults for a module, a superclass or a type that is not declared. -/
def SchemaFault.isUndeclared : SchemaFault → Bool
  | .undeclaredModule _ _ | .undeclaredSuperclass _ _ | .undeclaredType _ _ _ => true
  | _ => false

theorem SchemaFault.OfAncestry.isUndeclared {e : SchemaFault} (h : e.OfAncestry) :
    e.isUndeclared = false := by
  cases h <;> rfl

/-- A document is refused, or it becomes a graph that is well linked. The checks of its modules and
its references succeed, and neither the order of its classes nor what they become fails for
something that is not declared. A refusal has a message, unless the message would show a name, a
kind or a type that holds an integer with more digits than are written. -/
theorem load_refuses_or_links (doc : Json) :
    (∃ e, Document.load doc = .error e ∧ e.isReported = true) ∨
    (Document.load doc = .error .longInteger ∧ doc.HoldsUnshown) ∨
    ∃ g, Document.load doc = .ok g ∧ Document.WellLinked doc g ∧
      (∀ c ∈ g.classes, g.checkEnclosing c = .ok ()) ∧ g.checkReferences = .ok () ∧
      (∀ e, g.ancestryOrder = .error e → e.isUndeclared = false) ∧
      ∀ interfacePrefix workers e, g.resolve interfacePrefix workers = .error e →
        e.isUndeclared = false := by
  cases h : Document.load doc with
  | error e =>
      by_cases he : e = .longInteger
      · exact .inr (.inl ⟨congrArg Except.error he, Document.load_tells doc (he ▸ h)⟩)
      · exact .inl ⟨e, rfl, SchemaFault.isReported_eq_true.mpr he⟩
  | ok g =>
      have hg := Document.load_linked h
      refine .inr <| .inr ⟨g, rfl, Document.load_wellLinked h, hg.checkEnclosing,
        hg.checkReferences, fun e he => (hg.ancestryOrder_error he).isUndeclared,
        fun p workers e he => ?_⟩
      exact (hg.resolve_error he).isUndeclared

/-- The last disjunct occurs: the two modules of `Document.shapes` are loaded. -/
example : (Document.load Document.shapes).isOk = true := by decide +kernel

/-- A module whose name is the least integer with more digits than are written. -/
def Document.longName : Json :=
  .object [("modules", .list [.object [
    ("name", .integer (Int.ofNat (Nat.pow 10 Decimal.integerDigits)))]])]

/-- The name is none, and no message says so. -/
theorem longName_not_told : Document.load Document.longName = .error .longInteger :=
  eq_error_of (by decide +kernel)

end RecordGen

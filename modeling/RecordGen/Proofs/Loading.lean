import Mathlib.Data.List.Find
import Mathlib.Data.List.Nodup
import RecordGen.Proofs.WellFormed
import RecordGen.Schema.Document

/-! # Loaded graphs are well linked

A document that is read becomes a graph in which every class has its own qualified name, lies in a
declared module, and mentions declared classes only. -/

namespace RecordGen

open Fallible

/-! ## Types that are read -/

/-- A type whose primitives and collections are known and have their number of arguments. What a
reference may be is up to `ref`. -/
inductive PropertyType.Formed (ref : String → Option ClassId → Prop) : PropertyType → Prop where
  | primitive {name : String} : name ∈ primitiveNames → Formed ref (.node .primitive name [] none)
  | reference {name : String} {target : Option ClassId} : ref name target →
      Formed ref (.node .reference name [] target)
  | collection {name : String} {arguments : List PropertyType} :
      collectionArity? name = some arguments.length → (∀ t ∈ arguments, Formed ref t) →
      Formed ref (.node .collection name arguments none)
  | optional {inner : PropertyType} : Formed ref inner →
      Formed ref (.node .optional "" [inner] none)

theorem eq_of_mem_primitiveNames {name : String} (h : name ∈ primitiveNames) :
    name = "Boolean" ∨ name = "Int" ∨ name = "Float" ∨ name = "Number" ∨ name = "String" ∨
      name = "Any" := by
  simpa [primitiveNames] using h

theorem eq_of_collectionArity? {name : String} {arity : Nat}
    (h : collectionArity? name = some arity) : name = "List" ∨ name = "Set" ∨ name = "Map" := by
  simp only [collectionArity?, List.lookup_cons] at h
  grind

theorem PropertyType.Formed.imp {ref ref' : String → Option ClassId → Prop} {t : PropertyType}
    (h : t.Formed ref) (himp : ∀ name target, ref name target → ref' name target) :
    t.Formed ref' := by
  induction h with
  | primitive hname => exact .primitive hname
  | reference href => exact .reference (himp _ _ href)
  | collection harity _ ih => exact .collection harity ih
  | optional _ ih => exact .optional ih

namespace PropertyType

/-- A reference that is not linked. -/
def Unlinked (_ : String) (target : Option ClassId) : Prop :=
  target = none

/-- A reference is named by a trimmed text that ends in no question mark and is no primitive. -/
theorem parseWithin_formed {owner : String} {ref : String → Option ClassId → Prop}
    (href : ∀ s : List Char, Text.trim s ≠ [] → (Text.trim s).getLast? ≠ some '?' →
      String.ofList (Text.trim s) ∉ primitiveNames → ref (.ofList (Text.trim s)) none) :
    ∀ {steps : Nat} {s : List Char} {t : PropertyType},
      parseWithin owner steps s = .ok t → t.Formed ref := by
  intro steps
  induction steps with
  | zero =>
      intro s t h
      simp [parseWithin] at h
  | succ steps ih =>
      intro s t h
      rw [parseWithin] at h
      split at h
      · simp at h
      rename_i hfull
      split at h
      · obtain ⟨inner, hinner, rfl⟩ := map_eq_ok.mp h
        exact .optional (ih hinner)
      rename_i hlast
      split at h
      · split at h
        · simp at h
        simp only at h
        split at h
        · simp at h
        rename_i arity harity
        split at h
        · simp at h
        · simp at h
        obtain ⟨arguments, harguments, h⟩ := bind_eq_ok.mp h
        split at h
        · rename_i hlength
          obtain rfl := Except.ok.inj h
          refine .collection (by rw [harity, hlength]) fun t ht => ?_
          obtain ⟨_, _, hpart⟩ := (mapM_eq_ok.mp harguments).exists_left t ht
          exact ih hpart
        · simp at h
      · simp only at h
        split at h
        · rename_i hprimitive
          obtain rfl := Except.ok.inj h
          exact .primitive hprimitive
        · rename_i hreference
          obtain rfl := Except.ok.inj h
          exact .reference (href s (by simpa using hfull) hlast hreference)

theorem parse_formed {owner text : String} {t : PropertyType} (h : parse owner text = .ok t) :
    t.Formed Unlinked :=
  parseWithin_formed (fun _ _ _ _ => rfl) h

end PropertyType

/-! ## Definitions that are read -/

namespace Draft

/-- A declaration that was read on its own: its names are identifiers, its properties differ, and
nothing is linked yet. -/
structure Sound (d : Draft) : Prop where
  named : Text.isSchemaName d.decl.name = true
  property_named : ∀ p ∈ d.decl.properties, Text.isSchemaName p.name = true
  properties_nodup : (d.decl.properties.map (·.name)).Nodup
  types : ∀ p ∈ d.decl.properties, p.type.Formed PropertyType.Unlinked

/-- A draft that was read for a place of the document. -/
def IsAt (d : Draft) : Place → Prop
  | .module => d.decl.isModule = true ∧ d.decl.moduleName = d.decl.name
  | .class moduleName => d.decl.isModule = false ∧ d.decl.moduleName = moduleName

theorem readProperty_ok {owner : String} {v : Json} {p : Property}
    (h : readProperty owner v = .ok p) :
    Text.isSchemaName p.name = true ∧ p.type.Formed PropertyType.Unlinked := by
  cases v with
  | object fields =>
      rw [readProperty] at h
      split at h
      · split at h
        · rename_i hname
          split at h
          · simp only [pure_eq, ok_bind] at h
            obtain ⟨type, htype, h⟩ := bind_eq_ok.mp h
            obtain ⟨doc, hdoc, h⟩ := bind_eq_ok.mp h
            obtain rfl := Except.ok.inj h
            exact ⟨hname, PropertyType.parse_formed htype⟩
          · simp at h
        · simp at h
      · simp at h
  | _ => simp [readProperty] at h

theorem readProperties_ok {owner : String} {vs : List Json} : ∀ {known : List String}
    {ps : List Property}, readProperties owner known vs = .ok ps →
      (∀ p ∈ ps, Text.isSchemaName p.name = true ∧ p.type.Formed PropertyType.Unlinked) ∧
        (ps.map (·.name)).Nodup ∧ ∀ p ∈ ps, p.name ∉ known := by
  induction vs with
  | nil =>
      intro known ps h
      obtain rfl : [] = ps := by simpa [readProperties] using h
      simp
  | cons v vs ih =>
      intro known ps h
      rw [readProperties] at h
      obtain ⟨p, hp, h⟩ := bind_eq_ok.mp h
      split at h
      · simp at h
      · rename_i hknown
        obtain ⟨rest, hrest, h⟩ := bind_eq_ok.mp h
        obtain rfl := Except.ok.inj h
        obtain ⟨hsound, hnodup, hfresh⟩ := ih hrest
        refine ⟨?_, ?_, ?_⟩
        · exact List.forall_mem_cons.mpr ⟨readProperty_ok hp, hsound⟩
        · rw [List.map_cons, List.nodup_cons]
          refine ⟨?_, hnodup⟩
          intro hmem
          obtain ⟨q, hq, hname⟩ := List.mem_map.mp hmem
          exact hfresh q hq (by simp [hname])
        · refine List.forall_mem_cons.mpr ⟨hknown, fun q hq hmem => ?_⟩
          exact hfresh q hq (by simp [hmem])

theorem read_ok {place : Place} {v : Json} {d : Draft} (h : read place v = .ok d) :
    d.Sound ∧ d.IsAt place := by
  cases v with
  | object fields =>
      rw [read] at h
      split at h
      · split at h
        · rename_i hname
          simp only [pure_eq, ok_bind] at h
          obtain ⟨kind, hkind, h⟩ := bind_eq_ok.mp h
          obtain ⟨doc, hdoc, h⟩ := bind_eq_ok.mp h
          obtain ⟨superclassName, hsuper, h⟩ := bind_eq_ok.mp h
          obtain ⟨values, hvalues, h⟩ := bind_eq_ok.mp h
          obtain ⟨properties, hproperties, h⟩ := bind_eq_ok.mp h
          obtain rfl := Except.ok.inj h
          obtain ⟨hsound, hnodup, -⟩ := readProperties_ok hproperties
          refine ⟨⟨hname, fun p hp => (hsound p hp).1, hnodup, fun p hp => (hsound p hp).2⟩, ?_⟩
          cases place with
          | module => exact ⟨rfl, rfl⟩
          | «class» moduleName => exact ⟨rfl, rfl⟩
        · simp at h
      · simp at h
  | _ => simp [read] at h

end Draft

/-! ## The first pass -/

/-- Drafts in document order: each module is followed by its own classes. -/
inductive Drafted : List Draft → Prop where
  | nil : Drafted []
  | module {ds : List Draft} {d : Draft} {cs : List Draft} : Drafted ds → d.Sound →
      d.IsAt .module → (∀ c ∈ cs, c.Sound ∧ c.IsAt (.class d.decl.name)) → Drafted (ds ++ d :: cs)

namespace Drafted

theorem sound {ds : List Draft} (h : Drafted ds) : ∀ d ∈ ds, d.Sound := by
  induction h with
  | nil => simp
  | module _ hd _ hcs ih =>
      rw [List.forall_mem_append, List.forall_mem_cons]
      exact ⟨ih, hd, fun c hc => (hcs c hc).1⟩

/-- Every draft lies in a module among the drafts, a module in itself. -/
theorem housed {ds : List Draft} (h : Drafted ds) : ∀ d ∈ ds, ∃ m ∈ ds, m.IsAt .module ∧
    m.decl.name = d.decl.moduleName ∧ (d.decl.isModule = true → m = d) := by
  induction h with
  | nil => simp
  | @module ds m cs _ _ hm hcs ih =>
      rw [List.forall_mem_append, List.forall_mem_cons]
      refine ⟨fun d hd => ?_, ⟨m, by simp, hm, hm.2.symm, fun _ => rfl⟩, fun c hc => ?_⟩
      · obtain ⟨m', hm', h⟩ := ih d hd
        exact ⟨m', List.mem_append_left _ hm', h⟩
      · obtain ⟨hclass, hmodule⟩ := (hcs c hc).2
        exact ⟨m, by simp, hm, hmodule.symm, by simp [hclass]⟩

end Drafted

namespace Document

theorem nodup_snoc {before : List Draft} {d : Draft} (h : (before.map Draft.fullName).Nodup)
    (hnew : d.fullName ∉ before.map Draft.fullName) :
    ((before ++ [d]).map Draft.fullName).Nodup := by
  rw [List.map_append, List.nodup_append]
  refine ⟨h, by simp, ?_⟩
  rintro x hx y hy rfl
  obtain rfl : x = d.fullName := by simpa using hy
  exact hnew hx

theorem readClasses_ok {moduleName : String} {vs : List Json} : ∀ {before out : List Draft},
    readClasses moduleName before vs = .ok out → (before.map Draft.fullName).Nodup →
      ∃ cs, out = before ++ cs ∧ (∀ c ∈ cs, c.Sound ∧ c.IsAt (.class moduleName)) ∧
        (out.map Draft.fullName).Nodup := by
  induction vs with
  | nil =>
      intro before out h hn
      obtain rfl : before = out := by simpa [readClasses] using h
      exact ⟨[], by simp, by simp, hn⟩
  | cons v vs ih =>
      intro before out h hn
      rw [readClasses] at h
      obtain ⟨d, hd, h⟩ := bind_eq_ok.mp h
      split at h
      · simp at h
      · rename_i hnew
        obtain ⟨cs, rfl, hcs, hout⟩ := ih h (nodup_snoc hn hnew)
        refine ⟨d :: cs, by simp, ?_, hout⟩
        exact List.forall_mem_cons.mpr ⟨Draft.read_ok hd, hcs⟩

theorem readModules_ok {vs : List Json} : ∀ {before out : List Draft},
    readModules before vs = .ok out → Drafted before → (before.map Draft.fullName).Nodup →
      Drafted out ∧ (out.map Draft.fullName).Nodup := by
  induction vs with
  | nil =>
      intro before out h hbefore hn
      obtain rfl : before = out := by simpa [readModules] using h
      exact ⟨hbefore, hn⟩
  | cons v vs ih =>
      intro before out h hbefore hn
      rw [readModules] at h
      obtain ⟨d, hd, h⟩ := bind_eq_ok.mp h
      obtain ⟨hsound, hat⟩ := Draft.read_ok hd
      cases v with
      | object fields =>
          simp only at h
          split at h
          · simp at h
          · rename_i hnew
            obtain ⟨values, _, h⟩ := bind_eq_ok.mp h
            obtain ⟨middle, hmiddle, h⟩ := bind_eq_ok.mp h
            obtain ⟨cs, rfl, hcs, hout⟩ := readClasses_ok hmiddle (nodup_snoc hn hnew)
            rw [List.append_assoc, List.singleton_append] at h hout
            exact ih h (.module hbefore hsound hat hcs) hout
      | _ => simp [Draft.read] at hd

theorem drafts_ok {v : Json} {ds : List Draft} (h : drafts v = .ok ds) :
    Drafted ds ∧ (ds.map Draft.fullName).Nodup := by
  cases v with
  | object fields =>
      rw [drafts] at h
      split at h
      · exact readModules_ok h .nil (by simp)
      · simp at h
  | _ => simp [drafts] at h

end Document

/-! ## The second pass -/

namespace Document

variable {g : ClassGraph} {d : ClassDecl} {property : String}

theorem resolve?_mem {moduleName name : String} {c : ClassId}
    (h : resolve? g moduleName name = some c) : c ∈ g.classes := by
  rw [resolve?] at h
  split at h
  · rename_i hlocal
    obtain rfl := Option.some.inj h
    split at hlocal
    · simp at hlocal
    · exact List.mem_of_find?_eq_some hlocal
  · exact List.mem_of_find?_eq_some h

/-- What names mean depends on the qualified names of the listed classes only. -/
theorem resolve?_congr {g' : ClassGraph} (hclasses : g'.classes = g.classes)
    (hname : ∀ c ∈ g.classes, g'.fullName c = g.fullName c) : resolve? g' = resolve? g := by
  have hfind : g'.find? = g.find? := by
    funext name
    rw [ClassGraph.find?, ClassGraph.find?, hclasses]
    exact List.find?_congr fun c hc => by rw [hname c hc]
  funext moduleName name
  rw [resolve?, resolve?, hfind]

theorem linkAllInside_eq (ts : List PropertyType) :
    linkAllInside g d property ts = ts.mapM (linkInside g d property) := by
  induction ts with
  | nil => rw [linkAllInside, List.mapM_nil, pure_eq]
  | cons t ts ih => rw [linkAllInside, List.mapM_cons, ih]

end Document

/-- A linked reference: it shows the qualified name of a listed class. -/
def ClassGraph.LinksTo (g : ClassGraph) (name : String) (target : Option ClassId) : Prop :=
  ∃ c ∈ g.classes, target = some c ∧ name = g.fullName c

namespace Document

variable {g : ClassGraph} {d : ClassDecl} {property : String}

theorem linkInside_ok {t t' : PropertyType} (ht : t.Formed PropertyType.Unlinked) :
    linkInside g d property t = .ok t' → t'.Formed g.LinksTo := by
  induction ht generalizing t' with
  | primitive hname =>
      intro h
      simp only [linkInside, linkAllInside, map_ok, Except.ok.injEq] at h
      exact h ▸ .primitive hname
  | @reference name _ _ =>
      intro h
      rw [linkInside] at h
      split at h
      · rename_i c hc
        simp only [linkAllInside, map_ok, Except.ok.injEq] at h
        exact h ▸ .reference ⟨c, resolve?_mem hc, rfl, rfl⟩
      · simp at h
  | @collection name arguments harity _ ih =>
      intro h
      rw [linkInside, linkAllInside_eq] at h
      obtain ⟨arguments', harguments, rfl⟩ := map_eq_ok.mp h
      have hlinked := mapM_eq_ok.mp harguments
      refine .collection (hlinked.length_eq ▸ harity) fun u hu => ?_
      obtain ⟨t, ht, htu⟩ := hlinked.exists_left u hu
      exact ih t ht htu
  | @optional inner _ ih =>
      intro h
      rw [linkInside, linkAllInside_eq] at h
      obtain ⟨arguments', harguments, rfl⟩ := map_eq_ok.mp h
      obtain ⟨inner', _, hinner, hnil, rfl⟩ :=
        List.forall₂_cons_left_iff.mp (mapM_eq_ok.mp harguments)
      obtain rfl := List.forall₂_nil_left_iff.mp hnil
      exact .optional (ih hinner)

/-- What linking keeps of a draft. -/
structure Keeps (d d' : ClassDecl) : Prop where
  name : d'.name = d.name
  isModule : d'.isModule = d.isModule
  moduleName : d'.moduleName = d.moduleName
  properties : d'.properties.map (·.name) = d.properties.map (·.name)

theorem Keeps.fullName {d d' : ClassDecl} (h : Keeps d d') : d'.fullName = d.fullName := by
  rw [ClassDecl.fullName, ClassDecl.fullName, h.name, h.isModule, h.moduleName]

theorem link_ok {d : Draft} {d' : ClassDecl} (hd : d.Sound) (h : link g d = .ok d') :
    Keeps d.decl d' ∧ (∀ s, d'.superclass = some s → s ∈ g.classes) ∧
      ∀ p ∈ d'.properties, p.type.Formed g.LinksTo := by
  rw [link] at h
  obtain ⟨superclass, hsuper, h⟩ := bind_eq_ok.mp h
  obtain ⟨properties, hproperties, h⟩ := bind_eq_ok.mp h
  obtain rfl := Except.ok.inj h
  have hlinked := mapM_eq_ok.mp hproperties
  refine ⟨⟨rfl, rfl, rfl, ?_⟩, ?_, fun p hp => ?_⟩
  · rw [← List.forall₂_eq_eq_eq, List.forall₂_map_left_iff, List.forall₂_map_right_iff]
    refine hlinked.flip.imp fun p' p hp => ?_
    obtain ⟨type, _, hp⟩ := bind_eq_ok.mp hp
    obtain rfl := Except.ok.inj hp
    rfl
  · rintro s rfl
    rw [linkSuperclass] at hsuper
    split at hsuper
    · simp at hsuper
    · split at hsuper
      · simp at hsuper
      · split at hsuper
        · rename_i c hc
          obtain rfl : c = s := by simpa using hsuper
          exact resolve?_mem hc
        · simp at hsuper
  · obtain ⟨q, hq, hlink⟩ := hlinked.exists_left p hp
    obtain ⟨type, htype, hlink⟩ := bind_eq_ok.mp hlink
    obtain rfl := Except.ok.inj hlink
    exact linkInside_ok (hd.types q hq) htype

end Document

/-! ## Loaded graphs -/

/-- A graph as documents describe it: all declarations are listed, under different qualified names,
each in one of the modules, and they mention listed declarations only. -/
structure ClassGraph.Linked (g : ClassGraph) : Prop where
  classes : g.classes = List.range g.decls.length
  modules : g.modules = g.classes.filter fun c => (g.decl c).isModule
  fullNames_nodup : (g.classes.map g.fullName).Nodup
  named : ∀ c ∈ g.classes, Text.isSchemaName (g.decl c).name = true
  housed : ∀ c ∈ g.classes, ∃ m ∈ g.modules, (g.decl m).name = (g.decl c).moduleName ∧
    ((g.decl c).isModule = true → m = c)
  superclasses : ∀ c ∈ g.classes, ∀ s, (g.decl c).superclass = some s → s ∈ g.classes
  properties_nodup : ∀ c ∈ g.classes, ((g.decl c).properties.map (·.name)).Nodup
  properties_named : ∀ c ∈ g.classes, ∀ p ∈ (g.decl c).properties, Text.isSchemaName p.name = true
  types : ∀ c ∈ g.classes, ∀ p ∈ (g.decl c).properties, p.type.Formed g.LinksTo

namespace Document

/-- The place of a draft holds the draft's declaration before linking and the linked one after. -/
def IsPlace (ds : List Draft) (g : ClassGraph) (c : ClassId) (d : Draft) : Prop :=
  (unlinked ds).decl c = d.decl ∧ link (unlinked ds) d = .ok (g.decl c)

section

variable {ds : List Draft} {decls : List ClassDecl}

theorem exists_draft (h : List.Forall₂ (fun d d' => link (unlinked ds) d = .ok d') ds decls) :
    ∀ c ∈ (unlinked ds).classes, ∃ d ∈ ds, IsPlace ds { unlinked ds with decls } c d := by
  intro c hc
  have hlt : c < ds.length := List.mem_range.mp hc
  have hlt' : c < decls.length := h.length_eq ▸ hlt
  refine ⟨ds[c], List.getElem_mem hlt, ?_, ?_⟩
  · simp [ClassGraph.decl, unlinked, hlt]
  · have := h.get hlt hlt'
    simpa [ClassGraph.decl, hlt'] using this

theorem exists_place (h : List.Forall₂ (fun d d' => link (unlinked ds) d = .ok d') ds decls) :
    ∀ d ∈ ds, ∃ c ∈ (unlinked ds).classes, IsPlace ds { unlinked ds with decls } c d := by
  intro d hd
  obtain ⟨c, hlt, rfl⟩ := List.getElem_of_mem hd
  have hlt' : c < decls.length := h.length_eq ▸ hlt
  refine ⟨c, List.mem_range.mpr hlt, ?_, ?_⟩
  · simp [ClassGraph.decl, unlinked, hlt]
  · have := h.get hlt hlt'
    simpa [ClassGraph.decl, hlt'] using this

theorem unlinked_fullNames (ds : List Draft) :
    (unlinked ds).classes.map (unlinked ds).fullName = ds.map Draft.fullName := by
  apply List.ext_getElem
  · simp [unlinked]
  · intro i _ hi
    have hlt : i < ds.length := by simpa using hi
    simp [unlinked, ClassGraph.fullName, ClassGraph.decl, Draft.fullName, hlt]

end

theorem IsPlace.keeps {ds : List Draft} {g : ClassGraph} {c : ClassId} {d : Draft}
    (h : IsPlace ds g c d) (hd : d.Sound) : Keeps ((unlinked ds).decl c) (g.decl c) :=
  h.1 ▸ (link_ok hd h.2).1

/-- A graph whose places hold the linked declarations of drafts. -/
structure LinkedFrom (ds : List Draft) (g : ClassGraph) : Prop where
  drafted : Drafted ds
  nodup : (ds.map Draft.fullName).Nodup
  length : g.decls.length = ds.length
  classes : g.classes = (unlinked ds).classes
  modules : g.modules = (unlinked ds).modules
  draft : ∀ c ∈ g.classes, ∃ d ∈ ds, IsPlace ds g c d
  place : ∀ d ∈ ds, ∃ c ∈ g.classes, IsPlace ds g c d

theorem linkedFrom_of_drafts {v : Json} {ds : List Draft} {decls : List ClassDecl}
    (hds : drafts v = .ok ds)
    (hlink : List.Forall₂ (fun d d' => link (unlinked ds) d = .ok d') ds decls) :
    LinkedFrom ds { unlinked ds with decls } := by
  obtain ⟨hdrafted, hnodup⟩ := drafts_ok hds
  exact ⟨hdrafted, hnodup, hlink.length_eq.symm, rfl, rfl, exists_draft hlink, exists_place hlink⟩

theorem load_linkedFrom {v : Json} {g : ClassGraph} (h : load v = .ok g) :
    ∃ ds, LinkedFrom ds g := by
  rw [load] at h
  obtain ⟨ds, hds, h⟩ := bind_eq_ok.mp h
  obtain ⟨decls, hdecls, h⟩ := bind_eq_ok.mp h
  obtain rfl := Except.ok.inj h
  exact ⟨ds, linkedFrom_of_drafts hds (mapM_eq_ok.mp hdecls)⟩

namespace LinkedFrom

variable {ds : List Draft} {g : ClassGraph}

theorem keeps (h : LinkedFrom ds g) {c : ClassId} (hc : c ∈ g.classes) :
    Keeps ((unlinked ds).decl c) (g.decl c) := by
  obtain ⟨d, hd, hplaced⟩ := h.draft c hc
  exact hplaced.keeps (h.drafted.sound d hd)

theorem fullName_eq (h : LinkedFrom ds g) {c : ClassId} (hc : c ∈ g.classes) :
    g.fullName c = (unlinked ds).fullName c :=
  (h.keeps hc).fullName

theorem fullName_of_isPlace (h : LinkedFrom ds g) {c : ClassId} (hc : c ∈ g.classes) {d : Draft}
    (hplaced : IsPlace ds g c d) : g.fullName c = d.fullName := by
  rw [h.fullName_eq hc, ClassGraph.fullName, hplaced.1, Draft.fullName]

theorem resolve?_eq (h : LinkedFrom ds g) : resolve? g = resolve? (unlinked ds) :=
  resolve?_congr h.classes fun _ hc => h.fullName_eq (h.classes ▸ hc)

theorem linksTo (h : LinkedFrom ds g) {name : String} {target : Option ClassId}
    (hlinks : (unlinked ds).LinksTo name target) : g.LinksTo name target := by
  obtain ⟨c, hc, rfl, rfl⟩ := hlinks
  rw [← h.classes] at hc
  exact ⟨c, hc, rfl, (h.fullName_eq hc).symm⟩

/-- The modules are found among the drafts, and linking does not change which ones they are. -/
theorem modules_eq (h : LinkedFrom ds g) :
    g.modules = g.classes.filter fun c => (g.decl c).isModule := by
  have hunlinked : g.modules = g.classes.filter fun c => ((unlinked ds).decl c).isModule := by
    rw [h.modules, h.classes]
    rfl
  rw [hunlinked]
  exact List.filter_congr fun c hc => by rw [(h.keeps hc).isModule]

theorem fullNames_nodup (h : LinkedFrom ds g) : (g.classes.map g.fullName).Nodup := by
  rw [List.map_congr_left fun c hc => h.fullName_eq hc, h.classes, unlinked_fullNames]
  exact h.nodup

/-- The module of a declaration is declared, and a module is its own. -/
theorem housed (h : LinkedFrom ds g) {c : ClassId} (hc : c ∈ g.classes) :
    ∃ m ∈ g.modules, (g.decl m).name = (g.decl c).moduleName ∧
      ((g.decl c).isModule = true → m = c) := by
  obtain ⟨d, hd, hplaced⟩ := h.draft c hc
  obtain ⟨m, hm, hat, hname, hself⟩ := h.drafted.housed d hd
  obtain ⟨c', hc', hplaced'⟩ := h.place m hm
  have hmodule : (g.decl c').isModule = true := by
    rw [(h.keeps hc').isModule, hplaced'.1]
    exact hat.1
  refine ⟨c', ?_, ?_, fun hown => ?_⟩
  · rw [h.modules_eq, List.mem_filter]
    exact ⟨hc', hmodule⟩
  · rw [(h.keeps hc').name, (h.keeps hc).moduleName, hplaced'.1, hplaced.1, hname]
  · rw [(h.keeps hc).isModule, hplaced.1] at hown
    obtain rfl := hself hown
    apply List.inj_on_of_nodup_map h.fullNames_nodup hc' hc
    rw [h.fullName_of_isPlace hc' hplaced', h.fullName_of_isPlace hc hplaced]

theorem properties_named (h : LinkedFrom ds g) {c : ClassId} (hc : c ∈ g.classes) {p : Property}
    (hp : p ∈ (g.decl c).properties) : Text.isSchemaName p.name = true := by
  obtain ⟨d, hd, hplaced⟩ := h.draft c hc
  have hmem : p.name ∈ ((unlinked ds).decl c).properties.map (·.name) := by
    rw [← (h.keeps hc).properties]
    exact List.mem_map_of_mem hp
  rw [hplaced.1] at hmem
  obtain ⟨q, hq, hname⟩ := List.mem_map.mp hmem
  rw [← hname]
  exact (h.drafted.sound d hd).property_named q hq

theorem linked (h : LinkedFrom ds g) : g.Linked where
  classes := by
    rw [h.classes, h.length]
    rfl
  modules := h.modules_eq
  fullNames_nodup := h.fullNames_nodup
  named c hc := by
    obtain ⟨d, hd, hplaced⟩ := h.draft c hc
    rw [(h.keeps hc).name, hplaced.1]
    exact (h.drafted.sound d hd).named
  housed c hc := h.housed hc
  superclasses c hc s hs := by
    obtain ⟨d, hd, hplaced⟩ := h.draft c hc
    rw [h.classes]
    exact (link_ok (h.drafted.sound d hd) hplaced.2).2.1 s hs
  properties_nodup c hc := by
    obtain ⟨d, hd, hplaced⟩ := h.draft c hc
    rw [(h.keeps hc).properties, hplaced.1]
    exact (h.drafted.sound d hd).properties_nodup
  properties_named c hc p hp := h.properties_named hc hp
  types c hc p hp := by
    obtain ⟨d, hd, hplaced⟩ := h.draft c hc
    have hformed := (link_ok (h.drafted.sound d hd) hplaced.2).2.2 p hp
    exact hformed.imp fun _ _ => h.linksTo

end LinkedFrom

/-- A document that is read becomes a linked graph. -/
theorem load_linked {v : Json} {g : ClassGraph} (h : load v = .ok g) : g.Linked := by
  obtain ⟨ds, hfrom⟩ := load_linkedFrom h
  exact hfrom.linked

end Document

namespace Document

/-- Two modules, of which the second one extends a class of the first and refers to it. -/
def shapes : Json :=
  .object [("modules", .list [
    .object [("name", .text "base"), ("classes", .list [
      .object [("name", .text "Shape"), ("kind", .text "open"), ("properties", .list [
        .object [("name", .text "class"), ("type", .text "String")]])]])],
    .object [("name", .text "plane"), ("properties", .list [
        .object [("name", .text "shapes"), ("type", .text "Map<String, base.Shape?>")]]),
      ("classes", .list [
        .object [("name", .text "Circle"), ("extends", .text "base.Shape"),
          ("properties", .list [
            .object [("name", .text "class_"), ("type", .text "Int"),
              ("nullable", .bool true)]])]])]])]

end Document

/-! ## Checks that loaded graphs pass -/

theorem PropertyType.Formed.references {ref : String → Option ClassId → Prop} {t : PropertyType}
    (h : t.Formed ref) : ∀ r ∈ t.references, ref r.1 r.2 := by
  induction h with
  | primitive _ => simp [PropertyType.references, argumentReferences]
  | reference href => simpa [PropertyType.references, argumentReferences] using href
  | collection _ _ ih =>
      intro r hr
      obtain ⟨t, ht, hmem⟩ := mem_argumentReferences.mp hr
      exact ih t ht r hmem
  | optional _ ih =>
      intro r hr
      obtain ⟨t, ht, hmem⟩ := mem_argumentReferences.mp hr
      obtain rfl := List.mem_singleton.mp ht
      exact ih r hmem

namespace ClassGraph.Linked

variable {g : ClassGraph}

theorem mem_modules (h : g.Linked) {m : ClassId} :
    m ∈ g.modules ↔ m ∈ g.classes ∧ (g.decl m).isModule = true := by
  rw [h.modules, List.mem_filter]

/-- A loaded graph gets each of its names once. -/
theorem nameable (h : g.Linked) : g.Nameable where
  modules_are _ hm := (h.mem_modules.mp hm).2
  names_nodup := by
    have hsub : (g.modules.map g.fullName).Nodup := by
      rw [h.modules]
      exact (List.filter_sublist.map _).nodup h.fullNames_nodup
    have hname : ∀ m ∈ g.modules, g.fullName m = (g.decl m).name := fun m hm => by
      simp [fullName, ClassDecl.fullName, (h.mem_modules.mp hm).2]
    rwa [List.map_congr_left hname] at hsub
  classes_nodup := by
    rw [h.classes]
    exact List.nodup_range

theorem checkEnclosing (h : g.Linked) : ∀ c ∈ g.classes, g.checkEnclosing c = .ok () :=
  fun c hc => (checkEnclosing_eq_ok h.nameable.names_nodup).mpr (h.housed c hc)

theorem checkReferences (h : g.Linked) : g.checkReferences = .ok () := by
  refine checkReferences_eq_ok.mpr fun c hc p hp r hr => ?_
  obtain ⟨t, ht, heq, -⟩ := (h.types c hc p hp).references r hr
  exact ⟨t, ht, heq⟩

end ClassGraph.Linked

end RecordGen

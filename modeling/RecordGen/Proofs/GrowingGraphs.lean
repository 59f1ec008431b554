import Mathlib.Data.List.GetD
import RecordGen.Proofs.DocumentOrder
import RecordGen.Proofs.TypeNames

/-! # Graphs that grow by a module

A module that is appended to a document adds declarations behind the old ones and disturbs none of
them: the old names mean what they meant, for every name is looked up in declaration order, and the
classes of the new module carry its name. -/

namespace RecordGen

open Fallible

/-! ## Graphs with more declarations -/

/-- A graph with further declarations behind those of another one. They belong to modules of
other names. -/
structure ClassGraph.GrowsTo (g g' : ClassGraph) : Prop where
  decls : g.decls <+: g'.decls
  classes : g.classes = List.range g.decls.length
  classes' : g'.classes = List.range g'.decls.length
  modules : g.modules = g.classes.filter fun c => (g.decl c).isModule
  modules' : g'.modules = g'.classes.filter fun c => (g'.decl c).isModule
  fresh : ∀ c ∈ g'.classes, c ∉ g.classes → ∀ m ∈ g.modules,
    (g.decl m).name ≠ (g'.decl c).moduleName

namespace ClassGraph.GrowsTo

variable {g g' : ClassGraph}

theorem decl_eq (h : g.GrowsTo g') {c : ClassId} (hc : c ∈ g.classes) : g'.decl c = g.decl c := by
  rw [h.classes, List.mem_range] at hc
  obtain ⟨more, hmore⟩ := h.decls
  rw [decl, decl, ← hmore, List.getD_append _ _ _ _ hc]

theorem fullName_eq (h : g.GrowsTo g') {c : ClassId} (hc : c ∈ g.classes) :
    g'.fullName c = g.fullName c := by
  rw [fullName, fullName, h.decl_eq hc]

/-- The new classes are listed after the old ones. -/
theorem exists_classes (h : g.GrowsTo g') :
    ∃ more, g'.classes = g.classes ++ more ∧ ∀ c ∈ more, c ∉ g.classes := by
  obtain ⟨more, hmore⟩ := h.decls
  refine ⟨(List.range more.length).map (g.decls.length + ·), ?_, fun c hc hold => ?_⟩
  · rw [h.classes, h.classes', ← hmore, List.length_append, List.range_add]
  · obtain ⟨i, -, rfl⟩ := List.mem_map.mp hc
    rw [h.classes, List.mem_range] at hold
    omega

theorem mem_classes (h : g.GrowsTo g') {c : ClassId} (hc : c ∈ g.classes) : c ∈ g'.classes := by
  obtain ⟨more, hmore, -⟩ := h.exists_classes
  rw [hmore]
  exact List.mem_append_left _ hc

theorem mem_classes_of_mem_modules (h : g.GrowsTo g') {m : ClassId} (hm : m ∈ g.modules) :
    m ∈ g.classes := by
  rw [h.modules] at hm
  exact List.mem_of_mem_filter hm

/-- The new modules are listed after the old ones. -/
theorem exists_modules (h : g.GrowsTo g') : ∃ more, g'.modules = g.modules ++ more := by
  obtain ⟨more, hmore, -⟩ := h.exists_classes
  refine ⟨more.filter fun c => (g'.decl c).isModule, ?_⟩
  rw [h.modules', h.modules, hmore, List.filter_append]
  congr 1
  exact List.filter_congr fun c hc => by rw [h.decl_eq hc]

/-- No class joins an old module. -/
theorem membersOf_eq (h : g.GrowsTo g') {m : ClassId} (hm : m ∈ g.modules) :
    g'.membersOf (g.decl m).name = g.membersOf (g.decl m).name := by
  obtain ⟨more, hmore, hnew⟩ := h.exists_classes
  have hold : g.classes.filter (fun c => !(g'.decl c).isModule &&
      (g'.decl c).moduleName == (g.decl m).name) = g.membersOf (g.decl m).name :=
    List.filter_congr fun c hc => by rw [h.decl_eq hc]
  have hnone : more.filter (fun c => !(g'.decl c).isModule &&
      (g'.decl c).moduleName == (g.decl m).name) = [] := by
    refine List.filter_eq_nil_iff.mpr fun c hc => ?_
    have hlisted : c ∈ g'.classes := by simp [hmore, hc]
    simp [(h.fresh c hlisted (hnew c hc) m hm).symm]
  rw [membersOf, hmore, List.filter_append, hold, hnone, List.append_nil]

/-! ### Names that are looked up -/

/-- A name that is found is still found, for the old classes come first. -/
theorem find?_of_some (h : g.GrowsTo g') {name : String} {c : ClassId}
    (hc : g.find? name = some c) : g'.find? name = some c := by
  obtain ⟨more, hmore, -⟩ := h.exists_classes
  have hold : g.classes.find? (fun c => g'.fullName c == name) = some c := by
    rw [← hc]
    exact List.find?_congr fun c hc => by rw [h.fullName_eq hc]
  rw [find?, hmore, List.find?_append, hold, Option.some_or]

/-- A name that was not found can only be that of a new class. -/
theorem not_mem_of_find? (h : g.GrowsTo g') {name : String} {c : ClassId}
    (hnone : g.find? name = none) (hc : g'.find? name = some c) :
    c ∈ g'.classes ∧ c ∉ g.classes ∧ g'.fullName c = name := by
  have hname : g'.fullName c = name := by simpa using List.find?_some hc
  refine ⟨List.mem_of_find?_eq_some hc, fun hold => ?_, hname⟩
  have hdiffers := List.find?_eq_none.mp hnone c hold
  rw [h.fullName_eq hold] at hname
  simp [hname] at hdiffers

end ClassGraph.GrowsTo

/-- The part of a dotted name before its first point. -/
theorem eq_of_dotted_eq {outer outer' inner inner' : String} (ho : Undotted outer)
    (ho' : Undotted outer') (h : outer ++ "." ++ inner = outer' ++ "." ++ inner') :
    outer = outer' := by
  have hlist : ∀ o i : String, (o ++ "." ++ i).toList = o.toList ++ '.' :: i.toList := by simp
  have hsplit := congrArg (List.splitOn '.') (congrArg String.toList h)
  rw [hlist, hlist, List.splitOn_append_cons_self_of_not_mem ho,
    List.splitOn_append_cons_self_of_not_mem ho'] at hsplit
  exact String.toList_inj.mp (List.cons.inj hsplit).1

/-- A declaration with a name that a schema may give, in a module with such a name. -/
structure ClassDecl.IsNamed (d : ClassDecl) : Prop where
  name : Text.isSchemaName d.name = true
  moduleName : Text.isSchemaName d.moduleName = true

theorem ClassGraph.Linked.isNamed {g : ClassGraph} (h : g.Linked) {c : ClassId}
    (hc : c ∈ g.classes) : (g.decl c).IsNamed := by
  obtain ⟨m, hm, hname, -⟩ := h.housed c hc
  rw [h.modules] at hm
  exact ⟨h.named c hc, hname ▸ h.named m (List.mem_of_mem_filter hm)⟩

/-- The qualified name of a class determines the name of its module. -/
theorem ClassDecl.moduleName_of_fullName {d : ClassDecl} {moduleName name : String}
    (hd : d.IsNamed) (hm : Undotted moduleName) (h : d.fullName = moduleName ++ "." ++ name) :
    moduleName = d.moduleName := by
  have hname := undotted_of_isSchemaName hd.name
  have hmodule := undotted_of_isSchemaName hd.moduleName
  rw [fullName] at h
  split at h
  · exfalso
    rw [h] at hname
    simp [Undotted] at hname
  · exact (eq_of_dotted_eq hmodule hm h).symm

namespace Document

/-! ## Links that are kept -/

variable {g g' : ClassGraph}

/-- Inside an old module a name means what it meant. -/
theorem resolve?_of_some (h : g.GrowsTo g')
    (hnamed : ∀ c ∈ g'.classes, (g'.decl c).IsNamed)
    {m : ClassId} (hm : m ∈ g.modules) {name : String} {c : ClassId}
    (hc : resolve? g (g.decl m).name name = some c) :
    resolve? g' (g.decl m).name name = some c := by
  have hlisted : m ∈ g.classes := h.mem_classes_of_mem_modules hm
  have hmodule := undotted_of_isSchemaName (hnamed m (h.mem_classes hlisted)).name
  rw [h.decl_eq hlisted] at hmodule
  rw [resolve?] at hc ⊢
  by_cases hdot : '.' ∈ name.toList
  · rw [if_pos hdot] at hc ⊢
    exact h.find?_of_some hc
  · rw [if_neg hdot] at hc ⊢
    cases hlocal : g.find? ((g.decl m).name ++ "." ++ name) with
    | some c' =>
        rw [hlocal] at hc
        rw [h.find?_of_some hlocal]
        exact hc
    | none =>
        rw [hlocal] at hc
        cases hlocal' : g'.find? ((g.decl m).name ++ "." ++ name) with
        | none => exact h.find?_of_some hc
        | some c' =>
            obtain ⟨hlisted', hnew, hname⟩ := h.not_mem_of_find? hlocal hlocal'
            have hsame := ClassDecl.moduleName_of_fullName (hnamed c' hlisted') hmodule hname
            exact absurd hsame (h.fresh c' hlisted' hnew m hm)

/-- The names of one module mean what they meant. -/
def KeepsNames (g g' : ClassGraph) (moduleName : String) : Prop :=
  ∀ name c, resolve? g moduleName name = some c →
    resolve? g' moduleName name = some c ∧ g'.fullName c = g.fullName c

/-- Of a declaration nothing but its module makes a difference to links. -/
theorem linkInside_persists {d d' : ClassDecl} (hmodule : d'.moduleName = d.moduleName)
    (hkeeps : KeepsNames g g' d.moduleName) {property : String} {t : PropertyType}
    (ht : t.Formed PropertyType.Unlinked) :
    Persists (linkInside g d property t) (linkInside g' d' property t) := by
  induction ht with
  | primitive _ => exact .refl _
  | @reference name _ _ =>
      intro out hout
      rw [linkInside] at hout ⊢
      split at hout
      · rename_i c hc
        obtain ⟨hc', hname⟩ := hkeeps name c hc
        rw [hmodule]
        simp only [hc', hname, linkAllInside] at hout ⊢
        exact hout
      · cases hout
  | collection _ _ ih =>
      rw [linkInside, linkInside, linkAllInside_eq, linkAllInside_eq]
      exact (Persists.mapM ih).map _
  | optional _ ih =>
      rw [linkInside, linkInside, linkAllInside_eq, linkAllInside_eq]
      refine (Persists.mapM fun t ht => ?_).map _
      rwa [List.mem_singleton.mp ht]

theorem linkSuperclass_persists {d : Draft} (hkeeps : KeepsNames g g' d.decl.moduleName) :
    Persists (linkSuperclass g d) (linkSuperclass g' d) := by
  intro out hout
  rw [linkSuperclass] at hout ⊢
  split at hout
  · exact hout
  · rename_i name _
    split at hout
    · rename_i hempty
      rwa [if_pos hempty]
    · rename_i hempty
      rw [if_neg hempty]
      split at hout
      · rename_i c hc
        rwa [(hkeeps name c hc).1]
      · cases hout

theorem link_persists {d : Draft} (hd : d.Sound) (hkeeps : KeepsNames g g' d.decl.moduleName) :
    Persists (link g d) (link g' d) := by
  refine .bind (linkSuperclass_persists hkeeps) fun _ _ =>
    .bind (.mapM fun p hp => ?_) fun _ _ => ?_
  · exact .bind (linkInside_persists rfl hkeeps (hd.types p hp)) fun _ _ => .refl _
  · exact .refl _

/-! ## Documents with a module more -/

/-- The document with one more definition at the end of its list of modules. -/
def withModule (v : Json) : Json → Json
  | .object fields => .object (Table.insertEntry "modules"
      (.list ((Json.object fields).items "modules" ++ [v])) fields)
  | doc => doc

theorem readModules_append {vs ws : List Json} : ∀ {before out : List Draft},
    readModules before vs = .ok out → readModules before (vs ++ ws) = readModules out ws := by
  induction vs with
  | nil =>
      intro before out h
      obtain rfl := Except.ok.inj h
      rfl
  | cons v vs ih =>
      intro before out h
      rw [readModules] at h
      obtain ⟨d, hd, h⟩ := bind_eq_ok.mp h
      rw [List.cons_append, readModules, hd, ok_bind]
      cases v with
      | object fields =>
          simp only at h ⊢
          split at h
          · simp at h
          · rename_i hnew
            obtain ⟨values, hvalues, h⟩ := bind_eq_ok.mp h
            obtain ⟨middle, hmiddle, h⟩ := bind_eq_ok.mp h
            rw [if_neg hnew]
            simp only [ok_bind, hvalues, hmiddle]
            exact ih h
      | _ => simp [Draft.read] at hd

/-- The drafts of the new module follow the old ones and name no old module as theirs. -/
theorem drafts_withModule {v doc : Json} {ds ds' : List Draft} (h : drafts doc = .ok ds)
    (h' : drafts (withModule v doc) = .ok ds') : ∃ more, ds' = ds ++ more ∧
      ∀ d ∈ more, ∀ m ∈ ds, m.decl.isModule = true → m.decl.name ≠ d.decl.moduleName := by
  cases doc with
  | object fields =>
      rw [drafts] at h
      split at h
      · rename_i values hvalues
        have hfield : Json.field (Table.insertEntry "modules" (.list (values ++ [v])) fields)
            "modules" = .list (values ++ [v]) := by
          rw [Json.field, Table.findEntry_insertEntry, if_pos rfl, Option.getD_some]
        have hn := (drafts_ok h').2
        simp only [withModule, Json.items, hvalues, drafts, hfield] at h'
        rw [readModules_append h] at h'
        obtain ⟨blocks, rfl, hblocks⟩ := readModules_blocks h'
        refine ⟨_, rfl, fun d hd m hm hmodule hname => ?_⟩
        obtain ⟨b, hb, hd⟩ := List.mem_flatMap.mp hd
        obtain ⟨w, -, hread⟩ := hblocks.exists_left b hb
        obtain ⟨hhead, hheadName⟩ := (Draft.read_ok hread.head).2
        have hown : d.decl.moduleName = b.head.decl.name := by
          rcases List.mem_cons.mp hd with rfl | hd
          · exact hheadName
          · obtain ⟨w, -, hw⟩ := hread.members.exists_left d hd
            exact (Draft.read_ok hw).2.2
        rw [List.map_append, List.nodup_append] at hn
        refine hn.2.2 m.fullName (List.mem_map_of_mem hm) b.head.fullName ?_ ?_
        · exact List.mem_map_of_mem (List.mem_flatMap.mpr ⟨b, hb, List.mem_cons_self⟩)
        · simp [Draft.fullName, ClassDecl.fullName, hmodule, hhead, hname, hown]
      · cases h
  | _ => simp [drafts] at h

theorem unlinked_decl {ds : List Draft} {c : ClassId} (hc : c < ds.length) :
    (unlinked ds).decl c = ds[c].decl := by
  simp [ClassGraph.decl, unlinked, hc]

theorem unlinked_growsTo {ds more : List Draft}
    (hfresh : ∀ d ∈ more, ∀ m ∈ ds, m.decl.isModule = true → m.decl.name ≠ d.decl.moduleName) :
    (unlinked ds).GrowsTo (unlinked (ds ++ more)) where
  decls := by simp [unlinked]
  classes := by simp [unlinked]
  classes' := by simp [unlinked]
  modules := rfl
  modules' := rfl
  fresh c hc hnew m hm := by
    obtain ⟨hlisted, hmodule⟩ := List.mem_filter.mp hm
    have hm : m < ds.length := List.mem_range.mp hlisted
    have hc : c < (ds ++ more).length := List.mem_range.mp hc
    have hge : ds.length ≤ c := by simpa [unlinked] using hnew
    change ((unlinked ds).decl m).isModule = true at hmodule
    rw [unlinked_decl hm] at hmodule ⊢
    rw [unlinked_decl hc, List.getElem_append_right hge]
    exact hfresh _ (List.getElem_mem _) _ (List.getElem_mem _) hmodule

/-- Drafts are named, and so are their modules. -/
theorem unlinked_isNamed {ds : List Draft} (h : Drafted ds) :
    ∀ c ∈ (unlinked ds).classes, ((unlinked ds).decl c).IsNamed := by
  intro c hc
  rw [unlinked_decl (List.mem_range.mp hc)]
  have hmem := List.getElem_mem (List.mem_range.mp hc)
  obtain ⟨m, hm, -, hname, -⟩ := h.housed _ hmem
  exact ⟨(h.sound _ hmem).named, hname ▸ (h.sound m hm).named⟩

/-- The links of a document are kept when a module is appended. -/
theorem link_append {ds more : List Draft} (h : Drafted ds) (h' : Drafted (ds ++ more))
    (hfresh : ∀ d ∈ more, ∀ m ∈ ds, m.decl.isModule = true → m.decl.name ≠ d.decl.moduleName) :
    ∀ d ∈ ds, Persists (link (unlinked ds) d) (link (unlinked (ds ++ more)) d) := by
  intro d hd
  have hgrows := unlinked_growsTo hfresh
  refine link_persists (h.sound d hd) fun name c hc => ⟨?_, hgrows.fullName_eq (resolve?_mem hc)⟩
  obtain ⟨m, hm, hat, hname, -⟩ := h.housed d hd
  obtain ⟨i, hi, rfl⟩ := List.getElem_of_mem hm
  have hmodule : i ∈ (unlinked ds).modules := by
    refine List.mem_filter.mpr ⟨List.mem_range.mpr hi, ?_⟩
    change ((unlinked ds).decl i).isModule = true
    rw [unlinked_decl hi]
    exact hat.1
  rw [← hname, ← unlinked_decl hi] at hc ⊢
  exact resolve?_of_some hgrows (unlinked_isNamed h') hmodule hc

/-- A loaded graph grows when a module is appended to its document. -/
theorem load_growsTo {v doc : Json} {g g' : ClassGraph} (h : load doc = .ok g)
    (h' : load (withModule v doc) = .ok g') : g.GrowsTo g' := by
  have hg := load_linked h
  have hg' := load_linked h'
  obtain ⟨ds, decls, hds, hdecls, rfl⟩ := load_eq_ok.mp h
  obtain ⟨ds', decls', hds', hdecls', rfl⟩ := load_eq_ok.mp h'
  obtain ⟨more, rfl, hfresh⟩ := drafts_withModule hds hds'
  have hdrafted := (drafts_ok hds).1
  have hdrafted' := (drafts_ok hds').1
  have hlinks := Persists.mapM_append (link_append hdrafted hdrafted' hfresh)
    (mapM_eq_ok.mpr hdecls) (mapM_eq_ok.mpr hdecls')
  refine ⟨hlinks, hg.classes, hg'.classes, hg.modules, hg'.modules, fun c hc hnew m hm => ?_⟩
  obtain ⟨d, hd, hplace⟩ := exists_draft hdecls' c hc
  obtain ⟨e, he, hplaceModule⟩ := exists_draft hdecls m (List.mem_of_mem_filter hm)
  rw [(hplace.keeps (hdrafted'.sound d hd)).moduleName,
    (hplaceModule.keeps (hdrafted.sound e he)).name]
  exact (unlinked_growsTo hfresh).fresh c hc hnew m hm

end Document

end RecordGen

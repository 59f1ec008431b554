import RecordGen.Proofs.GrowingGraphs
import RecordGen.Proofs.MappedDocs

/-! # Documents with edited definitions

An edit changes the fields of modules and classes, each of which keeps its place and its name. If
every definition is still read, so is the document, and every name means in it what it meant
before. -/

namespace RecordGen

open Fallible

/-! ## What is read -/

namespace Draft

theorem optionalText_eq_some {fields : List (String × Json)} {key owner text : String} :
    optionalText fields key owner = .ok (some text) ↔ Json.field fields key = .text text := by
  rw [optionalText]
  cases Json.field fields key <;> simp

/-- A property with everything that is read for it. -/
structure ReadsProperty (owner : String) (fields : List (String × Json)) (p : Property) : Prop where
  name : Json.field fields "name" = .text p.name
  named : Text.isSchemaName p.name = true
  type : ∃ text, Json.field fields "type" = .text text ∧
    PropertyType.parse owner text = .ok p.type
  nullable : (Json.field fields "nullable").truthy = p.nullable
  doc : optionalText fields "doc" owner = .ok p.doc

theorem readProperty_eq_ok {owner : String} {v : Json} {p : Property} :
    readProperty owner v = .ok p ↔ ∃ fields, v = .object fields ∧ ReadsProperty owner fields p := by
  constructor
  · intro h
    cases v with
    | object fields =>
        rw [readProperty] at h
        split at h
        · split at h
          · rename_i hname hnamed
            split at h
            · rename_i text htext
              simp only [pure_eq, ok_bind] at h
              obtain ⟨type, htype, h⟩ := bind_eq_ok.mp h
              obtain ⟨doc, hdoc, h⟩ := bind_eq_ok.mp h
              obtain rfl := Except.ok.inj h
              exact ⟨fields, rfl, hname, hnamed, ⟨text, htext, htype⟩, rfl, hdoc⟩
            · simp at h
          · simp at h
        · simp at h
    | _ => simp [readProperty] at h
  · rintro ⟨fields, rfl, hname, hnamed, ⟨text, htext, htype⟩, hnullable, hdoc⟩
    simp only [readProperty, hname, hnamed, if_true, htext, htype, hdoc, hnullable, pure_eq,
      ok_bind]

/-- Properties are read one by one, and their names differ. -/
theorem readProperties_eq_ok {owner : String} {known : List String} {vs : List Json}
    {ps : List Property} : readProperties owner known vs = .ok ps ↔
      List.Forall₂ (fun v p => readProperty owner v = .ok p) vs ps ∧ (ps.map (·.name)).Nodup ∧
        ∀ p ∈ ps, p.name ∉ known := by
  induction vs generalizing known ps with
  | nil =>
      simp only [readProperties, Except.ok.injEq, List.forall₂_nil_left_iff]
      constructor
      · rintro rfl
        exact ⟨rfl, by simp, by simp⟩
      · rintro ⟨rfl, -, -⟩
        rfl
  | cons v vs ih =>
      have hstep : readProperties owner known (v :: vs) = (do
          let p ← readProperty owner v
          if p.name ∈ known then .error (.repeatedProperty owner p.name)
          else (p :: ·) <$> readProperties owner (p.name :: known) vs) := by
        rw [readProperties]
        refine bind_congr fun p => ?_
        split <;> rfl
      simp only [hstep, bind_eq_ok, guard_eq_ok, map_eq_ok, ih, List.forall₂_cons_left_iff]
      constructor
      · rintro ⟨p, hp, hnew, rest, ⟨hrest, hnodup, hfresh⟩, rfl⟩
        refine ⟨⟨p, rest, hp, hrest, rfl⟩, ?_, List.forall_mem_cons.mpr ⟨hnew, fun q hq hmem => ?_⟩⟩
        · rw [List.map_cons, List.nodup_cons]
          refine ⟨fun hmem => ?_, hnodup⟩
          obtain ⟨q, hq, hname⟩ := List.mem_map.mp hmem
          exact hfresh q hq (hname ▸ List.mem_cons_self)
        · exact hfresh q hq (List.mem_cons_of_mem _ hmem)
      · rintro ⟨⟨p, rest, hp, hrest, rfl⟩, hnodup, hfresh⟩
        rw [List.map_cons, List.nodup_cons] at hnodup
        obtain ⟨hnew, hfresh⟩ := List.forall_mem_cons.mp hfresh
        refine ⟨p, hp, hnew, rest, ⟨hrest, hnodup.2, fun q hq hmem => ?_⟩, rfl⟩
        rcases List.mem_cons.mp hmem with hname | hmem
        · exact hnodup.1 (hname ▸ List.mem_map_of_mem hq)
        · exact hfresh q hq hmem

/-- A definition with everything that is read for it. -/
structure Reads (place : Place) (fields : List (String × Json)) (d : Draft) : Prop where
  name : Json.field fields "name" = .text d.decl.name
  named : Text.isSchemaName d.decl.name = true
  kind : readKind d.decl.name fields = .ok d.decl.kind
  doc : optionalText fields "doc" d.decl.name = .ok d.decl.doc
  place : d.IsAt place
  superclass : d.decl.superclass = none
  superclassName : optionalText fields "extends" d.fullName = .ok d.superclassName
  properties : ∃ values, optionalList fields "properties" d.fullName = .ok values ∧
    readProperties d.fullName [] values = .ok d.decl.properties

theorem read_eq_ok {place : Place} {v : Json} {d : Draft} :
    read place v = .ok d ↔ ∃ fields, v = .object fields ∧ Reads place fields d := by
  constructor
  · intro h
    cases v with
    | object fields =>
        rw [read] at h
        split at h
        · split at h
          · rename_i hname hnamed
            simp only [pure_eq, ok_bind] at h
            obtain ⟨kind, hkind, h⟩ := bind_eq_ok.mp h
            obtain ⟨doc, hdoc, h⟩ := bind_eq_ok.mp h
            obtain ⟨superclassName, hsuper, h⟩ := bind_eq_ok.mp h
            obtain ⟨values, hvalues, h⟩ := bind_eq_ok.mp h
            obtain ⟨properties, hproperties, h⟩ := bind_eq_ok.mp h
            obtain rfl := Except.ok.inj h
            refine ⟨fields, rfl, hname, hnamed, hkind, hdoc, ?_, rfl, hsuper, values, hvalues,
              hproperties⟩
            cases place <;> exact ⟨rfl, rfl⟩
          · simp at h
        · simp at h
    | _ => simp [read] at h
  · rintro ⟨fields, rfl, hname, hnamed, hkind, hdoc, hplace, hnone, hsuper, values, hvalues,
      hproperties⟩
    obtain ⟨⟨name, kind, superclass, properties, doc, isModule, moduleName⟩, superclassName⟩ := d
    change Json.field fields "name" = .text name at hname
    change readKind name fields = .ok kind at hkind
    change optionalText fields "doc" name = .ok doc at hdoc
    change superclass = none at hnone
    change readProperties _ [] values = .ok properties at hproperties
    -- The qualified name does not depend on what is read after it.
    change optionalText fields "extends" ({ name, isModule, moduleName } : ClassDecl).fullName =
      .ok superclassName at hsuper
    change optionalList fields "properties" ({ name, isModule, moduleName } : ClassDecl).fullName =
      .ok values at hvalues
    change readProperties ({ name, isModule, moduleName } : ClassDecl).fullName [] values =
      .ok properties at hproperties
    subst hnone
    rw [read]
    simp only [hname, if_pos hnamed, hkind, hdoc, pure_eq, ok_bind]
    cases place with
    | module =>
        obtain ⟨rfl, rfl⟩ : isModule = true ∧ moduleName = name := hplace
        simp only [ClassDecl.fullName] at hsuper hvalues hproperties ⊢
        rw [hsuper, ok_bind, hvalues, ok_bind, hproperties, ok_bind]
    | «class» m =>
        obtain ⟨rfl, rfl⟩ : isModule = false ∧ moduleName = m := hplace
        simp only [ClassDecl.fullName] at hsuper hvalues hproperties ⊢
        rw [hsuper, ok_bind, hvalues, ok_bind, hproperties, ok_bind]

/-- Superclass and properties are read on their own. -/
theorem Reads.update {place : Place} {fields fields' : List (String × Json)} {d : Draft}
    (h : Reads place fields d) (hsame : ∀ key ∈ ["name", "kind", "doc"],
      Table.findEntry key fields' = Table.findEntry key fields)
    {superclassName : Option String} {values : List Json} {properties : List Property}
    (hsuper : optionalText fields' "extends" d.fullName = .ok superclassName)
    (hvalues : optionalList fields' "properties" d.fullName = .ok values)
    (hproperties : readProperties d.fullName [] values = .ok properties) :
    Reads place fields' { decl := { d.decl with properties }, superclassName } where
  name := by
    rw [Json.field, hsame _ (by simp)]
    exact h.name
  named := h.named
  kind := by
    rw [readKind, hsame _ (by simp)]
    exact h.kind
  doc := by
    rw [optionalText, Json.field, hsame _ (by simp)]
    exact h.doc
  place := by
    cases place <;> exact h.place
  superclass := h.superclass
  superclassName := hsuper
  properties := ⟨values, hvalues, hproperties⟩

/-- The classes of a module are read on their own. -/
theorem Reads.congr {place : Place} {fields fields' : List (String × Json)} {d : Draft}
    (h : Reads place fields d) (hsame : ∀ key, key ≠ "classes" →
      Table.findEntry key fields' = Table.findEntry key fields) : Reads place fields' d := by
  obtain ⟨values, hvalues, hproperties⟩ := h.properties
  have hvalues' : optionalList fields' "properties" d.fullName = .ok values := by
    rw [optionalList, hsame _ (by decide)]
    exact hvalues
  refine h.update (fun key hkey => hsame key ?_) ?_ hvalues' hproperties
  · rintro rfl
    simp at hkey
  · rw [optionalText, Json.field, hsame _ (by decide)]
    exact h.superclassName

/-- Drafts that are found at the same place under the same name. -/
structure Alike (d d' : Draft) : Prop where
  name : d'.decl.name = d.decl.name
  isModule : d'.decl.isModule = d.decl.isModule
  moduleName : d'.decl.moduleName = d.decl.moduleName

theorem Alike.fullName {d d' : Draft} (h : Alike d d') : d'.fullName = d.fullName := by
  rw [Draft.fullName, Draft.fullName, ClassDecl.fullName, ClassDecl.fullName, h.name, h.isModule,
    h.moduleName]

theorem fullNames_alike {ds ds' : List Draft} (h : List.Forall₂ Alike ds ds') :
    ds'.map fullName = ds.map fullName := by
  rw [← List.forall₂_eq_eq_eq, List.forall₂_map_left_iff, List.forall₂_map_right_iff]
  exact h.flip.imp fun _ _ hd => hd.fullName

end Draft

/-! ## What is linked -/

namespace Document

variable {g : ClassGraph}

/-- A property and the one that it is after its type is linked. -/
def LinksProperty (g : ClassGraph) (d : ClassDecl) (p p' : Property) : Prop :=
  ∃ type, linkInside g d p.name p.type = .ok type ∧ { p with type } = p'

theorem LinksProperty.name_eq {d : ClassDecl} {p p' : Property} (h : LinksProperty g d p p') :
    p'.name = p.name := by
  obtain ⟨type, -, rfl⟩ := h
  rfl

theorem link_eq_ok {d : Draft} {decl : ClassDecl} : link g d = .ok decl ↔
    ∃ superclass properties, linkSuperclass g d = .ok superclass ∧
      List.Forall₂ (LinksProperty g d.decl) d.decl.properties properties ∧
      decl = { d.decl with superclass, properties } := by
  simp only [link, bind_eq_ok, mapM_eq_ok, pure_eq, Except.ok.injEq]
  constructor
  · rintro ⟨superclass, hsuper, properties, hproperties, rfl⟩
    exact ⟨superclass, properties, hsuper, hproperties, rfl⟩
  · rintro ⟨superclass, properties, hsuper, hproperties, rfl⟩
    exact ⟨superclass, hsuper, properties, hproperties, rfl⟩

/-- An empty name means no superclass. -/
theorem linkSuperclass_eq_ok {d : Draft} {superclass : Option ClassId} :
    linkSuperclass g d = .ok superclass ↔
      (d.superclassName.getD "" = "" ∧ superclass = none) ∨ ∃ name c,
        d.superclassName = some name ∧ name ≠ "" ∧ superclass = some c ∧
          resolve? g d.decl.moduleName name = some c := by
  rw [linkSuperclass]
  cases hname : d.superclassName with
  | none => simp [eq_comm]
  | some name =>
      by_cases hempty : name = ""
      · subst hempty
        simp [eq_comm (a := none)]
      · have hfull : ¬name.isEmpty = true := by simpa using hempty
        cases hc : resolve? g d.decl.moduleName name <;> simp [hfull, hempty, hc, eq_comm]

/-- Of the declaration only its module matters, and of the graph what its names mean there. -/
theorem LinksProperty.persists {g' : ClassGraph} {d d' : ClassDecl} {p p' : Property}
    (h : LinksProperty g d p p') (ht : p.type.Formed PropertyType.Unlinked)
    (hmodule : d'.moduleName = d.moduleName) (hkeeps : KeepsNames g g' d.moduleName) :
    LinksProperty g' d' p p' := by
  obtain ⟨type, htype, rfl⟩ := h
  exact ⟨type, linkInside_persists hmodule hkeeps ht type htype, rfl⟩

theorem LinksProperty.congr {d d' : ClassDecl} {p p' : Property} (h : LinksProperty g d p p')
    (ht : p.type.Formed PropertyType.Unlinked) (hmodule : d'.moduleName = d.moduleName) :
    LinksProperty g d' p p' :=
  h.persists ht hmodule fun _ _ hc => ⟨hc, rfl⟩

end Document

/-! ## Edits -/

/-- A change of the fields of a definition, which may depend on its place. -/
abbrev Edit := Place → List (String × Json) → List (String × Json)

namespace Document

/-- The name that a definition gives. -/
def givenName (fields : List (String × Json)) : String :=
  match Json.field fields "name" with
  | .text s => s
  | _ => ""

/-- The qualified name of a definition. -/
def givenFullName (place : Place) (fields : List (String × Json)) : String :=
  match place with
  | .module => givenName fields
  | .class moduleName =>
    if moduleName.isEmpty then givenName fields else moduleName ++ "." ++ givenName fields

def editClass (edit : Edit) (moduleName : String) : Json → Json
  | .object fields => .object (edit (.class moduleName) fields)
  | v => v

/-- What is edited in an entry of a module: its classes. -/
def editModuleEntry (edit : Edit) (moduleName key : String) (v : Json) : Json :=
  if key = "classes" then Json.mapItems (editClass edit moduleName) v else v

def editModule (edit : Edit) : Json → Json
  | .object fields => .object
      ((edit .module fields).map fun e => (e.1, editModuleEntry edit (givenName fields) e.1 e.2))
  | v => v

def editEntry (edit : Edit) (key : String) (v : Json) : Json :=
  if key = "modules" then Json.mapItems (editModule edit) v else v

/-- A document with all its definitions edited. -/
def editDefinitions (edit : Edit) : Json → Json :=
  Json.mapEntries (editEntry edit)

theorem givenName_eq {place : Place} {fields : List (String × Json)} {d : Draft}
    (h : d.Reads place fields) : givenName fields = d.decl.name := by
  rw [givenName, h.name]

theorem givenFullName_eq {place : Place} {fields : List (String × Json)} {d : Draft}
    (h : d.Reads place fields) : givenFullName place fields = d.fullName := by
  rw [Draft.fullName, ClassDecl.fullName]
  cases place with
  | module => simp [givenFullName, givenName_eq h, h.place.1]
  | «class» moduleName => simp [givenFullName, givenName_eq h, h.place.1, h.place.2]

/-! ## Reading edited documents -/

section

variable {edit : Edit} {R : Draft → Draft → Prop}

/-- Each draft of a list has an edited one that is read from the edited definition. -/
def Rereads (edit : Edit) (R : Draft → Draft → Prop) (ds : List Draft) : Prop :=
  ∀ place fields d, d ∈ ds → d.Reads place fields →
    ∃ d' : Draft, d'.Reads place (edit place fields) ∧ R d d'

theorem Rereads.of_append {ds more : List Draft} (h : Rereads edit R (ds ++ more)) :
    Rereads edit R ds :=
  fun place fields d hd => h place fields d (List.mem_append_left _ hd)

variable (hR : ∀ d d', R d d' → d.Alike d')

include hR

theorem readClasses_edit {moduleName : String} {vs : List Json} :
    ∀ {before before' out : List Draft}, readClasses moduleName before vs = .ok out →
      List.Forall₂ R before before' → Rereads edit R out →
      ∃ out', readClasses moduleName before' (vs.map (editClass edit moduleName)) = .ok out' ∧
        List.Forall₂ R out out' := by
  induction vs with
  | nil =>
      intro before before' out h hbefore _
      obtain rfl := Except.ok.inj h
      exact ⟨before', rfl, hbefore⟩
  | cons v vs ih =>
      intro before before' out hvs hbefore hread
      rw [readClasses] at hvs
      obtain ⟨d, hd, h⟩ := bind_eq_ok.mp hvs
      obtain ⟨fields, rfl, hfields⟩ := Draft.read_eq_ok.mp hd
      split at h
      · cases h
      · rename_i hnew
        obtain ⟨cs, hout, -⟩ := readClasses_drafts h
        obtain ⟨d', hd', hdR⟩ := hread _ fields d (by simp [hout]) hfields
        have hnames := Draft.fullNames_alike (hbefore.imp hR)
        obtain ⟨out', hout', hlist⟩ := ih h (List.rel_append hbefore (.cons hdR .nil)) hread
        refine ⟨out', ?_, hlist⟩
        have hedited : Draft.read (.class moduleName) (editClass edit moduleName (.object fields)) =
            .ok d' := Draft.read_eq_ok.mpr ⟨_, rfl, hd'⟩
        rw [List.map_cons, readClasses, hedited, ok_bind, hnames, (hR d d' hdR).fullName,
          if_neg hnew]
        exact hout'

theorem readModules_edit (hclasses : ∀ fields,
      Table.findEntry "classes" (edit .module fields) = Table.findEntry "classes" fields)
    {vs : List Json} : ∀ {before before' out : List Draft}, readModules before vs = .ok out →
      List.Forall₂ R before before' → Rereads edit R out →
      ∃ out', readModules before' (vs.map (editModule edit)) = .ok out' ∧
        List.Forall₂ R out out' := by
  induction vs with
  | nil =>
      intro before before' out h hbefore _
      obtain rfl := Except.ok.inj h
      exact ⟨before', rfl, hbefore⟩
  | cons v vs ih =>
      intro before before' out hvs hbefore hread
      rw [readModules] at hvs
      obtain ⟨d, hd, h⟩ := bind_eq_ok.mp hvs
      obtain ⟨fields, rfl, hfields⟩ := Draft.read_eq_ok.mp hd
      simp only at h
      split at h
      · cases h
      · rename_i hnew
        obtain ⟨values, hvalues, h⟩ := bind_eq_ok.mp h
        obtain ⟨middle, hmiddle, h⟩ := bind_eq_ok.mp h
        obtain ⟨cs, rfl, -⟩ := readClasses_drafts hmiddle
        obtain ⟨blocks, rfl, -⟩ := readModules_blocks h
        obtain ⟨d', hd', hdR⟩ := hread _ fields d (by simp) hfields
        have hnames := Draft.fullNames_alike (hbefore.imp hR)
        obtain ⟨middle', hmiddle', hmiddleR⟩ := readClasses_edit hR hmiddle
          (List.rel_append hbefore (.cons hdR .nil)) hread.of_append
        obtain ⟨out', hout', hlist⟩ := ih h hmiddleR hread
        refine ⟨out', ?_, hlist⟩
        have hname : d'.decl.name = d.decl.name := (hR d d' hdR).name
        let edited := (edit .module fields).map fun e =>
          (e.1, editModuleEntry edit (givenName fields) e.1 e.2)
        have hedited : Draft.read .module (.object edited) = .ok d' := by
          refine Draft.read_eq_ok.mpr ⟨_, rfl, hd'.congr fun key hkey => ?_⟩
          have hkept : editModuleEntry edit (givenName fields) key = id :=
            funext fun v => if_neg hkey
          rw [Json.findEntry_map (editModuleEntry edit (givenName fields)), hkept, Option.map_id,
            id]
        have hitems : Draft.optionalList edited "classes" d.decl.name =
            .ok (values.map (editClass edit d.decl.name)) := by
          rw [Draft.optionalList_map _ _ (fun v => if_pos rfl), givenName_eq hfields,
            Draft.optionalList, hclasses]
          rw [Draft.optionalList] at hvalues
          rw [hvalues, map_ok]
        rw [List.map_cons, readModules, show editModule edit (.object fields) = .object edited from
          rfl, hedited, ok_bind]
        simp only [hnames, (hR d d' hdR).fullName, if_neg hnew, hname, hitems, ok_bind, hmiddle']
        exact hout'

theorem drafts_edit (hclasses : ∀ fields,
      Table.findEntry "classes" (edit .module fields) = Table.findEntry "classes" fields)
    {doc : Json} {ds : List Draft} (h : drafts doc = .ok ds) (hread : Rereads edit R ds) :
    ∃ ds', drafts (editDefinitions edit doc) = .ok ds' ∧ List.Forall₂ R ds ds' := by
  cases doc with
  | object fields =>
      rw [drafts] at h
      split at h
      · rename_i values hvalues
        obtain ⟨ds', hds', hlist⟩ := readModules_edit hR hclasses h .nil hread
        refine ⟨ds', ?_, hlist⟩
        rw [editDefinitions, Json.mapEntries, drafts, Json.field_map rfl, hvalues]
        exact hds'
      · cases h
  | _ => simp [drafts] at h

end

/-! ## Names in edited documents -/

section

variable {ds ds' : List Draft}

theorem decl_alike (h : List.Forall₂ Draft.Alike ds ds') (c : ClassId) :
    ((unlinked ds').decl c).isModule = ((unlinked ds).decl c).isModule ∧
      (unlinked ds').fullName c = (unlinked ds).fullName c := by
  by_cases hc : c < ds.length
  · have hc' : c < ds'.length := h.length_eq ▸ hc
    have hd := h.get hc hc'
    rw [ClassGraph.fullName, ClassGraph.fullName, unlinked_decl hc, unlinked_decl hc']
    exact ⟨hd.isModule, hd.fullName⟩
  · have hnone : ∀ es : List Draft, es.length = ds.length → (unlinked es).decl c = {} := by
      intro es hes
      simp only [ClassGraph.decl, unlinked, List.getD_eq_getElem?_getD]
      rw [List.getElem?_eq_none (by simpa [hes] using hc), Option.getD_none]
    rw [ClassGraph.fullName, ClassGraph.fullName, hnone ds rfl, hnone ds' h.length_eq.symm]
    exact ⟨rfl, rfl⟩

/-- Drafts under the same names make graphs in which names mean the same. -/
theorem unlinked_alike (h : List.Forall₂ Draft.Alike ds ds') :
    (unlinked ds').classes = (unlinked ds).classes ∧
      (unlinked ds').modules = (unlinked ds).modules ∧
      resolve? (unlinked ds') = resolve? (unlinked ds) := by
  have hclasses : (unlinked ds').classes = (unlinked ds).classes :=
    congrArg List.range h.length_eq.symm
  refine ⟨hclasses, ?_, resolve?_congr hclasses fun c _ => (decl_alike h c).2⟩
  change (unlinked ds').classes.filter (fun c => ((unlinked ds').decl c).isModule) =
    (unlinked ds).classes.filter fun c => ((unlinked ds).decl c).isModule
  rw [hclasses]
  exact List.filter_congr fun c _ => (decl_alike h c).1

/-- Links among drafts are found among others under the same names. -/
theorem link_alike (h : List.Forall₂ Draft.Alike ds ds') {d : Draft} (hd : d.Sound) :
    Persists (link (unlinked ds) d) (link (unlinked ds') d) ∧
      Persists (link (unlinked ds') d) (link (unlinked ds) d) := by
  have hsame := (unlinked_alike h).2.2
  refine ⟨link_persists hd fun name c hc => ⟨?_, (decl_alike h c).2⟩,
    link_persists hd fun name c hc => ⟨?_, ((decl_alike h c).2).symm⟩⟩
  · rwa [hsame]
  · rwa [← hsame]

/-- An edited document is loaded exactly if its drafts can be linked, to the names there were. -/
theorem load_alike_eq_ok {doc : Json} (hdrafts : drafts doc = .ok ds')
    (h : List.Forall₂ Draft.Alike ds ds') {g : ClassGraph} : load doc = .ok g ↔ ∃ decls,
      List.Forall₂ (fun d decl => link (unlinked ds) d = .ok decl) ds' decls ∧
        g = { unlinked ds with decls } := by
  have hsound := (drafts_ok hdrafts).1.sound
  obtain ⟨hclasses, hmodules, -⟩ := unlinked_alike h
  have hgraph : ∀ decls, ({ unlinked ds' with decls } : ClassGraph) = { unlinked ds with decls } :=
    fun decls => by simp only [hclasses, hmodules]
  rw [load_eq_ok]
  constructor
  · rintro ⟨es, decls, hes, hlinks, rfl⟩
    obtain rfl := Except.ok.inj (hdrafts.symm.trans hes)
    refine ⟨decls, ?_, hgraph decls⟩
    exact mapM_eq_ok.mp (Persists.mapM (fun d hd => (link_alike h (hsound d hd)).2) decls
      (mapM_eq_ok.mpr hlinks))
  · rintro ⟨decls, hlinks, rfl⟩
    refine ⟨ds', decls, hdrafts, ?_, (hgraph decls).symm⟩
    exact mapM_eq_ok.mp (Persists.mapM (fun d hd => (link_alike h (hsound d hd)).1) decls
      (mapM_eq_ok.mpr hlinks))

end

end Document

end RecordGen

import RecordGen.Generation
import RecordGen.Proofs.Fallible

/-! # Changing the texts of documentation

A function of texts is put on all documentation of a document, of a graph or of a result. Reading,
resolving and describing carry documentation along and look at nothing in it, so the order makes no
difference: a changed document gives the changed graph, and a changed graph the changed result, or
the same fault as before. -/

namespace RecordGen

open Fallible

variable {f : Option String → Option String}

/-- A traversal of changed elements gives the changed results, if each of its steps does. -/
theorem mapM_changed {ε α α' β β' : Type} {step : α → Except ε β} {step' : α' → Except ε β'}
    {h : α → α'} {k : β → β'} (hstep : ∀ x, step' (h x) = k <$> step x) (xs : List α) :
    (xs.map h).mapM step' = List.map k <$> xs.mapM step := by
  rw [List.mapM_map, ← mapM_map]
  congr 1
  funext x
  exact hstep x

/-! ## Documents -/

namespace Json

/-- Changes each entry of an object, which may depend on its key. -/
def mapEntries (change : String → Json → Json) : Json → Json
  | .object fields => .object (fields.map fun e => (e.1, change e.1 e.2))
  | v => v

def mapItems (change : Json → Json) : Json → Json
  | .list items => .list (items.map change)
  | v => v

/-- Changes a text; where none is left, null stands. -/
def mapText (f : Option String → Option String) : Json → Json
  | .text s => ((f (some s)).map .text).getD .null
  | v => v

variable {change : String → Json → Json} {fields : List (String × Json)} {key : String}

theorem findEntry_map (change : String → Json → Json) (fields : List (String × Json))
    (key : String) : Table.findEntry key (fields.map fun e => (e.1, change e.1 e.2)) =
      (Table.findEntry key fields).map (change key) := by
  induction fields with
  | nil => rfl
  | cons e fields ih =>
      by_cases h : e.1 = key
      · simp [Table.findEntry, h]
      · simp [Table.findEntry, h, ih]

theorem field_map (h : change key .null = .null) :
    field (fields.map fun e => (e.1, change e.1 e.2)) key = change key (field fields key) := by
  rw [field, field, findEntry_map]
  cases Table.findEntry key fields with
  | none => exact h.symm
  | some v => rfl

end Json

namespace Document

open Json

/-- What is changed in an entry of a property. -/
def mapPropertyEntry (f : Option String → Option String) (key : String) (v : Json) : Json :=
  if key = "doc" then mapText f v else v

/-- What is changed in an entry of a class: its own text and those of its properties. -/
def mapClassEntry (f : Option String → Option String) (key : String) (v : Json) : Json :=
  if key = "doc" then mapText f v
  else if key = "properties" then mapItems (mapEntries (mapPropertyEntry f)) v
  else v

/-- A module is a class that has classes. -/
def mapModuleEntry (f : Option String → Option String) (key : String) (v : Json) : Json :=
  if key = "classes" then mapItems (mapEntries (mapClassEntry f)) v else mapClassEntry f key v

def mapEntry (f : Option String → Option String) (key : String) (v : Json) : Json :=
  if key = "modules" then mapItems (mapEntries (mapModuleEntry f)) v else v

/-- A document with the texts of all its modules, classes and properties changed. -/
def mapDocs (f : Option String → Option String) : Json → Json :=
  mapEntries (mapEntry f)

end Document

/-! ## Graphs -/

def Property.mapDoc (f : Option String → Option String) (p : Property) : Property :=
  { p with doc := f p.doc }

def ClassDecl.mapDocs (f : Option String → Option String) (d : ClassDecl) : ClassDecl :=
  { d with doc := f d.doc, properties := d.properties.map (Property.mapDoc f) }

def Draft.mapDocs (f : Option String → Option String) (d : Draft) : Draft :=
  { d with decl := d.decl.mapDocs f }

def ClassGraph.mapDocs (f : Option String → Option String) (g : ClassGraph) : ClassGraph :=
  { g with decls := g.decls.map (ClassDecl.mapDocs f) }

/-! ## Reading definitions -/

namespace Draft

open Json Document

section

variable {change : String → Json → Json} {key : String} (fields : List (String × Json))
  (owner : String)

theorem optionalText_map (hchange : ∀ v, change key v = mapText f v) (hf : f none = none) :
    optionalText (fields.map fun e => (e.1, change e.1 e.2)) key owner =
      f <$> optionalText fields key owner := by
  rw [optionalText, optionalText, field_map (hchange _), hchange]
  cases field fields key with
  | null => simp [mapText, hf]
  | text s =>
      simp only [mapText]
      cases hs : f (some s) <;> simp [hs]
  | _ => simp [mapText]

theorem optionalText_unchanged (hchange : ∀ v, change key v = v) :
    optionalText (fields.map fun e => (e.1, change e.1 e.2)) key owner =
      optionalText fields key owner := by
  rw [optionalText, optionalText, field_map (hchange _), hchange]

theorem optionalList_map {item : Json → Json} (hchange : ∀ v, change key v = mapItems item v) :
    optionalList (fields.map fun e => (e.1, change e.1 e.2)) key owner =
      List.map item <$> optionalList fields key owner := by
  rw [optionalList, optionalList, findEntry_map]
  cases Table.findEntry key fields with
  | none => rfl
  | some v =>
      rw [Option.map_some, hchange]
      cases v <;> rfl

end

theorem readProperty_map (hf : f none = none) (owner : String) (v : Json) :
    readProperty owner (mapEntries (mapPropertyEntry f) v) =
      Property.mapDoc f <$> readProperty owner v := by
  cases v with
  | object fields =>
      simp only [mapEntries, readProperty]
      rw [field_map rfl, field_map rfl, field_map rfl,
        optionalText_map fields owner (fun _ => rfl) hf]
      cases field fields "name" with
      | text s => by_cases hs : Text.isSchemaName s <;> cases field fields "type" <;>
          simp [hs, mapPropertyEntry, Property.mapDoc]
      | _ => rfl
  | _ => rfl

theorem readProperties_map (hf : f none = none) (owner : String) (known : List String)
    (vs : List Json) : readProperties owner known (vs.map (mapEntries (mapPropertyEntry f))) =
      List.map (Property.mapDoc f) <$> readProperties owner known vs := by
  induction vs generalizing known with
  | nil => rfl
  | cons v vs ih =>
      rw [List.map_cons, readProperties, readProperties, readProperty_map hf, map_bind,
        bind_map_left]
      refine bind_congr fun p => ?_
      by_cases hp : p.name ∈ known <;> simp [ih, Property.mapDoc, hp]

/-- Besides the text and the properties nothing is changed that makes a draft. -/
theorem read_map {change : String → Json → Json} (hf : f none = none)
    (hdoc : ∀ v, change "doc" v = mapText f v)
    (hproperties : ∀ v, change "properties" v = mapItems (mapEntries (mapPropertyEntry f)) v)
    (hname : ∀ v, change "name" v = v) (hkind : ∀ v, change "kind" v = v)
    (hextends : ∀ v, change "extends" v = v) (place : Place) (v : Json) :
    Draft.read place (mapEntries change v) = Draft.mapDocs f <$> Draft.read place v := by
  cases v with
  | object fields =>
      have hkind : ∀ name, readKind name (fields.map fun e => (e.1, change e.1 e.2)) =
          readKind name fields := by
        intro name
        rw [readKind, readKind, findEntry_map]
        cases Table.findEntry "kind" fields with
        | none => rfl
        | some v => rw [Option.map_some, hkind]
      simp only [mapEntries, Draft.read, hkind]
      rw [field_map (hname _), hname]
      cases field fields "name" with
      | text s =>
          simp only [optionalText_map fields _ hdoc hf, optionalText_unchanged fields _ hextends,
            optionalList_map fields _ hproperties]
          by_cases hs : Text.isSchemaName s <;> cases place <;>
            simp [hs, readProperties_map hf, ClassDecl.fullName, mapDocs, ClassDecl.mapDocs]
      | _ => rfl
  | _ => rfl

theorem read_mapClass (hf : f none = none) (place : Place) (v : Json) :
    Draft.read place (mapEntries (mapClassEntry f) v) = Draft.mapDocs f <$> Draft.read place v :=
  read_map hf (fun _ => rfl) (fun _ => rfl) (fun _ => rfl) (fun _ => rfl) (fun _ => rfl) place v

theorem read_mapModule (hf : f none = none) (place : Place) (v : Json) :
    Draft.read place (mapEntries (mapModuleEntry f) v) = Draft.mapDocs f <$> Draft.read place v :=
  read_map hf (fun _ => rfl) (fun _ => rfl) (fun _ => rfl) (fun _ => rfl) (fun _ => rfl) place v

@[simp] theorem fullName_mapDocs (d : Draft) : (d.mapDocs f).fullName = d.fullName := rfl

theorem fullNames_mapDocs (ds : List Draft) :
    (ds.map (mapDocs f)).map fullName = ds.map fullName := by
  rw [List.map_map]
  rfl

end Draft

/-! ## Reading documents -/

namespace Document

open Json

theorem readClasses_map (hf : f none = none) (moduleName : String) (ds : List Draft)
    (vs : List Json) :
    readClasses moduleName (ds.map (Draft.mapDocs f)) (vs.map (mapEntries (mapClassEntry f))) =
      List.map (Draft.mapDocs f) <$> readClasses moduleName ds vs := by
  induction vs generalizing ds with
  | nil => rfl
  | cons v vs ih =>
      rw [List.map_cons, readClasses, readClasses, Draft.read_mapClass hf, map_bind, bind_map_left]
      refine bind_congr fun d => ?_
      rw [Draft.fullName_mapDocs, Draft.fullNames_mapDocs]
      by_cases hd : d.fullName ∈ ds.map Draft.fullName
      · simp [hd]
      · simp only [hd, if_false]
        have hih := ih (ds ++ [d])
        rw [List.map_append] at hih
        exact hih

theorem readModules_map (hf : f none = none) (ds : List Draft) (vs : List Json) :
    readModules (ds.map (Draft.mapDocs f)) (vs.map (mapEntries (mapModuleEntry f))) =
      List.map (Draft.mapDocs f) <$> readModules ds vs := by
  induction vs generalizing ds with
  | nil => rfl
  | cons v vs ih =>
      rw [List.map_cons, readModules, readModules, Draft.read_mapModule hf, map_bind,
        bind_map_left]
      refine bind_congr fun d => ?_
      rw [Draft.fullName_mapDocs, Draft.fullNames_mapDocs]
      have hclasses : ∀ classes : List Json,
          (readClasses d.decl.name (ds.map (Draft.mapDocs f) ++ [d.mapDocs f])
            (classes.map (mapEntries (mapClassEntry f))) >>= fun ds' =>
              readModules ds' (vs.map (mapEntries (mapModuleEntry f)))) =
          List.map (Draft.mapDocs f) <$>
            (readClasses d.decl.name (ds ++ [d]) classes >>= fun ds' => readModules ds' vs) := by
        intro classes
        have hread := readClasses_map hf d.decl.name (ds ++ [d]) classes
        rw [List.map_append, List.map_singleton] at hread
        rw [hread, map_bind, bind_map_left]
        exact bind_congr fun ds' => ih ds'
      have hname : (d.mapDocs f).decl.name = d.decl.name := rfl
      by_cases hd : d.fullName ∈ ds.map Draft.fullName
      · simp [hd, hname]
      · simp only [hd, if_false, hname]
        cases v with
        | object fields =>
            have hvalues : Draft.optionalList
                (fields.map fun e => (e.1, mapModuleEntry f e.1 e.2)) "classes" d.decl.name =
                List.map (mapEntries (mapClassEntry f)) <$>
                  Draft.optionalList fields "classes" d.decl.name :=
              Draft.optionalList_map fields _ fun _ => rfl
            simp only [mapEntries]
            rw [hvalues, bind_map_left, map_bind]
            exact bind_congr hclasses
        | _ => exact hclasses []

theorem drafts_map (hf : f none = none) (v : Json) :
    drafts (mapDocs f v) = List.map (Draft.mapDocs f) <$> drafts v := by
  cases v with
  | object fields =>
      simp only [mapDocs, mapEntries, drafts]
      rw [field_map rfl]
      cases field fields "modules" with
      | list values => exact readModules_map hf [] values
      | _ => rfl
  | _ => rfl

end Document

/-! ## Links -/

namespace ClassGraph

variable {g : ClassGraph}

theorem decl_mapDocs (hf : f none = none) (g : ClassGraph) (c : ClassId) :
    (g.mapDocs f).decl c = (g.decl c).mapDocs f := by
  rw [decl, mapDocs, decl, List.getD_eq_getElem?_getD, List.getD_eq_getElem?_getD,
    List.getElem?_map]
  cases g.decls[c]? with
  | none => simp [ClassDecl.mapDocs, hf]
  | some d => rfl

theorem fullName_mapDocs (hf : f none = none) (g : ClassGraph) (c : ClassId) :
    (g.mapDocs f).fullName c = g.fullName c := by
  rw [fullName, decl_mapDocs hf]
  rfl

theorem find?_mapDocs (hf : f none = none) (g : ClassGraph) (name : String) :
    (g.mapDocs f).find? name = g.find? name := by
  simp only [find?, fullName_mapDocs hf]
  rfl

end ClassGraph

namespace Document

open ClassGraph

theorem unlinked_map (ds : List Draft) :
    unlinked (ds.map (Draft.mapDocs f)) = (unlinked ds).mapDocs f := by
  have hmodule : ∀ c, (((ds.map (Draft.mapDocs f)).map Draft.decl).getD c {}).isModule =
      ((ds.map Draft.decl).getD c {}).isModule := by
    intro c
    simp only [List.getD_eq_getElem?_getD, List.getElem?_map]
    cases ds[c]? <;> rfl
  simp only [unlinked, List.length_map, hmodule]
  simp only [ClassGraph.mapDocs, List.map_map]
  rfl

theorem resolve?_mapDocs (hf : f none = none) (g : ClassGraph) :
    resolve? (g.mapDocs f) = resolve? g := by
  funext moduleName name
  simp only [resolve?, find?_mapDocs hf]

mutual

theorem linkInside_mapDocs (hf : f none = none) (g : ClassGraph) (d : ClassDecl)
    (property : String) : ∀ t, linkInside (g.mapDocs f) (d.mapDocs f) property t =
      linkInside g d property t
  | .node .reference _ arguments _ => by
      simp only [linkInside, resolve?_mapDocs hf, fullName_mapDocs hf,
        linkAllInside_mapDocs hf g d property arguments]
      rfl
  | .node .primitive _ arguments _ => by
      simp only [linkInside, linkAllInside_mapDocs hf g d property arguments]
  | .node .collection _ arguments _ => by
      simp only [linkInside, linkAllInside_mapDocs hf g d property arguments]
  | .node .optional _ arguments _ => by
      simp only [linkInside, linkAllInside_mapDocs hf g d property arguments]

theorem linkAllInside_mapDocs (hf : f none = none) (g : ClassGraph) (d : ClassDecl)
    (property : String) : ∀ ts, linkAllInside (g.mapDocs f) (d.mapDocs f) property ts =
      linkAllInside g d property ts
  | [] => rfl
  | t :: ts => by
      simp only [linkAllInside, linkInside_mapDocs hf g d property t,
        linkAllInside_mapDocs hf g d property ts]

end

theorem linkSuperclass_mapDocs (hf : f none = none) (g : ClassGraph) (d : Draft) :
    linkSuperclass (g.mapDocs f) (d.mapDocs f) = linkSuperclass g d := by
  simp only [linkSuperclass, resolve?_mapDocs hf]
  rfl

theorem link_map (hf : f none = none) (g : ClassGraph) (d : Draft) :
    link (g.mapDocs f) (d.mapDocs f) = ClassDecl.mapDocs f <$> link g d := by
  have hproperties : (d.mapDocs f).decl.properties.mapM (fun p => do
        let type ← linkInside (g.mapDocs f) (d.mapDocs f).decl p.name p.type
        return { p with type }) =
      List.map (Property.mapDoc f) <$> d.decl.properties.mapM (fun p => do
        let type ← linkInside g d.decl p.name p.type
        return { p with type }) := by
    refine mapM_changed (fun p => ?_) d.decl.properties
    simp only [Draft.mapDocs, linkInside_mapDocs hf, map_bind]
    rfl
  rw [link, link, linkSuperclass_mapDocs hf, hproperties]
  simp only [map_bind, bind_map_left]
  rfl

/-- A changed document is read as the changed graph, or refused with the same fault. -/
theorem load_mapDocs (hf : f none = none) (v : Json) :
    load (mapDocs f v) = ClassGraph.mapDocs f <$> load v := by
  rw [load, load, drafts_map hf, bind_map_left, map_bind]
  refine bind_congr fun ds => ?_
  simp only [unlinked_map, mapM_changed (link_map hf (unlinked ds)), bind_map_left, map_bind]
  rfl

/-- Documents that become the same are read as graphs that become the same. -/
theorem load_alike (hf : f none = none) {v v' : Json} (hsame : mapDocs f v' = mapDocs f v)
    {g : ClassGraph} (hload : load v = .ok g) :
    ∃ g', load v' = .ok g' ∧ g'.mapDocs f = g.mapDocs f := by
  apply map_eq_ok.mp
  rw [← load_mapDocs hf, hsame, load_mapDocs hf, hload, map_ok]

end Document

/-! ## Ancestry -/

namespace ClassGraph

theorem membersOf_mapDocs (hf : f none = none) (g : ClassGraph) :
    (g.mapDocs f).membersOf = g.membersOf := by
  funext moduleName
  simp only [membersOf, decl_mapDocs hf]
  rfl

theorem enclosing?_mapDocs (hf : f none = none) (g : ClassGraph) :
    (g.mapDocs f).enclosing? = g.enclosing? := by
  funext c
  simp only [enclosing?, decl_mapDocs hf]
  rfl

theorem ancestorsFrom_mapDocs (hf : f none = none) (g : ClassGraph) (steps : Nat)
    (seen : List ClassId) (c : ClassId) :
    (g.mapDocs f).ancestorsFrom steps seen c = g.ancestorsFrom steps seen c := by
  induction steps generalizing seen c with
  | zero => rfl
  | succ steps ih =>
      simp only [ancestorsFrom, decl_mapDocs hf, ih]
      rfl

theorem ancestors_mapDocs (hf : f none = none) (g : ClassGraph) :
    (g.mapDocs f).ancestors = g.ancestors := by
  funext c
  rw [ancestors, ancestors, ancestorsFrom_mapDocs hf, mapDocs, List.length_map]

theorem checkEnclosing_mapDocs (hf : f none = none) (g : ClassGraph) (c : ClassId) :
    (g.mapDocs f).checkEnclosing c = g.checkEnclosing c := by
  simp only [checkEnclosing, decl_mapDocs hf, fullName_mapDocs hf, enclosing?_mapDocs hf]
  rfl

theorem checkExtension_mapDocs (hf : f none = none) (g : ClassGraph) (c : ClassId) :
    (g.mapDocs f).checkExtension c = g.checkExtension c := by
  simp only [checkExtension, decl_mapDocs hf, fullName_mapDocs hf]
  rfl

theorem climb_mapDocs (hf : f none = none) (g : ClassGraph) (placed : List ClassId) (steps : Nat)
    (path : List ClassId) (c : Option ClassId) :
    (g.mapDocs f).climb placed steps path c = g.climb placed steps path c := by
  induction steps generalizing path c with
  | zero => rfl
  | succ steps ih =>
      cases c with
      | none => rfl
      | some c =>
          simp only [climb, checkEnclosing_mapDocs hf, checkExtension_mapDocs hf, decl_mapDocs hf,
            ih, funext (fullName_mapDocs hf g)]
          rfl

theorem ancestryOrder_mapDocs (hf : f none = none) (g : ClassGraph) :
    (g.mapDocs f).ancestryOrder = g.ancestryOrder := by
  have hplace : (g.mapDocs f).place = g.place := by
    funext placed c
    rw [place, place, climb_mapDocs hf]
    rfl
  rw [ancestryOrder, ancestryOrder, hplace]
  rfl

theorem checkReferences_mapDocs (hf : f none = none) (g : ClassGraph) :
    (g.mapDocs f).checkReferences = g.checkReferences := by
  have hdangling : (g.mapDocs f).isDangling = g.isDangling := rfl
  have hproperty : ∀ c, (g.mapDocs f).checkProperty c ∘ Property.mapDoc f = g.checkProperty c := by
    intro c
    funext p
    simp only [Function.comp_apply, checkProperty, hdangling, fullName_mapDocs hf]
    rfl
  have hproperties : ∀ c, ((g.mapDocs f).decl c).properties.forM ((g.mapDocs f).checkProperty c) =
      (g.decl c).properties.forM (g.checkProperty c) := by
    intro c
    rw [decl_mapDocs hf, ← hproperty c]
    exact List.forM_map ..
  simp only [checkReferences, hproperties]
  rfl

theorem visits_mapDocs (hf : f none = none) (g : ClassGraph) :
    (g.mapDocs f).visits = g.visits := by
  have hroot : (g.mapDocs f).root = g.root := by
    funext c
    rw [root, root, ancestors_mapDocs hf]
  funext workers order
  simp only [visits, trees, hroot]

end ClassGraph

theorem Naming.ofGraph_mapDocs (hf : f none = none) (p : String) (g : ClassGraph) :
    Naming.ofGraph p (g.mapDocs f) = Naming.ofGraph p g := by
  have hmodule : addModule p (g.mapDocs f) = addModule p g := by
    funext n entry
    simp only [addModule, ClassGraph.decl_mapDocs hf, ClassGraph.membersOf_mapDocs hf]
    rfl
  simp only [ofGraph, hmodule, ClassGraph.decl_mapDocs hf]
  rfl

/-! ## Resolving -/

def Declared.mapDoc (f : Option String → Option String) (d : Declared) : Declared :=
  { d with property := d.property.mapDoc f }

def Resolution.mapDocs (f : Option String → Option String) (r : Resolution) : Resolution :=
  { r with properties := r.properties.map (Declared.mapDoc f) }

namespace ClassGraph

theorem declare_map (hf : f none = none) (g : ClassGraph) (c : ClassId) (inherited : List Declared)
    (ps : List Property) :
    (g.mapDocs f).declare c (inherited.map (Declared.mapDoc f)) (ps.map (Property.mapDoc f)) =
      List.map (Declared.mapDoc f) <$> g.declare c inherited ps := by
  induction ps generalizing inherited with
  | nil => rfl
  | cons p ps ih =>
      have hfind : (inherited.map (Declared.mapDoc f)).find?
          (·.property.name == (p.mapDoc f).name) =
            (inherited.find? (·.property.name == p.name)).map (Declared.mapDoc f) := by
        rw [List.find?_map]
        rfl
      rw [List.map_cons, declare, declare, hfind]
      cases inherited.find? (·.property.name == p.name) with
      | none =>
          have hih := ih (inherited ++ [⟨p, c⟩])
          rw [List.map_append] at hih
          exact hih
      | some previous =>
          simp only [Option.map_some, fullName_mapDocs hf]
          rfl

theorem extend_map (hf : f none = none) (g : ClassGraph) (inherited : List Declared) (c : ClassId) :
    (g.mapDocs f).extend (inherited.map (Declared.mapDoc f)) c =
      List.map (Declared.mapDoc f) <$> g.extend inherited c := by
  rw [extend, extend, decl_mapDocs hf]
  exact declare_map hf g c inherited (g.decl c).properties

end ClassGraph

namespace Resolution

open ClassGraph

theorem ofClass_map (hf : f none = none) (g : ClassGraph) (names : Naming)
    (above : Option Resolution) (c : ClassId) (ds : List Declared) :
    ofClass (g.mapDocs f) names (above.map (mapDocs f)) c (ds.map (Declared.mapDoc f)) =
      mapDocs f <$> ofClass g names above c ds := by
  have hcontracts : (above.map (mapDocs f)).map contracts = above.map contracts := by
    cases above <;> rfl
  have hinterface : (above.map (mapDocs f)).bind (·.interface) = above.bind (·.interface) := by
    cases above <;> rfl
  have hmodule : ((g.decl c).mapDocs f).moduleName = (g.decl c).moduleName := rfl
  simp only [ofClass, decl_mapDocs hf, hcontracts, hinterface, hmodule]
  cases names.containers.find? (g.decl c).moduleName <;> rfl

theorem below_map (hf : f none = none) (g : ClassGraph) (names : Naming)
    (above : Option Resolution) (c : ClassId) :
    below (g.mapDocs f) names (above.map (mapDocs f)) c = mapDocs f <$> below g names above c := by
  have hproperties : ((above.map (mapDocs f)).map (·.properties)).getD [] =
      ((above.map (·.properties)).getD []).map (Declared.mapDoc f) := by
    cases above <;> rfl
  simp only [below, hproperties, extend_map hf, bind_map_left, map_bind, ofClass_map hf]

end Resolution

namespace ClassGraph

theorem resolveClass_map (hf : f none = none) (g : ClassGraph) (names : Naming) (c : ClassId) :
    (g.mapDocs f).resolveClass names c = Resolution.mapDocs f <$> g.resolveClass names c := by
  have hchain : ∀ (cs : List ClassId) (above : Option Resolution),
      cs.foldlM (fun r a => some <$> Resolution.below (g.mapDocs f) names r a)
        (above.map (Resolution.mapDocs f)) =
      Option.map (Resolution.mapDocs f) <$>
        cs.foldlM (fun r a => some <$> Resolution.below g names r a) above := by
    intro cs
    induction cs with
    | nil => intro above; rfl
    | cons c cs ih =>
        intro above
        simp only [List.foldlM_cons, Resolution.below_map hf, bind_map_left, map_bind]
        exact bind_congr fun r => ih (some r)
  have habove := hchain (g.ancestors c).reverse none
  rw [Option.map_none] at habove
  simp only [resolveClass, ancestors_mapDocs hf, habove, bind_map_left, map_bind,
    Resolution.below_map hf]

/-- A changed graph is resolved to the changed classes, or refused with the same fault. -/
theorem resolve_mapDocs (hf : f none = none) (g : ClassGraph) (p : String) (workers : Option Int) :
    (g.mapDocs f).resolve p workers =
      List.map (Resolution.mapDocs f) <$> g.resolve p workers := by
  have hfound : ∀ (found : List Resolution) (order : List ClassId),
      order.filterMap (fun c => (found.map (Resolution.mapDocs f)).find? (·.source == c)) =
        (order.filterMap fun c => found.find? (·.source == c)).map (Resolution.mapDocs f) := by
    intro found order
    rw [List.map_filterMap]
    congr 1
    funext c
    rw [List.find?_map]
    rfl
  have hclasses : ∀ names, (g.mapDocs f).resolveClass names =
      fun c => Resolution.mapDocs f <$> g.resolveClass names c := fun names =>
    funext (resolveClass_map hf g names)
  simp only [resolve, ancestryOrder_mapDocs hf, checkReferences_mapDocs hf, visits_mapDocs hf,
    Naming.ofGraph_mapDocs hf, hclasses, mapM_map, bind_map_left, map_bind, map_pure, hfound]

end ClassGraph

/-! ## Describing -/

def Accessor.mapDoc (h : Option String → Option String) (m : Accessor) : Accessor :=
  { m with doc := h m.doc }

def Component.mapDoc (f : Option String → Option String) (c : Component) : Component :=
  { c with doc := f c.doc }

def GeneratedInterface.mapDocs (h : Option String → Option String) (d : GeneratedInterface) :
    GeneratedInterface :=
  { d with accessors := d.accessors.map (Accessor.mapDoc h) }

def GeneratedRecord.mapDocs (f : Option String → Option String) (d : GeneratedRecord) :
    GeneratedRecord :=
  { d with components := d.components.map (Component.mapDoc f) }

/-- Changes the texts of accessors by one function and those of components by another. The block of
the type itself stays. -/
def GeneratedType.mapDocs (h f : Option String → Option String) : GeneratedType → GeneratedType
  | .interface d => .interface (d.mapDocs h)
  | .record d => .record (d.mapDocs f)

@[simp] theorem GeneratedType.head_mapDocs (h f : Option String → Option String)
    (d : GeneratedType) : (d.mapDocs h f).head = d.head := by
  cases d <;> rfl

namespace Analysis

variable {h : Option String → Option String}

def mapDocs (h f : Option String → Option String) (a : Analysis) : Analysis :=
  { a with
    types := a.types.map (GeneratedType.mapDocs h f)
    resolutions := a.resolutions.map (Resolution.mapDocs f) }

theorem interfaces_mapDocs (a : Analysis) :
    (a.mapDocs h f).interfaces = a.interfaces.map (GeneratedInterface.mapDocs h) := by
  rw [interfaces, interfaces, mapDocs, List.filterMap_map, List.map_filterMap]
  congr 1
  funext d
  cases d <;> rfl

theorem records_mapDocs (a : Analysis) :
    (a.mapDocs h f).records = a.records.map (GeneratedRecord.mapDocs f) := by
  rw [records, records, mapDocs, List.filterMap_map, List.map_filterMap]
  congr 1
  funext d
  cases d <;> rfl

theorem mentions_mapDocs (hf : f none = none) (g : ClassGraph) (a : Analysis) :
    (a.mapDocs h f).mentions (g.mapDocs f) = a.mentions g := by
  simp only [mentions, interfaces_mapDocs, records_mapDocs, List.flatMap_map,
    ClassGraph.fullName_mapDocs hf]
  rfl

theorem check_mapDocs (hf : f none = none) (g : ClassGraph) (a : Analysis) :
    (a.mapDocs h f).check (g.mapDocs f) = a.check g := by
  have hallocated : (a.mapDocs h f).interfaces.map (·.path) = a.interfaces.map (·.path) := by
    rw [interfaces_mapDocs, List.map_map]
    rfl
  rw [check, check, mentions_mapDocs hf, hallocated]

/-! The block of a type holds cleaned texts, so it stays if cleaned texts do. -/

section

variable (hf : f none = none)
  (hcleaned : ∀ doc, Documentation.cleaned (f doc) = Documentation.cleaned doc)

include hcleaned

theorem ofClass_mapDocs (doc : Option String) (ds : List Declared) :
    Documentation.ofClass (f doc)
        ((ds.map (Declared.mapDoc f)).map fun e => (e.property.name, e.property.doc)) =
      Documentation.ofClass doc (ds.map fun e => (e.property.name, e.property.doc)) := by
  simp only [Documentation.ofClass, hcleaned, List.map_map, List.filterMap_map]
  congr 2
  funext d
  simp only [Function.comp_apply, Declared.mapDoc, Property.mapDoc, hcleaned]

include hf

theorem interfaceOf_mapDocs (g : ClassGraph) (r : Resolution) (t : TypePath) :
    interfaceOf (g.mapDocs f) (r.mapDocs f) t = (interfaceOf g r t).mapDocs f := by
  simp only [interfaceOf, GeneratedInterface.mapDocs, Resolution.mapDocs,
    ClassGraph.decl_mapDocs hf, ClassDecl.mapDocs, hcleaned, List.map_map]
  rfl

theorem recordOf_mapDocs (config : Config) (g : ClassGraph) (r : Resolution) (t : TypePath) :
    recordOf config (g.mapDocs f) (r.mapDocs f) t = (recordOf config g r t).mapDocs f := by
  simp only [recordOf, GeneratedRecord.mapDocs, Resolution.mapDocs, ClassGraph.decl_mapDocs hf,
    ClassDecl.mapDocs, ofClass_mapDocs hcleaned, ClassGraph.fullName_mapDocs hf]
  simp only [List.map_map]
  rfl

theorem typesOf_mapDocs (config : Config) (g : ClassGraph) (r : Resolution) :
    typesOf config (g.mapDocs f) (r.mapDocs f) =
      (typesOf config g r).map (GeneratedType.mapDocs f f) := by
  have hinterface : (r.mapDocs f).interface = r.interface := rfl
  have hrecord : (r.mapDocs f).record = r.record := rfl
  simp only [typesOf, interfaceOf_mapDocs hf hcleaned, recordOf_mapDocs hf hcleaned, hinterface,
    hrecord, List.map_append]
  cases r.interface <;> cases r.record <;> rfl

theorem ofResolutions_mapDocs (config : Config) (g : ClassGraph) (rs : List Resolution) :
    ofResolutions config (g.mapDocs f) (rs.map (Resolution.mapDocs f)) =
      (ofResolutions config g rs).mapDocs f f := by
  simp only [ofResolutions, mapDocs, List.flatMap_map, typesOf_mapDocs hf hcleaned,
    List.map_flatMap]

/-- A changed graph gives the changed result, or the same fault, if texts are changed into texts
that are cleaned alike. -/
theorem analyze_mapDocs (config : Config) (workers : Option Int) (g : ClassGraph) :
    analyze config workers (g.mapDocs f) = mapDocs f f <$> analyze config workers g := by
  simp only [analyze, describe, ClassGraph.resolve_mapDocs hf, bind_map_left,
    ofResolutions_mapDocs hf hcleaned, check_mapDocs hf, map_bind, map_pure]

theorem analyze_alike {config : Config} {workers : Option Int} {g g' : ClassGraph}
    (hsame : g'.mapDocs f = g.mapDocs f) {a : Analysis} (ha : analyze config workers g = .ok a) :
    ∃ a', analyze config workers g' = .ok a' ∧ a'.mapDocs f f = a.mapDocs f f := by
  apply map_eq_ok.mp
  rw [← analyze_mapDocs hf hcleaned, hsame, analyze_mapDocs hf hcleaned, ha, map_ok]

end

end Analysis

end RecordGen

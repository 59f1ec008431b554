import RecordGen.Proofs.DocLines
import RecordGen.Proofs.LinkedTexts

/-! # References that are added

A definition gets one more property. The document is loaded as before, and with the property if its
type can be linked. So a new property can refer to every class, from every class and module, unless
a line feed ends the name of the class: white space at the end of a type is not read. -/

namespace RecordGen

open Text Fallible

/-! ## Lists with an element more -/

/-- The list with an element behind its first `i` ones, or at its end. -/
def insertAt {α : Type} (i : Nat) (x : α) (xs : List α) : List α :=
  xs.take i ++ x :: xs.drop i

section

variable {α β : Type} {i : Nat} {x y : α} {xs : List α}

theorem insertAt_perm : (insertAt i x xs).Perm (x :: xs) := by
  have hmiddle : (insertAt i x xs).Perm (x :: (xs.take i ++ xs.drop i)) := List.perm_middle
  rwa [List.take_append_drop] at hmiddle

theorem mem_insertAt : y ∈ insertAt i x xs ↔ y = x ∨ y ∈ xs := by
  rw [insertAt_perm.mem_iff, List.mem_cons]

theorem map_insertAt (f : α → β) : (insertAt i x xs).map f = insertAt i (f x) (xs.map f) := by
  rw [insertAt, insertAt, List.map_append, List.map_cons, List.map_take, List.map_drop]

theorem forall₂_insertAt {R : α → β → Prop} {z : β} {zs : List β} (hxz : R x z)
    (h : List.Forall₂ R xs zs) : List.Forall₂ R (insertAt i x xs) (insertAt i z zs) :=
  List.rel_append (List.forall₂_take i h) (.cons hxz (List.forall₂_drop i h))

end

/-! ## Definitions with a property more -/

/-- The declaration with a property more if it is the one with the given name. -/
def ClassDecl.withProperty (owner : String) (i : Nat) (p : Property) (d : ClassDecl) : ClassDecl :=
  if d.fullName = owner then { d with properties := insertAt i p d.properties } else d

def Draft.withProperty (owner : String) (i : Nat) (p : Property) (d : Draft) : Draft :=
  { d with decl := d.decl.withProperty owner i p }

def ClassGraph.withProperty (owner : String) (i : Nat) (p : Property) (g : ClassGraph) :
    ClassGraph :=
  { g with decls := g.decls.map (ClassDecl.withProperty owner i p) }

section

variable {owner : String} {i : Nat} {p : Property}

theorem ClassDecl.withProperty_self {d : ClassDecl} (h : d.fullName = owner) :
    d.withProperty owner i p = { d with properties := insertAt i p d.properties } :=
  if_pos h

theorem ClassDecl.withProperty_other {d : ClassDecl} (h : d.fullName ≠ owner) :
    d.withProperty owner i p = d :=
  if_neg h

theorem Draft.alike_withProperty (d : Draft) : d.Alike (d.withProperty owner i p) := by
  rw [withProperty, ClassDecl.withProperty]
  split <;> exact ⟨rfl, rfl, rfl⟩

theorem Draft.map_withProperty_alike (ds : List Draft) :
    List.Forall₂ Draft.Alike ds (ds.map (Draft.withProperty owner i p)) := by
  rw [List.forall₂_map_right_iff, List.forall₂_same]
  exact fun d _ => d.alike_withProperty

theorem ClassGraph.decl_withProperty {g : ClassGraph} {c : ClassId} (hg : g.Linked)
    (hc : c ∈ g.classes) :
    (g.withProperty owner i p).decl c = (g.decl c).withProperty owner i p := by
  rw [hg.classes, List.mem_range] at hc
  simp [ClassGraph.decl, ClassGraph.withProperty, hc]

theorem ClassGraph.fullName_withProperty {g : ClassGraph} {c : ClassId} (hg : g.Linked)
    (hc : c ∈ g.classes) : (g.withProperty owner i p).fullName c = g.fullName c := by
  rw [fullName, decl_withProperty hg hc, ClassDecl.withProperty, fullName]
  split <;> rfl

theorem ClassGraph.properties_withProperty {g : ClassGraph} {c : ClassId} (hg : g.Linked)
    (hc : c ∈ g.classes) : ((g.withProperty (g.fullName c) i p).decl c).properties =
      insertAt i p (g.decl c).properties := by
  have howner : (g.decl c).fullName = g.fullName c := rfl
  rw [decl_withProperty hg hc, ClassDecl.withProperty_self howner]

end

namespace Document

/-- Defines one more property of the class with a given name. -/
def addProperty (owner : String) (i : Nat) (item : Json) : Edit := fun place fields =>
  if givenFullName place fields = owner then
    Table.insertEntry "properties"
      (.list (insertAt i item ((Json.object fields).items "properties"))) fields
  else fields

section

variable {owner : String} {i : Nat} {p : Property} {item : Json}

theorem reads_addProperty {place : Place} {fields : List (String × Json)} {d : Draft}
    (hd : d.Reads place fields) (hp : Draft.readProperty owner item = .ok p)
    (hfresh : d.fullName = owner → p.name ∉ d.decl.properties.map (·.name)) :
    (d.withProperty owner i p).Reads place (addProperty owner i item place fields) := by
  rw [addProperty, givenFullName_eq hd]
  split
  · rename_i howner
    obtain ⟨values, hvalues, hread⟩ := hd.properties
    obtain ⟨hread, hnodup, -⟩ := Draft.readProperties_eq_ok.mp hread
    have hkept : ∀ key v, key ≠ "properties" → Table.findEntry key
        (Table.insertEntry "properties" v fields) = Table.findEntry key fields := by
      intro key v hkey
      rw [Table.findEntry_insertEntry, if_neg hkey.symm]
    rw [Draft.optionalList_ok hvalues]
    have hvalues' : Draft.optionalList (Table.insertEntry "properties"
        (.list (insertAt i item values)) fields) "properties" d.fullName =
          .ok (insertAt i item values) := by
      rw [Draft.optionalList, Table.findEntry_insertEntry, if_pos rfl]
    have hproperties : Draft.readProperties d.fullName [] (insertAt i item values) =
        .ok (insertAt i p d.decl.properties) := by
      refine Draft.readProperties_eq_ok.mpr ⟨?_, ?_, by simp⟩
      · exact forall₂_insertAt (howner ▸ hp) hread
      · rw [map_insertAt, insertAt_perm.nodup_iff]
        exact List.nodup_cons.mpr ⟨hfresh howner, hnodup⟩
    rw [Draft.withProperty, ClassDecl.withProperty_self howner]
    refine hd.update (fun key hkey => hkept key _ ?_) ?_ hvalues' hproperties
    · rintro rfl
      simp at hkey
    · rw [Draft.optionalText, Json.field, hkept _ _ (by decide)]
      exact hd.superclassName
  · rename_i howner
    rw [Draft.withProperty, ClassDecl.withProperty_other howner]
    exact hd

/-- A document with a property more is read with that property. -/
theorem drafts_addProperty {doc : Json} {ds : List Draft} (h : drafts doc = .ok ds)
    (hp : Draft.readProperty owner item = .ok p)
    (hfresh : ∀ d ∈ ds, d.fullName = owner → p.name ∉ d.decl.properties.map (·.name)) :
    drafts (editDefinitions (addProperty owner i item) doc) =
      .ok (ds.map (Draft.withProperty owner i p)) := by
  have hclasses : ∀ fields, Table.findEntry "classes" (addProperty owner i item .module fields) =
      Table.findEntry "classes" fields := by
    intro fields
    rw [addProperty]
    split
    · rw [Table.findEntry_insertEntry, if_neg (by decide)]
    · rfl
  have hread : Rereads (addProperty owner i item) (fun d d' => d.withProperty owner i p = d') ds :=
    fun place fields d hd hfields => ⟨_, reads_addProperty hfields hp (hfresh d hd), rfl⟩
  have halike : ∀ d d', Draft.withProperty owner i p d = d' → d.Alike d' := by
    rintro d _ rfl
    exact d.alike_withProperty
  obtain ⟨ds', hds', hlist⟩ := drafts_edit halike hclasses h hread
  rw [← List.forall₂_map_left_iff (R := Eq), List.forall₂_eq_eq_eq] at hlist
  rw [hds', hlist]

/-! ## Linking a property more -/

variable {g : ClassGraph} {d : Draft}

theorem link_withProperty (hd : d.Sound) {decl : ClassDecl} (h : link g d = .ok decl)
    {p' : Property} (hp : p.type.Formed PropertyType.Unlinked)
    (hlink : d.fullName = owner → LinksProperty g d.decl p p') :
    link g (d.withProperty owner i p) = .ok (decl.withProperty owner i p') := by
  have hname : decl.fullName = d.decl.fullName := (link_ok hd h).1.fullName
  rw [Draft.withProperty]
  by_cases howner : d.decl.fullName = owner
  · -- The other properties are linked as before, for the module of the declaration is the same.
    obtain ⟨superclass, properties, hsuper, hproperties, rfl⟩ := link_eq_ok.mp h
    rw [ClassDecl.withProperty_self howner, ClassDecl.withProperty_self (hname.trans howner)]
    refine link_eq_ok.mpr ⟨superclass, insertAt i p' properties, ?_, ?_, rfl⟩
    · rw [linkSuperclass_eq_ok] at hsuper ⊢
      exact hsuper
    · have hold := (List.forall₂_and_left _ _).mpr ⟨hd.types, hproperties⟩
      exact forall₂_insertAt ((hlink howner).congr hp rfl)
        (hold.imp fun _ _ h => h.2.congr h.1 rfl)
  · rwa [ClassDecl.withProperty_other howner, ClassDecl.withProperty_other (hname ▸ howner)]

theorem links_withProperty {ds : List Draft} {decls : List ClassDecl} (hds : ∀ d ∈ ds, d.Sound)
    (h : List.Forall₂ (fun d decl => link g d = .ok decl) ds decls) {p' : Property}
    (hp : p.type.Formed PropertyType.Unlinked)
    (hlink : ∀ d ∈ ds, d.fullName = owner → LinksProperty g d.decl p p') :
    List.Forall₂ (fun d decl => link g d = .ok decl) (ds.map (Draft.withProperty owner i p))
      (decls.map (ClassDecl.withProperty owner i p')) := by
  rw [List.forall₂_map_left_iff, List.forall₂_map_right_iff]
  have hmem := (List.forall₂_and_left (p := (· ∈ ds)) ds decls).mpr ⟨fun _ hd => hd, h⟩
  exact hmem.imp fun d _ h => link_withProperty (hds d h.1) h.2 hp (hlink d h.1)

theorem exists_linked_of_withProperty {decl : ClassDecl} (howner : d.fullName = owner)
    (h : link g (d.withProperty owner i p) = .ok decl)
    (hp : p.type.Formed PropertyType.Unlinked) : ∃ p', LinksProperty g d.decl p p' := by
  rw [Draft.withProperty, ClassDecl.withProperty_self howner] at h
  obtain ⟨superclass, properties, -, hproperties, -⟩ := link_eq_ok.mp h
  obtain ⟨p', -, hlink⟩ := hproperties.exists_right p (mem_insertAt.mpr (.inl rfl))
  exact ⟨p', hlink.congr hp rfl⟩

end

/-- Linking can be repeated in the linked graph. -/
theorem LinkedFrom.linksProperty_iff {ds : List Draft} {g : ClassGraph} (h : LinkedFrom ds g)
    {c : ClassId} (hc : c ∈ g.classes) {d : Draft} (hplaced : IsPlace ds g c d) {p p' : Property}
    (hp : p.type.Formed PropertyType.Unlinked) :
    LinksProperty (unlinked ds) d.decl p p' ↔ LinksProperty g (g.decl c) p p' := by
  have hmodule : (g.decl c).moduleName = d.decl.moduleName := hplaced.1 ▸ (h.keeps hc).moduleName
  constructor
  · intro hlink
    refine hlink.persists hp hmodule fun name c hc => ?_
    rw [h.resolve?_eq]
    exact ⟨hc, h.fullName_eq (h.classes ▸ resolve?_mem hc)⟩
  · intro hlink
    refine hlink.persists hp hmodule.symm fun name c hc => ?_
    rw [h.resolve?_eq] at hc
    exact ⟨hc, (h.fullName_eq (h.classes ▸ resolve?_mem hc)).symm⟩

/-- A property more changes nothing but the properties of its class, and the document can be loaded
exactly if the type of the property can be linked. -/
theorem load_addProperty_eq_ok {doc : Json} {g : ClassGraph} (h : load doc = .ok g) {n : ClassId}
    (hn : n ∈ g.classes) {item : Json} {p : Property}
    (hp : Draft.readProperty (g.fullName n) item = .ok p)
    (hfresh : p.name ∉ (g.decl n).properties.map (·.name)) {i : Nat} {g' : ClassGraph} :
    load (editDefinitions (addProperty (g.fullName n) i item) doc) = .ok g' ↔
      ∃ p', LinksProperty g (g.decl n) p p' ∧ g' = g.withProperty (g.fullName n) i p' := by
  obtain ⟨ds, decls, hds, hlinks, hg⟩ := load_eq_ok.mp h
  have hfrom : LinkedFrom ds g := hg ▸ linkedFrom_of_drafts hds hlinks
  obtain ⟨d, hd, hplaced⟩ := hfrom.draft n hn
  have hname : d.fullName = g.fullName n := (hfrom.fullName_of_isPlace hn hplaced).symm
  have hunique : ∀ d' ∈ ds, d'.fullName = g.fullName n → d' = d := fun d' hd' howner =>
    List.inj_on_of_nodup_map hfrom.nodup hd' hd (howner.trans hname.symm)
  have hformed : p.type.Formed PropertyType.Unlinked := (Draft.readProperty_ok hp).2
  have hlinked : ∀ p', LinksProperty (unlinked ds) d.decl p p' ↔ LinksProperty g (g.decl n) p p' :=
    fun p' => hfrom.linksProperty_iff hn hplaced hformed
  have hdrafts : drafts (editDefinitions (addProperty (g.fullName n) i item) doc) =
      .ok (ds.map (Draft.withProperty (g.fullName n) i p)) := by
    refine drafts_addProperty hds hp fun d' hd' howner => ?_
    rwa [hunique d' hd' howner, ← hplaced.1, ← (hfrom.keeps hn).properties]
  have halike : List.Forall₂ Draft.Alike ds (ds.map (Draft.withProperty (g.fullName n) i p)) :=
    Draft.map_withProperty_alike ds
  have hloads : ∀ p', LinksProperty (unlinked ds) d.decl p p' →
      load (editDefinitions (addProperty (g.fullName n) i item) doc) =
        .ok (g.withProperty (g.fullName n) i p') := by
    intro p' hlink
    refine (load_alike_eq_ok hdrafts halike).mpr
      ⟨decls.map (ClassDecl.withProperty (g.fullName n) i p'), ?_, ?_⟩
    · exact links_withProperty hfrom.drafted.sound hlinks hformed
        fun d' hd' howner => hunique d' hd' howner ▸ hlink
    · have hdecls : g.decls = decls := by rw [hg]
      simp only [ClassGraph.withProperty, hfrom.classes, hfrom.modules, hdecls]
  constructor
  · intro h'
    obtain ⟨decls', hlinks', -⟩ := (load_alike_eq_ok hdrafts halike).mp h'
    obtain ⟨decl, -, hdecl⟩ := hlinks'.exists_right _ (List.mem_map_of_mem hd)
    obtain ⟨p', hlink⟩ := exists_linked_of_withProperty hname hdecl hformed
    exact ⟨p', (hlinked p').mp hlink, Except.ok.inj (h'.symm.trans (hloads p' hlink))⟩
  · rintro ⟨p', hlink, rfl⟩
    exact hloads p' ((hlinked p').mpr hlink)

end Document

/-! ## Names of classes as types -/

theorem Text.trim_subset {s : List Char} {c : Char} (h : c ∈ trim s) : c ∈ s := by
  rw [trim, trimEnd, List.mem_reverse] at h
  have hstart := List.mem_reverse.mp ((List.dropWhile_suffix isBlank).subset h)
  exact (List.dropWhile_suffix isBlank).subset hstart

namespace ClassDecl.IsNamed

variable {d : ClassDecl}

/-- A class that is no module is named after its module. -/
theorem fullName_eq (h : d.IsNamed) (hclass : d.isModule = false) :
    d.fullName = d.moduleName ++ "." ++ d.name := by
  have hmodule : d.moduleName.isEmpty = false := by
    simpa using ne_nil_of_isSchemaName h.moduleName
  rw [fullName, hclass, hmodule]
  rfl

theorem dotted_strip (h : d.IsNamed) (hclass : d.isModule = false) :
    '.' ∈ (strip d.fullName).toList := by
  rw [strip, String.toList_ofList]
  refine mem_trim ?_ (by decide)
  simp [h.fullName_eq hclass]

theorem isPlainName_strip (h : d.IsNamed) (hclass : d.isModule = false) :
    PropertyType.IsPlainName (strip d.fullName) := by
  have hdot := h.dotted_strip hclass
  have hmem : ∀ {c : Char}, c ∈ (strip d.fullName).toList → c ∈ d.fullName.toList := by
    intro c hc
    rw [strip, String.toList_ofList] at hc
    exact trim_subset hc
  refine ⟨?_, fun c hc => h.plain c (hmem hc), fun hlast => ?_⟩
  · rw [strip, String.toList_ofList] at hdot ⊢
    exact isTight_trim (List.ne_nil_of_mem hdot)
  · exact absurd (h.mem (hmem (List.mem_of_getLast? hlast))) (by decide)

/-- The name of a class is read as a reference, to what its name is without the white space after
it. -/
theorem parse_fullName (h : d.IsNamed) (hclass : d.isModule = false) (owner : String) :
    PropertyType.parse owner d.fullName = .ok (.reference (strip d.fullName) none) := by
  have hnew : strip d.fullName ∉ primitiveNames := fun hprimitive =>
    PropertyType.undotted_of_primitive hprimitive (h.dotted_strip hclass)
  have hplain := h.isPlainName_strip hclass
  rw [PropertyType.parse, PropertyType.parseWithin_name hplain.tight hplain.opening hplain.last
    (by rw [strip, String.toList_ofList]), if_neg hnew]

/-- Only a line feed can end the name of a class and not be read. -/
theorem strip_fullName_iff (h : d.IsNamed) (hclass : d.isModule = false) :
    strip d.fullName = d.fullName ↔ d.name.toList.getLast? ≠ some '\n' := by
  have hname := ne_nil_of_isSchemaName h.name
  have hlast : d.fullName.toList.getLast? = d.name.toList.getLast? := by
    rw [h.fullName_eq hclass, String.toList_append, List.getLast?_append_of_ne_nil _ hname]
  constructor
  · intro hstrip hline
    have htight := (h.isPlainName_strip hclass).tight.2
    rw [hstrip, hlast, hline] at htight
    exact absurd htight (by decide)
  · intro hline
    obtain ⟨c, hc⟩ : ∃ c, d.name.toList.getLast? = some c :=
      Option.isSome_iff_exists.mp (by simpa using hname)
    have hblank : isBlank c = false := by
      rcases mem_of_isSchemaName h.name (List.mem_of_getLast? hc) with hword | hword | rfl
      · exact isBlank_of_word (.inl hword)
      · exact isBlank_of_word (.inr hword)
      · exact absurd hc hline
    have htight : IsTight d.fullName.toList := by
      refine ⟨h.head, ?_⟩
      rw [hlast, hc, Option.any_some, hblank]
      rfl
    have htrim := trim_around isBlanks_nil htight isBlanks_nil
    rw [List.nil_append, List.append_nil] at htrim
    rw [strip, htrim, String.ofList_toList]

end ClassDecl.IsNamed

/-! ## References to classes -/

/-- The class `n` has a property with this name, and the type of the property is the class `c`. -/
def ClassGraph.Refers (g : ClassGraph) (n : ClassId) (property : String) (c : ClassId) : Prop :=
  ∃ p ∈ (g.decl n).properties, p.name = property ∧ p.type = .reference (g.fullName c) (some c)

/-- The definition of a further property of the class `n`, with the name of the class `c` as the
text of its type, and the property that it is meant to be. -/
structure NewReference (g : ClassGraph) (n c : ClassId) (fields : List (String × Json))
    (p : Property) : Prop where
  name : Json.field fields "name" = .text p.name
  named : isSchemaName p.name = true
  fresh : p.name ∉ (g.decl n).properties.map (·.name)
  type : Json.field fields "type" = .text (g.fullName c)
  linked : p.type = .reference (g.fullName c) (some c)
  nullable : (Json.field fields "nullable").truthy = p.nullable
  doc : Draft.optionalText fields "doc" (g.fullName n) = .ok p.doc

section

variable {g : ClassGraph} {n c : ClassId} {fields : List (String × Json)} {p : Property}

/-- The definition is read as a reference that is yet to be linked. -/
theorem NewReference.readProperty (h : NewReference g n c fields p) (hc : (g.decl c).IsNamed)
    (hclass : (g.decl c).isModule = false) : Draft.readProperty (g.fullName n) (.object fields) =
      .ok { p with type := .reference (strip (g.fullName c)) none } :=
  Draft.readProperty_eq_ok.mpr ⟨fields, rfl, h.name, h.named,
    ⟨_, h.type, hc.parse_fullName hclass _⟩, h.nullable, h.doc⟩

namespace Document

theorem resolve?_dotted {moduleName name : String} (h : '.' ∈ name.toList) :
    resolve? g moduleName name = g.find? name := by
  rw [resolve?, if_pos h]

theorem linksProperty_dotted {d : ClassDecl} {name : String} (hname : '.' ∈ name.toList)
    {p' : Property} : LinksProperty g d { p with type := .reference name none } p' ↔
      ∃ c, g.find? name = some c ∧ p' = { p with type := .reference (g.fullName c) (some c) } := by
  rw [LinksProperty, PropertyType.reference, linkInside, resolve?_dotted hname]
  cases g.find? name with
  | none => simp
  | some c => simp [linkAllInside, PropertyType.reference, eq_comm]

/-- The new property is linked to the class with the name that is read. -/
theorem load_addReference_eq_ok {doc : Json} (h : load doc = .ok g) (hn : n ∈ g.classes)
    (hc : (g.decl c).IsNamed) (hclass : (g.decl c).isModule = false)
    (hp : NewReference g n c fields p) {i : Nat} {g' : ClassGraph} :
    load (editDefinitions (addProperty (g.fullName n) i (.object fields)) doc) = .ok g' ↔
      ∃ c', g.find? (strip (g.fullName c)) = some c' ∧ g' = g.withProperty (g.fullName n) i
        { p with type := .reference (g.fullName c') (some c') } := by
  have hdot := hc.dotted_strip hclass
  rw [load_addProperty_eq_ok h hn (hp.readProperty hc hclass) hp.fresh]
  constructor
  · rintro ⟨p', hlink, rfl⟩
    obtain ⟨c', hc', rfl⟩ := (linksProperty_dotted hdot).mp hlink
    exact ⟨c', hc', rfl⟩
  · rintro ⟨c', hc', rfl⟩
    exact ⟨_, (linksProperty_dotted hdot).mpr ⟨c', hc', rfl⟩, rfl⟩

/-- To every class a further property can refer, by the qualified name of the class, unless a line
feed ends that name. Nothing else in the graph changes. -/
theorem load_addReference_iff {doc : Json} (h : load doc = .ok g) (hn : n ∈ g.classes)
    (hc : c ∈ g.classes) (hclass : (g.decl c).isModule = false)
    (hp : NewReference g n c fields p) (i : Nat) :
    let doc' := editDefinitions (addProperty (g.fullName n) i (.object fields)) doc
    ((∃ g', load doc' = .ok g' ∧ g'.Refers n p.name c) ↔
      (g.decl c).name.toList.getLast? ≠ some '\n') ∧
    ((g.decl c).name.toList.getLast? ≠ some '\n' →
      load doc' = .ok (g.withProperty (g.fullName n) i p)) := by
  have hg := load_linked h
  have hnamed := hg.isNamed hc
  have hstrip : strip (g.fullName c) = g.fullName c ↔ (g.decl c).name.toList.getLast? ≠ some '\n' :=
    hnamed.strip_fullName_iff hclass
  intro doc'
  have hload : ∀ g', load doc' = .ok g' ↔ _ := fun g' =>
    load_addReference_eq_ok h hn hnamed hclass hp
  have hreads : strip (g.fullName c) = g.fullName c →
      load doc' = .ok (g.withProperty (g.fullName n) i p) := by
    intro hsame
    refine (hload _).mpr ⟨c, ?_, by rw [← hp.linked]⟩
    rw [hsame]
    exact hg.find?_fullName hc
  rw [← hstrip]
  refine ⟨⟨?_, fun hsame => ⟨_, hreads hsame, ?_⟩⟩, hreads⟩
  · -- With a line feed another name is read, and the class that it means has that name.
    rintro ⟨g', hg', q, hq, hname, htype⟩
    obtain ⟨c', hc', rfl⟩ := (hload g').mp hg'
    rw [ClassGraph.properties_withProperty hg hn] at hq
    rcases mem_insertAt.mp hq with rfl | hold
    · obtain rfl : c' = c := Option.some.inj (PropertyType.node.inj htype).2.2.2
      have hfound : g.fullName c' = strip (g.fullName c') := by simpa using List.find?_some hc'
      exact hfound.symm
    · exact absurd (hname ▸ List.mem_map_of_mem hold) hp.fresh
  · refine ⟨p, ?_, rfl, ?_⟩
    · rw [ClassGraph.properties_withProperty hg hn]
      exact mem_insertAt.mpr (.inl rfl)
    · rw [ClassGraph.fullName_withProperty hg hc]
      exact hp.linked

/-- The definition of a property. -/
def named (name type : String) : List (String × Json) :=
  [("name", .text name), ("type", .text type)]

theorem newReference_named {name : String} (hnamed : isSchemaName name = true)
    (hfresh : name ∉ (g.decl n).properties.map (·.name)) :
    NewReference g n c (named name (g.fullName c))
      { name, type := .reference (g.fullName c) (some c), nullable := false, doc := none } :=
  ⟨rfl, hnamed, hfresh, rfl, rfl, rfl, rfl⟩

/-- A module with one class. -/
def single (name : String) : Json :=
  .object [("modules", .list [
    .object [("name", .text "m"), ("classes", .list [.object [("name", .text name)]])]])]

/-- The module can refer to its class. -/
theorem load_addReference_single : ∃ g p, load (single "A") = .ok g ∧ 0 ∈ g.classes ∧
    1 ∈ g.classes ∧ (g.decl 1).isModule = false ∧
    NewReference g 0 1 (named "p" (g.fullName 1)) p ∧
    (g.decl 1).name.toList.getLast? ≠ some '\n' ∧
    load (editDefinitions (addProperty (g.fullName 0) 0 (.object (named "p" (g.fullName 1))))
      (single "A")) = .ok (g.withProperty (g.fullName 0) 0 p) := by
  have hload : ∃ g, load (single "A") = .ok g ∧ 0 ∈ g.classes ∧ 1 ∈ g.classes ∧
      (g.decl 1).isModule = false ∧ (g.decl 1).name.toList.getLast? ≠ some '\n' ∧
      "p" ∉ (g.decl 0).properties.map (·.name) := exists_ok_and (by decide +kernel)
  obtain ⟨g, hg, hn, hc, hclass, hline, hfresh⟩ := hload
  have hp := newReference_named (c := 1) (by decide) hfresh
  exact ⟨g, _, hg, hn, hc, hclass, hp, hline, (load_addReference_iff hg hn hc hclass hp 0).2 hline⟩

/-- A line feed after the name of a class is accepted, and it is not read in a type. -/
theorem single_unreferable : ∃ g p, load (single "A\n") = .ok g ∧ 0 ∈ g.classes ∧ 1 ∈ g.classes ∧
    (g.decl 1).isModule = false ∧ NewReference g 0 1 (named "p" (g.fullName 1)) p ∧
    g.fullName 1 = "m.A\n" ∧
    load (editDefinitions (addProperty (g.fullName 0) 0 (.object (named "p" (g.fullName 1))))
      (single "A\n")) = .error (.undeclaredType "m" "p" "m.A") := by
  have hload : ∃ g, load (single "A\n") = .ok g ∧ 0 ∈ g.classes ∧ 1 ∈ g.classes ∧
      (g.decl 1).isModule = false ∧ g.fullName 0 = "m" ∧ g.fullName 1 = "m.A\n" ∧
      "p" ∉ (g.decl 0).properties.map (·.name) := exists_ok_and (by decide +kernel)
  obtain ⟨g, hg, hn, hc, hclass, howner, hname, hfresh⟩ := hload
  refine ⟨g, _, hg, hn, hc, hclass, newReference_named (by decide) hfresh, hname, ?_⟩
  rw [howner, hname]
  exact eq_error_of (by decide +kernel)

end Document

end

end RecordGen

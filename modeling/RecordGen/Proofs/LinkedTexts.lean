import RecordGen.Proofs.EditedDocuments
import RecordGen.Proofs.TypeTexts

/-! # Texts of linked types

The text of a linked type shows its classes under their qualified names. Read in place of the text
that the document has, it is linked to the same type: a qualified name means the class that it is
shown for wherever the class was found before. -/

namespace RecordGen

open Text Fallible

/-! ## Qualified names -/

namespace Text

theorem isBlank_of_word {c : Char} (h : opensIdentifier c = true ∨ continuesIdentifier c = true) :
    isBlank c = false := by
  have hrange : 48 ≤ c.toNat ∧ c.toNat ≤ 122 := by
    simp only [opensIdentifier, continuesIdentifier, Char.isAlphanum, isAlpha_eq, isUpper_iff,
      isLower_iff, isDigit_iff, Bool.or_eq_true, beq_iff_eq] at h
    have hunderscore : c = '_' → c.toNat = 95 := by
      rintro rfl
      rfl
    grind
  simp only [isBlank, Bool.or_eq_false_iff, Bool.and_eq_false_iff, decide_eq_false_iff_not,
    beq_eq_false_iff_ne, ne_eq]
  omega

/-- A name of the schema begins like an identifier. -/
theorem head_of_isSchemaName {name : String} (h : isSchemaName name = true) :
    name.toList.head?.any (!isBlank ·) = true := by
  rw [isSchemaName] at h
  cases hword : dropFinalNewline name.toList with
  | nil => simp [hword, isWord] at h
  | cons c cs =>
      have hprefix : dropFinalNewline name.toList <+: name.toList := by
        rw [dropFinalNewline]
        split
        · exact List.dropLast_prefix _
        · exact List.prefix_refl _
      obtain ⟨rest, hrest⟩ := hprefix
      rw [hword, isWord, Bool.and_eq_true] at h
      rw [← hrest, hword, List.cons_append, List.head?_cons, Option.any_some,
        isBlank_of_word (.inl h.1)]
      rfl

theorem ne_nil_of_isSchemaName {name : String} (h : isSchemaName name = true) :
    name.toList ≠ [] := by
  intro hnil
  have hhead := head_of_isSchemaName h
  rw [hnil] at hhead
  cases hhead

end Text

namespace ClassDecl.IsNamed

variable {d : ClassDecl}

theorem head (h : d.IsNamed) : d.fullName.toList.head?.any (!isBlank ·) = true := by
  rw [fullName]
  split
  · exact head_of_isSchemaName h.name
  · rw [String.append_assoc, String.toList_append,
      List.head?_append_of_ne_nil _ (ne_nil_of_isSchemaName h.moduleName)]
    exact head_of_isSchemaName h.moduleName

theorem mem (h : d.IsNamed) {c : Char} (hc : c ∈ d.fullName.toList) :
    opensIdentifier c = true ∨ continuesIdentifier c = true ∨ c = '\n' ∨ c = '.' := by
  have hword : ∀ {name : String}, isSchemaName name = true → c ∈ name.toList →
      opensIdentifier c = true ∨ continuesIdentifier c = true ∨ c = '\n' ∨ c = '.' :=
    fun hname hc => (mem_of_isSchemaName hname hc).imp_right (·.imp_right Or.inl)
  rw [fullName] at hc
  split at hc
  · exact hword h.name hc
  · simp only [String.toList_append, List.mem_append] at hc
    rcases hc with (hc | hc) | hc
    · exact hword h.moduleName hc
    · exact .inr (.inr (.inr (by simpa using hc)))
    · exact hword h.name hc

theorem plain (h : d.IsNamed) : ∀ c ∈ d.fullName.toList, c ≠ '<' ∧ c ≠ '>' ∧ c ≠ ',' := by
  intro c hc
  have hkinds := h.mem hc
  refine ⟨?_, ?_, ?_⟩ <;>
  · rintro rfl
    exact absurd hkinds (by decide)

theorem fullName_ne_empty (h : d.IsNamed) : d.fullName ≠ "" := by
  intro hempty
  have hhead := h.head
  rw [hempty] at hhead
  cases hhead

end ClassDecl.IsNamed

namespace Document

/-- The class that a name means is found under its qualified name, too. That is the name itself or
ends in it. -/
theorem resolve?_fullName {g : ClassGraph} {moduleName name : String} {c : ClassId}
    (h : resolve? g moduleName name = some c) :
    resolve? g moduleName (g.fullName c) = some c ∧
      (g.fullName c = name ∨ g.fullName c = moduleName ++ "." ++ name) := by
  rw [resolve?] at h
  split at h
  · rename_i c' hlocal
    obtain rfl := Option.some.inj h
    split at hlocal
    · cases hlocal
    · have hname : g.fullName c' = moduleName ++ "." ++ name := by
        simpa using List.find?_some hlocal
      -- A dotted name is not looked up in the module again.
      have hdot : '.' ∈ (moduleName ++ "." ++ name).toList := by simp
      refine ⟨?_, .inr hname⟩
      rw [resolve?, hname, if_pos hdot]
      exact hlocal
  · rename_i hlocal
    -- The name is already qualified, so it is looked up twice in the same way: a module that it
    -- names is not captured by a class of this module.
    have hname : g.fullName c = name := by simpa using List.find?_some h
    refine ⟨?_, .inl hname⟩
    rw [resolve?, hname, hlocal]
    exact h

end Document

/-! ## Names in type expressions -/

namespace PropertyType

/-- A name that is read from a type expression. -/
structure IsReadName (name : String) : Prop where
  tight : IsTight name.toList
  last : name.toList.getLast? ≠ some '?'
  not_primitive : name ∉ primitiveNames

/-- A reference that is read and not linked. -/
def Read (name : String) (target : Option ClassId) : Prop :=
  IsReadName name ∧ target = none

theorem parse_read {owner text : String} {t : PropertyType} (h : parse owner text = .ok t) :
    t.Formed Read := by
  refine parseWithin_formed (fun s hs hlast hnew => ⟨⟨?_, ?_, hnew⟩, rfl⟩) h
  · rw [String.toList_ofList]
    exact isTight_trim hs
  · rwa [String.toList_ofList]

theorem undotted_of_primitive {name : String} (h : name ∈ primitiveNames) : Undotted name := by
  rcases eq_of_mem_primitiveNames h with rfl | rfl | rfl | rfl | rfl | rfl <;> decide

/-- A class that is found for a name that was read can be written under its qualified name. -/
theorem IsReadName.qualified {name moduleName : String} (hname : IsReadName name) {d : ClassDecl}
    (hd : d.IsNamed) (h : d.fullName = name ∨ d.fullName = moduleName ++ "." ++ name) :
    IsReferenceName d.fullName := by
  obtain ⟨before, hbefore⟩ : ∃ before, d.fullName.toList = before ++ name.toList := by
    rcases h with h | h
    · exact ⟨[], by rw [h, List.nil_append]⟩
    · exact ⟨(moduleName ++ ".").toList, by rw [h, String.toList_append]⟩
  have hlast : d.fullName.toList.getLast? = name.toList.getLast? := by
    rw [hbefore, List.getLast?_append_of_ne_nil _ hname.tight.ne_nil]
  refine ⟨⟨⟨hd.head, ?_⟩, hd.plain, ?_⟩, ?_⟩
  · rw [hlast]
    exact hname.tight.2
  · rw [hlast]
    exact hname.last
  · rcases h with h | h
    · rw [h]
      exact hname.not_primitive
    · -- Behind the name of the module stands a point, and primitives have none.
      intro hprimitive
      have hundotted := undotted_of_primitive hprimitive
      rw [h] at hundotted
      simp [Undotted] at hundotted

end PropertyType

namespace Document

open PropertyType

variable {g : ClassGraph} {d : ClassDecl} {property : String}

/-- A type that was read and linked can be written again under the names it shows, and what is
written is linked to it. -/
theorem exists_written (hnamed : ∀ c ∈ g.classes, (g.decl c).IsNamed) {t : PropertyType}
    (ht : t.Formed Read) : ∀ {linked : PropertyType}, linkInside g d property t = .ok linked →
      ∃ t' : PropertyType, t'.Formed Written ∧ t'.text = linked.text ∧
        linkInside g d property t' = .ok linked := by
  induction ht with
  | primitive hname =>
      intro linked h
      refine ⟨_, .primitive hname, ?_, h⟩
      rw [linkInside, linkAllInside, map_ok] at h
      rw [← Except.ok.inj h]
  | @reference name _ hname =>
      intro linked h
      rw [linkInside] at h
      split at h
      · rename_i c hc
        obtain ⟨hfound, hfull⟩ := resolve?_fullName hc
        have hwritten := hname.1.qualified (hnamed c (resolve?_mem hc)) hfull
        obtain rfl := Except.ok.inj h
        refine ⟨_, .reference ⟨hwritten, rfl⟩, rfl, ?_⟩
        change resolve? g d.moduleName (g.decl c).fullName = some c at hfound
        rw [linkInside, hfound]
        rfl
      · cases h
  | @collection name arguments harity _ ih =>
      intro linked h
      rw [linkInside, linkAllInside_eq] at h
      obtain ⟨arguments', harguments, rfl⟩ := map_eq_ok.mp h
      have hlinked := mapM_eq_ok.mp harguments
      obtain ⟨written, hwritten, -⟩ := hlinked.exists_third (Q := fun _ _ => True)
        fun t ht u hu => (ih t ht hu).imp fun _ h => ⟨h, trivial⟩
      have hlength : written.length = arguments.length :=
        hwritten.length_eq.symm.trans hlinked.length_eq.symm
      have htexts : written.map text = arguments'.map text := by
        rw [← List.forall₂_eq_eq_eq, List.forall₂_map_left_iff, List.forall₂_map_right_iff]
        exact hwritten.flip.imp fun _ _ h => h.2.1
      refine ⟨.collection name written, .collection (hlength ▸ harity) fun t ht => ?_, ?_, ?_⟩
      · obtain ⟨_, -, h⟩ := hwritten.exists_left t ht
        exact h.1
      · rw [collection, text, text, texts_eq, texts_eq, htexts]
      · rw [collection, linkInside, linkAllInside_eq,
          mapM_eq_ok.mpr (hwritten.flip.imp fun _ _ h => h.2.2), map_ok]
  | @optional inner _ ih =>
      intro linked h
      rw [linkInside, linkAllInside_eq] at h
      obtain ⟨arguments', harguments, rfl⟩ := map_eq_ok.mp h
      obtain ⟨inner', rest, hinner, hnil, rfl⟩ :=
        List.forall₂_cons_left_iff.mp (mapM_eq_ok.mp harguments)
      obtain rfl := List.forall₂_nil_left_iff.mp hnil
      obtain ⟨t', hwritten, htext, hlink⟩ := ih hinner
      refine ⟨.optional t', .optional hwritten, ?_, ?_⟩
      · rw [PropertyType.optional, text, text, htext]
      · rw [PropertyType.optional, linkInside, linkAllInside_eq,
          mapM_eq_ok.mpr (.cons hlink .nil), map_ok]

/-- The text of a linked type is read as a type that is linked to it. -/
theorem parse_linked (hnamed : ∀ c ∈ g.classes, (g.decl c).IsNamed) {owner written : String}
    {t linked : PropertyType} (ht : parse owner written = .ok t)
    (h : linkInside g d property t = .ok linked) :
    ∃ t', parse owner linked.text = .ok t' ∧ linkInside g d property t' = .ok linked := by
  obtain ⟨t', hwritten, htext, hlink⟩ := exists_written hnamed (parse_read ht) h
  exact ⟨t', htext ▸ parse_text hwritten, hlink⟩

end Document

/-! ## Documents with linked names -/

namespace ClassGraph

variable (g : ClassGraph)

/-- The type of a property, by its name and that of its class. -/
def typeOf? (owner property : String) : Option PropertyType :=
  (g.find? owner).bind fun c =>
    ((g.decl c).properties.find? fun p => p.name == property).map (·.type)

/-- The superclass of a class, by the name of the class. -/
def superclassOf? (owner : String) : Option ClassId :=
  (g.find? owner).bind fun c => (g.decl c).superclass

variable {g}

/-- The names of a loaded graph lead to its classes. -/
theorem Linked.find?_fullName (h : g.Linked) {c : ClassId} (hc : c ∈ g.classes) :
    g.find? (g.fullName c) = some c :=
  (find?_key_eq_some h.fullNames_nodup).mpr ⟨hc, rfl⟩

theorem Linked.superclassOf?_fullName (h : g.Linked) {c : ClassId} (hc : c ∈ g.classes) :
    g.superclassOf? (g.fullName c) = (g.decl c).superclass := by
  rw [superclassOf?, h.find?_fullName hc, Option.bind_some]

theorem Linked.typeOf?_fullName (h : g.Linked) {c : ClassId} (hc : c ∈ g.classes) {p : Property}
    (hp : p ∈ (g.decl c).properties) : g.typeOf? (g.fullName c) p.name = some p.type := by
  rw [typeOf?, h.find?_fullName hc, Option.bind_some,
    (find?_key_eq_some (h.properties_nodup c hc)).mpr ⟨hp, rfl⟩, Option.map_some]

end ClassGraph

/-- The classes whose superclass is written anew, and the properties whose type is, each after its
class. -/
structure Selection where
  superclass : String → Bool
  type : String → String → Bool

namespace Selection

variable (s : Selection) (g : ClassGraph)

/-- What is written for the superclass of a class. -/
def superclassText (owner : String) : Option String :=
  if s.superclass owner then (g.superclassOf? owner).map g.fullName else none

/-- What is written for the type of a property. -/
def typeText (owner property : String) : Option String :=
  if s.type owner property then (g.typeOf? owner property).map (·.text) else none

variable {g}

theorem superclassText_cases (hg : g.Linked) {c : ClassId} (hc : c ∈ g.classes) :
    s.superclassText g (g.fullName c) = none ∨ ∃ c', (g.decl c).superclass = some c' ∧
      s.superclassText g (g.fullName c) = some (g.fullName c') := by
  rw [superclassText, hg.superclassOf?_fullName hc]
  split
  · cases (g.decl c).superclass with
    | none => exact .inl rfl
    | some c' => exact .inr ⟨c', rfl, rfl⟩
  · exact .inl rfl

theorem typeText_cases (hg : g.Linked) {c : ClassId} (hc : c ∈ g.classes) {p : Property}
    (hp : p ∈ (g.decl c).properties) : s.typeText g (g.fullName c) p.name = none ∨
      s.typeText g (g.fullName c) p.name = some p.type.text := by
  rw [typeText, hg.typeOf?_fullName hc hp]
  split
  · exact .inr rfl
  · exact .inl rfl

end Selection

/-- An entry that is there is changed, whatever becomes of a missing one. -/
theorem Json.field_map_of_text {change : String → Json → Json} {fields : List (String × Json)}
    {key text : String} (h : Json.field fields key = .text text) :
    Json.field (fields.map fun e => (e.1, change e.1 e.2)) key = change key (.text text) := by
  rw [Json.field, Json.findEntry_map]
  rw [Json.field] at h
  cases hentry : Table.findEntry key fields with
  | none =>
      rw [hentry] at h
      cases h
  | some v =>
      rw [hentry] at h
      exact congrArg _ h

namespace Document

/-- A new text in the place of a value, if there is one. -/
def rewritten (text : Option String) (v : Json) : Json :=
  (text.map .text).getD v

def relinkPropertyEntry (type : Option String) (key : String) (v : Json) : Json :=
  if key = "type" then rewritten type v else v

def relinkProperty (typeText : String → Option String) : Json → Json
  | .object fields => .object
      (fields.map fun e => (e.1, relinkPropertyEntry (typeText (givenName fields)) e.1 e.2))
  | v => v

def relinkEntry (superclass : Option String) (typeText : String → Option String) (key : String)
    (v : Json) : Json :=
  if key = "extends" then rewritten superclass v
  else if key = "properties" then Json.mapItems (relinkProperty typeText) v
  else v

theorem relinkEntry_of_ne {superclass : Option String} {typeText : String → Option String}
    {key : String} (hsuper : key ≠ "extends") (hproperties : key ≠ "properties") :
    relinkEntry superclass typeText key = id := by
  funext v
  rw [relinkEntry, if_neg hsuper, if_neg hproperties, id]

/-- Writes what is selected under the names that the graph shows for it. -/
def relink (g : ClassGraph) (s : Selection) : Edit := fun place fields =>
  let owner := givenFullName place fields
  fields.map fun e => (e.1, relinkEntry (s.superclassText g owner) (s.typeText g owner) e.1 e.2)

/-! ## Reading documents with linked names -/

section

variable {fields : List (String × Json)} {owner : String}

/-- A property can still be read when the text of its linked type is written for it, and has the
same links. -/
theorem readProperty_relink (hnamed : ∀ c ∈ g.classes, (g.decl c).IsNamed) {v : Json}
    {p linked : Property} (hp : Draft.readProperty owner v = .ok p)
    (hlinked : LinksProperty g d p linked) {typeText : String → Option String}
    (htext : typeText p.name = none ∨ typeText p.name = some linked.type.text) :
    ∃ p', Draft.readProperty owner (relinkProperty typeText v) = .ok p' ∧ p'.name = p.name ∧
      LinksProperty g d p' linked := by
  obtain ⟨fields, rfl, hfields⟩ := Draft.readProperty_eq_ok.mp hp
  obtain ⟨written, hwritten, hparse⟩ := hfields.type
  obtain ⟨type, hlink, rfl⟩ := hlinked
  have hgiven : givenName fields = p.name := by rw [givenName, hfields.name]
  let edited := fields.map fun e => (e.1, relinkPropertyEntry (typeText p.name) e.1 e.2)
  have hkept : ∀ key, key ≠ "type" → Json.field edited key = Json.field fields key := by
    intro key hkey
    have hsame : ∀ v, relinkPropertyEntry (typeText p.name) key v = v := fun _ => if_neg hkey
    rw [Json.field_map (hsame _), hsame]
  have hread : ∀ text t, Json.field edited "type" = .text text →
      PropertyType.parse owner text = .ok t →
      Draft.readProperty owner (relinkProperty typeText (.object fields)) =
        .ok { p with type := t } := by
    intro text t htext hparse
    rw [relinkProperty, hgiven]
    refine Draft.readProperty_eq_ok.mpr ⟨edited, rfl, ?_, hfields.named, ⟨text, htext, hparse⟩,
      ?_, ?_⟩
    · rw [hkept _ (by decide), hfields.name]
    · rw [hkept _ (by decide), hfields.nullable]
    · rw [Draft.optionalText, hkept _ (by decide)]
      exact hfields.doc
  have htype : Json.field edited "type" = rewritten (typeText p.name) (.text written) :=
    Json.field_map_of_text hwritten
  rcases htext with htext | htext
  · rw [htext] at htype
    exact ⟨_, hread written p.type htype hparse, rfl, type, hlink, rfl⟩
  · rw [htext] at htype
    obtain ⟨t, hparse', hlink'⟩ := parse_linked hnamed hparse hlink
    exact ⟨_, hread type.text t htype hparse', rfl, type, hlink', rfl⟩

/-- The superclass of a class can be written under its qualified name. -/
theorem superclassName_relink (hnamed : ∀ c ∈ g.classes, (g.decl c).IsNamed) {d : Draft}
    {superclass : Option ClassId} (hname : Draft.optionalText fields "extends" owner =
      .ok d.superclassName) (hlink : linkSuperclass g d = .ok superclass) {text : Option String}
    (htext : text = none ∨ ∃ c, superclass = some c ∧ text = some (g.fullName c))
    (typeText : String → Option String) :
    ∃ name, Draft.optionalText
        (fields.map fun e => (e.1, relinkEntry text typeText e.1 e.2)) "extends" owner = .ok name ∧
      ∀ d' : Draft, d'.decl.moduleName = d.decl.moduleName → d'.superclassName = name →
        linkSuperclass g d' = .ok superclass := by
  rcases htext with rfl | ⟨c, rfl, rfl⟩
  · refine ⟨d.superclassName, ?_, fun d' hmodule hsame => ?_⟩
    · rw [Draft.optionalText_unchanged _ _ fun _ => rfl]
      exact hname
    · rw [linkSuperclass_eq_ok] at hlink ⊢
      rwa [hsame, hmodule]
  · obtain ⟨-, hnone⟩ | ⟨name, c', hwritten, -, hsome, hc⟩ := linkSuperclass_eq_ok.mp hlink
    · cases hnone
    · obtain rfl := Option.some.inj hsome
      have hfield : Json.field fields "extends" = .text name := by
        rw [hwritten] at hname
        exact Draft.optionalText_eq_some.mp hname
      refine ⟨some (g.fullName c), ?_, fun d' hmodule hsame => ?_⟩
      · refine Draft.optionalText_eq_some.mpr ?_
        rw [Json.field_map_of_text hfield]
        rfl
      · refine linkSuperclass_eq_ok.mpr (.inr ⟨g.fullName c, c, hsame, ?_, rfl, ?_⟩)
        · exact (hnamed c (resolve?_mem hc)).fullName_ne_empty
        · rw [hmodule]
          exact (resolve?_fullName hc).1

/-- A definition can still be read when linked names are written in it, and has the same links. -/
theorem reads_relink (hnamed : ∀ c ∈ g.classes, (g.decl c).IsNamed) {place : Place} {d : Draft}
    {decl : ClassDecl} (hd : d.Reads place fields) (hlink : link g d = .ok decl)
    {text : Option String}
    (htext : text = none ∨ ∃ c, decl.superclass = some c ∧ text = some (g.fullName c))
    {typeText : String → Option String} (htypes : ∀ p ∈ decl.properties,
      typeText p.name = none ∨ typeText p.name = some p.type.text) :
    ∃ d' : Draft, d'.Reads place (fields.map fun e => (e.1, relinkEntry text typeText e.1 e.2)) ∧
      d.Alike d' ∧ link g d' = .ok decl := by
  obtain ⟨superclass, properties, hsuper, hproperties, rfl⟩ := link_eq_ok.mp hlink
  obtain ⟨values, hvalues, hread⟩ := hd.properties
  obtain ⟨hread, hnodup, -⟩ := Draft.readProperties_eq_ok.mp hread
  obtain ⟨superclassName, hname, hsuper'⟩ := superclassName_relink hnamed hd.superclassName hsuper
    htext typeText
  have hpairs : List.Forall₂ (fun v linked => ∃ p, Draft.readProperty d.fullName v = .ok p ∧
      LinksProperty g d.decl p linked) values properties :=
    forall₂_through (fun _ p _ hp hlink => ⟨p, hp, hlink⟩) hread hproperties
  obtain ⟨properties', hread', hlinks'⟩ := hpairs.flip.exists_third
    (P := fun v p => Draft.readProperty d.fullName (relinkProperty typeText v) = .ok p)
    (Q := fun linked p => p.name = linked.name ∧
      ∀ d', d'.moduleName = d.decl.moduleName → LinksProperty g d' p linked)
    fun linked hmem v hv => by
      obtain ⟨p, hp, hlink⟩ := hv
      obtain ⟨p', hp', hname', hlink'⟩ :=
        readProperty_relink hnamed hp hlink (hlink.name_eq ▸ htypes linked hmem)
      exact ⟨p', hp', hname'.trans hlink.name_eq.symm,
        fun d' => hlink'.congr (Draft.readProperty_ok hp').2⟩
  have hnames : d.decl.properties.map (·.name) = properties'.map (·.name) := by
    rw [← List.forall₂_eq_eq_eq, List.forall₂_map_left_iff, List.forall₂_map_right_iff]
    exact forall₂_through (fun _ _ _ h h' => h.name_eq.symm.trans h'.1.symm) hproperties hlinks'
  have hvalues' : Draft.optionalList (fields.map fun e => (e.1, relinkEntry text typeText e.1 e.2))
      "properties" d.fullName = .ok (values.map (relinkProperty typeText)) := by
    rw [Draft.optionalList_map _ _ fun _ => rfl, hvalues, map_ok]
  have hproperties' : Draft.readProperties d.fullName [] (values.map (relinkProperty typeText)) =
      .ok properties' := by
    refine Draft.readProperties_eq_ok.mpr ⟨?_, hnames ▸ hnodup, by simp⟩
    rwa [List.forall₂_map_left_iff]
  refine ⟨_, hd.update (fun key hkey => ?_) hname hvalues' hproperties', ⟨rfl, rfl, rfl⟩, ?_⟩
  · have hsuper : key ≠ "extends" := by
      rintro rfl
      simp at hkey
    have hproperties : key ≠ "properties" := by
      rintro rfl
      simp at hkey
    rw [Json.findEntry_map (relinkEntry text typeText), relinkEntry_of_ne hsuper hproperties,
      Option.map_id, id]
  · refine link_eq_ok.mpr ⟨superclass, properties, hsuper' _ rfl rfl, ?_, rfl⟩
    exact hlinks'.flip.imp fun _ _ h => h.2 _ rfl

/-- A document in which linked names are written instead of the given ones, for any selection of
its superclasses and property types, is loaded to the same graph. -/
theorem load_relink {doc : Json} (h : load doc = .ok g) (s : Selection) :
    load (editDefinitions (relink g s) doc) = .ok g := by
  obtain ⟨ds, decls, hds, hlinks, hg⟩ := load_eq_ok.mp h
  have hfrom : LinkedFrom ds g := hg ▸ linkedFrom_of_drafts hds hlinks
  have hlinked := hfrom.linked
  have hnamed := unlinked_isNamed hfrom.drafted
  let R := fun d d' : Draft => d.Alike d' ∧ Persists (link (unlinked ds) d) (link (unlinked ds) d')
  have hread : Rereads (relink g s) R ds := by
    intro place fields d hd hfields
    obtain ⟨c, hc, hplaced⟩ := hfrom.place d hd
    have howner : givenFullName place fields = g.fullName c := by
      rw [givenFullName_eq hfields, hfrom.fullName_of_isPlace hc hplaced]
    have hsuper : s.superclassText g (g.fullName c) = none ∨ ∃ c', (g.decl c).superclass = some c' ∧
        s.superclassText g (g.fullName c) = some ((unlinked ds).fullName c') := by
      refine (s.superclassText_cases hlinked hc).imp_right ?_
      rintro ⟨c', hsuper, htext⟩
      rw [hfrom.fullName_eq (hlinked.superclasses c hc c' hsuper)] at htext
      exact ⟨c', hsuper, htext⟩
    obtain ⟨d', hd', halike, hlink'⟩ := reads_relink hnamed hfields hplaced.2 hsuper
      fun p hp => s.typeText_cases hlinked hc hp
    refine ⟨d', ?_, halike, fun decl hdecl => ?_⟩
    · rw [relink, howner]
      exact hd'
    · rw [hlink', ← hplaced.2, hdecl]
  have hclasses : ∀ fields, Table.findEntry "classes" (relink g s .module fields) =
      Table.findEntry "classes" fields := by
    intro fields
    rw [relink, Json.findEntry_map (relinkEntry _ _), relinkEntry_of_ne (by decide) (by decide),
      Option.map_id, id]
  obtain ⟨ds', hds', hR⟩ := drafts_edit (fun _ _ h => h.1) hclasses hds hread
  refine (load_alike_eq_ok hds' (hR.imp fun _ _ h => h.1)).mpr ⟨decls, ?_, hg⟩
  exact forall₂_through (fun _ _ decl h' h => h'.2 decl h) hR.flip hlinks

end

/-- Two modules that name their classes as briefly as they can, with white space in the types. -/
def brief : Json :=
  .object [("modules", .list [
    .object [("name", .text "tree"), ("properties", .list [
        .object [("name", .text "roots"), ("type", .text " Map< String,List<Node ?> >")]]),
      ("classes", .list [
        .object [("name", .text "Node"), ("kind", .text "open")],
        .object [("name", .text "Leaf"), ("extends", .text "Node"), ("properties", .list [
          .object [("name", .text "parent"), ("type", .text "Node ?")]])]])],
    .object [("name", .text "wood"), ("properties", .list [
        .object [("name", .text "first"), ("type", .text "tree")]])]])]

/-- Everything is selected. -/
theorem load_relink_brief : ∃ g, load brief = .ok g ∧
    (let s : Selection := { superclass := fun _ => true, type := fun _ _ => true }
    s.typeText g "tree" "roots" = some "Map<String, List<tree.Node?>>" ∧
      s.superclassText g "tree.Leaf" = some "tree.Node" ∧
      s.typeText g "tree.Leaf" "parent" = some "tree.Node?" ∧
      s.typeText g "wood" "first" = some "tree" ∧
      load (editDefinitions (relink g s) brief) = .ok g) := by
  let s : Selection := { superclass := fun _ => true, type := fun _ _ => true }
  have hload : ∃ g, load brief = .ok g ∧
      s.typeText g "tree" "roots" = some "Map<String, List<tree.Node?>>" ∧
      s.superclassText g "tree.Leaf" = some "tree.Node" ∧
      s.typeText g "tree.Leaf" "parent" = some "tree.Node?" ∧
      s.typeText g "wood" "first" = some "tree" := exists_ok_and (by decide +kernel)
  obtain ⟨g, hg, hroots, hleaf, hparent, hfirst⟩ := hload
  exact ⟨g, hg, hroots, hleaf, hparent, hfirst, load_relink hg s⟩

end Document

end RecordGen

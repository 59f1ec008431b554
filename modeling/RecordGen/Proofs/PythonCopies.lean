import RecordGen.Proofs.PythonProtocol

/-! # The records of a module

Which records of an accepted document are copied by the copy-with protocol. Names come from the
document, so they have no characters beyond ASCII and are read as they are; the names of the
protocol are kept free. What is left is how the document calls its classes and properties. -/

namespace RecordGen.Python

open Text Fallible ClassGraph

/-! ## Member names -/

/-- A name is made legal by underscores behind it. -/
theorem legalMember_keeps {P : String → Prop} (hlonger : ∀ n, P n → P (n ++ "_")) {name : String}
    (h : P name) : P (legalMember name) := by
  have havoid : ∀ (steps : Nat) {n : String}, P n → P (avoidMembers steps n) := by
    intro steps
    induction steps with
    | zero => exact fun hn => hn
    | succ steps ih =>
        intro n hn
        rw [avoidMembers]
        split
        · exact ih (hlonger n hn)
        · exact hn
  refine havoid _ ?_
  rw [legalMethod]
  split
  · exact hlonger name h
  · exact h

/-- What can be read of a name in ASCII is the name. -/
theorem asRead_of_ascii {name : String} (h : IsAscii name) (hread : (asRead name).isSome = true) :
    asRead name = some name := by
  rw [asRead] at hread ⊢
  split at hread
  · rename_i hname
    have hnormal : normalForm name = name := if_pos h
    rw [if_pos hname, hnormal]
  · cases hread

section

variable {config : Config} {g : ClassGraph} {a : Analysis} {names : Table TypePath String}

/-- What the names of the schema have, and underscores keep, member names have. -/
theorem memberName_keeps (h : a.Describes config g) {P : String → Prop}
    (hnamed : ∀ n, isSchemaName n = true → P n) (hlonger : ∀ n, P n → P (n ++ "_"))
    {r : Resolution} (hr : r ∈ a.resolutions) {property name : String}
    (hname : memberOf (allocateMembers legalMember [] r.properties) property = .ok name) :
    P name := by
  refine memberOf_keeps (P := P) (fun n => legalMember_keeps hlonger) hlonger
    (h.resolved.properties_nodup hr) (fun d hd => ?_) hname
  obtain ⟨howner, hproperty⟩ := h.resolved.declared_of_mem_properties hr hd
  exact hnamed _ (h.linked.properties_named _ howner _ hproperty)

theorem memberName_spec (h : a.Describes config g) {r : Resolution} (hr : r ∈ a.resolutions)
    {property name : String}
    (hname : memberOf (allocateMembers legalMember [] r.properties) property = .ok name) :
    IsAscii name ∧ name ∉ protocolMembers := by
  constructor
  · exact memberName_keeps h (fun n => isAscii_of_isSchemaName)
      (fun n hn => hn.append (by decide)) hr hname
  · obtain ⟨wanted, rfl⟩ := exists_escape_of_memberOf (h.resolved.properties_nodup hr) hname
    exact legalMember_not_protocol wanted

/-! ## Names of records -/

/-- The names of records hold no prefix, so they are in ASCII whatever the prefix is. -/
theorem recordPath_ascii {p : String} (h : g.Linked) {c : ClassId} {t : TypePath}
    (ht : ((Naming.ofGraph p g).at .record).find? c = some t) :
    IsAscii t.name ∧ IsAscii t.container := by
  have hascii : KeptInContainers IsAscii := (ascii_keptByNaming h (p := "") (by decide)).1
  have hcontainer := hascii.pathContainer ht
  have hfirst : ∀ {taken : List String} {base : String}, IsAscii base →
      IsFirstFree taken base t.name → IsAscii t.name := by
    intro taken base hbase hfree
    rcases hfree.exists_append with heq | ⟨k, heq⟩
    · exact heq ▸ hbase
    · exact heq ▸ hascii.numbered k hbase
  refine ⟨?_, hcontainer⟩
  cases hmodule : (g.decl c).isModule with
  | true =>
      cases hown : t.isModuleType with
      | true =>
          have heq : t.name = t.container := by simpa [TypePath.isModuleType] using hown
          exact heq ▸ hcontainer
      | false =>
          obtain ⟨-, _, hfree⟩ := Naming.claimed_own h.nameable hmodule ht hown
          exact hfirst (hcontainer.append (by decide)) hfree
  | false =>
      obtain ⟨hc, _, hfree, -⟩ := Naming.claimed_class h.nameable hmodule ht
      exact hfirst (isAscii_safeTypeName (isAscii_of_isSchemaName (h.named c hc))) hfree

theorem recordName_ascii (h : a.Describes config g) (hnames : classNames a = .ok names)
    {d : GeneratedRecord} (hd : d ∈ a.records) {n : String}
    (hn : classNameOf names d.path = .ok n) : IsAscii n := by
  obtain ⟨r, hr, t, ht, rfl⟩ := h.mem_records.mp hd
  rw [h.record_path hr ht] at hn
  have hpath := h.counterpart_mem hr (Or.inr ht)
  rw [h.resolved.record_eq hr, h.resolved.typeOf_eq h.linked.nameable hr] at ht
  obtain ⟨hname, hcontainer⟩ := recordPath_ascii h.linked ht
  rcases flatName_cases h hnames hpath hn with rfl | ⟨rfl, -⟩
  · exact hname
  · exact hcontainer.append hname

/-! ## The classes of a module -/

theorem mem_bindings {reads : String → Option String} {body : List Statement} {k : String}
    {s : Statement} : (k, s) ∈ bindings reads body ↔
      s ∈ body ∧ ∃ n, s.boundName? = some n ∧ reads n = some k := by
  simp [bindings, Option.bind_eq_some_iff]

theorem className?_spec {s : Statement} {n : String} (h : s.className? = some n) :
    s.boundName? = some n ∧ n ∈ s.classNames := by
  cases s with
  | classDefinition _ name _ body =>
      obtain rfl := Option.some.inj h
      exact ⟨rfl, by simp [Statement.classNames]⟩
  | _ => cases h

variable {body : List Statement} {s : Statement}

/-- All that a module binds are classes. -/
theorem exists_className? (hclasses : a.types.mapM (classDefinition config a names) = .ok body)
    (hnames : classNames a = .ok names) (hs : s ∈ preludeClasses a ++ body) :
    ∃ n, s.className? = some n := by
  rcases List.mem_append.mp hs with hs | hs
  · rw [preludeClasses] at hs
    split at hs
    · exact ⟨CopyProtocol.contract, List.mem_singleton.mp hs ▸ rfl⟩
    · cases hs
  · obtain ⟨d, hd, hclass⟩ := (mapM_eq_ok.mp hclasses).exists_left s hs
    obtain ⟨n, hn⟩ := classNames_covers hnames _ (List.mem_map_of_mem hd)
    exact ⟨n, className?_eq hclass hn⟩

theorem mem_boundNames (hs : s ∈ preludeClasses a ++ body) {n : String}
    (hn : s.className? = some n) : n ∈ boundNames a body ∧ n ∈ emittedNames a body := by
  refine ⟨List.mem_cons_of_mem _ (List.mem_filterMap.mpr ⟨s, hs, hn⟩), ?_⟩
  rw [emittedNames, bodyClassNames_eq]
  exact List.mem_flatMap.mpr ⟨s, hs, (className?_spec hn).2⟩

theorem mem_moduleScope (hclasses : a.types.mapM (classDefinition config a names) = .ok body)
    (hnames : classNames a = .ok names) {k : String} : (k, s) ∈ moduleScope a body ↔
      s ∈ preludeClasses a ++ body ∧ ∃ n, s.className? = some n ∧ asRead n = some k := by
  rw [moduleScope, mem_bindings]
  refine and_congr_right fun hs => ?_
  obtain ⟨n, hn⟩ := exists_className? hclasses hnames hs
  rw [(className?_spec hn).1, hn]

/-- No two classes of a module have one name. -/
theorem eq_of_className? (h : a.Describes config g)
    (hclasses : a.types.mapM (classDefinition config a names) = .ok body)
    (hnames : classNames a = .ok names) {d : GeneratedType} (hd : d ∈ a.types) {t : Statement}
    (ht : classDefinition config a names d = .ok t) {n : String}
    (hn : classNameOf names d.head.path = .ok n) (hs : s ∈ preludeClasses a ++ body)
    (hsn : s.className? = some n) : s = t := by
  have hpath : d.head.path ∈ paths a := List.mem_map_of_mem hd
  rcases List.mem_append.mp hs with hs | hs
  · have hfree := className_not_mem h hnames hpath hn
    rw [preludeClasses] at hs
    split at hs
    · rename_i hsome
      obtain rfl := List.mem_singleton.mp hs
      obtain rfl := Option.some.inj hsn
      rw [if_pos hsome] at hfree
      exact absurd (List.mem_append_right _ (by decide)) hfree
    · cases hs
  · obtain ⟨u, hu, hclass⟩ := (mapM_eq_ok.mp hclasses).exists_left s hs
    have hupath : u.head.path ∈ paths a := List.mem_map_of_mem hu
    obtain ⟨n', hn'⟩ := classNames_covers hnames _ hupath
    obtain rfl := Option.some.inj (hsn.symm.trans (className?_eq hclass hn'))
    have hsame := className_inj h hnames hupath hpath hn' hn
    obtain rfl := List.inj_on_of_nodup_map h.paths_nodup hu hd hsame
    exact Except.ok.inj (hclass.symm.trans ht)

/-! ## Records that are copied -/

/-- The classes of a module can be told apart as they are read, and none hides the decorators of
data classes and class methods. -/
structure Clear (a : Analysis) (body : List Statement) : Prop where
  apart : ReadsApart asRead (boundNames a body)
  decorators : ∀ n ∈ ["classmethod", "dataclass"], ¬Hides asRead (emittedNames a body) n

/-- In a clear module the name of a record's class means that class and no other one. -/
theorem Clear.found (hclear : Clear a body) (h : a.Describes config g)
    (hclasses : a.types.mapM (classDefinition config a names) = .ok body)
    (hnames : classNames a = .ok names) {d : GeneratedType} (hd : d ∈ a.types) {t : Statement}
    (ht : classDefinition config a names d = .ok t) {n : String}
    (hn : classNameOf names d.head.path = .ok n) (hread : asRead n = some n) (k : String) :
    Table.findEntry k (moduleScope a body) = some t ↔ k = n := by
  have htn := className?_eq ht hn
  obtain ⟨u, hu, hclass⟩ := (mapM_eq_ok.mp hclasses).exists_right d hd
  obtain rfl := Except.ok.inj (hclass.symm.trans ht)
  have hmem : u ∈ preludeClasses a ++ body := List.mem_append_right _ hu
  constructor
  · intro hfound
    obtain ⟨-, n', hn', hk⟩ := (mem_moduleScope hclasses hnames).mp (Table.mem_of_findEntry hfound)
    obtain rfl := Option.some.inj (htn.symm.trans hn')
    exact Option.some.inj (hk.symm.trans hread)
  · rintro rfl
    refine Table.findEntry_eq_of_unique
      ((mem_moduleScope hclasses hnames).mpr ⟨hmem, _, htn, hread⟩) fun s hbound => ?_
    obtain ⟨hs, n', hn', hk⟩ := (mem_moduleScope hclasses hnames).mp hbound
    have hsame := (hclear.apart n' (mem_boundNames hs hn').1).2 _ (mem_boundNames hmem htn).1
      (hk.trans hread.symm)
    subst hsame
    exact eq_of_className? h hclasses hnames hd ht hn hs hn'

theorem Clear.undisturbed (hclear : Clear a body)
    (hclasses : a.types.mapM (classDefinition config a names) = .ok body)
    (hnames : classNames a = .ok names) :
    ∀ n ∈ ["classmethod", "dataclass"], Table.findEntry n (moduleScope a body) = none := by
  have hread : ∀ n ∈ ["classmethod", "dataclass"], asRead n = some n := by decide +kernel
  refine fun n hn => Table.findEntry_eq_none.mpr fun s hs => hclear.decorators n hn ?_
  obtain ⟨hs, m, hm, hk⟩ := (mem_moduleScope hclasses hnames).mp hs
  exact ⟨n, hread n hn, m, (mem_boundNames hs hm).2, hk⟩

/-- The class of a record is written under a name of its own, with a field for every component under
the component's member name. -/
def Written (a : Analysis) (names : Table TypePath String) (d : GeneratedRecord) (name : String)
    (fields : List (String × Ty)) : Prop :=
  classNameOf names d.path = .ok name ∧
    ∃ members, a.memberTable legalMember d.toTypeHead = .ok members ∧
      List.Forall₂ (fun c f => memberOf members c.name = .ok f.1 ∧
        translate a names c.type c.nullable = .ok f.2) d.components fields

/-- A field's name can be read, and is no attribute that classes have of their own. -/
def IsOrdinary (name : String) : Prop :=
  (asRead name).isSome = true ∧ isSpecial name = false

instance (reads : String → Option String) (classNames : List String) (n : String) :
    Decidable (Hides reads classNames n) :=
  decidable_of_iff ((reads n).isSome = true ∧ ∃ m ∈ classNames, reads m = reads n) <| by
    cases hn : reads n <;> simp [Hides, hn]

instance (a : Analysis) (body : List Statement) : Decidable (Clear a body) :=
  decidable_of_iff (ReadsApart asRead (boundNames a body) ∧
      ∀ n ∈ ["classmethod", "dataclass"], ¬Hides asRead (emittedNames a body) n)
    ⟨fun h => ⟨h.1, h.2⟩, fun h => ⟨h.apart, h.decorators⟩⟩

instance (name : String) : Decidable (IsOrdinary name) :=
  inferInstanceAs (Decidable (_ ∧ _))

/-- With the copy-with protocol, the class of a record copies if its names allow it. -/
theorem exists_copying (h : a.Describes config g) (hwithers : config.withers = true)
    (hclasses : a.types.mapM (classDefinition config a names) = .ok body)
    (hnames : classNames a = .ok names) {d : GeneratedRecord} (hd : d ∈ a.records) :
    ∃ name fields staging record, Written a names d name fields ∧ record ∈ body ∧
      Copying name fields staging record ∧ Reaches name fields ∧
      (Clear a body → (∀ f ∈ fields, IsOrdinary f.1) →
        Available (moduleScope a body) name fields staging record) := by
  have htype : GeneratedType.record d ∈ a.types := by
    obtain ⟨r, hr, t, ht, hdt⟩ := h.mem_records.mp hd
    exact h.mem_types.mpr ⟨r, hr, Or.inr ⟨t, ht, congrArg GeneratedType.record hdt⟩⟩
  obtain ⟨record, hrecord, hclass⟩ := (mapM_eq_ok.mp hclasses).exists_right _ htype
  have hclass' : recordClass config a names d = .ok record := hclass
  obtain ⟨members, doc, name, fields, bases, hmembers, hdoc, hfields, hname, -, hs⟩ :=
    recordClass_spec hclass'
  have hnameAscii := recordName_ascii h hnames hd hname
  obtain ⟨r, hr, t, ht, rfl⟩ := h.mem_records.mp hd
  obtain rfl := Except.ok.inj ((h.memberTable_ok legalMember hr rfl).symm.trans hmembers)
  have hcopy : (Analysis.recordOf config g r t).copyWith.isSome = true := by
    simp [Analysis.recordOf, hwithers]
  obtain ⟨copy, hcopy⟩ := Option.isSome_iff_exists.mp hcopy
  rw [hcopy] at hs
  obtain ⟨stagingDoc, hstagingDoc, hs⟩ := hs
  have hmember : ∀ f ∈ fields, IsAscii f.1 ∧ f.1 ∉ protocolMembers := fun f hf => by
    obtain ⟨c, -, hc, -⟩ := hfields.exists_left f hf
    exact memberName_spec h hr hc
  have hcopying : Copying name fields (stagingClass stagingDoc name fields) record :=
    ⟨doc, stagingDoc, _, hdoc, hstagingDoc, rfl, hs⟩
  refine ⟨name, fields, _, record, ⟨hname, _, hmembers, hfields⟩, hrecord, hcopying,
    reaches (asRead_of_ascii hnameAscii) fun f hf => asRead_of_ascii (hmember f hf).1,
    fun hclear hordinary => ?_⟩
  have hreadable : (asRead name).isSome = true := by
    have hmem := List.mem_append_right (preludeClasses a) hrecord
    exact (hclear.apart name (mem_boundNames hmem (className?_eq hclass hname)).1).1
  have hread := asRead_of_ascii hnameAscii hreadable
  exact {
    copying := hcopying
    found := hclear.found h hclasses hnames htype hclass hname hread
    undisturbed := hclear.undisturbed hclasses hnames
    read := hread
    fieldsRead := fun f hf => asRead_of_ascii (hmember f hf).1 (hordinary f hf).1
    distinct := h.memberNames_nodup legalMember_lengthens hr
      (List.forall₂_map_right_iff.mpr (hfields.imp fun _ _ hf => hf.1))
    plain := fun f hf => (hordinary f hf).2
    escaped := fun f hf => (hmember f hf).2 }

end

end RecordGen.Python

namespace RecordGen

open Fallible

/-- A run that writes a module has described a graph and put every type into a class. -/
theorem generate_module {r : Run} {doc : Json} {files : Files} (hrecords : r.config.records = true)
    (hvalidate : r.validate = .ok .python) (h : r.generate (.document doc) = .ok files) :
    ∃ g a names body, a.Describes r.config g ∧ r.analyze (.document doc) = .ok a ∧
      Python.classNames a = .ok names ∧
      a.types.mapM (Python.classDefinition r.config a names) = .ok body ∧
      Python.classes r.config a = .ok body ∧ files = Python.fileOf a (r.banner .python) body := by
  obtain ⟨language, g, a, hlanguage, hload, hanalyze, hemit⟩ := Run.generate_ok hrecords h
  obtain rfl := Except.ok.inj (hvalidate.symm.trans hlanguage)
  obtain ⟨body, hbody, rfl⟩ := Python.generate_eq_ok hemit
  obtain ⟨names, hnames, hclasses⟩ := bind_eq_ok.mp hbody
  refine ⟨g, a, names, body, analyze_describes (Document.load_linked hload) hanalyze, ?_, hnames,
    hclasses, hbody, rfl⟩
  simp only [Run.analyze, hvalidate, Source.load, hload, hanalyze, mapError_ok, ok_bind]

/-- A class `P` with a private property. -/
def Document.hidden : Json :=
  .object [("modules", .list [.object [("name", .text "m"), ("classes", .list [
    .object [("name", .text "P"), ("properties", .list [
      .object [("name", .text "__x"), ("type", .text "String")]])]])]])]

end RecordGen

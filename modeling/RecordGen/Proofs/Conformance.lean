import RecordGen.Proofs.Outcomes

/-! # Records satisfy their interfaces

A record names its components by itself, and an interface its accessors. Both claim names along the
chain of their class, so what an interface promises is what every record below it stores. -/

namespace RecordGen

open Fallible ClassGraph

/-! ## Promised and stored members -/

/-- A record satisfies an interface in one language, given how the language names and types members
and which members it writes for both. Each written accessor has exactly one component of its name,
and that component has the same type. -/
structure Satisfies {τ : Type} (table : TypeHead → Except TargetFault (List (String × String)))
    (translate : PropertyType → Bool → Except TargetFault τ) (d : GeneratedRecord)
    (i : GeneratedInterface) (promised stored : List (String × τ)) : Prop where
  accessors : ∃ members, table i.toTypeHead = .ok members ∧
    List.Forall₂ (fun m e => memberOf members m.name = .ok e.1 ∧
      translate m.type m.nullable = .ok e.2) i.accessors promised
  components : ∃ members, table d.toTypeHead = .ok members ∧
    List.Forall₂ (fun c e => memberOf members c.name = .ok e.1 ∧
      translate c.type c.nullable = .ok e.2) d.components stored
  exactly_one : ∀ m ∈ promised, stored.filter (·.1 == m.1) = [m]

/-- The components of a class's record repeat, name and type, the accessors of every interface above
the class. -/
theorem exactly_one_of_chain {τ : Type} {escape : String → String} (he : Lengthens escape)
    {translate : PropertyType → Bool → Except TargetFault τ} {inherited own : List Declared}
    (hn : (propertyNames (inherited ++ own)).Nodup) {promised stored : List (String × τ)}
    {ps : List Property} (hps : ∀ p ∈ ps, ∃ d ∈ inherited, d.property = p)
    (hpromised : List.Forall₂ (fun p e =>
      memberOf (allocateMembers escape [] inherited) p.name = .ok e.1 ∧
        translate p.type p.nullable = .ok e.2) ps promised)
    (hstored : List.Forall₂ (fun d e =>
      memberOf (allocateMembers escape [] (inherited ++ own)) d.property.name = .ok e.1 ∧
        translate d.property.type d.property.nullable = .ok e.2) (inherited ++ own) stored) :
    ∀ m ∈ promised, stored.filter (·.1 == m.1) = [m] := by
  have hnames : (stored.map (·.1)).Nodup := by
    refine List.pairwise_map.mpr (hstored.pairwise ?_ (List.pairwise_map.mp hn))
    intro d d' e e' hd hd' hne heq
    exact hne (eq_of_memberOf he hn hd.1 (heq ▸ hd'.1))
  intro m hm
  obtain ⟨p, hp, hname, htype⟩ := hpromised.exists_left m hm
  obtain ⟨d, hd, rfl⟩ := hps p hp
  obtain ⟨e, hmem, hname', htype'⟩ := hstored.exists_right d (List.mem_append_left _ hd)
  have hname : e.1 = m.1 := Except.ok.inj (hname'.symm.trans (memberOf_append hname))
  have htype : e.2 = m.2 := Except.ok.inj (htype'.symm.trans htype)
  obtain rfl : e = m := Prod.ext hname htype
  exact filter_key_eq hnames hmem

namespace Analysis.Describes

variable {config : Config} {g : ClassGraph} {a : Analysis}

/-- Every interface that a record implements is described, and the record repeats the chain of the
interface's class. -/
theorem implements_spec (h : a.Describes config g) {d : GeneratedRecord} (hd : d ∈ a.records) :
    ∃ r ∈ a.resolutions, ∃ u, r.record = some u ∧ d = recordOf config g r u ∧
      (∀ t ∈ d.implements, ∃ i ∈ a.interfaces, i.path = t) ∧
      ∀ i ∈ a.interfaces, i.path ∈ d.implements → ∃ r' ∈ a.resolutions, ∃ t,
        i = interfaceOf g r' t ∧ ∃ own, r.properties = r'.properties ++ own := by
  obtain ⟨r, hr, u, hu, rfl⟩ := h.mem_records.mp hd
  have himplements : (recordOf config g r u).implements = r.contracts := by
    simp [recordOf, Resolution.implements, hu]
  refine ⟨r, hr, u, hu, rfl, fun t ht => ?_, fun i hi hpath => ?_⟩
  · rw [himplements] at ht
    obtain ⟨r', hr', -, hi⟩ := (h.resolved.mem_contracts hr).mp ht
    obtain ⟨hmem, hpath⟩ := h.exists_interface hr' hi
    exact ⟨_, hmem, hpath⟩
  · obtain ⟨r', hr', t, ht, rfl⟩ := h.mem_interfaces.mp hi
    rw [himplements, h.interface_path hr' ht] at hpath
    obtain ⟨r'', hr'', hdescends, ht''⟩ := (h.resolved.mem_contracts hr).mp hpath
    obtain rfl := h.resolved.eq_of_interface hr'' hr' ht'' ht
    exact ⟨r'', hr'', t, rfl, h.resolved.exists_properties_append hr hr'' hdescends⟩

/-- A record satisfies the interfaces it implements, however a language escapes and translates. -/
theorem satisfies (h : a.Describes config g) {τ : Type} {escape : String → String}
    (he : Lengthens escape) {translate : PropertyType → Bool → Except TargetFault τ}
    {d : GeneratedRecord} (hd : d ∈ a.records) {i : GeneratedInterface} (hi : i ∈ a.interfaces)
    (hpath : i.path ∈ d.implements) {promised stored : List (String × τ)}
    (hpromised : ∃ members, a.memberTable escape i.toTypeHead = .ok members ∧
      List.Forall₂ (fun m e => memberOf members m.name = .ok e.1 ∧
        translate m.type m.nullable = .ok e.2) i.accessors promised)
    (hstored : ∃ members, a.memberTable escape d.toTypeHead = .ok members ∧
      List.Forall₂ (fun c e => memberOf members c.name = .ok e.1 ∧
        translate c.type c.nullable = .ok e.2) d.components stored) :
    Satisfies (a.memberTable escape) translate d i promised stored := by
  refine ⟨hpromised, hstored, ?_⟩
  obtain ⟨r, hr, u, hu, rfl, -, habove⟩ := h.implements_spec hd
  obtain ⟨r', hr', t, rfl, own, hproperties⟩ := habove i hi hpath
  obtain ⟨members', hmembers', hpromised⟩ := hpromised
  obtain ⟨members, hmembers, hstored⟩ := hstored
  obtain rfl := Except.ok.inj ((h.memberTable_ok escape hr' rfl).symm.trans hmembers')
  obtain rfl := Except.ok.inj ((h.memberTable_ok escape hr rfl).symm.trans hmembers)
  have hps : ∀ p ∈ (g.decl r'.source).properties, ∃ d ∈ r'.properties, d.property = p :=
    fun p hp => ⟨_, h.resolved.mem_properties hr' hp, rfl⟩
  have hpromised := List.forall₂_map_left_iff.mp hpromised
  have hstored := List.forall₂_map_left_iff.mp hstored
  rw [hproperties] at hstored
  exact exactly_one_of_chain he (hproperties ▸ h.resolved.properties_nodup hr) hps hpromised hstored

end Analysis.Describes

/-! ## Java -/

namespace Java

/-- The methods of a declaration, each with the type it returns. -/
def Declaration.accessors (d : Declaration) : List (String × Ty) :=
  d.head.methods.map fun m => (m.name, m.returnType)

/-- The components of a record declaration. -/
def Declaration.components (d : Declaration) : List (String × Ty) :=
  match d.shape with
  | .recordShape components _ => components.map fun c => (c.name, c.type)
  | .interfaceShape _ => []
  | .classShape _ _ => []

/-- In Java the declarations of a record and of an interface fit. The types are the same trees, so
they read the same once their generated types are written with their containers. -/
def RecordSatisfies (config : Config) (a : Analysis) (d : GeneratedRecord)
    (i : GeneratedInterface) : Prop :=
  ∃ interface record, interfaceDeclaration config a i = .ok interface ∧
    recordDeclaration config a d = .ok record ∧
    Satisfies (a.memberTable legalMember) (translate a) d i interface.accessors record.components

theorem recordSatisfies {config : Config} {g : ClassGraph} {a : Analysis}
    (h : a.Describes config g) {d : GeneratedRecord} (hd : d ∈ a.records)
    {i : GeneratedInterface} (hi : i ∈ a.interfaces) (hpath : i.path ∈ d.implements) :
    RecordSatisfies config a d i := by
  obtain ⟨r, hr, u, _, hrecord⟩ := h.mem_records.mp hd
  obtain ⟨r', hr', t, _, hinterface⟩ := h.mem_interfaces.mp hi
  obtain ⟨record, hrecordOk⟩ := recordDeclaration_ok h hr u
  obtain ⟨interface, hinterfaceOk⟩ := interfaceDeclaration_ok h hr' t
  rw [← hrecord] at hrecordOk
  rw [← hinterface] at hinterfaceOk
  refine ⟨interface, record, hinterfaceOk, hrecordOk, ?_⟩
  apply h.satisfies legalMember_lengthens hd hi hpath
  · obtain ⟨members, methods, _, hmembers, hmethods, rfl⟩ := interfaceDeclaration_spec hinterfaceOk
    refine ⟨members, hmembers, List.forall₂_map_right_iff.mpr ?_⟩
    refine (mapM_eq_ok.mp hmethods).imp fun m method hm => ?_
    obtain ⟨hname, htype, -⟩ := accessorMethod_spec hm
    exact ⟨hname, htype⟩
  · obtain ⟨members, components, _, hmembers, hcomponents, hdeclared⟩ :=
      recordDeclaration_spec hrecordOk
    have hwritten : record.components = components.map fun c => (c.name, c.type) := by
      cases hcopy : d.copyWith with
      | none =>
          rw [hcopy] at hdeclared
          subst hdeclared
          rfl
      | some copy =>
          rw [hcopy] at hdeclared
          obtain ⟨_, rfl⟩ := hdeclared
          rfl
    rw [hwritten]
    refine ⟨members, hmembers, List.forall₂_map_right_iff.mpr ?_⟩
    exact (mapM_eq_ok.mp hcomponents).imp fun c parameter hc => componentParameter_spec hc

end Java

/-! ## Python -/

namespace Python

def Statement.field? : Statement → Option (String × Ty)
  | .field name type => some (name, type)
  | _ => none

/-- The fields that a class declares itself. -/
def Statement.fields : Statement → List (String × Ty)
  | .classDefinition _ _ _ body => body.filterMap Statement.field?
  | _ => []

theorem filterMap_field?_doc {doc : List Statement} (h : ∀ s ∈ doc, ∃ text, s = .doc text) :
    doc.filterMap Statement.field? = [] := by
  refine List.filterMap_eq_nil_iff.mpr fun s hs => ?_
  obtain ⟨text, rfl⟩ := h s hs
  rfl

theorem filterMap_field?_fields (fields : List (String × Ty)) :
    (fields.map fun f => Statement.field f.1 f.2).filterMap Statement.field? = fields := by
  rw [List.filterMap_map]
  exact List.filterMap_some

theorem filterMap_field?_nonEmptyBody (body : List Statement) :
    (nonEmptyBody body).filterMap Statement.field? = body.filterMap Statement.field? := by
  cases body <;> rfl

/-- In Python the classes of a record and of an interface fit. -/
def RecordSatisfies (config : Config) (a : Analysis) (d : GeneratedRecord)
    (i : GeneratedInterface) : Prop :=
  ∃ names interface record, classNames a = .ok names ∧
    interfaceClass config a names i = .ok interface ∧ recordClass config a names d = .ok record ∧
    Satisfies (a.memberTable legalMember) (translate a names) d i interface.fields record.fields

/-- In a module with all its classes, the class of a record and that of an interface fit. -/
theorem recordSatisfies {config : Config} {g : ClassGraph} {a : Analysis}
    (h : a.Describes config g) {body : List Statement} (hbody : classes config a = .ok body)
    {d : GeneratedRecord} (hd : d ∈ a.records) {i : GeneratedInterface} (hi : i ∈ a.interfaces)
    (hpath : i.path ∈ d.implements) : RecordSatisfies config a d i := by
  obtain ⟨names, hnames, hbuilt⟩ := bind_eq_ok.mp hbody
  have hclasses := mapM_eq_ok.mp hbuilt
  obtain ⟨record, -, hrecordOk⟩ := hclasses.exists_right _ (Analysis.record_mem_types hd)
  obtain ⟨interface, -, hinterfaceOk⟩ :=
    hclasses.exists_right _ (Analysis.interface_mem_types hi)
  refine ⟨names, interface, record, hnames, hinterfaceOk, hrecordOk, ?_⟩
  apply h.satisfies legalMember_lengthens hd hi hpath
  · obtain ⟨members, doc, name, fields, bases, hmembers, hdoc, hfields, -, -, rfl⟩ :=
      interfaceClass_spec hinterfaceOk
    refine ⟨members, hmembers, ?_⟩
    simp only [Statement.fields, filterMap_field?_nonEmptyBody, List.filterMap_append,
      filterMap_field?_doc hdoc, filterMap_field?_fields, List.nil_append]
    exact hfields
  · obtain ⟨members, doc, name, fields, bases, hmembers, hdoc, hfields, -, -, hstatement⟩ :=
      recordClass_spec hrecordOk
    have hwritten : record.fields = fields := by
      cases hcopy : d.copyWith with
      | none =>
          rw [hcopy] at hstatement
          subst hstatement
          simp only [Statement.fields, filterMap_field?_nonEmptyBody, List.filterMap_append,
            filterMap_field?_doc hdoc, filterMap_field?_fields, List.nil_append]
      | some copy =>
          rw [hcopy] at hstatement
          obtain ⟨stagingDoc, _, rfl⟩ := hstatement
          simp only [Statement.fields, List.filterMap_append, filterMap_field?_doc hdoc,
            filterMap_field?_fields, List.nil_append]
          exact List.append_nil fields
    rw [hwritten]
    exact ⟨members, hmembers, hfields⟩

end Python

/-! ## Whole runs -/

/-- The records of a run satisfy the interfaces they implement, in the language of the run. -/
theorem generate_satisfies {r : Run} {doc : Json} {files : Files}
    (hrecords : r.config.records = true) (h : r.generate (.document doc) = .ok files) :
    ∃ language a, r.validate = .ok language ∧ r.analyze (.document doc) = .ok a ∧
      ∀ d ∈ a.records, (∀ t ∈ d.implements, ∃ i ∈ a.interfaces, i.path = t) ∧
        ∀ i ∈ a.interfaces, i.path ∈ d.implements →
          match language with
          | .java => Java.RecordSatisfies r.config a d i
          | .python => Python.RecordSatisfies r.config a d i := by
  obtain ⟨language, g, a, hvalidate, hload, hanalyze, hemit⟩ := Run.generate_ok hrecords h
  have hd := analyze_describes (Document.load_linked hload) hanalyze
  refine ⟨language, a, hvalidate, ?_, fun d hmem => ⟨?_, fun i hi hpath => ?_⟩⟩
  · simp only [Run.analyze, hvalidate, Source.load, hload, hanalyze, mapError_ok, ok_bind]
  · obtain ⟨_, _, _, _, _, hdescribed, -⟩ := hd.implements_spec hmem
    exact hdescribed
  · cases language with
    | java => exact Java.recordSatisfies hd hmem hi hpath
    | python =>
        obtain ⟨body, hbody, -⟩ := bind_eq_ok.mp hemit
        exact Python.recordSatisfies hd hbody hmem hi hpath

theorem generate_satisfies_shapes : ∃ files,
    ({ config := { withers := true }, language := "python" } : Run).generate
      (.document Document.shapes) = .ok files ∧
    ∃ language a,
      ({ config := { withers := true }, language := "python" } : Run).validate = .ok language ∧
      ({ config := { withers := true }, language := "python" } : Run).analyze
        (.document Document.shapes) = .ok a ∧
      ∀ d ∈ a.records, (∀ t ∈ d.implements, ∃ i ∈ a.interfaces, i.path = t) ∧
        ∀ i ∈ a.interfaces, i.path ∈ d.implements →
          match language with
          | .java => Java.RecordSatisfies { withers := true } a d i
          | .python => Python.RecordSatisfies { withers := true } a d i := by
  have hok : (({ config := { withers := true }, language := "python" } : Run).generate
      (.document Document.shapes)).isOk = true := by
    decide +kernel
  obtain ⟨files, h⟩ := exists_ok hok
  exact ⟨files, h, generate_satisfies rfl h⟩

end RecordGen

import RecordGen.Proofs.PythonClasses
import RecordGen.Target.PythonLimits

/-! # Class names that read as long integers

An integer is written up to a number of digits. A flat class name may read as a longer one, and a
module that refers to such a class cannot be written. Here the references of a module are traced
back to the classes that the graph mentions. -/

namespace RecordGen.Python

open Fallible ClassGraph

/-! ## Trees -/

namespace Expr

@[simp] theorem anyLongInteger_eq (es : List Expr) : anyLongInteger es = es.any hasLongInteger := by
  induction es with
  | nil => rfl
  | cons e es ih => simp [anyLongInteger, ih]

@[simp] theorem anyNamedLongInteger_eq (es : List (String × Expr)) :
    anyNamedLongInteger es = es.any fun e => e.2.hasLongInteger := by
  induction es with
  | nil => rfl
  | cons e es ih => simp [anyNamedLongInteger, ih]

end Expr

@[simp] theorem Ty.anyLongInteger_eq (ts : List Ty) :
    Ty.anyLongInteger ts = ts.any Ty.hasLongInteger := by
  induction ts with
  | nil => rfl
  | cons t ts ih => simp [Ty.anyLongInteger, ih]

@[simp] theorem Statement.anyLongInteger_eq (ss : List Statement) :
    Statement.anyLongInteger ss = ss.any Statement.hasLongInteger := by
  induction ss with
  | nil => rfl
  | cons s ss ih => simp [Statement.anyLongInteger, ih]

/-- The name of a class reads as an integer with more digits than are written. -/
def IsLongNumeral (name : String) : Prop :=
  ∃ n, Number.ofText? (withoutMargins name.toList) = some (.integer n) ∧
    Nat.pow 10 Decimal.integerDigits ≤ n

theorem reference_hasLongInteger {name : String} :
    (Expr.reference name).hasLongInteger = true ↔ IsLongNumeral name := by
  rw [Expr.reference, IsLongNumeral]
  cases hnumber : Number.ofText? (withoutMargins name.toList) with
  | none =>
      simp only [reduceCtorEq, false_and, exists_false, iff_false]
      split <;> try split
      all_goals simp [Expr.hasLongInteger]
  | some number =>
      cases number <;> simp [Expr.hasLongInteger, Number.isLong, Decimal.isLong]

/-! ## Types -/

/-- The flat name of the type that stands for a class is a long numeral. -/
def IsLongClass (a : Analysis) (names : Table TypePath String) (c : ClassId) : Prop :=
  ∃ t name, (a.resolution? c).bind (·.counterpart?) = some t ∧ names.find? t = some name ∧
    IsLongNumeral name

variable {config : Config} {g : ClassGraph} {a : Analysis} {names : Table TypePath String}

theorem nullable_hasLongInteger (t : Ty) : t.nullable.hasLongInteger = t.hasLongInteger := by
  cases t <;> simp [Ty.nullable, Ty.hasLongInteger]

theorem primitive?_hasLongInteger {name : String} {t : Ty} (h : primitive? name = some t) :
    t.hasLongInteger = false := by
  unfold primitive? at h
  split at h <;> cases h <;> rfl

/-- A translated type holds a long integer exactly if it mentions a class whose name reads as one.
-/
theorem translateInner_hasLongInteger {ref : String → Option ClassId → Prop} {t : PropertyType}
    (ht : t.Formed ref) : ∀ {ty : Ty}, translateInner a names t = .ok ty →
      (ty.hasLongInteger = true ↔ ∃ c ∈ t.targets, IsLongClass a names c) := by
  induction ht with
  | @primitive name hname =>
      intro ty h
      obtain ⟨t, ht⟩ := exists_primitive hname
      rw [translateInner, ht] at h
      obtain rfl := Except.ok.inj h
      simp [primitive?_hasLongInteger ht, PropertyType.targets, PropertyType.references,
        PropertyType.argumentReferences]
  | @reference name target _ =>
      intro ty h
      rw [translateInner] at h
      obtain ⟨t, hcounterpart, h⟩ := bind_eq_ok.mp h
      obtain ⟨n, hn, h⟩ := bind_eq_ok.mp h
      obtain rfl := Except.ok.inj h
      have hfind := classNameOf_eq_ok.mp hn
      cases target with
      | none => simp [Analysis.counterpart] at hcounterpart
      | some c =>
          have hc : (a.resolution? c).bind (·.counterpart?) = some t :=
            Analysis.counterpart_eq_ok.mp hcounterpart
          simp [Ty.hasLongInteger, reference_hasLongInteger, PropertyType.targets,
            PropertyType.references, PropertyType.argumentReferences, IsLongClass, hc, hfind]
  | @collection name arguments _ _ ih =>
      intro ty h
      rw [translateInner, translateArguments_eq] at h
      obtain ⟨types, htypes, h⟩ := bind_eq_ok.mp h
      obtain ⟨n, rfl⟩ : ∃ n, ty = .collection n types := by
        split at h
        · exact ⟨_, (Except.ok.inj h).symm⟩
        · cases h
      have hall := mapM_eq_ok.mp htypes
      rw [Ty.hasLongInteger, Ty.anyLongInteger_eq, List.any_eq_true]
      simp only [PropertyType.targets, PropertyType.references, List.mem_filterMap,
        PropertyType.mem_argumentReferences]
      constructor
      · rintro ⟨u, hu, hlong⟩
        obtain ⟨t, ht, htu⟩ := hall.exists_left u hu
        obtain ⟨c, hc, hlong⟩ := (ih t ht htu).mp hlong
        obtain ⟨r, hr, hrc⟩ := List.mem_filterMap.mp hc
        exact ⟨c, ⟨r, ⟨t, ht, hr⟩, hrc⟩, hlong⟩
      · rintro ⟨c, ⟨r, ⟨t, ht, hr⟩, hrc⟩, hlong⟩
        obtain ⟨u, hu, htu⟩ := hall.exists_right t ht
        exact ⟨u, hu, (ih t ht htu).mpr ⟨c, List.mem_filterMap.mpr ⟨r, hr, hrc⟩, hlong⟩⟩
  | @optional inner _ ih =>
      intro ty h
      rw [translateInner] at h
      obtain ⟨u, hu, rfl⟩ := map_eq_ok.mp h
      rw [nullable_hasLongInteger, ih hu]
      simp [PropertyType.targets, PropertyType.references, PropertyType.argumentReferences]

theorem translate_hasLongInteger {ref : String → Option ClassId → Prop} {t : PropertyType}
    (ht : t.Formed ref) {nullable : Bool} {ty : Ty} (h : translate a names t nullable = .ok ty) :
    ty.hasLongInteger = true ↔ ∃ c ∈ t.targets, IsLongClass a names c := by
  obtain ⟨inner, hinner, h⟩ := bind_eq_ok.mp h
  obtain rfl := Except.ok.inj h
  rw [← translateInner_hasLongInteger ht hinner]
  cases nullable with
  | false => rfl
  | true => exact iff_of_eq (congrArg (· = true) (nullable_hasLongInteger inner))

/-! ## Classes -/

theorem doc_hasLongInteger {doc : List Statement} (h : ∀ s ∈ doc, ∃ text, s = .doc text) :
    doc.any Statement.hasLongInteger = false := by
  rw [List.any_eq_false]
  intro s hs
  obtain ⟨text, rfl⟩ := h s hs
  simp [Statement.hasLongInteger]

theorem nonEmptyBody_hasLongInteger (body : List Statement) :
    (nonEmptyBody body).any Statement.hasLongInteger = body.any Statement.hasLongInteger := by
  cases body <;> rfl

theorem fields_hasLongInteger (fields : List (String × Ty)) :
    (fields.map fun f => Statement.field f.1 f.2).any Statement.hasLongInteger =
      fields.any fun f => f.2.hasLongInteger := by
  rw [List.any_map]
  rfl

theorem copiedFields_hasLongInteger (object : String) (fields : List (String × Ty)) :
    (copiedFields object fields).any (fun e => e.2.hasLongInteger) = false := by
  simp [copiedFields, Expr.hasLongInteger]

theorem names_hasLongInteger (bases : List String) :
    (bases.map Expr.name).any Expr.hasLongInteger = false := by
  simp [Expr.hasLongInteger]

/-- A staging class refers to its record and repeats the types of the record's fields. -/
theorem stagingClass_hasLongInteger {doc : List Statement}
    (hdoc : ∀ s ∈ doc, ∃ text, s = .doc text) (name : String) (fields : List (String × Ty)) :
    (stagingClass doc name fields).hasLongInteger =
      ((fields.any fun f => f.2.hasLongInteger) || (Expr.reference name).hasLongInteger) := by
  simp [stagingClass, Statement.hasLongInteger, doc_hasLongInteger hdoc, Function.comp_def,
    copiedFields_hasLongInteger, Parameter.hasLongInteger, stagingExpr, Expr.hasLongInteger]

theorem withFunction_hasLongInteger (name : String) :
    (withFunction name).hasLongInteger = (Expr.reference name).hasLongInteger := by
  simp [withFunction, Statement.hasLongInteger, Parameter.hasLongInteger, setterType, stagingExpr,
    Expr.hasLongInteger]

/-- An interface holds a long integer exactly if the type of an accessor does. -/
theorem interfaceClass_hasLongInteger {d : GeneratedInterface} {s : Statement}
    (h : interfaceClass config a names d = .ok s) : s.hasLongInteger = true ↔
      ∃ m ∈ d.accessors, ∃ ty, translate a names m.type m.nullable = .ok ty ∧
        ty.hasLongInteger = true := by
  obtain ⟨members, doc, name, fields, bases, -, hdoc, hfields, -, -, rfl⟩ :=
    interfaceClass_spec h
  have hbody : (Statement.classDefinition [.name "runtime_checkable"] name
      (bases.map .name ++ [.name "Protocol"])
      (nonEmptyBody (doc ++ fields.map fun f => .field f.1 f.2))).hasLongInteger =
        fields.any fun f => f.2.hasLongInteger := by
    rw [Statement.hasLongInteger, Statement.anyLongInteger_eq, nonEmptyBody_hasLongInteger,
      List.any_append, doc_hasLongInteger hdoc, fields_hasLongInteger, Expr.anyLongInteger_eq,
      Expr.anyLongInteger_eq, List.any_append, names_hasLongInteger]
    simp [Expr.hasLongInteger]
  rw [hbody, List.any_eq_true]
  constructor
  · rintro ⟨f, hf, hlong⟩
    obtain ⟨m, hm, -, htype⟩ := hfields.exists_left f hf
    exact ⟨m, hm, f.2, htype, hlong⟩
  · rintro ⟨m, hm, ty, htype, hlong⟩
    obtain ⟨f, hf, -, htype'⟩ := hfields.exists_right m hm
    obtain rfl := Except.ok.inj (htype.symm.trans htype')
    exact ⟨f, hf, hlong⟩

/-- A record holds a long integer exactly if the type of a component does, or if the copy-with
protocol refers to the record by a name that reads as one. -/
theorem recordClass_hasLongInteger {d : GeneratedRecord} {s : Statement}
    (h : recordClass config a names d = .ok s) : s.hasLongInteger = true ↔
      (∃ c ∈ d.components, ∃ ty, translate a names c.type c.nullable = .ok ty ∧
        ty.hasLongInteger = true) ∨
      d.copyWith.isSome = true ∧ ∃ name, names.find? d.path = some name ∧ IsLongNumeral name := by
  obtain ⟨members, doc, name, fields, bases, -, hdoc, hfields, hname, -, hs⟩ :=
    recordClass_spec h
  have hfind := classNameOf_eq_ok.mp hname
  have htypes : (fields.any fun f => f.2.hasLongInteger) = true ↔ ∃ c ∈ d.components, ∃ ty,
      translate a names c.type c.nullable = .ok ty ∧ ty.hasLongInteger = true := by
    rw [List.any_eq_true]
    constructor
    · rintro ⟨f, hf, hlong⟩
      obtain ⟨c, hc, -, htype⟩ := hfields.exists_left f hf
      exact ⟨c, hc, f.2, htype, hlong⟩
    · rintro ⟨c, hc, ty, htype, hlong⟩
      obtain ⟨f, hf, -, htype'⟩ := hfields.exists_right c hc
      obtain rfl := Except.ok.inj (htype.symm.trans htype')
      exact ⟨f, hf, hlong⟩
  have hown : (∃ n, names.find? d.path = some n ∧ IsLongNumeral n) ↔
      (Expr.reference name).hasLongInteger = true := by
    simp [hfind, reference_hasLongInteger]
  rw [← htypes, hown]
  cases hcopy : d.copyWith with
  | none =>
      rw [hcopy] at hs
      subst hs
      rw [Statement.hasLongInteger, Statement.anyLongInteger_eq, nonEmptyBody_hasLongInteger,
        List.any_append, doc_hasLongInteger hdoc, fields_hasLongInteger, Expr.anyLongInteger_eq,
        Expr.anyLongInteger_eq, names_hasLongInteger]
      simp [Expr.hasLongInteger]
  | some copy =>
      rw [hcopy] at hs
      obtain ⟨stagingDoc, hstaging, rfl⟩ := hs
      rw [Statement.hasLongInteger, Statement.anyLongInteger_eq, List.any_append, List.any_append,
        doc_hasLongInteger hdoc, fields_hasLongInteger, Expr.anyLongInteger_eq,
        Expr.anyLongInteger_eq, List.any_append, names_hasLongInteger]
      simp [Expr.hasLongInteger, stagingClass_hasLongInteger hstaging, withFunction_hasLongInteger]

/-! ## Modules -/

/-- A property of a listed class mentions a class whose name is a long numeral, or a record that
refers to itself has such a name. -/
def RefersToLongNumeral (config : Config) (g : ClassGraph) (a : Analysis)
    (names : Table TypePath String) : Prop :=
  (∃ c ∈ g.classes, ∃ p ∈ (g.decl c).properties, ∃ x ∈ p.type.targets, IsLongClass a names x) ∨
    config.withers = true ∧
      ∃ d ∈ a.records, ∃ name, names.find? d.path = some name ∧ IsLongNumeral name

theorem recordOf_copyWith (config : Config) (g : ClassGraph) (r : Resolution) (t : TypePath) :
    (Analysis.recordOf config g r t).copyWith.isSome = config.withers := by
  cases hw : config.withers <;> simp [Analysis.recordOf, hw]

theorem exists_longType_iff (h : a.Describes config g) (hnames : classNames a = .ok names)
    {c : ClassId} (hc : c ∈ g.classes) {p : Property} (hp : p ∈ (g.decl c).properties) :
    (∃ ty, translate a names p.type p.nullable = .ok ty ∧ ty.hasLongInteger = true) ↔
      ∃ x ∈ p.type.targets, IsLongClass a names x := by
  have hformed := h.linked.types c hc p hp
  obtain ⟨ty, hty⟩ := translate_ok h (classNames_covers hnames) hformed p.nullable
  rw [← translate_hasLongInteger hformed hty]
  simp [hty]

/-- A class that holds a long integer refers to a class by a name that reads as one. -/
theorem refers_of_hasLongInteger (h : a.Describes config g) (hnames : classNames a = .ok names)
    {d : GeneratedType} (hd : d ∈ a.types) {s : Statement}
    (hok : classDefinition config a names d = .ok s) (hlong : s.hasLongInteger = true) :
    RefersToLongNumeral config g a names := by
  obtain ⟨r, hr, ⟨t, ht, rfl⟩ | ⟨t, ht, rfl⟩⟩ := h.mem_types.mp hd
  · obtain ⟨m, hm, htyped⟩ := (interfaceClass_hasLongInteger hok).mp hlong
    obtain ⟨p, hp, rfl⟩ := List.mem_map.mp hm
    have hlisted := h.resolved.listed hr
    exact Or.inl ⟨r.source, hlisted, p, hp, (exists_longType_iff h hnames hlisted hp).mp htyped⟩
  · rcases (recordClass_hasLongInteger hok).mp hlong with ⟨c, hc, htyped⟩ | ⟨hcopy, hown⟩
    · obtain ⟨e, he, rfl⟩ := List.mem_map.mp hc
      obtain ⟨hlisted, hp⟩ := h.resolved.declared_of_mem_properties hr he
      exact Or.inl ⟨e.owner, hlisted, e.property, hp,
        (exists_longType_iff h hnames hlisted hp).mp htyped⟩
    · rw [recordOf_copyWith] at hcopy
      exact Or.inr ⟨hcopy, _, h.mem_records.mpr ⟨r, hr, t, ht, rfl⟩, hown⟩

/-- A class has an interface or a record, and both write its own properties. -/
theorem exists_hasLongInteger (h : a.Describes config g) {c : ClassId} (hc : c ∈ g.classes)
    {p : Property} (hp : p ∈ (g.decl c).properties)
    (htyped : ∃ ty, translate a names p.type p.nullable = .ok ty ∧ ty.hasLongInteger = true) :
    ∃ d ∈ a.types, ∀ s, classDefinition config a names d = .ok s → s.hasLongInteger = true := by
  obtain ⟨r, hr, rfl⟩ := h.resolved.complete c hc
  cases hi : r.interface with
  | some t =>
      refine ⟨_, h.mem_types.mpr ⟨r, hr, Or.inl ⟨t, hi, rfl⟩⟩, fun s hok => ?_⟩
      exact (interfaceClass_hasLongInteger hok).mpr ⟨_, List.mem_map_of_mem hp, htyped⟩
  | none =>
      obtain ⟨t, ht⟩ := h.resolved.exists_counterpart h.linked.nameable hr
      have ht : r.record = some t := by simpa [Resolution.counterpart?, hi] using ht
      refine ⟨_, h.mem_types.mpr ⟨r, hr, Or.inr ⟨t, ht, rfl⟩⟩, fun s hok => ?_⟩
      have hmem := h.resolved.mem_properties hr hp
      exact (recordClass_hasLongInteger hok).mpr (Or.inl ⟨_, List.mem_map_of_mem hmem, htyped⟩)

/-- The classes of a loaded graph hold a long integer exactly if they refer to a class by a name
that reads as one. -/
theorem classes_anyLongInteger (h : a.Describes config g) (hnames : classNames a = .ok names)
    {body : List Statement}
    (hbody : List.Forall₂ (fun d s => classDefinition config a names d = .ok s) a.types body) :
    Statement.anyLongInteger body = true ↔ RefersToLongNumeral config g a names := by
  rw [Statement.anyLongInteger_eq, List.any_eq_true]
  constructor
  · rintro ⟨s, hs, hlong⟩
    obtain ⟨d, hd, hok⟩ := hbody.exists_left s hs
    exact refers_of_hasLongInteger h hnames hd hok hlong
  · rintro (⟨c, hc, p, hp, hmentions⟩ | ⟨hcopy, d, hd, hown⟩)
    · have htyped := (exists_longType_iff h hnames hc hp).mpr hmentions
      obtain ⟨d, hd, hlong⟩ := exists_hasLongInteger h hc hp htyped
      obtain ⟨s, hs, hok⟩ := hbody.exists_right d hd
      exact ⟨s, hs, hlong s hok⟩
    · obtain ⟨r, hr, t, ht, rfl⟩ := h.mem_records.mp hd
      obtain ⟨s, hs, hok⟩ := hbody.exists_right _ (h.mem_types.mpr ⟨r, hr, Or.inr ⟨t, ht, rfl⟩⟩)
      rw [← recordOf_copyWith config g r t] at hcopy
      exact ⟨s, hs, (recordClass_hasLongInteger hok).mpr (Or.inr ⟨hcopy, hown⟩)⟩

end RecordGen.Python

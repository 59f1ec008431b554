import RecordGen.Proofs.LegalNames
import RecordGen.Proofs.PythonDefinitions

/-! # What the classes of a module hide

Annotations and decorators of a generated module are written with names of the language and with
names that the module imports. A class that is bound under such a name hides what stands behind it.
Imported names are kept free, and so are the keywords that a class could be called; but no builtin
is kept free, and putting a container in front of a taken name can spell a keyword. -/

namespace RecordGen

open Text Fallible ClassGraph

/-! ## Words that only classes are called -/

/-- A word that naming makes in no other way than by taking it from a class: it is neither escaped
nor reserved, and it looks like no container and no marked or numbered name. -/
def IsPlainWord (b : String) : Prop :=
  safeTypeName b = b ∧ b ∉ protocolTypes ∧ ¬NoSmallStart b ∧
    b.toList.any Char.isDigit = false ∧ ¬"Type".toList <:+ b.toList

instance (b : String) : Decidable (IsPlainWord b) :=
  inferInstanceAs (Decidable (_ ∧ _))

namespace Naming

variable {p : String} {g : ClassGraph} {b : String}

/-- A class asks for a word: its record would have the word as its name, or its interface with the
prefix in front. -/
def Asks (p : String) (g : ClassGraph) (b : String) : Prop :=
  ∃ s, ∃ c ∈ g.classes, (g.decl c).isModule = false ∧ (g.decl c).kind.fills s = true ∧
    stem p g s c = b

/-- The types of modules look like containers. -/
theorem noSmallStart_of_isModule (h : g.Nameable) {s : Slot} {m : ClassId} {t : TypePath}
    (hmodule : (g.decl m).isModule = true) (ht : ((ofGraph p g).at s).find? m = some t) :
    NoSmallStart t.name := by
  have hcontainer := noSmallStart_keptInContainers.pathContainer ht
  cases hown : t.isModuleType with
  | true =>
      have heq : t.name = t.container := by simpa [TypePath.isModuleType] using hown
      exact heq ▸ hcontainer
  | false =>
      obtain ⟨-, _, hfree⟩ := claimed_own h hmodule ht hown
      have hbase := hcontainer.append (t := "Impl") (by decide)
      rcases hfree.exists_append with heq | ⟨k, heq⟩
      · exact heq ▸ hbase
      · exact heq ▸ hbase.append (noSmallStart_toString k)

/-- The name of a type is a plain word only if its class asks for that. -/
theorem asks_of_find? (h : g.Linked) (hb : IsPlainWord b) {s : Slot} {c : ClassId} {t : TypePath}
    (ht : ((ofGraph p g).at s).find? c = some t) (hname : t.name = b) : Asks p g b := by
  obtain ⟨-, -, hsmall, hdigits, hmark⟩ := hb
  cases hmodule : (g.decl c).isModule with
  | true => exact absurd (hname ▸ noSmallStart_of_isModule h.nameable hmodule ht) hsmall
  | false =>
      obtain ⟨hc, _, hfree, -⟩ := claimed_class h.nameable hmodule ht
      have hsafe : safeTypeName (stem p g s c) = b := by
        rcases hfree.exists_append with heq | ⟨k, heq⟩
        · exact heq.symm.trans hname
        · have hnumbered : safeTypeName (stem p g s c) ++ toString k ∉ [b] :=
            numbered_not_mem (by simpa using hdigits) _ k
          exact absurd (List.mem_singleton.mpr (heq.symm.trans hname)) hnumbered
      refine ⟨s, c, hc, hmodule,
        fills_of_ofGraph_find? h.nameable hc (h.checkEnclosing c hc) ht, ?_⟩
      rw [safeTypeName] at hsafe
      split at hsafe
      · have hmarked : stem p g s c ++ "Type" ∉ [b] := append_not_mem (by simpa using hmark)
        exact absurd (List.mem_singleton.mpr hsafe) hmarked
      · exact hsafe

/-- A plain word that a class asks for is the name of its type, or of another one that was named
before. -/
theorem Asks.exists_find? (h : g.Linked) (hb : IsPlainWord b) (hasks : Asks p g b) :
    ∃ s c t, ((ofGraph p g).at s).find? c = some t ∧ t.name = b := by
  obtain ⟨hsafe, hprotocol, hsmall, -, -⟩ := hb
  obtain ⟨s, c, hc, hmodule, hfills, rfl⟩ := hasks
  obtain ⟨_, -, htypes⟩ := exists_ofGraph_find? (p := p) h.nameable hc (h.checkEnclosing c hc)
  obtain ⟨t, ht, -⟩ := htypes s hfills
  obtain ⟨-, taken, hfree, htaken⟩ := claimed_class h.nameable hmodule ht
  rw [hsafe] at hfree
  rcases hfree with ⟨-, hname⟩ | ⟨hmem, -⟩
  · exact ⟨s, c, t, ht, hname⟩
  · rcases htaken _ hmem with heq | hmem | htype
    · exact absurd (heq ▸ noSmallStart_keptInContainers.pathContainer ht) hsmall
    · exact absurd hmem hprotocol
    · exact htype

/-- Classes of a loaded document are all that gets names. -/
theorem mem_classes_of_find? (h : g.Linked) {s : Slot} {c : ClassId} {t : TypePath}
    (ht : ((ofGraph p g).at s).find? c = some t) : c ∈ g.classes := by
  obtain ⟨e, he, hentry⟩ := exists_allotment_of_find? ht
  obtain ⟨rfl, -, -⟩ := Allotment.entry_eq_some.mp hentry
  obtain ⟨m, hm, he⟩ := List.mem_flatMap.mp he
  have hsource := List.mem_map_of_mem (f := Allotment.source) he
  rw [ofModule_sources] at hsource
  rcases List.mem_cons.mp hsource with heq | hmember
  · exact heq ▸ (h.mem_modules.mp (mem_modules_of_mem_housing hm)).1
  · exact (mem_membersOf.mp hmember).1

end Naming

/-! ## Names that annotations and decorators are written with -/

namespace Python

/-- The builtins of annotations and decorators. -/
def builtinNames : List String :=
  ["bool", "int", "float", "str", "list", "set", "dict", "classmethod"]

mutual

/-- The names that a type is written with, other than those of generated classes. -/
def Ty.outsideNames : Ty → List String
  | .builtin name => [name]
  | .any => ["Any"]
  | .collection name arguments => name :: argumentOutsideNames arguments
  | .generated _ => []
  | .optional inner => inner.outsideNames

def argumentOutsideNames : List Ty → List String
  | [] => []
  | t :: ts => t.outsideNames ++ argumentOutsideNames ts

end

/-- The name of a decorator, which may be called. -/
def Expr.decoratorName? : Expr → Option String
  | .name n => some n
  | .call f _ _ => f.decoratorName?
  | _ => none

mutual

/-- The names that the decorators and the types of the fields in a statement are written with, other
than those of generated classes. -/
def Statement.outsideNames : Statement → List String
  | .field _ type => type.outsideNames
  | .function decorators _ _ _ body =>
    decorators.filterMap Expr.decoratorName? ++ bodyOutsideNames body
  | .classDefinition decorators _ _ body =>
    decorators.filterMap Expr.decoratorName? ++ bodyOutsideNames body
  | _ => []

def bodyOutsideNames : List Statement → List String
  | [] => []
  | s :: ss => s.outsideNames ++ bodyOutsideNames ss

end

mutual

/-- The names of the classes that a statement defines, nested ones included. -/
def Statement.classNames : Statement → List String
  | .function _ _ _ _ body => bodyClassNames body
  | .classDefinition _ name _ body => name :: bodyClassNames body
  | _ => []

def bodyClassNames : List Statement → List String
  | [] => []
  | s :: ss => s.classNames ++ bodyClassNames ss

end

/-- The names of all classes in a module, its contract among them. -/
def emittedNames (a : Analysis) (body : List Statement) : List String :=
  bodyClassNames (preludeClasses a ++ body)

/-- What annotations and decorators of a module are written with. -/
def usedNames (a : Analysis) (body : List Statement) : List String :=
  bodyOutsideNames (preludeClasses a ++ body)

theorem bodyOutsideNames_eq (body : List Statement) :
    bodyOutsideNames body = body.flatMap Statement.outsideNames := by
  induction body with
  | nil => rfl
  | cons s ss ih => rw [bodyOutsideNames, ih, List.flatMap_cons]

theorem bodyClassNames_eq (body : List Statement) :
    bodyClassNames body = body.flatMap Statement.classNames := by
  induction body with
  | nil => rfl
  | cons s ss ih => rw [bodyClassNames, ih, List.flatMap_cons]

theorem bodyOutsideNames_append (body body' : List Statement) :
    bodyOutsideNames (body ++ body') = bodyOutsideNames body ++ bodyOutsideNames body' := by
  simp only [bodyOutsideNames_eq, List.flatMap_append]

theorem bodyClassNames_append (body body' : List Statement) :
    bodyClassNames (body ++ body') = bodyClassNames body ++ bodyClassNames body' := by
  simp only [bodyClassNames_eq, List.flatMap_append]

section

variable {config : Config} {g : ClassGraph} {a : Analysis} {names : Table TypePath String}

/-- A name that means what it says: a builtin, or a name that the module imports. -/
def IsOutside (n : String) : Prop :=
  n ∈ builtinNames ∨ n ∈ moduleNames

instance (n : String) : Decidable (IsOutside n) :=
  inferInstanceAs (Decidable (_ ∨ _))

theorem primitive?_outside {name : String} {t : Ty} (h : primitive? name = some t) :
    ∀ n ∈ t.outsideNames, IsOutside n := by
  unfold primitive? at h
  split at h <;> cases h <;> simp [Ty.outsideNames, IsOutside, builtinNames, moduleNames]

theorem collection?_outside {name c : String} (h : collection? name = some c) : IsOutside c := by
  unfold collection? at h
  split at h <;> cases h <;> decide

theorem outsideNames_nullable (t : Ty) : t.nullable.outsideNames = t.outsideNames := by
  cases t <;> rfl

mutual

theorem translateInner_outside : ∀ {t : PropertyType} {ty : Ty},
    translateInner a names t = .ok ty → ∀ n ∈ ty.outsideNames, IsOutside n
  | .node .optional _ [] _, _, h => by cases h
  | .node .optional _ (inner :: _) _, _, h => by
      rw [translateInner] at h
      obtain ⟨ty, hty, rfl⟩ := map_eq_ok.mp h
      rw [outsideNames_nullable]
      exact translateInner_outside hty
  | .node .primitive name _ _, _, h => by
      rw [translateInner] at h
      split at h
      · rename_i hprimitive
        obtain rfl := Except.ok.inj h
        exact primitive?_outside hprimitive
      · cases h
  | .node .collection name arguments _, _, h => by
      rw [translateInner] at h
      obtain ⟨tys, htys, h⟩ := bind_eq_ok.mp h
      split at h
      · rename_i hcollection
        obtain rfl := Except.ok.inj h
        rw [Ty.outsideNames]
        exact List.forall_mem_cons.mpr
          ⟨collection?_outside hcollection, translateArguments_outside htys⟩
      · cases h
  | .node .reference _ _ _, _, h => by
      rw [translateInner] at h
      obtain ⟨_, _, h⟩ := bind_eq_ok.mp h
      obtain ⟨_, _, h⟩ := bind_eq_ok.mp h
      obtain rfl := Except.ok.inj h
      simp [Ty.outsideNames]

theorem translateArguments_outside : ∀ {ts : List PropertyType} {tys : List Ty},
    translateArguments a names ts = .ok tys → ∀ n ∈ argumentOutsideNames tys, IsOutside n
  | [], _, h => by
      obtain rfl := Except.ok.inj h
      simp [argumentOutsideNames]
  | t :: ts, _, h => by
      rw [translateArguments] at h
      obtain ⟨ty, hty, h⟩ := bind_eq_ok.mp h
      obtain ⟨tys, htys, h⟩ := bind_eq_ok.mp h
      obtain rfl := Except.ok.inj h
      rw [argumentOutsideNames]
      exact List.forall_mem_append.mpr ⟨translateInner_outside hty, translateArguments_outside htys⟩

end

theorem translate_outside {t : PropertyType} {nullable : Bool} {ty : Ty}
    (h : translate a names t nullable = .ok ty) : ∀ n ∈ ty.outsideNames, IsOutside n := by
  obtain ⟨inner, hinner, h⟩ := bind_eq_ok.mp h
  obtain rfl := Except.ok.inj h
  cases nullable with
  | true =>
      rw [if_pos rfl, outsideNames_nullable]
      exact translateInner_outside hinner
  | false => exact translateInner_outside hinner

/-! ## What a class is written with -/

section

variable {doc : List Statement} {fields : List (String × Ty)}

theorem bodyOutsideNames_fields (hdoc : ∀ s ∈ doc, ∃ text, s = .doc text) :
    bodyOutsideNames (doc ++ fields.map fun f => .field f.1 f.2) =
      fields.flatMap (·.2.outsideNames) := by
  have hnone : doc.flatMap Statement.outsideNames = [] := List.flatMap_eq_nil_iff.mpr fun s hs => by
    obtain ⟨text, rfl⟩ := hdoc s hs
    rfl
  simp [bodyOutsideNames_eq, hnone, List.flatMap_map, Statement.outsideNames]

theorem bodyClassNames_fields (hdoc : ∀ s ∈ doc, ∃ text, s = .doc text) :
    bodyClassNames (doc ++ fields.map fun f => .field f.1 f.2) = [] := by
  rw [bodyClassNames_eq, List.flatMap_eq_nil_iff]
  intro s hs
  rcases List.mem_append.mp hs with hs | hs
  · obtain ⟨text, rfl⟩ := hdoc s hs
    rfl
  · obtain ⟨f, -, rfl⟩ := List.mem_map.mp hs
    rfl

theorem bodyOutsideNames_nonEmptyBody (body : List Statement) :
    bodyOutsideNames (nonEmptyBody body) = bodyOutsideNames body := by
  cases body <;> rfl

theorem bodyClassNames_nonEmptyBody (body : List Statement) :
    bodyClassNames (nonEmptyBody body) = bodyClassNames body := by
  cases body <;> rfl

theorem fields_outside
    (h : ∀ f ∈ fields, ∃ t nullable, translate a names t nullable = .ok f.2) :
    ∀ n ∈ fields.flatMap (·.2.outsideNames), IsOutside n := by
  intro n hn
  obtain ⟨f, hf, hn⟩ := List.mem_flatMap.mp hn
  obtain ⟨t, nullable, htranslate⟩ := h f hf
  exact translate_outside htranslate n hn

/-- The staging class repeats the fields and has a class method. -/
theorem outsideNames_stagingClass (hdoc : ∀ s ∈ doc, ∃ text, s = .doc text) (name : String) :
    (stagingClass doc name fields).outsideNames =
      "dataclass" :: (fields.flatMap (·.2.outsideNames) ++ ["classmethod"]) := by
  rw [stagingClass, Statement.outsideNames, bodyOutsideNames_append, bodyOutsideNames_fields hdoc]
  rfl

theorem classNames_stagingClass (hdoc : ∀ s ∈ doc, ∃ text, s = .doc text) (name : String) :
    (stagingClass doc name fields).classNames = [CopyProtocol.staging] := by
  rw [stagingClass, Statement.classNames, bodyClassNames_append, bodyClassNames_fields hdoc]
  rfl

end

/-- What a class is called and written with: a class is nested only for the copy-with protocol, and
everything else comes from outside. -/
theorem classDefinition_names {d : GeneratedType} {s : Statement} {name : String}
    (h : classDefinition config a names d = .ok s)
    (hname : classNameOf names d.head.path = .ok name) :
    (s.classNames = [name] ∨ s.classNames = [name, CopyProtocol.staging]) ∧
      ∀ n ∈ s.outsideNames, IsOutside n := by
  cases d with
  | interface d =>
      obtain ⟨members, doc, name', fields, bases, -, hdoc, hfields, hname', -, rfl⟩ :=
        interfaceClass_spec h
      obtain rfl := Except.ok.inj (hname.symm.trans hname')
      have htypes := fields_outside fun f hf => by
        obtain ⟨m, -, -, htranslate⟩ := hfields.exists_left f hf
        exact ⟨m.type, m.nullable, htranslate⟩
      rw [Statement.classNames, Statement.outsideNames, bodyClassNames_nonEmptyBody,
        bodyOutsideNames_nonEmptyBody, bodyClassNames_fields hdoc, bodyOutsideNames_fields hdoc]
      exact ⟨Or.inl rfl, List.forall_mem_cons.mpr ⟨by decide, htypes⟩⟩
  | record d =>
      obtain ⟨members, doc, name', fields, bases, -, hdoc, hfields, hname', -, hs⟩ :=
        recordClass_spec h
      obtain rfl := Except.ok.inj (hname.symm.trans hname')
      have htypes := fields_outside fun f hf => by
        obtain ⟨c, -, -, htranslate⟩ := hfields.exists_left f hf
        exact ⟨c.type, c.nullable, htranslate⟩
      have hdecorators : ∀ n ∈ [Expr.name "final", .call (.name "dataclass") []
          [("frozen", .name "True")]].filterMap Expr.decoratorName?, IsOutside n := by decide
      cases hcopy : d.copyWith with
      | none =>
          rw [hcopy] at hs
          rw [hs, Statement.classNames, Statement.outsideNames, bodyClassNames_nonEmptyBody,
            bodyOutsideNames_nonEmptyBody, bodyClassNames_fields hdoc, bodyOutsideNames_fields hdoc]
          exact ⟨Or.inl rfl, List.forall_mem_append.mpr ⟨hdecorators, htypes⟩⟩
      | some copy =>
          rw [hcopy] at hs
          obtain ⟨stagingDoc, hstaging, rfl⟩ := hs
          rw [Statement.classNames, Statement.outsideNames, bodyClassNames_append,
            bodyOutsideNames_append, bodyClassNames_fields hdoc, bodyOutsideNames_fields hdoc,
            bodyClassNames, bodyOutsideNames, classNames_stagingClass hstaging,
            outsideNames_stagingClass hstaging]
          refine ⟨Or.inr rfl, ?_⟩
          simp only [List.forall_mem_append, List.forall_mem_cons]
          exact ⟨hdecorators, htypes, ⟨by decide, htypes, by decide⟩,
            by simp [bodyOutsideNames, withFunction, Statement.outsideNames]⟩

/-! ## Names in the flat module -/

/-- A type is called by its own name in the flat module, or by that and its container's where its
own is taken. -/
theorem flatNames_spec {ts : List TypePath} (hn : ts.Nodup) : ∀ {taken : List String}
    {names all : Table TypePath String}, flatNames taken names ts = .ok all → ∀ t ∈ ts,
      all.find? t = some t.name ∨ (all.find? t = some (t.container ++ t.name) ∧
        (t.name ∈ taken ∨ ∃ u ∈ ts, all.find? u = some t.name)) := by
  induction ts with
  | nil => simp
  | cons u us ih =>
      intro taken names all h
      obtain ⟨hu, hn⟩ := List.nodup_cons.mp hn
      -- The name of the first type is taken for the others, and they can say whose it is.
      have hothers : ∀ own, all.find? u = some own →
          flatNames (own :: taken) (names.insert u own) us = .ok all → ∀ t ∈ us,
            all.find? t = some t.name ∨ (all.find? t = some (t.container ++ t.name) ∧
              (t.name ∈ taken ∨ ∃ v ∈ u :: us, all.find? v = some t.name)) := by
        intro own hown hrest t ht
        refine (ih hn hrest t ht).imp_right (And.imp_right ?_)
        rintro (htaken | ⟨v, hv, hname⟩)
        · rcases List.mem_cons.mp htaken with rfl | htaken
          · exact Or.inr ⟨u, List.mem_cons_self, hown⟩
          · exact Or.inl htaken
        · exact Or.inr ⟨v, List.mem_cons_of_mem _ hv, hname⟩
      rw [flatNames] at h
      split at h
      · have hown : all.find? u = some u.name := by
          rw [flatNames_find?_of_not_mem hu h]
          simp
        exact List.forall_mem_cons.mpr ⟨Or.inl hown, hothers _ hown h⟩
      · rename_i htaken
        split at h
        · have hown : all.find? u = some (u.container ++ u.name) := by
            rw [flatNames_find?_of_not_mem hu h]
            simp
          exact List.forall_mem_cons.mpr
            ⟨Or.inr ⟨hown, Or.inl (by simpa using htaken)⟩, hothers _ hown h⟩
        · cases h

/-- Names that are not the names of types are made with a container in front. -/
theorem flatName_cases (h : a.Describes config g) (hnames : classNames a = .ok names) {t : TypePath}
    (ht : t ∈ paths a) {n : String} (hn : classNameOf names t = .ok n) :
    n = t.name ∨ (n = t.container ++ t.name ∧ n ≠ t.name) := by
  rw [classNameOf_eq_ok] at hn
  by_cases hname : n = t.name
  · exact Or.inl hname
  · rcases flatNames_spec h.paths_nodup hnames t ht with heq | ⟨heq, -⟩
    · exact Or.inl (Option.some.inj (hn.symm.trans heq))
    · exact Or.inr ⟨Option.some.inj (hn.symm.trans heq), hname⟩

/-- The name of a type is the name of some class, unless the prelude has taken it. -/
theorem exists_flatName (h : a.Describes config g) (hnames : classNames a = .ok names)
    {t : TypePath} (ht : t ∈ paths a) (hfree : t.name ∉ moduleNames ++ contractNames) :
    ∃ u ∈ paths a, classNameOf names u = .ok t.name := by
  simp only [classNameOf_eq_ok]
  rcases flatNames_spec h.paths_nodup hnames t ht with heq | ⟨-, htaken | htype⟩
  · exact ⟨t, ht, heq⟩
  · refine absurd ?_ hfree
    split at htaken
    · exact htaken
    · exact List.mem_append_left _ (by simpa using htaken)
  · exact htype

/-- Of the classes of a module, those of the copy-with protocol are the only ones that are not
called like a type. -/
theorem emittedNames_cases {body : List Statement}
    (hclasses : a.types.mapM (classDefinition config a names) = .ok body)
    (hnames : classNames a = .ok names) {n : String} (hn : n ∈ emittedNames a body) :
    n ∈ [CopyProtocol.contract, CopyProtocol.staging] ∨
      ∃ t ∈ paths a, classNameOf names t = .ok n := by
  rw [emittedNames, bodyClassNames_append, List.mem_append] at hn
  rcases hn with hn | hn
  · rw [preludeClasses] at hn
    split at hn
    · left
      simpa [bodyClassNames, contractClass, Statement.classNames] using Or.inl hn
    · cases hn
  · rw [bodyClassNames_eq] at hn
    obtain ⟨s, hs, hn⟩ := List.mem_flatMap.mp hn
    obtain ⟨d, hd, hclass⟩ := (mapM_eq_ok.mp hclasses).exists_left s hs
    have hpath : d.head.path ∈ paths a := List.mem_map_of_mem hd
    obtain ⟨name, hname⟩ := classNames_covers hnames _ hpath
    rcases (classDefinition_names hclass hname).1 with heq | heq
    · rw [heq, List.mem_singleton] at hn
      exact Or.inr ⟨_, hpath, hn ▸ hname⟩
    · rw [heq, List.mem_cons, List.mem_singleton] at hn
      rcases hn with rfl | rfl
      · exact Or.inr ⟨_, hpath, hname⟩
      · exact Or.inl (by simp)

theorem mem_emittedNames {body : List Statement}
    (hclasses : a.types.mapM (classDefinition config a names) = .ok body) {t : TypePath}
    (ht : t ∈ paths a) {n : String} (hn : classNameOf names t = .ok n) :
    n ∈ emittedNames a body := by
  obtain ⟨d, hd, rfl⟩ := List.mem_map.mp ht
  obtain ⟨s, hs, hclass⟩ := (mapM_eq_ok.mp hclasses).exists_right d hd
  rw [emittedNames, bodyClassNames_append, List.mem_append, bodyClassNames_eq body,
    List.mem_flatMap]
  refine Or.inr ⟨s, hs, ?_⟩
  rcases (classDefinition_names hclass hn).1 with heq | heq <;> simp [heq]

theorem usedNames_outside {body : List Statement}
    (hclasses : a.types.mapM (classDefinition config a names) = .ok body)
    (hnames : classNames a = .ok names) : ∀ n ∈ usedNames a body, IsOutside n := by
  intro n hn
  rw [usedNames, bodyOutsideNames_append, List.mem_append] at hn
  rcases hn with hn | hn
  · rw [preludeClasses] at hn
    split at hn
    · simp [bodyOutsideNames, contractClass, Statement.outsideNames] at hn
    · cases hn
  · rw [bodyOutsideNames_eq] at hn
    obtain ⟨s, hs, hn⟩ := List.mem_flatMap.mp hn
    obtain ⟨d, hd, hclass⟩ := (mapM_eq_ok.mp hclasses).exists_left s hs
    obtain ⟨name, hname⟩ := classNames_covers hnames _ (List.mem_map_of_mem hd)
    exact (classDefinition_names hclass hname).2 n hn

theorem mem_paths_of_find? (h : a.Describes config g) {s : Slot} {c : ClassId} {t : TypePath}
    (ht : ((Naming.ofGraph config.interfacePrefix g).at s).find? c = some t) : t ∈ paths a := by
  obtain ⟨r, hr, rfl⟩ := h.resolved.complete c (Naming.mem_classes_of_find? h.linked ht)
  rw [← h.resolved.typeOf_eq h.linked.nameable hr] at ht
  cases s with
  | interface => exact h.counterpart_mem hr (Or.inl ((h.resolved.interface_eq hr).trans ht))
  | record => exact h.counterpart_mem hr (Or.inr ((h.resolved.record_eq hr).trans ht))

/-- A container in front of a name makes a name that begins with no small letter. -/
theorem noSmallStart_long (h : a.Describes config g) {t : TypePath} (ht : t ∈ paths a)
    (hne : t.container ++ t.name ≠ t.name) : NoSmallStart (t.container ++ t.name) := by
  have hcontainer := Java.noSmallStart_container h ht
  intro c hc
  rw [String.toList_append, List.head?_append, Option.mem_def, Option.or_eq_some_iff] at hc
  rcases hc with hc | ⟨hempty, -⟩
  · exact hcontainer c hc
  · rw [List.head?_eq_none_iff, String.toList_eq_nil_iff] at hempty
    exact absurd (by rw [hempty, String.empty_append]) hne

/-! ## Keywords and builtins -/

theorem keyword_cases (h : a.Describes config g) {body : List Statement}
    (hclasses : a.types.mapM (classDefinition config a names) = .ok body)
    (hnames : classNames a = .ok names) {n : String} (hn : n ∈ emittedNames a body)
    (hkeyword : n ∈ keywords) : n ∈ ["False", "None", "True"] ∧
      ∃ t ∈ paths a, t.name ≠ n ∧ t.container ++ t.name = n := by
  rcases emittedNames_cases hclasses hnames hn with hprotocol | ⟨t, ht, hname⟩
  · have hnone : ∀ n ∈ [CopyProtocol.contract, CopyProtocol.staging], n ∉ keywords := by decide
    exact absurd hkeyword (hnone n hprotocol)
  · rcases flatName_cases h hnames ht hname with rfl | ⟨rfl, hne⟩
    · obtain ⟨s, c, -, hfind⟩ := h.exists_allocated ht
      have hreserved := ((reserved_keptByNaming g config.interfacePrefix).typePath hfind).1
      exact absurd hkeyword (not_mem_words hreserved).2
    · have hcapital : ∀ k ∈ keywords, NoSmallStart k → k ∈ ["False", "None", "True"] := by decide
      exact ⟨hcapital _ hkeyword (noSmallStart_long h ht hne), t, ht, hne.symm, rfl⟩

theorem builtin_iff (h : a.Describes config g) {body : List Statement}
    (hclasses : a.types.mapM (classDefinition config a names) = .ok body)
    (hnames : classNames a = .ok names) {b : String} (hb : b ∈ builtinNames) :
    b ∈ emittedNames a body ↔
      b ∉ ["int", "float"] ∧ Naming.Asks config.interfacePrefix g b := by
  have hsmall : ∀ b ∈ builtinNames, ¬NoSmallStart b := by decide
  have hplain : ∀ b ∈ builtinNames, b ∉ ["int", "float"] → IsPlainWord b := by decide +kernel
  constructor
  · intro hmem
    rcases emittedNames_cases hclasses hnames hmem with hprotocol | ⟨t, ht, hname⟩
    · have hnone : ∀ n ∈ [CopyProtocol.contract, CopyProtocol.staging], n ∉ builtinNames := by
        decide
      exact absurd hb (hnone b hprotocol)
    · rcases flatName_cases h hnames ht hname with rfl | ⟨rfl, hne⟩
      · obtain ⟨s, c, -, hfind⟩ := h.exists_allocated ht
        have hreserved := ((reserved_keptByNaming g config.interfacePrefix).typePath hfind).1
        have hescaped : t.name ∉ ["int", "float"] := by
          have hwords : ∀ w ∈ ["int", "float"], lower w ∈ reservedTypeNames := by decide +kernel
          exact fun hmem => hreserved (hwords _ hmem)
        exact ⟨hescaped, Naming.asks_of_find? h.linked (hplain _ hb hescaped) hfind rfl⟩
      · exact absurd (noSmallStart_long h ht hne) (hsmall _ hb)
  · rintro ⟨hescaped, hasks⟩
    obtain ⟨s, c, t, hfind, rfl⟩ := hasks.exists_find? h.linked (hplain b hb hescaped)
    have hfree : ∀ b ∈ builtinNames, b ∉ moduleNames ++ contractNames := by decide
    obtain ⟨u, hu, hname⟩ := exists_flatName h hnames (mem_paths_of_find? h hfind) (hfree _ hb)
    exact mem_emittedNames hclasses hu hname

theorem imported_free (h : a.Describes config g) {body : List Statement}
    (hclasses : a.types.mapM (classDefinition config a names) = .ok body)
    (hnames : classNames a = .ok names) {n : String} (hn : n ∈ moduleNames) :
    n ∉ emittedNames a body := by
  intro hmem
  rcases emittedNames_cases hclasses hnames hmem with hprotocol | ⟨t, ht, hname⟩
  · have hnone : ∀ n ∈ [CopyProtocol.contract, CopyProtocol.staging], n ∉ moduleNames := by decide
    exact absurd hn (hnone n hprotocol)
  · exact className_not_mem h hnames ht hname (List.mem_append_left _ hn)

/-! ## Names as they are read -/

/-- A name without characters beyond ASCII; it is in normal form. -/
def IsAscii (name : String) : Prop :=
  name.toList.all (fun c => c.toNat < 0x80) = true

instance (name : String) : Decidable (IsAscii name) :=
  inferInstanceAs (Decidable (_ = _))

theorem IsAscii.append {s t : String} (hs : IsAscii s) (ht : IsAscii t) : IsAscii (s ++ t) := by
  rw [IsAscii, String.toList_append, List.all_append, hs, ht]
  rfl

theorem isAscii_of_alphanum {name : String} (h : ∀ c ∈ name.toList, c.isAlphanum = true) :
    IsAscii name :=
  List.all_eq_true.mpr fun c hc => decide_eq_true (toNat_lt_of_isAlphanum (h c hc))

theorem isAscii_safeTypeName {name : String} (h : IsAscii name) : IsAscii (safeTypeName name) := by
  rw [safeTypeName]
  split
  · exact h.append (by decide)
  · exact h

theorem isAscii_of_isSchemaName {name : String} (h : isSchemaName name = true) : IsAscii name := by
  refine List.all_eq_true.mpr fun c hc => decide_eq_true ?_
  rcases mem_of_isSchemaName h hc with hopens | hcontinues | rfl
  · exact toNat_lt_of_continuesIdentifier (continuesIdentifier_of_opens hopens)
  · exact toNat_lt_of_continuesIdentifier hcontinues
  · decide

theorem ascii_keptByNaming (h : g.Linked) {p : String} (hp : IsAscii p) :
    KeptByNaming g p IsAscii where
  container m := isAscii_safeTypeName (isAscii_of_alphanum (Plain.pascalCase m).alphanum)
  record c hc := isAscii_safeTypeName (isAscii_of_isSchemaName (h.named c hc))
  interface c hc := isAscii_safeTypeName (hp.append (isAscii_of_isSchemaName (h.named c hc)))
  numbered n hname := hname.append (isAscii_of_alphanum fun c hc => by
    rw [Char.isAlphanum, isDigit_of_mem_toString hc, Bool.or_true])
  implementing hname := hname.append (by decide)

/-- A name is hidden if a class is bound under a name that is read like it. -/
def Hides (reads : String → Option String) (classNames : List String) (n : String) : Prop :=
  ∃ k, reads n = some k ∧ ∃ m ∈ classNames, reads m = some k

theorem hides_asRead_iff {classNames : List String} (hascii : ∀ m ∈ classNames, IsAscii m)
    {n : String} (hn : asRead n = some n) : Hides asRead classNames n ↔ n ∈ classNames := by
  constructor
  · rintro ⟨k, hk, m, hm, hread⟩
    obtain rfl := Option.some.inj (hn.symm.trans hk)
    rw [asRead] at hread
    split at hread
    · have hnormal : normalForm m = m := if_pos (hascii m hm)
      rw [hnormal] at hread
      exact Option.some.inj hread ▸ hm
    · cases hread
  · exact fun hmem => ⟨n, hn, n, hmem, hn⟩

theorem emittedNames_ascii (h : a.Describes config g) (hp : IsAscii config.interfacePrefix)
    {body : List Statement} (hclasses : a.types.mapM (classDefinition config a names) = .ok body)
    (hnames : classNames a = .ok names) : ∀ n ∈ emittedNames a body, IsAscii n := by
  intro n hn
  rcases emittedNames_cases hclasses hnames hn with hprotocol | ⟨t, ht, hname⟩
  · have hall : ∀ n ∈ [CopyProtocol.contract, CopyProtocol.staging], IsAscii n := by decide
    exact hall n hprotocol
  · obtain ⟨s, c, -, hfind⟩ := h.exists_allocated ht
    obtain ⟨hown, hcontainer⟩ := (ascii_keptByNaming h.linked hp).typePath hfind
    rcases flatName_cases h hnames ht hname with rfl | ⟨rfl, -⟩
    · exact hown
    · exact hcontainer.append hown

/-! ## What a module hides -/

/-- The names that the classes of a module hide. A keyword is one of three and put together from a
container and a name that was taken. A builtin is hidden exactly if a class asks for its name, which
is never that of a number type; then annotations and decorators that are written with the builtin
mean the class. Imported names are not hidden. -/
structure HidesOnly (p : String) (g : ClassGraph) (a : Analysis) (body : List Statement) :
    Prop where
  keyword : ∀ n ∈ emittedNames a body, n ∈ keywords → n ∈ ["False", "None", "True"] ∧
    ∃ t ∈ paths a, t.name ≠ n ∧ t.container ++ t.name = n
  builtin : ∀ b ∈ builtinNames,
    (b ∈ emittedNames a body ↔ b ∉ ["int", "float"] ∧ Naming.Asks p g b)
  imported : ∀ n ∈ moduleNames, n ∉ emittedNames a body
  used : ∀ n ∈ usedNames a body, n ∈ builtinNames ∨ n ∈ moduleNames
  read : IsAscii p → ∀ n ∈ usedNames a body,
    (Hides asRead (emittedNames a body) n ↔
      n ∈ builtinNames ∧ n ∉ ["int", "float"] ∧ Naming.Asks p g n)

theorem hidesOnly (h : a.Describes config g) {body : List Statement}
    (hbody : classes config a = .ok body) : HidesOnly config.interfacePrefix g a body := by
  obtain ⟨names, hnames, hclasses⟩ := bind_eq_ok.mp hbody
  refine ⟨fun n => keyword_cases h hclasses hnames, fun b => builtin_iff h hclasses hnames,
    fun n => imported_free h hclasses hnames, usedNames_outside hclasses hnames,
    fun hp n hn => ?_⟩
  have hread : ∀ n ∈ builtinNames ++ moduleNames, asRead n = some n := by decide +kernel
  have houtside := usedNames_outside hclasses hnames n hn
  rw [hides_asRead_iff (emittedNames_ascii h hp hclasses hnames)
    (hread n (List.mem_append.mpr houtside))]
  by_cases hbuiltin : n ∈ builtinNames
  · simp only [builtin_iff h hclasses hnames hbuiltin, hbuiltin, true_and]
  · have hfree := imported_free h hclasses hnames (houtside.resolve_left hbuiltin)
    simp only [hfree, hbuiltin, false_and]

end

end Python

/-- For an accepted document, these are all the names that the classes of its module hide. -/
theorem generate_hidesOnly {r : Run} {doc : Json} {files : Files}
    (hrecords : r.config.records = true) (hvalidate : r.validate = .ok .python)
    (h : r.generate (.document doc) = .ok files) :
    ∃ g a body, Document.load doc = .ok g ∧ r.analyze (.document doc) = .ok a ∧
      Python.classes r.config a = .ok body ∧ files = Python.fileOf a (r.banner .python) body ∧
      Python.HidesOnly r.config.interfacePrefix g a body := by
  obtain ⟨language, g, a, hlanguage, hload, hanalyze, hemit⟩ := Run.generate_ok hrecords h
  obtain rfl := Except.ok.inj (hvalidate.symm.trans hlanguage)
  have hd := analyze_describes (Document.load_linked hload) hanalyze
  obtain ⟨body, hbody, rfl⟩ := Python.generate_eq_ok hemit
  refine ⟨g, a, body, hload, ?_, hbody, rfl, Python.hidesOnly hd hbody⟩
  simp only [Run.analyze, hvalidate, Source.load, hload, hanalyze, mapError_ok, ok_bind]

theorem generate_hidesOnly_shapes :
    ({ config := { withers := true }, language := "python" } : Run).validate = .ok .python ∧
    ∃ files, ({ config := { withers := true }, language := "python" } : Run).generate
      (.document Document.shapes) = .ok files ∧
    ∃ g a body, Document.load Document.shapes = .ok g ∧
      ({ config := { withers := true }, language := "python" } : Run).analyze
        (.document Document.shapes) = .ok a ∧
      Python.classes { withers := true } a = .ok body ∧
      files = Python.fileOf a (Run.banner { config := { withers := true } } .python) body ∧
      Python.HidesOnly "I" g a body := by
  have hvalidate : ({ config := { withers := true }, language := "python" } : Run).validate =
      .ok .python := rfl
  have hok : (({ config := { withers := true }, language := "python" } : Run).generate
      (.document Document.shapes)).isOk = true := by
    decide +kernel
  obtain ⟨files, h⟩ := exists_ok hok
  exact ⟨hvalidate, files, h, generate_hidesOnly rfl hvalidate h⟩

/-- Two modules with a class `one`, and a class that is called like the builtin a property needs. -/
def Document.hiding : Json :=
  .object [("modules", .list [
    .object [("name", .text "a"), ("classes", .list [
      .object [("name", .text "one")],
      .object [("name", .text "str"), ("properties", .list [
        .object [("name", .text "p"), ("type", .text "String")]])]])],
    .object [("name", .text "n"), ("classes", .list [
      .object [("name", .text "one")]])]])]

/-- The second class `one` becomes the class `None`, and the property's annotation means the class
`str` that has the property. -/
theorem hiding_hides :
    (∃ files, ({ language := "python" } : Run).generate (.document Document.hiding) = .ok files) ∧
    ∃ a body, ({ language := "python" } : Run).analyze (.document Document.hiding) = .ok a ∧
      Python.classes {} a = .ok body ∧
      "None" ∈ Python.emittedNames a body ∧ "None" ∈ Python.keywords ∧
      "str" ∈ Python.usedNames a body ∧ "str" ∈ Python.builtinNames ∧
      Python.Hides Python.asRead (Python.emittedNames a body) "str" := by
  have hok : (({ language := "python" } : Run).generate (.document Document.hiding)).isOk =
      true := by
    decide +kernel
  obtain ⟨a, ha, hclasses⟩ : ∃ a,
      ({ language := "python" } : Run).analyze (.document Document.hiding) = .ok a ∧
      (Python.classes {} a).toOption.any (fun body => decide ("None" ∈ Python.emittedNames a body ∧
        "str" ∈ Python.usedNames a body ∧ "str" ∈ Python.emittedNames a body)) = true :=
    exists_ok_and (by decide +kernel)
  obtain ⟨body, hbody, hnone, hused, hstr⟩ := exists_ok_and hclasses
  have hread : Python.asRead "str" = some "str" := by decide +kernel
  exact ⟨exists_ok hok, a, body, ha, hbody, hnone, by decide, hused, by decide,
    "str", hread, "str", hstr, hread⟩

end RecordGen

import RecordGen.Proofs.Backends
import RecordGen.Proofs.TypeNames

/-! # Boxed types and imports in Java

Three of the primitives of a schema have primitive types in Java. These stand for values that cannot
be null and never below another type. A unit imports the collections that occur in the types of its
properties, at any depth, and what every record needs in the configuration at hand. -/

namespace RecordGen

open ClassGraph Fallible

theorem exists_mem_flatMap {α β : Type} {xs : List α} {f : α → List β} {P : β → Prop} :
    (∃ y ∈ xs.flatMap f, P y) ↔ ∃ x ∈ xs, ∃ y ∈ f x, P y := by
  simp only [List.mem_flatMap]
  grind

/-! ## Collections inside types -/

namespace PropertyType

mutual

/-- The names of the collections inside a type, at any depth. -/
def collections : PropertyType → List String
  | node .collection name arguments _ => name :: argumentCollections arguments
  | node .primitive _ arguments _ => argumentCollections arguments
  | node .reference _ arguments _ => argumentCollections arguments
  | node .optional _ arguments _ => argumentCollections arguments

def argumentCollections : List PropertyType → List String
  | [] => []
  | t :: ts => collections t ++ argumentCollections ts

end

theorem mem_argumentCollections {ts : List PropertyType} {name : String} :
    name ∈ argumentCollections ts ↔ ∃ t ∈ ts, name ∈ t.collections := by
  induction ts with
  | nil => simp [argumentCollections]
  | cons t ts ih => simp [argumentCollections, ih]

end PropertyType

/-- The names of the collections inside the types of a generated type's properties. -/
def GeneratedType.collections : GeneratedType → List String
  | .interface d => d.accessors.flatMap (·.type.collections)
  | .record d => d.components.flatMap (·.type.collections)

/-- What a generated type needs imported: the collections inside the types of its properties, and if
it is a record, the type of the function that changes a copy and the builder annotation, each if it
is switched on. -/
def GeneratedType.Imports (config : Config) (d : GeneratedType) (i : String) : Prop :=
  (∃ name ∈ d.collections, i = "java.util." ++ name) ∨
    (∃ r, d = .record r) ∧ (config.withers = true ∧ i = "java.util.function.Consumer" ∨
      config.builder = true ∧ i = config.builderName)

/-- A unit imports, once each, what generated types need, and nothing else. -/
def Java.CompilationUnit.ImportsFor (config : Config) (ds : List GeneratedType)
    (u : CompilationUnit) : Prop :=
  u.imports.Nodup ∧ ∀ i, i ∈ u.imports ↔ ∃ d ∈ ds, d.Imports config i

/-- A reference leads to a listed class, whatever name it was written with. -/
def ClassGraph.Lists (g : ClassGraph) (_ : String) (target : Option ClassId) : Prop :=
  ∃ c ∈ g.classes, target = some c

namespace Java

variable {config : Config} {g : ClassGraph} {a : Analysis} {n : String}

/-! ## Type arguments -/

namespace Ty

mutual

/-- The type arguments inside a type, at any depth. -/
def typeArguments : Ty → List Ty
  | imported _ arguments => argumentsWithin arguments
  | generic _ arguments => argumentsWithin arguments
  | annotated _ inner => typeArguments inner
  | named _ => []
  | scalar _ => []
  | boxed _ => []
  | platform _ => []
  | generated _ => []

def argumentsWithin : List Ty → List Ty
  | [] => []
  | t :: ts => t :: typeArguments t ++ argumentsWithin ts

end

theorem mem_argumentsWithin {ts : List Ty} {u : Ty} :
    u ∈ argumentsWithin ts ↔ ∃ t ∈ ts, u = t ∨ u ∈ t.typeArguments := by
  induction ts with
  | nil => simp [argumentsWithin]
  | cons t ts ih => simp [argumentsWithin, ih, or_assoc]

end Ty

/-! ## Primitive types -/

/-- The texts of Java's primitive types, as far as properties can have them. -/
def scalarTexts : List String :=
  ["boolean", "long", "double"]

/-- The primitives of a schema that such types stand for. -/
def scalarNames : List String :=
  ["Boolean", "Int", "Float"]

theorem imported_text_not_mem (container qualified : String) (arguments : List Ty) :
    (Ty.imported qualified arguments).text container ∉ scalarTexts := by
  have hplain : ∀ w ∈ scalarTexts, '<' ∉ w.toList := by decide
  intro hmem
  exact hplain _ hmem (by simp [Ty.text])

/-- No generated type is written like a primitive type, wherever it is seen from. -/
theorem typeReference_not_mem {p : String} {s : Slot} {c : ClassId} {t : TypePath}
    (ht : ((Naming.ofGraph p g).at s).find? c = some t) (container : String) :
    typeReference container t ∉ scalarTexts := by
  have hreserved : ∀ w ∈ scalarTexts, Text.lower w ∈ reservedTypeNames := by decide +kernel
  have hundotted : ∀ w ∈ scalarTexts, Undotted w := by decide
  have hname : t.name ∉ scalarTexts := fun hmem =>
    ((reserved_keptByNaming g p).typePath ht).1 (hreserved _ hmem)
  rw [typeReference, TypePath.dotted]
  split
  · exact hname
  · split
    · exact hname
    · exact fun hmem => hundotted _ hmem (by simp)

/-! ## Boxing -/

/-- A listed class of a graph has a type in the graph's result, and the type was allocated. -/
theorem exists_counterpart (h : g.Resolved config.interfacePrefix a.resolutions) {name : String}
    {target : Option ClassId} (hlists : g.Lists name target) : ∃ s c t,
      a.counterpart name target = .ok t ∧
        ((Naming.ofGraph config.interfacePrefix g).at s).find? c = some t := by
  obtain ⟨c, hc, rfl⟩ := hlists
  obtain ⟨r, hr, rfl⟩ := h.complete c hc
  obtain ⟨s, hs⟩ : ∃ s, (g.decl r.source).kind.fills s = true := by
    cases (g.decl r.source).kind
    exacts [⟨.record, rfl⟩, ⟨.interface, rfl⟩, ⟨.interface, rfl⟩]
  obtain ⟨u, hu⟩ := Naming.exists_find?_of_fills (p := config.interfacePrefix) hc
    (h.checkEnclosing hr) hs
  obtain ⟨t, ht⟩ : ∃ t, r.counterpart? = some t := by
    have htype := typeOf_eq_some.mpr ⟨hs, hu⟩
    rw [← Option.isSome_iff_exists, Resolution.counterpart?, h.interface_eq hr, h.record_eq hr]
    cases s <;> simp [htype]
  have hcounterpart : a.counterpart name (some r.source) = .ok t := by
    rw [Analysis.counterpart_eq_ok]
    simp [Analysis.resolution?_of_resolved h hr, ht]
  rcases Resolution.eq_of_counterpart? ht with hi | hrecord
  · rw [h.interface_eq hr] at hi
    exact ⟨_, _, t, hcounterpart, (typeOf_eq_some.mp hi).2⟩
  · rw [h.record_eq hr] at hrecord
    exact ⟨_, _, t, hcounterpart, (typeOf_eq_some.mp hrecord).2⟩

/-- As it is written inside a container, a type has no primitive type among its type arguments, and
is one itself exactly if it translates such a primitive alone and cannot be null. -/
structure Boxed (container : String) (t : PropertyType) (nullable : Bool) (ty : Ty) : Prop where
  arguments : ∀ u ∈ ty.typeArguments, u.text container ∉ scalarTexts
  own : ty.text container ∈ scalarTexts ↔
    nullable = false ∧ ∃ name ∈ scalarNames, t = .primitive name

theorem Boxed.not_mem {container : String} {t : PropertyType} {ty : Ty}
    (h : Boxed container t true ty) : ty.text container ∉ scalarTexts := fun hmem =>
  absurd (h.own.mp hmem).1 (by decide)

/-- What a type that is linked to listed classes translates to is boxed. -/
theorem translate_boxed (h : g.Resolved config.interfacePrefix a.resolutions) (container : String)
    {t : PropertyType} (ht : t.Formed g.Lists) : ∀ {nullable : Bool} {ty : Ty},
      translate a t nullable = .ok ty → Boxed container t nullable ty := by
  induction ht with
  | primitive hname =>
      intro nullable ty hty
      rcases eq_of_mem_primitiveNames hname with rfl | rfl | rfl | rfl | rfl | rfl <;>
        obtain rfl := Except.ok.inj hty <;> cases nullable <;>
        constructor <;> simp [Ty.nullable, Ty.typeArguments, Ty.text, Scalar.text, Scalar.boxText,
          scalarTexts, scalarNames, PropertyType.primitive]
  | reference hlists =>
      intro nullable ty hty
      obtain ⟨s, c, t, ht, hfind⟩ := exists_counterpart h hlists
      rw [translate, ht, map_ok] at hty
      obtain rfl := Except.ok.inj hty
      refine ⟨by simp [Ty.typeArguments], ?_⟩
      simp [Ty.text, typeReference_not_mem hfind, PropertyType.primitive]
  | collection harity _ ih =>
      intro nullable ty hty
      obtain ⟨qualified, hq⟩ := exists_collection harity
      simp only [translate, hq, translateArguments_eq] at hty
      obtain ⟨tys, htys, rfl⟩ := map_eq_ok.mp hty
      refine ⟨fun u hu => ?_, by simp [imported_text_not_mem, PropertyType.primitive]⟩
      -- An argument is boxed as it may be null, and what lies inside it was boxed with it.
      obtain ⟨ty, hty, hu⟩ := Ty.mem_argumentsWithin.mp hu
      obtain ⟨t, ht, hok⟩ := (mapM_eq_ok.mp htys).exists_left ty hty
      rcases hu with rfl | hu
      · exact (ih t ht hok).not_mem
      · exact (ih t ht hok).arguments u hu
  | optional _ ih =>
      intro nullable ty hty
      have hboxed := ih (by simpa only [translate] using hty)
      refine ⟨hboxed.arguments, ?_⟩
      simp [hboxed.not_mem, PropertyType.primitive]

/-- Every type that is linked to listed classes has a translation. -/
theorem translate_listed (h : g.Resolved config.interfacePrefix a.resolutions) {t : PropertyType}
    (ht : t.Formed g.Lists) (nullable : Bool) : ∃ ty, translate a t nullable = .ok ty := by
  refine translate_total (fun name target hlists => ?_) ht nullable
  obtain ⟨_, _, t, ht, -⟩ := exists_counterpart h hlists
  exact ⟨t, ht⟩

/-- Any number of optional types around a type says what one of them or the flag says. -/
theorem translate_optional_iterate (a : Analysis) (t : PropertyType) (nullable : Bool) (k : Nat) :
    translate a (PropertyType.optional^[k + 1] t) nullable = translate a t true := by
  induction k generalizing nullable with
  | zero => rw [Function.iterate_one, PropertyType.optional, translate]
  | succ k ih => rw [Function.iterate_succ_apply', PropertyType.optional, translate, ih]

theorem collectionsMet_optional_iterate (a : Analysis) (t : PropertyType) (k : Nat) :
    collectionsMet a (PropertyType.optional^[k] t) = collectionsMet a t := by
  induction k with
  | zero => rfl
  | succ k ih => rw [Function.iterate_succ_apply', PropertyType.optional, collectionsMet, ih]

/-! ## Imports -/

theorem collection?_eq {name : String} {arity : Nat} (h : collectionArity? name = some arity) :
    collection? name = some ("java.util." ++ name) := by
  rcases eq_of_collectionArity? h with rfl | rfl | rfl <;> rfl

/-- A translated type imports the collections inside the type it translates. -/
theorem mem_translate_imports {ref : String → Option ClassId → Prop} {t : PropertyType}
    (ht : t.Formed ref) : ∀ {nullable : Bool} {ty : Ty}, translate a t nullable = .ok ty →
      (n ∈ ty.imports ↔ ∃ name ∈ t.collections, n = "java.util." ++ name) := by
  induction ht with
  | primitive hname =>
      intro nullable ty hty
      obtain ⟨t, ht⟩ := exists_primitive hname
      rw [translate, ht] at hty
      obtain rfl := Except.ok.inj hty
      rw [primitive?_imports ht]
      simp [PropertyType.collections, PropertyType.argumentCollections]
  | reference _ =>
      intro nullable ty hty
      rw [translate] at hty
      obtain ⟨t, -, rfl⟩ := map_eq_ok.mp hty
      simp [Ty.imports, PropertyType.collections, PropertyType.argumentCollections]
  | @collection name arguments harity _ ih =>
      intro nullable ty hty
      simp only [translate, collection?_eq harity, translateArguments_eq] at hty
      obtain ⟨tys, htys, rfl⟩ := map_eq_ok.mp hty
      have hbelow := (mapM_eq_ok.mp htys).exists_mem_iff fun t ht ty hok => (ih t ht hok).symm
      simp only [Ty.imports, List.mem_cons, Ty.mem_argumentImports, ← hbelow,
        PropertyType.collections, PropertyType.mem_argumentCollections]
      grind
  | optional _ ih =>
      intro nullable ty hty
      rw [translate] at hty
      rw [ih hty]
      simp [PropertyType.collections, PropertyType.argumentCollections]

/-- An interface imports what its accessors' types need. -/
theorem mem_interface_imports (h : a.Describes config g) {r : Resolution} (hr : r ∈ a.resolutions)
    {t : TypePath} {declared : Declaration}
    (hd : interfaceDeclaration config a (Analysis.interfaceOf g r t) = .ok declared) :
    n ∈ declared.imports ↔
      GeneratedType.Imports config (.interface (Analysis.interfaceOf g r t)) n := by
  obtain ⟨members, methods, doc, -, hmethods, rfl⟩ := interfaceDeclaration_spec hd
  have hmethod := (mapM_eq_ok.mp hmethods).exists_mem_iff
    (P := fun m => ∃ name ∈ m.type.collections, n = "java.util." ++ name)
    (Q := fun method => n ∈ method.imports) fun m hm method hok => by
      obtain ⟨-, htype, hparameters, hannotations⟩ := accessorMethod_spec hok
      rw [← mem_translate_imports (h.accessor_spec hr hm).1 htype]
      simp [Method.imports, hparameters, hannotations, annotationImports, parameterImports]
  simp only [GeneratedType.Imports, GeneratedType.collections, exists_mem_flatMap, hmethod]
  simp [Declaration.imports, Shape.imports, Ty.argumentImports_generated, annotationImports,
    nestedImports]

/-- A record imports what its components' types need and what all records need. -/
theorem mem_record_imports (h : a.Describes config g) {r : Resolution} (hr : r ∈ a.resolutions)
    {t : TypePath} {declared : Declaration}
    (hd : recordDeclaration config a (Analysis.recordOf config g r t) = .ok declared) :
    n ∈ declared.imports ↔
      GeneratedType.Imports config (.record (Analysis.recordOf config g r t)) n := by
  obtain ⟨members, components, -, hcomponents, himports⟩ := mem_recordDeclaration_imports hd
  have hcomponent := (mapM_eq_ok.mp hcomponents).exists_mem_iff
    (P := fun c => ∃ name ∈ c.type.collections, n = "java.util." ++ name)
    (Q := fun p => n ∈ p.type.imports) fun c hc p hok => by
      obtain ⟨-, htype⟩ := componentParameter_spec hok
      exact (mem_translate_imports (h.component_spec hr hc).1 htype).symm
  have hdecorations : n ∈ (Analysis.recordOf config g r t).decorations ↔
      config.builder = true ∧ n = config.builderName := by
    simp [Analysis.recordOf]
  have hcopyWith : (Analysis.recordOf config g r t).copyWith.isSome = config.withers := by
    cases hwithers : config.withers <;> simp [Analysis.recordOf, hwithers]
  rw [himports, parameterImports, List.mem_flatMap, ← hcomponent, hdecorations, hcopyWith]
  simp only [GeneratedType.Imports, GeneratedType.collections, exists_mem_flatMap]
  rw [or_comm (a := config.builder = true ∧ _)]
  simp

theorem mem_declaration_imports (h : a.Describes config g) {d : GeneratedType} (hd : d ∈ a.types)
    {declared : Declaration} (hdeclared : declaration config a d = .ok declared) :
    n ∈ declared.imports ↔ d.Imports config n := by
  obtain ⟨r, hr, ⟨t, _, rfl⟩ | ⟨t, _, rfl⟩⟩ := h.mem_types.mp hd
  · exact mem_interface_imports h hr hdeclared
  · exact mem_record_imports h hr hdeclared

/-- A container's own type and the types nested in it are the types of the container. -/
theorem mem_iff_of_find? {α : Type} {p : α → Bool} {xs : List α} {x y : α}
    (h : xs.find? p = some x) : y ∈ xs ↔ y = x ∨ y ∈ xs.eraseP p := by
  obtain ⟨hp, before, after, rfl, hbefore⟩ := List.find?_eq_some_iff_append.mp h
  have hnone : ∀ b ∈ before, ¬p b = true := by simpa using hbefore
  rw [List.eraseP_append_right _ hnone, List.eraseP_cons_of_pos hp]
  simp only [List.mem_append, List.mem_cons]
  tauto

/-- A unit imports what the types of its container need. -/
theorem mem_unit_imports (h : a.Describes config g) {comment : String}
    {group : String × List GeneratedType} (hgroup : group ∈ groups a) {unit : CompilationUnit}
    (hunit : containerUnit config a comment group = .ok unit) :
    n ∈ unit.imports ↔ ∃ d ∈ group.2, d.Imports config n := by
  obtain ⟨container, -, rfl⟩ := List.mem_map.mp hgroup
  obtain ⟨top, head, shape, nested, others, hfind, hdeclared, hothers, -, -, himports⟩ :=
    containerUnit_spec hunit
  have htypes : ∀ d ∈ a.types.filter (·.head.container == container), d ∈ a.types :=
    fun d hd => (List.mem_filter.mp hd).1
  have htop := htypes top (List.mem_of_find?_eq_some hfind)
  have hrest := (mapM_eq_ok.mp hothers).exists_mem_iff
    (P := fun d => d.Imports config n) (Q := fun d => n ∈ d.imports) fun d hd declared hok =>
      (mem_declaration_imports h (htypes d (List.mem_of_mem_eraseP hd)) hok).symm
  rw [himports, List.mem_eraseDups, mem_imports_nest, mem_declaration_imports h htop hdeclared,
    ← hrest]
  simp only [mem_iff_of_find? hfind, or_and_right, exists_or, exists_eq_left]

/-- The units of containers import what the types of their containers need. -/
theorem exists_units (h : a.Describes config g) (comment : String) : ∃ modules,
    units config a comment = .ok (modules ++ a.contract.toList.map fun c =>
      (filePath config CopyProtocol.contract, contractUnit config comment c)) ∧
    List.Forall₂ (fun group e => e.1 = filePath config group.1 ∧ e.2.ImportsFor config group.2)
      (groups a) modules := by
  obtain ⟨us, hus⟩ := units_ok h comment
  obtain ⟨modules, rfl, hmodules⟩ := units_spec hus
  refine ⟨modules, hus, ((List.forall₂_and_left (groups a) modules).mpr
    ⟨fun group hgroup => hgroup, hmodules⟩).imp ?_⟩
  rintro group e ⟨hgroup, hpath, hunit⟩
  refine ⟨hpath, ?_, fun i => mem_unit_imports h hgroup hunit⟩
  obtain ⟨_, _, _, _, _, -, -, -, -, -, himports⟩ := containerUnit_spec hunit
  exact himports ▸ nodup_eraseDups _

/-! ## Whole results -/

/-- In the result of any graph, every type that is linked to classes of the graph has a translation
that is boxed where Java asks for it, and further optional types around it change nothing. If the
graph was loaded, the result can be written, and whatever a backend has collected before, the files
of modules import what their own types need and nothing else. -/
theorem analyze_boxed_imports {workers : Option Int} (h : analyze config workers g = .ok a) :
    (∀ t : PropertyType, t.Formed g.Lists → ∀ nullable container, ∃ ty,
      translate a t nullable = .ok ty ∧ Boxed container t nullable ty) ∧
    (∀ (t : PropertyType) (nullable : Bool) (k : Nat),
      translate a (PropertyType.optional^[k + 1] t) nullable = translate a t true ∧
        collectionsMet a (PropertyType.optional^[k + 1] t) = collectionsMet a t) ∧
    ∀ doc, Document.load doc = .ok g → ∀ comment, ∃ modules us,
      us = modules ++ a.contract.toList.map (fun c =>
        (filePath config CopyProtocol.contract, contractUnit config comment c)) ∧
      units config a comment = .ok us ∧
      (∀ b : Backend, (b.generate config a comment).1 =
        .ok (us.map fun e => (e.1, e.2.print config.indent))) ∧
      List.Forall₂ (fun group e =>
        e.1 = filePath config group.1 ∧ e.2.ImportsFor config group.2) (groups a) modules := by
  have hresolved := analyze_resolved h
  refine ⟨fun t ht nullable container => ?_, fun t nullable k => ?_, fun doc hload comment => ?_⟩
  · obtain ⟨ty, hty⟩ := translate_listed hresolved ht nullable
    exact ⟨ty, hty, translate_boxed hresolved container ht hty⟩
  · exact ⟨translate_optional_iterate a t nullable k, collectionsMet_optional_iterate a t (k + 1)⟩
  · have hdescribes := analyze_describes (Document.load_linked hload) h
    obtain ⟨modules, hus, hmodules⟩ := exists_units hdescribes comment
    refine ⟨modules, _, rfl, hus, fun b => ?_, hmodules⟩
    rw [Backend.generate_eq, generate, hus]
    rfl

/-- A map from numbers to lists of a class, where a list may be missing. -/
def indexed : PropertyType :=
  .collection "Map" [.primitive "Int", .optional (.collection "List" [.reference "base" (some 0)])]

theorem analyze_boxed_imports_shapes : ∃ g a,
    analyze { withers := true, builder := true } none g = .ok a ∧ indexed.Formed g.Lists ∧
    (∃ ty, translate a indexed false = .ok ty ∧ Boxed "Plane" indexed false ty) ∧
    translate a (PropertyType.optional^[2] indexed) false = translate a indexed true ∧
    Document.load Document.shapes = .ok g ∧ ∃ modules us,
      us = modules ++ a.contract.toList.map (fun c =>
        (filePath { withers := true, builder := true } CopyProtocol.contract,
          contractUnit { withers := true, builder := true } "" c)) ∧
      units { withers := true, builder := true } a "" = .ok us ∧
      (∀ b : Backend, (b.generate { withers := true, builder := true } a "").1 =
        .ok (us.map fun e => (e.1, e.2.print ({} : Config).indent))) ∧
      List.Forall₂ (fun group e =>
        e.1 = filePath { withers := true, builder := true } group.1 ∧
          e.2.ImportsFor { withers := true, builder := true } group.2) (groups a) modules := by
  obtain ⟨⟨g, a⟩, hok, hlisted⟩ : ∃ e : ClassGraph × Analysis, (do
      let g ← Document.load Document.shapes
      return (g, ← analyze { withers := true, builder := true } none g)) = .ok e ∧
      0 ∈ e.1.classes := by
    apply exists_ok_and
    decide +kernel
  obtain ⟨g', hload, hok⟩ := bind_eq_ok.mp hok
  obtain ⟨a', hanalyze, hok⟩ := bind_eq_ok.mp hok
  cases hok
  have hformed : indexed.Formed g.Lists := by
    refine .collection rfl fun t ht => ?_
    rcases List.mem_cons.mp ht with rfl | ht
    · exact .primitive (by decide)
    · obtain rfl := List.mem_singleton.mp ht
      refine .optional (.collection rfl fun t ht => ?_)
      obtain rfl := List.mem_singleton.mp ht
      exact .reference ⟨0, hlisted, rfl⟩
  obtain ⟨hboxed, hoptional, himports⟩ := analyze_boxed_imports hanalyze
  exact ⟨g, a, hanalyze, hformed, hboxed indexed hformed false "Plane",
    (hoptional indexed false 1).1, hload, himports Document.shapes hload ""⟩

end Java

end RecordGen

import RecordGen.Proofs.Fallible
import RecordGen.Proofs.FreshNames
import RecordGen.Proofs.JavaUnits
import RecordGen.Proofs.PythonClasses
import RecordGen.Target.JavaBackend
import RecordGen.Target.PythonBackend

/-! # A backend answers alike however often it was used

What a backend collects while it builds a file is what the finished file needs, and it is collected
anew for every file. So the files of a result do not depend on what earlier runs have left behind.
-/

namespace RecordGen

open Fallible

/-! ## Work on a state -/

section WorkThrough

variable {σ α β γ ε : Type} {step : σ → α → Except ε β × σ} {f : α → Except ε β} {p : σ → Prop}

/-- Work is a traversal, as long as all states that it passes through give the same answers. -/
theorem workThrough_fst (hkeep : ∀ s x, p s → p (step s x).2)
    (hstep : ∀ s x, p s → (step s x).1 = f x) (xs : List α) :
    ∀ s, p s → (workThrough step s xs).1 = xs.mapM f := by
  induction xs with
  | nil => intro s _; rfl
  | cons x xs ih =>
      intro s hs
      rw [List.mapM_cons, ← hstep s x hs, workThrough]
      have hkept := hkeep s x hs
      cases hx : step s x with
      | mk first s' =>
          rw [hx] at hkept
          cases first with
          | error e => rfl
          | ok y =>
              have hrest := ih s' hkept
              cases hxs : workThrough step s' xs with
              | mk rest s'' =>
                  rw [hxs] at hrest
                  rw [ok_bind, ← hrest]
                  cases rest <;> simp only [hxs] <;> rfl

/-- Work that only adds to a collection has added, when it succeeds, what all its steps add. -/
theorem workThrough_snd {seen : σ → List γ} {met : α → List γ}
    (hkeep : ∀ s x, p s → p (step s x).2)
    (hstep : ∀ s x, p s → seen (step s x).2 = seen s ++ met x) {xs : List α} :
    ∀ {s : σ} {ys : List β}, p s → (workThrough step s xs).1 = .ok ys →
      seen (workThrough step s xs).2 = seen s ++ xs.flatMap met := by
  induction xs with
  | nil => intro s ys _ _; simp [workThrough]
  | cons x xs ih =>
      intro s ys hs hok
      rw [workThrough] at hok ⊢
      have hx := hstep s x hs
      have hkept := hkeep s x hs
      cases hres : step s x with
      | mk first s' =>
          rw [hres] at hok hx hkept
          cases first with
          | error e => cases hok
          | ok y =>
              simp only at hok ⊢
              cases hrest : workThrough step s' xs with
              | mk rest s'' =>
                  rw [hrest] at hok
                  cases rest with
                  | error e => cases hok
                  | ok zs =>
                      have := @ih s' zs hkept (by rw [hrest])
                      rw [hrest] at this
                      simp [this, hx]

theorem mem_metUpTo {met : α → List String} {xs : List α} {ys : List β} {n : String} {Q : β → Prop}
    (h : xs.mapM f = .ok ys) (hmet : ∀ x y, f x = .ok y → (n ∈ met x ↔ Q y)) :
    n ∈ metUpTo f met xs ↔ ∃ y ∈ ys, Q y := by
  have hall := mapM_eq_ok.mp h
  clear h
  induction hall with
  | nil => simp [metUpTo]
  | cons hx _ ih => simp [metUpTo, hx, hmet _ _ hx, ih]

end WorkThrough

theorem pairwise_mergeSort (xs : List String) :
    (xs.mergeSort fun x y => decide (x ≤ y)).Pairwise (· ≤ ·) := by
  refine (List.pairwise_mergeSort ?_ ?_ xs).imp fun h => by simpa using h
  · intro x y z hxy hyz
    simp only [decide_eq_true_eq] at hxy hyz ⊢
    exact String.le_trans hxy hyz
  · intro x y
    simpa using String.le_total x y

/-- A list that is already sorted comes out when its members are sorted without repetitions. -/
theorem mergeSort_eraseDups_eq_of_pairwise {xs ys : List String} (h : ∀ x, x ∈ xs ↔ x ∈ ys)
    (hle : ys.Pairwise (· ≤ ·)) (hn : ys.Nodup) :
    xs.eraseDups.mergeSort (fun x y => decide (x ≤ y)) = ys := by
  refine List.Perm.eq_of_pairwise (fun x y _ _ => String.le_antisymm) (pairwise_mergeSort _) hle ?_
  refine (List.mergeSort_perm _ _).trans ?_
  rw [List.perm_ext_iff_of_nodup (nodup_eraseDups xs) hn]
  simpa using h

/-- What is sorted once repetitions are gone depends on the members only. -/
theorem mergeSort_eraseDups_eq {xs ys : List String} (h : ∀ x, x ∈ xs ↔ x ∈ ys) :
    xs.eraseDups.mergeSort (fun x y => decide (x ≤ y)) =
      ys.eraseDups.mergeSort (fun x y => decide (x ≤ y)) := by
  refine mergeSort_eraseDups_eq_of_pairwise (fun x => ?_) (pairwise_mergeSort _)
    ((List.mergeSort_perm _ _).nodup_iff.mpr (nodup_eraseDups ys))
  rw [h, List.mem_mergeSort, List.mem_eraseDups]

/-! ## Java -/

namespace Java

variable {config : Config} {a : Analysis} {n : String}

mutual

/-- A type that is translated has met the collections that its translation names. -/
theorem collectionsMet_eq : ∀ {t : PropertyType} {nullable : Bool} {ty : Ty},
    translate a t nullable = .ok ty → collectionsMet a t = ty.imports
  | .node .primitive name _ _, nullable, ty, h => by
      rw [translate] at h
      cases hp : primitive? name with
      | none => simp [hp] at h
      | some t =>
          simp only [hp, Except.ok.injEq] at h
          rw [← h, primitive?_imports hp, collectionsMet]
  | .node .reference _ _ _, _, _, h => by
      rw [translate] at h
      obtain ⟨t, -, rfl⟩ := map_eq_ok.mp h
      rfl
  | .node .optional _ [] _, _, _, h => by cases h
  | .node .optional _ (_ :: _) _, _, _, h => by
      rw [translate] at h
      rw [collectionsMet, collectionsMet_eq h]
  | .node .collection name arguments _, _, _, h => by
      rw [translate] at h
      rw [collectionsMet]
      cases hc : collection? name with
      | none => simp [hc] at h
      | some qualified =>
          simp only [hc] at h ⊢
          obtain ⟨tys, htys, rfl⟩ := map_eq_ok.mp h
          rw [argumentCollectionsMet_eq htys, Ty.imports]

theorem argumentCollectionsMet_eq : ∀ {ts : List PropertyType} {tys : List Ty},
    translateArguments a ts = .ok tys → argumentCollectionsMet a ts = Ty.argumentImports tys
  | [], _, h => by cases h; rfl
  | t :: ts, _, h => by
      rw [translateArguments] at h
      obtain ⟨ty, hty, h⟩ := bind_eq_ok.mp h
      obtain ⟨tys, htys, h⟩ := bind_eq_ok.mp h
      obtain rfl := Except.ok.inj h
      simp only [argumentCollectionsMet, hty, collectionsMet_eq hty, Ty.argumentImports,
        argumentCollectionsMet_eq htys]

end

theorem mem_accessorMet {members : List (String × String)} (m : Accessor) (method : Method)
    (h : accessorMethod config a members m = .ok method) :
    n ∈ accessorMet a members m ↔ n ∈ method.imports := by
  obtain ⟨name, hname, h⟩ := bind_eq_ok.mp h
  obtain ⟨type, htype, h⟩ := bind_eq_ok.mp h
  obtain ⟨doc, -, h⟩ := bind_eq_ok.mp h
  obtain rfl := Except.ok.inj h
  simp [accessorMet, hname, Method.imports, annotationImports, parameterImports,
    collectionsMet_eq htype]

theorem mem_componentMet {members : List (String × String)} (c : Component) (p : Parameter)
    (h : componentParameter a members c = .ok p) :
    n ∈ componentMet a members c ↔ n ∈ p.type.imports := by
  obtain ⟨hname, htype⟩ := componentParameter_spec h
  simp only [componentMet, hname, collectionsMet_eq htype]

theorem mem_interfaceMet {d : GeneratedInterface} {declared : Declaration}
    (h : interfaceDeclaration config a d = .ok declared) :
    n ∈ interfaceMet config a d ↔ n ∈ declared.imports := by
  obtain ⟨members, methods, doc, hmembers, hmethods, rfl⟩ := interfaceDeclaration_spec h
  simp [interfaceMet, hmembers, mem_metUpTo hmethods mem_accessorMet, Declaration.imports,
    Shape.imports, Ty.argumentImports_generated, annotationImports, nestedImports]

theorem mem_recordMet {d : GeneratedRecord} {declared : Declaration}
    (h : recordDeclaration config a d = .ok declared) :
    n ∈ recordMet config a d ↔ n ∈ declared.imports := by
  obtain ⟨members, components, hmembers, hcomponents, himports⟩ := mem_recordDeclaration_imports h
  have hparts : ∃ parts, recordParts config a members d = .ok parts := by
    rw [recordDeclaration, hmembers, ok_bind, hcomponents, ok_bind] at h
    obtain ⟨renamed, hrenamed, h⟩ := bind_eq_ok.mp h
    obtain ⟨lines, hlines, -⟩ := bind_eq_ok.mp h
    exact ⟨(components, lines), by
      simp only [recordParts, hcomponents, hrenamed, hlines, ok_bind, pure_eq]⟩
  obtain ⟨parts, hparts⟩ := hparts
  rw [himports, parameterImports, List.mem_flatMap, ← mem_metUpTo hcomponents mem_componentMet]
  simp only [recordMet, hmembers, hparts, List.mem_append]
  cases d.copyWith <;> simp

/-- A declaration that is built has met what it needs imported. -/
theorem mem_declarationMet {d : GeneratedType} {declared : Declaration}
    (h : declaration config a d = .ok declared) :
    n ∈ declarationMet config a d ↔ n ∈ declared.imports := by
  cases d with
  | interface d => exact mem_interfaceMet h
  | record d => exact mem_recordMet h

theorem print_imports (unit : CompilationUnit) {xs ys : List String} (h : ∀ x, x ∈ xs ↔ x ∈ ys)
    (indent : String) :
    { unit with imports := xs.eraseDups }.print indent =
      { unit with imports := ys.eraseDups }.print indent := by
  simp only [CompilationUnit.print, mergeSort_eraseDups_eq h]

namespace Backend

variable (config a)

/-- Declarations are built whatever was collected before, and what they need is added to that. -/
theorem exists_workThrough_build (b : Backend) (ds : List GeneratedType) : ∃ after : Backend,
    workThrough (build config a) b ds = (ds.mapM (declaration config a), after) ∧
      ∀ others, ds.mapM (declaration config a) = .ok others → ∀ n,
        n ∈ after.imports ↔ n ∈ b.imports ∨ ∃ d ∈ others, n ∈ d.imports := by
  have hanswer : (workThrough (build config a) b ds).1 = ds.mapM (declaration config a) :=
    workThrough_fst (p := fun _ => True) (by simp) (by intros; rfl) ds b trivial
  refine ⟨(workThrough (build config a) b ds).2, Prod.ext hanswer rfl, fun others h n => ?_⟩
  have hseen : (workThrough (build config a) b ds).2.imports =
      b.imports ++ ds.flatMap (declarationMet config a) :=
    workThrough_snd (p := fun _ => True) (by simp) (by intros; rfl) trivial (hanswer.trans h)
  rw [hseen, List.mem_append, List.mem_flatMap,
    exists_mem_mapM h fun _ _ hd => mem_declarationMet hd]

/-- A used backend builds and prints the unit of a container like a new one. -/
theorem buildFile_eq (comment : String) (b : Backend) (group : String × List GeneratedType) :
    (b.buildFile config a comment group).1 = (do
      return (filePath config group.1,
        (← containerUnit config a comment group).print config.indent)) := by
  obtain ⟨container, ds⟩ := group
  simp only [buildFile, buildUnit, containerUnit]
  cases ds.find? (·.head.isModuleType) with
  | none => rfl
  | some top =>
      simp only [build, List.nil_append]
      cases htop : declaration config a top with
      | error e => rfl
      | ok declared =>
          obtain ⟨head, shape, nested⟩ := declared
          obtain ⟨after, hwork, himports⟩ := exists_workThrough_build config a
            { imports := declarationMet config a top } (ds.eraseP (·.head.isModuleType))
          simp only [hwork, ok_bind]
          cases hothers : (ds.eraseP (·.head.isModuleType)).mapM (declaration config a) with
          | error e => rfl
          | ok others =>
              simp only [ok_bind, pure_eq, Except.ok.injEq, Prod.mk.injEq, true_and]
              refine print_imports { package := _, comment, container, types := _ }
                (fun n => ?_) _
              rw [himports others hothers, mem_declarationMet htop, mem_imports_nest]

/-- The files of a used backend are those of a new one. -/
theorem generate_eq (comment : String) (b : Backend) :
    (b.generate config a comment).1 = Java.generate config a comment := by
  have hmodules : (workThrough (buildFile config a comment) b (groups a)).1 =
      List.map (fun entry => (entry.1, entry.2.print config.indent)) <$>
        (groups a).mapM fun group => do
          return (filePath config group.1, ← containerUnit config a comment group) := by
    rw [workThrough_fst (p := fun _ => True) (by simp)
      (fun b group _ => buildFile_eq config a comment b group) (groups a) b trivial, ← mapM_map]
    congr 1
    funext group
    cases containerUnit config a comment group <;> rfl
  obtain ⟨after, hwork⟩ : ∃ after, workThrough (buildFile config a comment) b (groups a) =
      (_, after) := ⟨_, Prod.ext hmodules rfl⟩
  simp only [generate, hwork, Java.generate, units]
  cases (groups a).mapM fun group => (do
      return (filePath config group.1, ← containerUnit config a comment group) :
      Except TargetFault (String × CompilationUnit)) with
  | error e => rfl
  | ok modules => simp

end Backend

end Java

/-! ## Python -/

namespace Python

variable {config : Config} {a : Analysis} {names : Table TypePath String} {n : String}

theorem Ty.usesAny_nullable (t : Ty) : t.nullable.usesAny = t.usesAny := by
  cases t <;> rfl

mutual

/-- A type that is translated has met `Any` if its translation mentions it. -/
theorem mem_typingMet : ∀ {t : PropertyType} {ty : Ty}, translateInner a names t = .ok ty →
    (n ∈ typingMet a names t ↔ n = "Any" ∧ ty.usesAny = true)
  | .node .primitive name _ _, ty, h => by
      rw [translateInner] at h
      cases hp : primitive? name with
      | none => simp [hp] at h
      | some t =>
          simp only [hp, Except.ok.injEq] at h
          subst h
          unfold primitive? at hp
          split at hp <;> cases hp <;> simp [typingMet, Ty.usesAny]
  | .node .reference _ _ _, _, h => by
      rw [translateInner] at h
      obtain ⟨t, -, h⟩ := bind_eq_ok.mp h
      obtain ⟨name, -, h⟩ := bind_eq_ok.mp h
      obtain rfl := Except.ok.inj h
      simp [typingMet, Ty.usesAny]
  | .node .optional _ [] _, _, h => by cases h
  | .node .optional _ (_ :: _) _, _, h => by
      rw [translateInner] at h
      obtain ⟨inner, hinner, rfl⟩ := map_eq_ok.mp h
      rw [typingMet, Ty.usesAny_nullable, mem_typingMet hinner]
  | .node .collection name arguments _, _, h => by
      rw [translateInner] at h
      obtain ⟨tys, htys, h⟩ := bind_eq_ok.mp h
      cases hc : collection? name with
      | none => simp [hc] at h
      | some c =>
          simp only [hc, pure_eq, Except.ok.injEq] at h
          rw [typingMet, ← h, Ty.usesAny, mem_argumentTypingMet htys]

theorem mem_argumentTypingMet : ∀ {ts : List PropertyType} {tys : List Ty},
    translateArguments a names ts = .ok tys →
      (n ∈ argumentTypingMet a names ts ↔ n = "Any" ∧ Ty.argumentsUseAny tys = true)
  | [], _, h => by
      cases h
      simp [argumentTypingMet, Ty.argumentsUseAny]
  | t :: ts, _, h => by
      rw [translateArguments] at h
      obtain ⟨ty, hty, h⟩ := bind_eq_ok.mp h
      obtain ⟨tys, htys, h⟩ := bind_eq_ok.mp h
      obtain rfl := Except.ok.inj h
      simp only [argumentTypingMet, hty, List.mem_append, mem_typingMet hty,
        mem_argumentTypingMet htys, Ty.argumentsUseAny, Bool.or_eq_true, and_or_left]

end

theorem mem_fieldMet {members : List (String × String)} {name : String} {type : PropertyType}
    {nullable : Bool} {field : String × Ty}
    (h : fieldOf a names members name type nullable = .ok field) :
    n ∈ fieldMet a names members name type ↔ n = "Any" ∧ field.2.usesAny = true := by
  obtain ⟨member, hmember, h⟩ := bind_eq_ok.mp h
  obtain ⟨ty, hty, h⟩ := bind_eq_ok.mp h
  obtain rfl := Except.ok.inj h
  obtain ⟨inner, hinner, hty⟩ := bind_eq_ok.mp hty
  obtain rfl := Except.ok.inj hty
  cases nullable <;> simp [fieldMet, hmember, mem_typingMet hinner, Ty.usesAny_nullable]

theorem fieldOf_eq_ok {members : List (String × String)} {name : String} {type : PropertyType}
    {nullable : Bool} {field : String × Ty} :
    fieldOf a names members name type nullable = .ok field ↔
      memberOf members name = .ok field.1 ∧ translate a names type nullable = .ok field.2 := by
  obtain ⟨member, ty⟩ := field
  simp only [fieldOf, bind_eq_ok, pure_eq, Except.ok.injEq, Prod.mk.injEq]
  constructor
  · rintro ⟨_, hmember, _, hty, rfl, rfl⟩
    exact ⟨hmember, hty⟩
  · rintro ⟨hmember, hty⟩
    exact ⟨member, hmember, ty, hty, rfl, rfl⟩

theorem readableFieldOf_eq_ok {members : List (String × String)} {name : String}
    {type : PropertyType} {nullable : Bool} {field : String × Ty} :
    readableFieldOf a names members name type nullable = .ok field ↔
      fieldOf a names members name type nullable = .ok field ∧ field.2.isReadable = true := by
  simp only [readableFieldOf, bind_eq_ok, whenReadable_eq_ok, pure_eq, Except.ok.injEq]
  constructor
  · rintro ⟨_, hfield, -, hreadable, rfl⟩
    exact ⟨hfield, hreadable⟩
  · rintro ⟨hfield, hreadable⟩
    exact ⟨field, hfield, (), hreadable, rfl⟩

/-! ### Statements -/

theorem bodyUsesAny_eq (body : List Statement) : bodyUsesAny body = body.any (·.usesAny) := by
  induction body with
  | nil => rfl
  | cons s ss ih => rw [bodyUsesAny, ih, List.any_cons]

theorem doc_usesAny {doc : List Statement} (h : ∀ s ∈ doc, ∃ text, s = .doc text) :
    doc.any Statement.usesAny = false := by
  rw [List.any_eq_false]
  intro s hs
  obtain ⟨text, rfl⟩ := h s hs
  simp [Statement.usesAny]

theorem fields_useAny (fields : List (String × Ty)) :
    (fields.map fun f => Statement.field f.1 f.2).any Statement.usesAny =
      fields.any fun f => f.2.usesAny := by
  rw [List.any_map]
  rfl

theorem nonEmptyBody_usesAny (body : List Statement) :
    (nonEmptyBody body).any Statement.usesAny = body.any Statement.usesAny := by
  cases body <;> rfl

theorem stagingClass_usesAny {doc : List Statement} (hdoc : ∀ s ∈ doc, ∃ text, s = .doc text)
    (name : String) (fields : List (String × Ty)) :
    (stagingClass doc name fields).usesAny = fields.any fun f => f.2.usesAny := by
  simp [stagingClass, Statement.usesAny, bodyUsesAny_eq, doc_usesAny hdoc, Function.comp_def]

theorem withFunction_usesAny (name : String) : (withFunction name).usesAny = false := rfl

/-! ### Classes -/

theorem mem_interfaceMet {d : GeneratedInterface} {s : Statement}
    (h : interfaceClass config a names d = .ok s) :
    n ∈ interfaceMet config a names d ↔
      n ∈ ["Protocol", "runtime_checkable"] ∨ n = "Any" ∧ s.usesAny = true := by
  obtain ⟨members, block, doc, name, fields, bases, hmembers, hblock, hdoc, hfields, hreadable, -,
    hbases, rfl⟩ := interfaceClass_documented h
  have hbefore : interfaceMembers config a names d = .ok members := by
    simp only [interfaceMembers, hbases, hmembers, hblock, hdoc, ok_bind, pure_eq]
  have hfields := ((List.forall₂_and_left fields d.accessors).mpr ⟨hreadable, hfields.flip⟩).flip
  have hmapM : d.accessors.mapM (fun m => readableFieldOf a names members m.name m.type
      m.nullable) = .ok fields :=
    mapM_eq_ok.mpr (hfields.imp fun _ _ h => readableFieldOf_eq_ok.mpr ⟨fieldOf_eq_ok.mpr h.2, h.1⟩)
  simp only [interfaceMet, hbefore, List.mem_append,
    mem_metUpTo hmapM fun _ _ h => mem_fieldMet (readableFieldOf_eq_ok.mp h).1, Statement.usesAny,
    bodyUsesAny_eq, nonEmptyBody_usesAny, List.any_append, doc_usesAny (docStatement_spec hdoc),
    fields_useAny, Bool.false_or, List.any_eq_true]
  grind

theorem mem_recordMet {d : GeneratedRecord} {s : Statement}
    (h : recordClass config a names d = .ok s) :
    n ∈ recordMet a names d ↔ n ∈ ["final"] ∨ n = "Any" ∧ s.usesAny = true := by
  obtain ⟨members, doc, name, fields, bases, hmembers, hdoc, hfields, hname, -, hs⟩ :=
    recordClass_spec h
  have hbefore : recordMembers a names d = .ok members := by
    rw [recordClass, hname, ok_bind] at h
    obtain ⟨bases, hbases, h⟩ := bind_eq_ok.mp h
    obtain ⟨⟨⟩, hcontract, -⟩ := bind_eq_ok.mp h
    simp only [recordMembers, hname, hbases, hcontract, hmembers, ok_bind]
  have hmapM : d.components.mapM (fun c => fieldOf a names members c.name c.type c.nullable) =
      .ok fields := mapM_eq_ok.mpr (hfields.imp fun _ _ => fieldOf_eq_ok.mpr)
  have huses : s.usesAny = fields.any fun f => f.2.usesAny := by
    cases hcopy : d.copyWith with
    | none =>
        simp only [hcopy] at hs
        rw [hs, Statement.usesAny, bodyUsesAny_eq, nonEmptyBody_usesAny, List.any_append,
          doc_usesAny hdoc, fields_useAny, Bool.false_or]
    | some copy =>
        simp only [hcopy] at hs
        obtain ⟨stagingDoc, hstaging, rfl⟩ := hs
        rw [Statement.usesAny, bodyUsesAny_eq, List.any_append, List.any_append, doc_usesAny hdoc,
          fields_useAny, List.any_cons, List.any_cons, stagingClass_usesAny hstaging,
          withFunction_usesAny]
        simp
  simp only [recordMet, hbefore, List.mem_append, mem_metUpTo hmapM fun _ _ => mem_fieldMet, huses,
    List.any_eq_true]
  grind

/-- The names that every class of a kind needs, whatever its fields are. -/
def fixedTyping : GeneratedType → List String
  | .interface _ => ["Protocol", "runtime_checkable"]
  | .record _ => ["final"]

/-- A class that is built has met what it needs imported. -/
theorem mem_classMet {d : GeneratedType} {s : Statement}
    (h : classDefinition config a names d = .ok s) :
    n ∈ classMet config a names d ↔ n ∈ fixedTyping d ∨ n = "Any" ∧ s.usesAny = true := by
  cases d with
  | interface d => exact mem_interfaceMet h
  | record d => exact mem_recordMet h

/-! ### Modules -/

theorem exists_fixedTyping : (∃ d ∈ a.types, n ∈ fixedTyping d) ↔
    a.interfaces.isEmpty = false ∧ n ∈ ["Protocol", "runtime_checkable"] ∨
      a.records.isEmpty = false ∧ n ∈ ["final"] := by
  simp only [List.isEmpty_eq_false_iff_exists_mem, Analysis.interfaces, Analysis.records,
    List.mem_filterMap]
  constructor
  · rintro ⟨d, hd, hn⟩
    cases d with
    | interface d => exact Or.inl ⟨⟨d, _, hd, rfl⟩, hn⟩
    | record d => exact Or.inr ⟨⟨d, _, hd, rfl⟩, hn⟩
  · rintro (⟨⟨d, x, hx, hd⟩, hn⟩ | ⟨⟨d, x, hx, hd⟩, hn⟩)
    · cases x with
      | interface _ => exact ⟨_, hx, hn⟩
      | record _ => cases hd
    · cases x with
      | interface _ => cases hd
      | record _ => exact ⟨_, hx, hn⟩

theorem mem_typingImports (body : List Statement) :
    n ∈ typingImports a body ↔ (∃ d ∈ a.types, n ∈ fixedTyping d) ∨
      n = "Any" ∧ bodyUsesAny body = true ∨
      n ∈ if a.contract.isSome then ["Callable", "Protocol", "TypeVar"] else [] := by
  rw [exists_fixedTyping, typingImports]
  cases a.interfaces.isEmpty <;> cases a.records.isEmpty <;> cases a.contract.isSome <;>
    cases bodyUsesAny body <;> simp <;> grind

theorem typingImports_pairwise (a : Analysis) (body : List Statement) :
    (typingImports a body).Pairwise (· < ·) := by
  have hall : ["Any", "Callable", "Protocol", "TypeVar", "final", "runtime_checkable"].Pairwise
      (· < ·) := by decide
  exact hall.sublist (List.filter_sublist.map Prod.fst)

namespace Backend

variable (config a)

/-- Classes are built whatever was collected before, and what they need is added to that. -/
theorem exists_workThrough_build (b : Backend) (ds : List GeneratedType) : ∃ after : Backend,
    workThrough (build config a) b ds = (ds.mapM (classDefinition config a b.names), after) ∧
      ∀ body, ds.mapM (classDefinition config a b.names) = .ok body → ∀ n,
        n ∈ after.typing ↔ n ∈ b.typing ∨ (∃ d ∈ ds, n ∈ fixedTyping d) ∨
          n = "Any" ∧ bodyUsesAny body = true := by
  have hanswer : (workThrough (build config a) b ds).1 =
      ds.mapM (classDefinition config a b.names) :=
    workThrough_fst (p := (·.names = b.names)) (fun _ _ h => h)
      (by rintro s d hs; simp only [build, hs]) ds b rfl
  refine ⟨(workThrough (build config a) b ds).2, Prod.ext hanswer rfl, fun body h n => ?_⟩
  have hseen : (workThrough (build config a) b ds).2.typing =
      b.typing ++ ds.flatMap (classMet config a b.names) :=
    workThrough_snd (p := (·.names = b.names)) (fun _ _ h => h)
      (by rintro s d hs; simp only [build, hs]) rfl (hanswer.trans h)
  have hall := mapM_eq_ok.mp h
  rw [hseen, List.mem_append, List.mem_flatMap]
  refine or_congr_right ⟨?_, ?_⟩
  · rintro ⟨d, hd, hn⟩
    obtain ⟨s, hs, hclass⟩ := hall.exists_right d hd
    rcases (mem_classMet hclass).mp hn with hn | ⟨rfl, huses⟩
    · exact Or.inl ⟨d, hd, hn⟩
    · exact Or.inr ⟨rfl, by rw [bodyUsesAny_eq]; exact List.any_eq_true.mpr ⟨s, hs, huses⟩⟩
  · rintro (⟨d, hd, hn⟩ | ⟨rfl, huses⟩)
    · obtain ⟨s, -, hclass⟩ := hall.exists_right d hd
      exact ⟨d, hd, (mem_classMet hclass).mpr (Or.inl hn)⟩
    · rw [bodyUsesAny_eq] at huses
      obtain ⟨s, hs, huses⟩ := List.any_eq_true.mp huses
      obtain ⟨d, hd, hclass⟩ := hall.exists_left s hs
      exact ⟨d, hd, (mem_classMet hclass).mpr (Or.inr ⟨rfl, huses⟩)⟩

/-- The files of a used backend are those of a new one. -/
theorem generate_eq (comment : String) (b : Backend) :
    (b.generate config a comment).1 = Python.generate config a comment := by
  simp only [generate, Python.generate, classes]
  cases hnames : classNames a with
  | error e => rfl
  | ok names =>
      obtain ⟨after, hwork, htyping⟩ := exists_workThrough_build config a ⟨[], names⟩ a.types
      simp only [ok_bind, hwork]
      cases hbody : a.types.mapM (classDefinition config a names) with
      | error e => rfl
      | ok body =>
          simp only [ok_bind]
          split
          · rfl
          · have hsorted : (after.typing ++ if a.contract.isSome then
                ["Callable", "Protocol", "TypeVar"] else []).eraseDups.mergeSort
                  (fun x y => decide (x ≤ y)) = typingImports a body := by
              have hlt := typingImports_pairwise a body
              refine mergeSort_eraseDups_eq_of_pairwise (fun n => ?_)
                (hlt.imp fun h => Std.le_of_lt h) (hlt.imp fun h => Std.ne_of_lt h)
              rw [List.mem_append, htyping body hbody, mem_typingImports]
              simp [or_assoc]
            simp only [hsorted, pure_eq]

end Backend

end Python

end RecordGen

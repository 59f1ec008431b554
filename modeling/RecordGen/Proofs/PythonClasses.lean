import RecordGen.Proofs.Describing
import RecordGen.Proofs.DocLines
import RecordGen.Proofs.Members
import RecordGen.Target.PythonEmission

/-! # Python classes of loaded graphs

Once every type of a loaded graph has a name in the flat module, every type becomes a class, if the
texts in the class can be read. Nothing else is refused but names that two types would share. -/

namespace RecordGen.Python

open Fallible ClassGraph

/-! ## Legal members -/

theorem avoidMembers_length (steps : Nat) (name : String) :
    name.length ≤ (avoidMembers steps name).length := by
  induction steps generalizing name with
  | zero => exact Nat.le_refl _
  | succ steps ih =>
      rw [avoidMembers]
      split
      · have := ih (name ++ "_")
        rw [String.length_append] at this
        omega
      · exact Nat.le_refl _

theorem legalMember_lengthens : Lengthens legalMember := by
  intro name
  have hmethod : name.length ≤ (legalMethod name).length := by
    rw [legalMethod]
    split
    · simp
    · exact Nat.le_refl _
  exact Nat.le_trans hmethod (avoidMembers_length _ _)

/-- The members of the protocol are avoided like taken names, with nothing else to make legal. -/
theorem avoidMembers_eq (steps : Nat) (name : String) :
    avoidMembers steps name = freeMember id protocolMembers steps name := by
  induction steps generalizing name with
  | zero => rfl
  | succ steps ih => simp [avoidMembers, freeMember, ih]

theorem legalMember_not_protocol (name : String) : legalMember name ∉ protocolMembers := by
  rw [legalMember, avoidMembers_eq]
  exact freeMember_not_mem (fun _ => Nat.le_refl _) _ _

/-! ## Flat names -/

variable {config : Config} {g : ClassGraph} {a : Analysis} {names : Table TypePath String}

/-- Flat names only grow, and every type gets one. -/
theorem flatNames_ok {ts : List TypePath} : ∀ {taken : List String}
    {names all : Table TypePath String}, flatNames taken names ts = .ok all →
      ∀ t, (t ∈ ts ∨ ∃ n, names.find? t = some n) → ∃ n, all.find? t = some n := by
  induction ts with
  | nil =>
      intro taken names all h t ht
      obtain rfl := Except.ok.inj h
      simpa using ht
  | cons u us ih =>
      intro taken names all h t ht
      have hkept : ∀ n, t ∈ us ∨ ∃ m, (names.insert u n).find? t = some m := by
        intro n
        rw [Table.find?_insert]
        by_cases hu : u = t
        · simp [hu]
        · rcases ht with ht | ht
          · rcases List.mem_cons.mp ht with rfl | ht
            · exact absurd rfl hu
            · exact Or.inl ht
          · simpa [hu] using Or.inr ht
      rw [flatNames] at h
      split at h
      · exact ih h t (hkept _)
      · split at h
        · exact ih h t (hkept _)
        · cases h

/-- A type that gets no name keeps the one it has. -/
theorem flatNames_find?_of_not_mem {ts : List TypePath} {t : TypePath} (ht : t ∉ ts) :
    ∀ {taken : List String} {names all : Table TypePath String},
      flatNames taken names ts = .ok all → all.find? t = names.find? t := by
  induction ts with
  | nil =>
      intro taken names all h
      obtain rfl := Except.ok.inj h
      rfl
  | cons u us ih =>
      intro taken names all h
      rw [List.mem_cons, not_or] at ht
      have hkept : ∀ n, (names.insert u n).find? t = names.find? t := by
        intro n
        rw [Table.find?_insert, if_neg (Ne.symm ht.1)]
      rw [flatNames] at h
      split at h
      · rw [ih ht.2 h, hkept]
      · split at h
        · rw [ih ht.2 h, hkept]
        · cases h

/-- The names that are given differ from each other and from those taken before. -/
theorem flatNames_apart {ts : List TypePath} (hn : ts.Nodup) : ∀ {taken : List String}
    {names all : Table TypePath String}, flatNames taken names ts = .ok all →
      ∀ t ∈ ts, ∀ n, all.find? t = some n →
        n ∉ taken ∧ ∀ u ∈ ts, all.find? u = some n → t = u := by
  induction ts with
  | nil => simp
  | cons u us ih =>
      intro taken names all h
      obtain ⟨hu, hn⟩ := List.nodup_cons.mp hn
      -- The first type is given a free name, and the others none of the names taken by then.
      obtain ⟨own, hfree, hown, hrest⟩ : ∃ own, own ∉ taken ∧ all.find? u = some own ∧
          flatNames (own :: taken) (names.insert u own) us = .ok all := by
        rw [flatNames] at h
        split at h
        · rename_i hfree
          exact ⟨_, hfree, by rw [flatNames_find?_of_not_mem hu h]; simp, h⟩
        · split at h
          · rename_i hfree
            exact ⟨_, hfree, by rw [flatNames_find?_of_not_mem hu h]; simp, h⟩
          · cases h
      have hothers : ∀ t ∈ us, ∀ n, all.find? t = some n → n ≠ own ∧ n ∉ taken := by
        intro t ht n hname
        simpa using (ih hn hrest t ht n hname).1
      intro t ht n hname
      rcases List.mem_cons.mp ht with rfl | hus
      · obtain rfl := Option.some.inj (hown.symm.trans hname)
        refine ⟨hfree, fun v hv hnamed => ?_⟩
        rcases List.mem_cons.mp hv with rfl | hv
        · rfl
        · exact absurd rfl (hothers v hv _ hnamed).1
      · refine ⟨(hothers t hus n hname).2, fun v hv hnamed => ?_⟩
        rcases List.mem_cons.mp hv with rfl | hv
        · obtain rfl := Option.some.inj (hown.symm.trans hnamed)
          exact absurd rfl (hothers t hus _ hname).1
        · exact (ih hn hrest t hus n hname).2 v hv hnamed

/-- Flat names are refused only where two types would share one. -/
theorem flatNames_error {ts : List TypePath} {e : TargetFault} : ∀ {taken : List String}
    {names : Table TypePath String}, flatNames taken names ts = .error e →
      ∃ t ∈ ts, e = .ambiguous t.dotted := by
  induction ts with
  | nil =>
      intro taken names h
      cases h
  | cons u us ih =>
      intro taken names h
      rw [flatNames] at h
      split at h
      · obtain ⟨t, ht, he⟩ := ih h
        exact ⟨t, by simp [ht], he⟩
      · split at h
        · obtain ⟨t, ht, he⟩ := ih h
          exact ⟨t, by simp [ht], he⟩
        · exact ⟨u, by simp, (Except.error.inj h).symm⟩

/-- Every type of the result has a class name. -/
def Covers (names : Table TypePath String) (a : Analysis) : Prop :=
  ∀ t ∈ a.types.map (·.head.path), ∃ n, classNameOf names t = .ok n

theorem classNameOf_eq_ok {t : TypePath} {n : String} :
    classNameOf names t = .ok n ↔ names.find? t = some n := by
  rw [classNameOf]
  cases names.find? t <;> simp

theorem classNames_covers (h : classNames a = .ok names) : Covers names a := by
  intro t ht
  obtain ⟨n, hn⟩ := flatNames_ok h t (Or.inl ht)
  exact ⟨n, classNameOf_eq_ok.mpr hn⟩

/-! ## Types -/

theorem translateArguments_eq (a : Analysis) (names : Table TypePath String)
    (ts : List PropertyType) :
    translateArguments a names ts = ts.mapM (translateInner a names) := by
  induction ts with
  | nil => rw [translateArguments, List.mapM_nil, pure_eq]
  | cons t ts ih => rw [translateArguments, List.mapM_cons, ih]

theorem exists_primitive {name : String} (h : name ∈ primitiveNames) :
    ∃ t, primitive? name = some t := by
  rcases eq_of_mem_primitiveNames h with rfl | rfl | rfl | rfl | rfl | rfl <;> exact ⟨_, rfl⟩

theorem exists_collection {name : String} {arity : Nat} (h : collectionArity? name = some arity) :
    ∃ c, collection? name = some c := by
  rcases eq_of_collectionArity? h with rfl | rfl | rfl <;> exact ⟨_, rfl⟩

theorem translateInner_ok (h : a.Describes config g) (hnames : Covers names a) {t : PropertyType}
    (ht : t.Formed g.LinksTo) : ∃ ty, translateInner a names t = .ok ty := by
  induction ht with
  | primitive hname =>
      obtain ⟨t, ht⟩ := exists_primitive hname
      exact ⟨t, by rw [translateInner, ht]⟩
  | reference hlinks =>
      obtain ⟨r, hr, t, _, ht, hcounterpart⟩ := h.counterpart_ok hlinks
      obtain ⟨n, hn⟩ := hnames t (h.counterpart_mem hr (Resolution.eq_of_counterpart? ht))
      exact ⟨.generated n, by rw [translateInner, hcounterpart, ok_bind, hn, ok_bind, pure_eq]⟩
  | collection harity _ ih =>
      obtain ⟨c, hc⟩ := exists_collection harity
      obtain ⟨arguments, harguments⟩ := mapM_total ih
      refine ⟨.collection c arguments, ?_⟩
      simp only [translateInner, translateArguments_eq, harguments, hc, ok_bind, pure_eq]
  | optional _ ih =>
      obtain ⟨ty, hty⟩ := ih
      exact ⟨ty.nullable, by rw [translateInner, hty, map_ok]⟩

theorem translate_ok (h : a.Describes config g) (hnames : Covers names a) {t : PropertyType}
    (ht : t.Formed g.LinksTo) (nullable : Bool) : ∃ ty, translate a names t nullable = .ok ty := by
  obtain ⟨ty, hty⟩ := translateInner_ok h hnames ht
  exact ⟨_, by rw [translate, hty, ok_bind, pure_eq]⟩

/-! ## Documentation -/

theorem docStatement_ok (config : Config) (depth : Nat) {d : Documentation} (h : d.Solid) :
    ∃ statements, docStatement config depth d = .ok statements := by
  rw [docStatement]
  by_cases hskip : (!config.docs || d.isEmpty) = true
  · exact ⟨[], by rw [if_pos hskip, pure_eq]⟩
  · have hne : d.isEmpty = false := by
      rw [Bool.or_eq_true, not_or] at hskip
      simpa using hskip.2
    obtain ⟨first, others, hlines⟩ := Documentation.stringLines_ok h hne
    rw [if_neg hskip, hlines, mapError_ok, ok_bind]
    cases others with
    | nil => exact ⟨_, rfl⟩
    | cons second others => exact ⟨_, rfl⟩

theorem stagingDoc_solid (name : String) : (stagingDoc name).Solid where
  lead := by
    rintro s hs
    obtain rfl := Option.some.inj hs
    simp [Text.blank, Text.isBlank]
  entries := by simp [stagingDoc]

/-- A documentation statement holds documentation and nothing else. -/
theorem docStatement_spec {depth : Nat} {d : Documentation} {statements : List Statement}
    (h : docStatement config depth d = .ok statements) :
    ∀ s ∈ statements, ∃ text, s = .doc text := by
  rw [docStatement] at h
  split at h
  · obtain rfl := Except.ok.inj h
    simp
  · obtain ⟨lines, _, h⟩ := bind_eq_ok.mp h
    split at h
    · cases h
    · obtain rfl := Except.ok.inj h
      simp
    · obtain rfl := Except.ok.inj h
      simp

theorem interfaceDoc_ok {members : List (String × String)} {d : GeneratedInterface}
    (hlead : ∀ s, d.doc.lead = some s → Text.blank s = false)
    (h : ∀ m ∈ d.accessors, ∃ name, memberOf members m.name = .ok name) :
    ∃ doc, interfaceDoc members d = .ok doc ∧ doc.Solid := by
  let entries := d.accessors.filterMap fun m =>
    m.doc.bind fun text => if Text.blank text then none else some (m.name, text)
  change ∃ doc, renameEntries members { lead := d.doc.lead, entries } = .ok doc ∧ doc.Solid
  have hsolid : Documentation.Solid { lead := d.doc.lead, entries } := by
    refine ⟨hlead, fun e he => ?_⟩
    obtain ⟨m, _, hm⟩ := List.mem_filterMap.mp he
    obtain ⟨text, _, htext⟩ := Option.bind_eq_some_iff.mp hm
    split at htext
    · cases htext
    · rename_i hblank
      obtain rfl := Option.some.inj htext
      simpa using hblank
  obtain ⟨doc, hdoc, hdocSolid, -⟩ := renameEntries_ok hsolid fun e he => by
    obtain ⟨m, hm, hentry⟩ := List.mem_filterMap.mp he
    obtain ⟨text, _, htext⟩ := Option.bind_eq_some_iff.mp hentry
    split at htext
    · cases htext
    · obtain rfl := Option.some.inj htext
      exact h m hm
  exact ⟨doc, hdoc, hdocSolid⟩

/-! ## Readable texts -/

theorem whenReadable_eq_ok {b : Bool} {u : Unit} : whenReadable b = .ok u ↔ b = true := by
  cases b <;> simp [whenReadable]

theorem whenReadable_bind {α : Type} {b : Bool} {f : Unit → Except TargetFault α} :
    (whenReadable b >>= f) = if b then f () else .error .unreadable := by
  cases b <;> rfl

/-- The record has the copy-with protocol. -/
def copies : GeneratedType → Bool
  | .interface _ => false
  | .record d => d.copyWith.isSome

/-- The class of a type declares these fields, one for each member of the type. -/
def Declares (a : Analysis) (names : Table TypePath String) (d : GeneratedType)
    (fields : List (String × Ty)) : Prop :=
  ∃ members, a.memberTable legalMember d.head = .ok members ∧
    match d with
    | .interface d => List.Forall₂ (fun m f => memberOf members m.name = .ok f.1 ∧
        translate a names m.type m.nullable = .ok f.2) d.accessors fields
    | .record d => List.Forall₂ (fun c f => memberOf members c.name = .ok f.1 ∧
        translate a names c.type c.nullable = .ok f.2) d.components fields

/-- Whether the texts of a class can be read: the annotations of its fields and, with the copy-with
protocol, all that mentions the class. -/
def classReadable (copied : Bool) (name : String) (fields : List (String × Ty)) : Bool :=
  fields.all (fun f => f.2.isReadable) &&
    (!copied || contractReadable name && copiesReadable name fields)

/-- The texts in the class of a type can be read. -/
def Readable (a : Analysis) (names : Table TypePath String) (d : GeneratedType) : Prop :=
  ∃ name fields, classNameOf names d.head.path = .ok name ∧ Declares a names d fields ∧
    classReadable (copies d) name fields = true

/-! ## Classes -/

/-- The statements of accessors are fields under their member names, with their translated types,
all of which can be read. -/
theorem accessorFields_spec {members : List (String × String)} {ms : List Accessor}
    {statements : List Statement} (h : List.Forall₂ (fun m s => (do
      let name ← memberOf members m.name
      let type ← translate a names m.type m.nullable
      whenReadable type.isReadable
      return Statement.field name type) = .ok s) ms statements) :
    ∃ fields : List (String × Ty),
      List.Forall₂ (fun m f => memberOf members m.name = .ok f.1 ∧
        translate a names m.type m.nullable = .ok f.2) ms fields ∧
      (∀ f ∈ fields, f.2.isReadable = true) ∧
      statements = fields.map fun f => .field f.1 f.2 := by
  induction h with
  | nil => exact ⟨[], .nil, by simp, rfl⟩
  | cons hm _ ih =>
      obtain ⟨member, hmember, hm⟩ := bind_eq_ok.mp hm
      obtain ⟨type, htype, hm⟩ := bind_eq_ok.mp hm
      obtain ⟨⟨⟩, hreadable, hm⟩ := bind_eq_ok.mp hm
      obtain rfl := Except.ok.inj hm
      obtain ⟨fields, hfields, hall, rfl⟩ := ih
      exact ⟨(member, type) :: fields, .cons ⟨hmember, htype⟩ hfields,
        List.forall_mem_cons.mpr ⟨whenReadable_eq_ok.mp hreadable, hall⟩, rfl⟩

/-- The class of an interface extends the class of its parent and declares its accessors as fields
that can be read, below the documentation of the interface. -/
theorem interfaceClass_documented {d : GeneratedInterface} {s : Statement}
    (h : interfaceClass config a names d = .ok s) :
    ∃ members block doc name, ∃ (fields : List (String × Ty)) (bases : List String),
      a.memberTable legalMember d.toTypeHead = .ok members ∧
      interfaceDoc members d = .ok block ∧ docStatement config 1 block = .ok doc ∧
      List.Forall₂ (fun m f => memberOf members m.name = .ok f.1 ∧
        translate a names m.type m.nullable = .ok f.2) d.accessors fields ∧
      (∀ f ∈ fields, f.2.isReadable = true) ∧
      classNameOf names d.path = .ok name ∧
      d.parent.toList.mapM (classNameOf names) = .ok bases ∧
      s = .classDefinition [.name "runtime_checkable"] name (bases.map .name ++ [.name "Protocol"])
        (nonEmptyBody (doc ++ fields.map fun f => .field f.1 f.2)) := by
  obtain ⟨parents, hparents, h⟩ := bind_eq_ok.mp h
  obtain ⟨members, hmembers, h⟩ := bind_eq_ok.mp h
  obtain ⟨block, hblock, h⟩ := bind_eq_ok.mp h
  obtain ⟨doc, hdoc, h⟩ := bind_eq_ok.mp h
  obtain ⟨statements, hstatements, h⟩ := bind_eq_ok.mp h
  obtain ⟨name, hname, h⟩ := bind_eq_ok.mp h
  obtain ⟨fields, hfields, hall, rfl⟩ := accessorFields_spec (mapM_eq_ok.mp hstatements)
  exact ⟨members, block, doc, name, fields, parents, hmembers, hblock, hdoc, hfields, hall, hname,
    hparents, (Except.ok.inj h).symm⟩

/-- The class of an interface, whatever its documentation says. -/
theorem interfaceClass_spec {d : GeneratedInterface} {s : Statement}
    (h : interfaceClass config a names d = .ok s) :
    ∃ members doc name, ∃ (fields : List (String × Ty)) (bases : List String),
      a.memberTable legalMember d.toTypeHead = .ok members ∧
      (∀ s ∈ doc, ∃ text, s = .doc text) ∧
      List.Forall₂ (fun m f => memberOf members m.name = .ok f.1 ∧
        translate a names m.type m.nullable = .ok f.2) d.accessors fields ∧
      classNameOf names d.path = .ok name ∧
      d.parent.toList.mapM (classNameOf names) = .ok bases ∧
      s = .classDefinition [.name "runtime_checkable"] name (bases.map .name ++ [.name "Protocol"])
        (nonEmptyBody (doc ++ fields.map fun f => .field f.1 f.2)) := by
  obtain ⟨members, _, doc, name, fields, bases, hmembers, -, hdoc, hfields, -, hname, hbases, hs⟩ :=
    interfaceClass_documented h
  exact ⟨members, doc, name, fields, bases, hmembers, docStatement_spec hdoc, hfields, hname,
    hbases, hs⟩

/-- The class of a record extends those of the interfaces it implements and declares its components
as fields, below the documentation of the record. With the copy-with protocol it extends the
contract, and a staging class with documentation of its own and a method follow. All of this can be
read. -/
theorem recordClass_documented {d : GeneratedRecord} {s : Statement}
    (h : recordClass config a names d = .ok s) :
    ∃ members block doc name, ∃ (fields : List (String × Ty)) (bases : List String),
      a.memberTable legalMember d.toTypeHead = .ok members ∧
      renameEntries members d.doc = .ok block ∧ docStatement config 1 block = .ok doc ∧
      List.Forall₂ (fun c f => memberOf members c.name = .ok f.1 ∧
        translate a names c.type c.nullable = .ok f.2) d.components fields ∧
      classReadable (copies (.record d)) name fields = true ∧
      classNameOf names d.path = .ok name ∧
      d.implements.mapM (classNameOf names) = .ok bases ∧
      match d.copyWith with
      | none => s = .classDefinition
          [.name "final", .call (.name "dataclass") [] [("frozen", .name "True")]] name
          (bases.map .name) (nonEmptyBody (doc ++ fields.map fun f => .field f.1 f.2))
      | some _ => ∃ staging, docStatement config 2 (stagingDoc name) = .ok staging ∧
          s = .classDefinition
            [.name "final", .call (.name "dataclass") [] [("frozen", .name "True")]] name
            (bases.map .name ++ [.subscript (.name CopyProtocol.contract)
              [.text name, .text (name ++ "." ++ CopyProtocol.staging)]])
            (doc ++ fields.map (fun f => .field f.1 f.2) ++
              [stagingClass staging name fields, withFunction name]) := by
  obtain ⟨name, hname, h⟩ := bind_eq_ok.mp h
  obtain ⟨bases, hbases, h⟩ := bind_eq_ok.mp h
  obtain ⟨⟨⟩, hcontract, h⟩ := bind_eq_ok.mp h
  obtain ⟨members, hmembers, h⟩ := bind_eq_ok.mp h
  obtain ⟨fields, hfields, h⟩ := bind_eq_ok.mp h
  obtain ⟨block, hblock, h⟩ := bind_eq_ok.mp h
  obtain ⟨doc, hdoc, h⟩ := bind_eq_ok.mp h
  obtain ⟨⟨⟩, hall, h⟩ := bind_eq_ok.mp h
  have hwritten : List.Forall₂ (fun c f => memberOf members c.name = .ok f.1 ∧
      translate a names c.type c.nullable = .ok f.2) d.components fields := by
    refine (mapM_eq_ok.mp hfields).imp fun c f hc => ?_
    obtain ⟨member, hmember, hc⟩ := bind_eq_ok.mp hc
    obtain ⟨type, htype, hc⟩ := bind_eq_ok.mp hc
    obtain rfl := Except.ok.inj hc
    exact ⟨hmember, htype⟩
  have hcontract := whenReadable_eq_ok.mp hcontract
  have hall := whenReadable_eq_ok.mp hall
  refine ⟨members, block, doc, name, fields, bases, hmembers, hblock, hdoc, hwritten, ?_⟩
  cases hcopy : d.copyWith with
  | none =>
      simp only [hcopy] at h
      exact ⟨by simp only [classReadable, hall, copies, hcopy]; rfl, hname, hbases,
        (Except.ok.inj h).symm⟩
  | some copy =>
      simp only [hcopy, Option.isNone_some, Bool.false_or] at h hcontract
      obtain ⟨staging, hstaging, h⟩ := bind_eq_ok.mp h
      obtain ⟨⟨⟩, hcopies, h⟩ := bind_eq_ok.mp h
      have hcopies := whenReadable_eq_ok.mp hcopies
      exact ⟨by simp only [classReadable, hall, hcontract, hcopies]; simp, hname, hbases, staging,
        hstaging, (Except.ok.inj h).symm⟩

/-- The class of a record, whatever its documentation says. -/
theorem recordClass_spec {d : GeneratedRecord} {s : Statement}
    (h : recordClass config a names d = .ok s) :
    ∃ members doc name, ∃ (fields : List (String × Ty)) (bases : List String),
      a.memberTable legalMember d.toTypeHead = .ok members ∧
      (∀ s ∈ doc, ∃ text, s = .doc text) ∧
      List.Forall₂ (fun c f => memberOf members c.name = .ok f.1 ∧
        translate a names c.type c.nullable = .ok f.2) d.components fields ∧
      classNameOf names d.path = .ok name ∧
      d.implements.mapM (classNameOf names) = .ok bases ∧
      match d.copyWith with
      | none => s = .classDefinition
          [.name "final", .call (.name "dataclass") [] [("frozen", .name "True")]] name
          (bases.map .name) (nonEmptyBody (doc ++ fields.map fun f => .field f.1 f.2))
      | some _ => ∃ stagingDoc, (∀ s ∈ stagingDoc, ∃ text, s = .doc text) ∧ s = .classDefinition
          [.name "final", .call (.name "dataclass") [] [("frozen", .name "True")]] name
          (bases.map .name ++ [.subscript (.name CopyProtocol.contract)
            [.text name, .text (name ++ "." ++ CopyProtocol.staging)]])
          (doc ++ fields.map (fun f => .field f.1 f.2) ++
            [stagingClass stagingDoc name fields, withFunction name]) := by
  obtain ⟨members, _, doc, name, fields, bases, hmembers, -, hdoc, hfields, -, hname, hbases, hs⟩ :=
    recordClass_documented h
  refine ⟨members, doc, name, fields, bases, hmembers, docStatement_spec hdoc, hfields, hname,
    hbases, ?_⟩
  cases hcopy : d.copyWith with
  | none => simpa only [hcopy] using hs
  | some copy =>
      simp only [hcopy] at hs
      obtain ⟨staging, hstaging, rfl⟩ := hs
      exact ⟨staging, docStatement_spec hstaging, rfl⟩

/-- The documentation of an interface names the members that its accessors became. -/
theorem describedDoc_ok (h : a.Describes config g) {r : Resolution} (hr : r ∈ a.resolutions)
    (t : TypePath) : ∃ block, interfaceDoc (allocateMembers legalMember [] r.properties)
      (Analysis.interfaceOf g r t) = .ok block ∧ block.Solid :=
  interfaceDoc_ok (fun _ hs => Documentation.cleaned_not_blank hs) fun _ hm =>
    h.exists_member legalMember hr (h.accessor_spec hr hm).2

/-- The class of an interface is written if its texts can be read, and refused otherwise. -/
theorem interfaceClass_eq (h : a.Describes config g) (hnames : Covers names a) {r : Resolution}
    (hr : r ∈ a.resolutions) {t : TypePath} (ht : r.interface = some t) :
    ∃ name fields s, classNameOf names (Analysis.interfaceOf g r t).path = .ok name ∧
      Declares a names (.interface (Analysis.interfaceOf g r t)) fields ∧
      interfaceClass config a names (Analysis.interfaceOf g r t) =
        if classReadable false name fields then .ok s else .error .unreadable := by
  have hmembers := h.memberTable_ok legalMember hr
    (show (Analysis.interfaceOf g r t).toTypeHead.source = r.source from rfl)
  obtain ⟨parents, hparents⟩ : ∃ parents, (Analysis.interfaceOf g r t).parent.toList.mapM
      (classNameOf names) = .ok parents :=
    mapM_total fun u hu => hnames u (h.parent_mem hr (Option.mem_toList.mp hu))
  obtain ⟨block, hblock, hsolid⟩ := describedDoc_ok h hr t
  obtain ⟨doc, hdoc⟩ := docStatement_ok config 1 hsolid
  obtain ⟨fields, hfields⟩ : ∃ fields : List (String × Ty), List.Forall₂ (fun m f =>
      memberOf (allocateMembers legalMember [] r.properties) m.name = .ok f.1 ∧
        translate a names m.type m.nullable = .ok f.2)
      (Analysis.interfaceOf g r t).accessors fields := by
    refine List.Forall₂.exists_of_forall fun m hm => ?_
    obtain ⟨hformed, hproperty⟩ := h.accessor_spec hr hm
    obtain ⟨name, hname⟩ := h.exists_member legalMember hr hproperty
    obtain ⟨type, htype⟩ := translate_ok h hnames hformed m.nullable
    exact ⟨(name, type), hname, htype⟩
  obtain ⟨name, hname⟩ := hnames _ (h.counterpart_mem hr (Or.inl ht))
  rw [← h.interface_path hr ht] at hname
  have hstatements : (Analysis.interfaceOf g r t).accessors.mapM (fun m => do
      let name ← memberOf (allocateMembers legalMember [] r.properties) m.name
      let type ← translate a names m.type m.nullable
      whenReadable type.isReadable
      return Statement.field name type) =
      if fields.all (fun f => f.2.isReadable) then .ok (fields.map fun f => .field f.1 f.2)
      else .error .unreadable := by
    refine mapM_checked (hfields.imp fun m f hf => ?_)
    rw [hf.1, ok_bind, hf.2, ok_bind, whenReadable_bind]
    rfl
  refine ⟨name, fields, .classDefinition [.name "runtime_checkable"] name
    (parents.map .name ++ [.name "Protocol"])
    (nonEmptyBody (doc ++ fields.map fun f => .field f.1 f.2)), hname, ⟨_, hmembers, hfields⟩, ?_⟩
  simp only [interfaceClass, hparents, hmembers, hblock, hdoc, hstatements, ok_bind, classReadable,
    Bool.not_false, Bool.true_or, Bool.and_true]
  split
  · rw [ok_bind, hname, ok_bind]
    rfl
  · rfl

/-- The class of a record is written if its texts can be read, and refused otherwise. -/
theorem recordClass_eq (h : a.Describes config g) (hnames : Covers names a) {r : Resolution}
    (hr : r ∈ a.resolutions) {t : TypePath} (ht : r.record = some t) :
    ∃ name fields s, classNameOf names (Analysis.recordOf config g r t).path = .ok name ∧
      Declares a names (.record (Analysis.recordOf config g r t)) fields ∧
      recordClass config a names (Analysis.recordOf config g r t) =
        if classReadable (copies (.record (Analysis.recordOf config g r t))) name fields then .ok s
        else .error .unreadable := by
  have hmembers := h.memberTable_ok legalMember hr
    (show (Analysis.recordOf config g r t).toTypeHead.source = r.source from rfl)
  obtain ⟨name, hname⟩ := hnames _ (h.counterpart_mem hr (Or.inr ht))
  rw [← h.record_path hr ht] at hname
  obtain ⟨bases, hbases⟩ : ∃ bases, (Analysis.recordOf config g r t).implements.mapM
      (classNameOf names) = .ok bases :=
    mapM_total fun u hu => hnames u (h.implements_mem hr hu)
  obtain ⟨fields, hwritten⟩ : ∃ fields : List (String × Ty), List.Forall₂ (fun c f =>
      memberOf (allocateMembers legalMember [] r.properties) c.name = .ok f.1 ∧
        translate a names c.type c.nullable = .ok f.2)
      (Analysis.recordOf config g r t).components fields := by
    refine List.Forall₂.exists_of_forall fun c hc => ?_
    obtain ⟨hformed, hproperty⟩ := h.component_spec hr hc
    obtain ⟨member, hm⟩ := h.exists_member legalMember hr hproperty
    obtain ⟨type, htype⟩ := translate_ok h hnames hformed c.nullable
    exact ⟨(member, type), hm, htype⟩
  have hfields : (Analysis.recordOf config g r t).components.mapM (fun c => do
      let member ← memberOf (allocateMembers legalMember [] r.properties) c.name
      return (member, ← translate a names c.type c.nullable)) = .ok fields :=
    mapM_eq_ok.mpr (hwritten.imp fun c f hf => by rw [hf.1, ok_bind, hf.2, ok_bind]; rfl)
  have hdeclares : Declares a names (.record (Analysis.recordOf config g r t)) fields :=
    ⟨_, hmembers, hwritten⟩
  obtain ⟨renamed, hrenamed, hsolid⟩ := h.recordDoc_ok legalMember hr t
  obtain ⟨doc, hdoc⟩ := docStatement_ok config 1 hsolid
  obtain ⟨staging, hstaging⟩ := docStatement_ok config 2 (stagingDoc_solid name)
  cases hcopy : (Analysis.recordOf config g r t).copyWith with
  | none =>
      refine ⟨name, fields, .classDefinition
        [.name "final", .call (.name "dataclass") [] [("frozen", .name "True")]] name
        (bases.map .name) (nonEmptyBody (doc ++ fields.map fun f => .field f.1 f.2)), hname,
        hdeclares, ?_⟩
      simp only [recordClass, hname, hbases, hmembers, hfields, hrenamed, hdoc, hcopy, ok_bind,
        whenReadable_bind, Option.isNone_none, Bool.true_or, if_true, classReadable, copies,
        Option.isSome_none, Bool.not_false, Bool.and_true]
      rfl
  | some copy =>
      refine ⟨name, fields, .classDefinition
        [.name "final", .call (.name "dataclass") [] [("frozen", .name "True")]] name
        (bases.map .name ++ [.subscript (.name CopyProtocol.contract)
          [.text name, .text (name ++ "." ++ CopyProtocol.staging)]])
        (doc ++ fields.map (fun f => .field f.1 f.2) ++
          [stagingClass staging name fields, withFunction name]), hname, hdeclares, ?_⟩
      simp only [recordClass, hname, hbases, hmembers, hfields, hrenamed, hdoc, hcopy, hstaging,
        ok_bind, whenReadable_bind, Option.isNone_some, Bool.false_or, classReadable, copies,
        Option.isSome_some, Bool.not_true]
      cases contractReadable name <;> cases copiesReadable name fields <;>
        cases fields.all (fun f => f.2.isReadable) <;> rfl

/-- A type's class declares one list of fields only. -/
theorem Declares.unique {d : GeneratedType} {fields fields' : List (String × Ty)}
    (h : Declares a names d fields) (h' : Declares a names d fields') : fields = fields' := by
  obtain ⟨members, hmembers, h⟩ := h
  obtain ⟨members', hmembers', h'⟩ := h'
  obtain rfl := Except.ok.inj (hmembers.symm.trans hmembers')
  have hsame : ∀ {α : Type} {name : α → String} {type : α → PropertyType} {nullable : α → Bool},
      Relator.RightUnique fun (x : α) (f : String × Ty) => memberOf members (name x) = .ok f.1 ∧
        translate a names (type x) (nullable x) = .ok f.2 := by
    intro α name type nullable x f f' hf hf'
    exact Prod.ext (Except.ok.inj (hf.1.symm.trans hf'.1)) (Except.ok.inj (hf.2.symm.trans hf'.2))
  cases d with
  | interface d => exact List.right_unique_forall₂' hsame h h'
  | record d => exact List.right_unique_forall₂' hsame h h'

/-- The class of a type is written if its texts can be read, and refused otherwise. -/
theorem classDefinition_cases (h : a.Describes config g) (hnames : Covers names a)
    {d : GeneratedType} (hd : d ∈ a.types) :
    (Readable a names d ∧ ∃ s, classDefinition config a names d = .ok s) ∨
      ¬Readable a names d ∧ classDefinition config a names d = .error .unreadable := by
  have heq : ∃ name fields s, classNameOf names d.head.path = .ok name ∧
      Declares a names d fields ∧ classDefinition config a names d =
        if classReadable (copies d) name fields then .ok s else .error .unreadable := by
    obtain ⟨r, hr, ⟨t, ht, rfl⟩ | ⟨t, ht, rfl⟩⟩ := h.mem_types.mp hd
    · exact interfaceClass_eq h hnames hr ht
    · exact recordClass_eq h hnames hr ht
  obtain ⟨name, fields, s, hname, hdeclares, hclass⟩ := heq
  cases hreadable : classReadable (copies d) name fields with
  | true =>
      rw [hreadable] at hclass
      exact Or.inl ⟨⟨name, fields, hname, hdeclares, hreadable⟩, s, hclass⟩
  | false =>
      rw [hreadable] at hclass
      refine Or.inr ⟨?_, hclass⟩
      rintro ⟨name', fields', hname', hdeclares', hreadable'⟩
      obtain rfl := Except.ok.inj (hname.symm.trans hname')
      obtain rfl := hdeclares.unique hdeclares'
      cases hreadable.symm.trans hreadable'

/-- Once all types have names, all classes are written if their texts can be read. -/
theorem classes_cases (h : a.Describes config g) (hnames : classNames a = .ok names) :
    ((∀ d ∈ a.types, Readable a names d) ∧ ∃ body, classes config a = .ok body ∧
      List.Forall₂ (fun d s => classDefinition config a names d = .ok s) a.types body) ∨
    (∃ d ∈ a.types, ¬Readable a names d) ∧ classes config a = .error .unreadable := by
  have hcases := fun d hd => classDefinition_cases h (classNames_covers hnames) (d := d) hd
  by_cases hall : ∀ d ∈ a.types, Readable a names d
  · obtain ⟨body, hbody⟩ := mapM_total fun d hd =>
      ((hcases d hd).resolve_right fun hrefused => hrefused.1 (hall d hd)).2
    exact Or.inl ⟨hall, body, by rw [classes, hnames, ok_bind, hbody], mapM_eq_ok.mp hbody⟩
  · refine Or.inr ⟨by simpa using hall, ?_⟩
    rw [classes, hnames, ok_bind]
    cases hbody : a.types.mapM (classDefinition config a names) with
    | ok body =>
        refine absurd (fun d hd => ?_) hall
        obtain ⟨s, -, hs⟩ := (mapM_eq_ok.mp hbody).exists_right d hd
        refine ((hcases d hd).resolve_right fun hrefused => ?_).1
        cases hrefused.2.symm.trans hs
    | error e =>
        obtain ⟨d, hd, he⟩ := mapM_eq_error hbody
        rcases hcases d hd with ⟨-, s, hs⟩ | ⟨-, hrefused⟩
        · cases hs.symm.trans he
        · rw [Except.error.inj (hrefused.symm.trans he)]

/-! ## The file of a result -/

/-- The file of a result, from its classes. -/
def fileOf (a : Analysis) (comment : String) (body : List Statement) : List (String × String) :=
  [(moduleFile, joinModule ("\n".intercalate (preludeLines a (typingImports a body) comment))
    (Statement.printAll body))]

theorem generate_eq_ok {comment : String} {files : List (String × String)}
    (h : generate config a comment = .ok files) :
    ∃ body, classes config a = .ok body ∧ files = fileOf a comment body := by
  obtain ⟨body, hbody, h⟩ := bind_eq_ok.mp h
  refine ⟨body, hbody, ?_⟩
  split at h
  · cases h
  · exact (Except.ok.inj h).symm

end RecordGen.Python

import RecordGen.Proofs.JavaReferences
import RecordGen.Proofs.Outcomes
import RecordGen.Proofs.TypeNames

/-! # What written names denote in Java

A reference is written as seen from a container and read back by scoping: in a container's body the
nested types hide the container, which hides the other top-level types. A reference to another
container starts with that container's name, and a nested type of the same name captures it. -/

namespace RecordGen

/-- The simple names on the way from the top level to a type. -/
def TypePath.location (t : TypePath) : List String :=
  if t.isModuleType then [t.container] else [t.container, t.name]

/-- The names by which a record's declaration mentions the record and its staging class, each with
the location that is meant. -/
def GeneratedRecord.ownNames (d : GeneratedRecord) : List (String × List String) :=
  (d.name, d.path.location) :: d.copyWith.toList.map fun copy =>
    (copy.stagingName, d.path.location ++ [CopyProtocol.staging])

namespace Java

open Fallible ClassGraph

/-! ## Scopes -/

/-- A type is declared at the end of a path. -/
def declares : List String → List Declaration → Bool
  | [], _ => true
  | name :: path, ds => ds.any fun d => d.head.name == name && declares path d.nested

/-- The simple names of a dotted name. -/
def nameParts (text : String) : List String :=
  (text.toList.splitOn '.').map String.ofList

/-- The location that a dotted name denotes, given what its first part does: each further part is
nested in what the parts before it denote. -/
def qualified? (tops : List Declaration) (simple? : String → Option (List String))
    (text : String) : Option (List String) :=
  match nameParts text with
  | [] => none
  | name :: rest => (simple? name).bind fun outer =>
    if declares (outer ++ rest) tops then some (outer ++ rest) else none

def topLevel? (tops : List Declaration) (name : String) : Option (List String) :=
  if declares [name] tops then some [name] else none

/-- In the body of a container, its nested types come first, then the container, and then the other
top-level types. -/
def nestedFirst? (tops : List Declaration) (container name : String) : Option (List String) :=
  if declares [container, name] tops then some [container, name]
  else if name = container then some [container]
  else topLevel? tops name

/-- What a name in the clauses of a top-level type denotes. -/
def denotedInClause? (tops : List Declaration) (text : String) : Option (List String) :=
  qualified? tops (topLevel? tops) text

/-- What a name in the body of a container denotes. -/
def denotedInBody? (tops : List Declaration) (container text : String) : Option (List String) :=
  qualified? tops (nestedFirst? tops container) text

theorem declares_cons {name : String} {path : List String} {ds : List Declaration} :
    declares (name :: path) ds = true ↔
      ∃ d ∈ ds, d.head.name = name ∧ declares path d.nested = true := by
  simp [declares]

theorem declares_singleton {name : String} {ds : List Declaration} :
    declares [name] ds = true ↔ ∃ d ∈ ds, d.head.name = name := by
  simp [declares]

/-! ## Dotted names -/

theorem nameParts_of_undotted {name : String} (h : Undotted name) : nameParts name = [name] := by
  rw [nameParts, List.splitOn_eq_singleton h]
  simp

theorem nameParts_append {outer inner : String} (ho : Undotted outer) (hi : Undotted inner) :
    nameParts (outer ++ "." ++ inner) = [outer, inner] := by
  have hlist : (outer ++ "." ++ inner).toList = outer.toList ++ '.' :: inner.toList := by simp
  rw [nameParts, hlist, List.splitOn_append_cons_self_of_not_mem ho, List.splitOn_eq_singleton hi]
  simp

/-- A reference from another container starts with the container of the type. -/
theorem nameParts_dotted {t : TypePath} (hname : Undotted t.name)
    (hcontainer : Undotted t.container) : nameParts t.dotted = t.location := by
  rw [TypePath.dotted, TypePath.location]
  split
  · rename_i hmodule
    rw [TypePath.isModuleType, beq_iff_eq] at hmodule
    rw [nameParts_of_undotted hname, hmodule]
  · exact nameParts_append hcontainer hname

/-! ## What the units of a result declare -/

variable {config : Config} {g : ClassGraph} {a : Analysis}

/-- Top-level declarations hold the types of a result: every container at the top, and in it the
other types of the container under their names, besides staging classes. -/
structure DeclaresTypes (a : Analysis) (tops : List Declaration) : Prop where
  containers : ∀ d ∈ a.types, declares [d.head.container] tops = true
  contract : a.contract.isSome = true → declares [CopyProtocol.contract] tops = true
  nested : ∀ container name, name ≠ CopyProtocol.staging →
    (declares [container, name] tops = true ↔
      name ≠ container ∧ ⟨name, container⟩ ∈ a.types.map (·.head.path))
  staging : ∀ d ∈ a.types, ∀ name ∈ d.nestedNames,
    declares (d.head.path.location ++ [name]) tops = true

/-- Two levels are declared exactly for the types nested in a container. -/
theorem declares_nested_iff (h : a.Describes config g) {us : List (String × CompilationUnit)}
    (hus : Lays a us) {container name : String} (hname : name ≠ CopyProtocol.staging) :
    declares [container, name] (us.flatMap (·.2.types)) = true ↔
      name ≠ container ∧ ⟨name, container⟩ ∈ a.types.map (·.head.path) := by
  have hmodule : ∀ d ∈ a.types, d.head.isModuleType = (d.head.name == d.head.container) :=
    fun d hd => h.isModuleType_eq hd
  rw [declares_cons]
  constructor
  · rintro ⟨whole, hmem, rfl, hnested⟩
    obtain ⟨n, hn, rfl⟩ := declares_singleton.mp hnested
    rcases hus.houses_or_contract hmem with ⟨container, hhouses⟩ | ⟨contract, rfl⟩
    · rcases hhouses.only n hn with hstaging | ⟨d, hd, hcontainer, hown, hdn⟩
      · exact absurd hstaging hname
      · rw [hmodule d hd, beq_eq_false_iff_ne, hdn, hcontainer, ← hhouses.name] at hown
        refine ⟨hown, List.mem_map.mpr ⟨d, hd, ?_⟩⟩
        rw [TypeHead.path, hdn, hcontainer, hhouses.name]
    · cases hn
  · rintro ⟨hne, hmem⟩
    obtain ⟨d, hd, hpath⟩ := List.mem_map.mp hmem
    obtain ⟨rfl, rfl⟩ := TypePath.mk.inj hpath
    obtain ⟨whole, hmem, hwhole⟩ := hus.exists_houses hd
    have hnested : d.head.isModuleType = false := by
      rw [hmodule d hd]
      exact beq_eq_false_iff_ne.mpr hne
    obtain ⟨n, hn, hnname, -⟩ := hwhole.others d hd rfl hnested
    exact ⟨whole, hmem, hwhole.name, declares_singleton.mpr ⟨n, hn, hnname⟩⟩

/-- The staging class of a record is declared in the record. -/
theorem declares_staging (h : a.Describes config g) {us : List (String × CompilationUnit)}
    (hus : Lays a us) {d : GeneratedType} (hd : d ∈ a.types) {name : String}
    (hname : name ∈ d.nestedNames) :
    declares (d.head.path.location ++ [name]) (us.flatMap (·.2.types)) = true := by
  obtain ⟨whole, hmem, hwhole⟩ := hus.exists_houses hd
  rw [TypePath.location, ← h.isModuleType_eq hd]
  split
  · rename_i hown
    obtain ⟨n, hn, hnname⟩ := hwhole.own d hd rfl hown name hname
    exact declares_cons.mpr ⟨whole, hmem, hwhole.name, declares_singleton.mpr ⟨n, hn, hnname⟩⟩
  · rename_i hown
    obtain ⟨n, hn, hnname, hinner⟩ := hwhole.others d hd rfl (by simpa using hown)
    rw [← hinner] at hname
    obtain ⟨m, hm, hmname⟩ := List.mem_map.mp hname
    refine declares_cons.mpr ⟨whole, hmem, hwhole.name, declares_cons.mpr ⟨n, hn, hnname, ?_⟩⟩
    exact declares_singleton.mpr ⟨m, hm, hmname⟩

theorem units_declaresTypes (h : a.Describes config g) {us : List (String × CompilationUnit)}
    (hus : Lays a us) : DeclaresTypes a (us.flatMap (·.2.types)) where
  containers d hd := by
    obtain ⟨whole, hmem, hwhole⟩ := hus.exists_houses hd
    exact declares_singleton.mpr ⟨whole, hmem, hwhole.name⟩
  contract hsome := by
    obtain ⟨contract, hcontract⟩ := Option.isSome_iff_exists.mp hsome
    obtain ⟨e, he, htypes⟩ := hus.contract contract hcontract
    refine declares_singleton.mpr ⟨contractDeclaration contract, ?_, rfl⟩
    exact List.mem_flatMap.mpr ⟨e, he, by simp [htypes]⟩
  nested _ _ hname := declares_nested_iff h hus hname
  staging _ hd _ hname := declares_staging h hus hd hname

/-- The names of a result's types can be told apart from dotted names and from the copy-with
protocol. -/
structure PlainNames (a : Analysis) : Prop where
  names : ∀ t ∈ a.types.map (·.head.path), Undotted t.name ∧ t.name ∉ protocolTypes
  containers : ∀ t ∈ a.types.map (·.head.path), Undotted t.container ∧ t.container ∉ protocolTypes

theorem plainNames (h : a.Describes config g) (hp : Undotted config.interfacePrefix) :
    PlainNames a := by
  have hboth : ∀ t ∈ a.types.map (·.head.path), Undotted t.name ∧ Undotted t.container ∧
      t.name ∉ protocolTypes ∧ t.container ∉ protocolTypes := by
    intro t ht
    obtain ⟨s, c, -, hfind⟩ := h.exists_allocated ht
    exact h.linked.type_names hp hfind
  constructor
  · intro t ht
    obtain ⟨hname, -, hfree, -⟩ := hboth t ht
    exact ⟨hname, hfree⟩
  · intro t ht
    obtain ⟨-, hcontainer, -, hfree⟩ := hboth t ht
    exact ⟨hcontainer, hfree⟩

theorem ne_staging_of_not_mem {name : String} (h : name ∉ protocolTypes) :
    name ≠ CopyProtocol.staging := by
  rintro rfl
  exact h (by decide)

/-! ## Reading references -/

section Reading

variable {tops : List Declaration} (hd : DeclaresTypes a tops) (hn : PlainNames a)
include hd hn

theorem declares_location {t : TypePath} (ht : t ∈ a.types.map (·.head.path)) :
    declares t.location tops = true := by
  rw [TypePath.location]
  split
  · obtain ⟨d, hmem, rfl⟩ := List.mem_map.mp ht
    exact hd.containers d hmem
  · rename_i hmodule
    rw [TypePath.isModuleType, beq_iff_eq] at hmodule
    exact (hd.nested _ _ (ne_staging_of_not_mem (hn.names t ht).2)).mpr ⟨hmodule, ht⟩

/-- Inside its container a type's simple name denotes it. -/
theorem nestedFirst?_name {t : TypePath} (ht : t ∈ a.types.map (·.head.path)) :
    nestedFirst? tops t.container t.name = some t.location := by
  have hnested := hd.nested t.container t.name (ne_staging_of_not_mem (hn.names t ht).2)
  rw [nestedFirst?, TypePath.location, TypePath.isModuleType]
  by_cases hmodule : t.name = t.container
  · have hdeclares : ¬declares [t.container, t.name] tops = true :=
      fun hdeclares => (hnested.mp hdeclares).1 hmodule
    rw [if_neg hdeclares, if_pos hmodule, if_pos (beq_iff_eq.mpr hmodule)]
  · have hdeclares : declares [t.container, t.name] tops = true := hnested.mpr ⟨hmodule, ht⟩
    rw [if_pos hdeclares, if_neg (by simpa using hmodule)]

/-- In the body of another container, a container's name denotes the container unless a type nested
in the other one has that name. -/
theorem nestedFirst?_container {t : TypePath} (ht : t ∈ a.types.map (·.head.path))
    {container : String} (hne : t.container ≠ container) :
    nestedFirst? tops container t.container =
      if ⟨t.container, container⟩ ∈ a.types.map (·.head.path) then some [container, t.container]
      else some [t.container] := by
  have hnested := hd.nested container t.container (ne_staging_of_not_mem (hn.containers t ht).2)
  have htop : declares [t.container] tops = true := by
    obtain ⟨d, hmem, rfl⟩ := List.mem_map.mp ht
    exact hd.containers d hmem
  by_cases hmem : ⟨t.container, container⟩ ∈ a.types.map (·.head.path)
  · have hdeclares : declares [container, t.container] tops = true := hnested.mpr ⟨hne, hmem⟩
    rw [nestedFirst?, if_pos hdeclares, if_pos hmem]
  · have hdeclares : ¬declares [container, t.container] tops = true :=
      fun hdeclares => hmem (hnested.mp hdeclares).2
    rw [nestedFirst?, if_neg hdeclares, if_neg hne, topLevel?, if_pos htop, if_neg hmem]

/-- A reference is read as the type it was written for, unless it names another container and a type
nested in the container around it has that container's name. -/
theorem denotedInBody?_typeReference {t : TypePath} (ht : t ∈ a.types.map (·.head.path))
    (container : String) :
    denotedInBody? tops container (typeReference container t) = some t.location ↔
      t.container = container ∨ ⟨t.container, container⟩ ∉ a.types.map (·.head.path) := by
  have hdeclares := declares_location hd hn ht
  by_cases hcontainer : t.container = container
  · subst hcontainer
    have hread : denotedInBody? tops t.container (typeReference t.container t) =
        some t.location := by
      simp [denotedInBody?, qualified?, typeReference, nameParts_of_undotted (hn.names t ht).1,
        nestedFirst?_name hd hn ht, hdeclares]
    simp [hread]
  · obtain ⟨rest, hlocation⟩ : ∃ rest, t.location = t.container :: rest := by
      rw [TypePath.location]
      split <;> exact ⟨_, rfl⟩
    have hparts : nameParts (typeReference container t) = t.container :: rest := by
      rw [typeReference, if_neg hcontainer,
        nameParts_dotted (hn.names t ht).1 (hn.containers t ht).1, hlocation]
    rw [hlocation] at hdeclares
    have hsimple := nestedFirst?_container hd hn ht hcontainer
    by_cases hmem : ⟨t.container, container⟩ ∈ a.types.map (·.head.path)
    · rw [if_pos hmem] at hsimple
      simp only [hcontainer, hmem, not_true_eq_false, or_self, iff_false]
      intro hread
      rw [denotedInBody?, qualified?, hparts] at hread
      obtain ⟨outer, houter, hread⟩ := Option.bind_eq_some_iff.mp hread
      obtain rfl := Option.some.inj (houter.symm.trans hsimple)
      split at hread
      · rw [hlocation] at hread
        exact hcontainer (List.cons.inj (Option.some.inj hread)).1.symm
      · cases hread
    · rw [if_neg hmem] at hsimple
      simp [denotedInBody?, qualified?, hparts, hsimple, hdeclares, hlocation, hmem]

/-- In the clauses of a top-level type, the own type of a container is read as that type. -/
theorem denotedInClause?_typeReference {t : TypePath} (ht : t ∈ a.types.map (·.head.path))
    (hmodule : t.isModuleType = true) (container : String) :
    denotedInClause? tops (typeReference container t) = some t.location := by
  have hdeclares := declares_location hd hn ht
  have hdotted : t.dotted = t.name := by rw [TypePath.dotted, if_pos hmodule]
  have hreference : typeReference container t = t.name := by rw [typeReference, hdotted, ite_self]
  rw [TypePath.location, if_pos hmodule] at hdeclares ⊢
  rw [TypePath.isModuleType, beq_iff_eq] at hmodule
  rw [denotedInClause?, qualified?, hreference, nameParts_of_undotted (hn.names t ht).1, hmodule]
  simp [topLevel?, hdeclares]

theorem ownNames_parts (h : a.Describes config g) {d : GeneratedRecord} (hmem : .record d ∈ a.types)
    {name : String × List String} (hname : name ∈ d.ownNames) :
    ∃ rest, nameParts name.1 = d.name :: rest ∧ name.2 = d.path.location ++ rest ∧
      declares name.2 tops = true := by
  have hpath : d.path ∈ a.types.map (·.head.path) :=
    List.mem_map_of_mem (f := fun d : GeneratedType => d.head.path) hmem
  have hundotted : Undotted d.name := (hn.names _ hpath).1
  rcases List.mem_cons.mp hname with rfl | hname
  · exact ⟨[], nameParts_of_undotted hundotted, (List.append_nil _).symm,
      declares_location hd hn hpath⟩
  · obtain ⟨copy, hcopy, rfl⟩ := List.mem_map.mp hname
    have hstaging : copy.stagingName = d.name ++ "." ++ CopyProtocol.staging := by
      obtain ⟨r, -, ⟨t, -, heq⟩ | ⟨t, -, heq⟩⟩ := h.mem_types.mp hmem
      · cases heq
      · obtain rfl := GeneratedType.record.inj heq
        simp only [Analysis.recordOf, Option.mem_toList, Option.ite_none_right_eq_some] at hcopy
        obtain rfl := Option.some.inj hcopy.2
        rfl
    refine ⟨[CopyProtocol.staging], ?_, rfl, ?_⟩
    · rw [hstaging]
      exact nameParts_append hundotted (by decide)
    · exact hd.staging _ hmem _ (List.mem_map.mpr ⟨copy, hcopy, rfl⟩)

/-- A record reads its own names as itself and its staging class, in the body of its container and,
if the record is the container, in its clauses. -/
theorem denoted_ownNames (h : a.Describes config g) {d : GeneratedRecord}
    (hmem : .record d ∈ a.types) {name : String × List String} (hname : name ∈ d.ownNames) :
    denotedInBody? tops d.container name.1 = some name.2 ∧
      (d.isModuleType = true → denotedInClause? tops name.1 = some name.2) := by
  have hpath : d.path ∈ a.types.map (·.head.path) :=
    List.mem_map_of_mem (f := fun d : GeneratedType => d.head.path) hmem
  obtain ⟨rest, hparts, hlocation, hdeclares⟩ := ownNames_parts hd hn h hmem hname
  rw [hlocation] at hdeclares
  constructor
  · have hsimple : nestedFirst? tops d.container d.name = some d.path.location :=
      nestedFirst?_name hd hn hpath
    simp [denotedInBody?, qualified?, hparts, hsimple, hdeclares, hlocation]
  · intro hmodule
    have hown : d.path.isModuleType = true := (h.isModuleType_eq hmem).symm.trans hmodule
    have hsimple : topLevel? tops d.name = some d.path.location := by
      have htop := declares_location hd hn hpath
      rw [TypePath.location, if_pos hown] at htop ⊢
      rw [TypePath.isModuleType, beq_iff_eq] at hown
      have hcontainer : d.path.container = d.name := hown.symm
      rw [hcontainer] at htop ⊢
      rw [topLevel?, if_pos htop]
    simp [denotedInClause?, qualified?, hparts, hsimple, hdeclares, hlocation]

/-- The contract of the copy-with protocol is read as such everywhere. -/
theorem denoted_contract (hcontract : a.contract.isSome = true) (container : String) :
    denotedInBody? tops container CopyProtocol.contract = some [CopyProtocol.contract] ∧
      denotedInClause? tops CopyProtocol.contract = some [CopyProtocol.contract] := by
  have htop := hd.contract hcontract
  have hparts : nameParts CopyProtocol.contract = [CopyProtocol.contract] :=
    nameParts_of_undotted (by decide)
  have hnested : ¬declares [container, CopyProtocol.contract] tops = true := by
    rw [hd.nested container CopyProtocol.contract (by decide)]
    rintro ⟨-, hmem⟩
    have hfree : CopyProtocol.contract ∉ protocolTypes := (hn.names _ hmem).2
    exact hfree (by decide)
  constructor
  · have hsimple : nestedFirst? tops container CopyProtocol.contract =
        some [CopyProtocol.contract] := by
      rw [nestedFirst?, if_neg hnested]
      split
      · rename_i hown
        rw [hown]
      · rw [topLevel?, if_pos htop]
    simp [denotedInBody?, qualified?, hparts, hsimple, htop]
  · simp [denotedInClause?, qualified?, hparts, topLevel?, htop]

end Reading

/-! ## Whole runs -/

/-- How the names written in a unit are read, given all top-level types. Names in the clauses of the
unit's own type are read as they are meant, and so are the names of its records for themselves and
for the copy-with contract. A reference in its body is, exactly unless a type nested in the unit's
container has the name of the container the reference leads to. -/
structure UnitReads (a : Analysis) (tops : List Declaration) (unit : CompilationUnit) : Prop where
  clauses : ∀ t ∈ unit.clauseReferences, t ∈ a.types.map (·.head.path) ∧
    denotedInClause? tops (typeReference unit.container t) = some t.location
  body : ∀ t ∈ unit.bodyReferences, t ∈ a.types.map (·.head.path) ∧
    (denotedInBody? tops unit.container (typeReference unit.container t) = some t.location ↔
      t.container = unit.container ∨
        ⟨t.container, unit.container⟩ ∉ a.types.map (·.head.path))
  own : ∀ d, .record d ∈ a.types → d.container = unit.container → ∀ name ∈ d.ownNames,
    denotedInBody? tops unit.container name.1 = some name.2 ∧
      (d.isModuleType = true → denotedInClause? tops name.1 = some name.2)
  contract : a.contract.isSome = true →
    denotedInBody? tops unit.container CopyProtocol.contract = some [CopyProtocol.contract] ∧
      denotedInClause? tops CopyProtocol.contract = some [CopyProtocol.contract]

theorem units_read (h : a.Describes config g) (hp : Undotted config.interfacePrefix)
    {comment : String} {us : List (String × CompilationUnit)}
    (hus : units config a comment = .ok us) :
    ∀ e ∈ us, UnitReads a (us.flatMap (·.2.types)) e.2 := by
  have hlays := units_lays h hus
  have hd := units_declaresTypes h hlays
  have hn := plainNames h hp
  intro e he
  refine ⟨fun t ht => ?_, fun t ht => ?_, fun d hmem hcontainer name hname => ?_,
    fun hcontract => denoted_contract hd hn hcontract _⟩
  · obtain ⟨hmem, hmodule⟩ := hlays.clauseReferences_mem he t ht
    exact ⟨hmem, denotedInClause?_typeReference hd hn hmem hmodule _⟩
  · have hmem := hlays.bodyReferences_mem he t ht
    exact ⟨hmem, denotedInBody?_typeReference hd hn hmem _⟩
  · rw [← hcontainer]
    exact denoted_ownNames hd hn h hmem hname

/-- A run in Java that ends with files has written the units of its result. -/
theorem generate_units {r : Run} {doc : Json} {files : Files} (hrecords : r.config.records = true)
    (hvalidate : r.validate = .ok .java) (h : r.generate (.document doc) = .ok files) :
    ∃ g a us, a.Describes r.config g ∧ r.analyze (.document doc) = .ok a ∧
      units r.config a (r.banner .java) = .ok us ∧
      files = us.map (fun e => (e.1, e.2.print r.config.indent)) := by
  obtain ⟨language, g, a, hlanguage, hload, hanalyze, hemit⟩ := Run.generate_ok hrecords h
  obtain rfl := Except.ok.inj (hvalidate.symm.trans hlanguage)
  obtain ⟨us, hus, hfiles⟩ := bind_eq_ok.mp hemit
  have hd := analyze_describes (Document.load_linked hload) hanalyze
  refine ⟨g, a, us, hd, ?_, hus, (Except.ok.inj hfiles).symm⟩
  simp only [Run.analyze, hvalidate, Source.load, hload, hanalyze, mapError_ok, ok_bind]

/-- A run in Java writes units whose references are read as they are meant, exactly as far as no
nested type has the name of another container that is referred to. -/
theorem generate_reads {r : Run} {doc : Json} {files : Files} (hrecords : r.config.records = true)
    (hvalidate : r.validate = .ok .java) (h : r.generate (.document doc) = .ok files) :
    ∃ a us, r.analyze (.document doc) = .ok a ∧ units r.config a (r.banner .java) = .ok us ∧
      files = us.map (fun e => (e.1, e.2.print r.config.indent)) ∧
      ∀ e ∈ us, UnitReads a (us.flatMap (·.2.types)) e.2 := by
  obtain ⟨g, a, us, hd, hanalyze, hus, hfiles⟩ := generate_units hrecords hvalidate h
  refine ⟨a, us, hanalyze, hus, hfiles, units_read hd ?_ hus⟩
  obtain ⟨_, hconfig, -⟩ := bind_eq_ok.mp hvalidate
  exact undotted_of_acceptsPrefix (acceptsPrefix_of_validate hconfig)

theorem generate_reads_shapes : ∃ files,
    ({ config := { withers := true } } : Run).validate = .ok .java ∧
    ({ config := { withers := true } } : Run).generate (.document Document.shapes) = .ok files ∧
    ∃ a us, ({ config := { withers := true } } : Run).analyze (.document Document.shapes) = .ok a ∧
      units { withers := true } a (({ config := { withers := true } } : Run).banner .java) =
        .ok us ∧
      files = us.map (fun e => (e.1, e.2.print ({ withers := true } : Config).indent)) ∧
      ∀ e ∈ us, UnitReads a (us.flatMap (·.2.types)) e.2 := by
  have hvalidate : ({ config := { withers := true } } : Run).validate = .ok .java := by rfl
  have hok : (({ config := { withers := true } } : Run).generate
      (.document Document.shapes)).isOk = true := by
    decide +kernel
  obtain ⟨files, h⟩ := exists_ok hok
  exact ⟨files, hvalidate, h, generate_reads rfl hvalidate h⟩

end Java

/-- A module whose class has the name of another module's container, and a reference to that module
from inside. -/
def Document.capturing : Json :=
  .object [("modules", .list [
    .object [("name", .text "a"), ("classes", .list [
      .object [("name", .text "B")],
      .object [("name", .text "X"), ("properties", .list [
        .object [("name", .text "whole"), ("type", .text "b")],
        .object [("name", .text "part"), ("type", .text "b.Y")]])]])],
    .object [("name", .text "b"), ("classes", .list [.object [("name", .text "Y")]])]])]

namespace Java

/-- In the body of the container `A` the reference to the container `B` is read as the record `B`
nested in `A`, and the reference to the record `Y` nested in the container `B` is not read at all.
-/
theorem capturing_captured : ∃ us,
    (({} : Run).analyze (.document Document.capturing) >>= fun a =>
      (units {} a (({} : Run).banner .java)).mapError .target) = .ok us ∧
    ∃ e ∈ us, e.2.container = "A" ∧
      ⟨"B", "B"⟩ ∈ e.2.bodyReferences ∧ ⟨"Y", "B"⟩ ∈ e.2.bodyReferences ∧
      denotedInBody? (us.flatMap (·.2.types)) "A" (typeReference "A" ⟨"B", "B"⟩) =
        some ["A", "B"] ∧
      denotedInBody? (us.flatMap (·.2.types)) "A" (typeReference "A" ⟨"Y", "B"⟩) = none := by
  apply Fallible.exists_ok_and
  decide +kernel

end Java

end RecordGen

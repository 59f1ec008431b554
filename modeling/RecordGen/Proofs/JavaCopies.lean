import RecordGen.Proofs.JavaExecution
import RecordGen.Proofs.JavaScoping

/-! # Copies of records

A record is copied through its staging class: the staging object takes the components over, the
setter assigns some of them, and the finalizer makes a new record of what is then there. As all four
lists of components agree and no two components share a member name, a copy is the record with the
assignments carried out. -/

namespace RecordGen.Java

open Fallible ClassGraph

/-! ## What is declared for a record -/

/-- A staging class for components: a field for each, a constructor that assigns each field once
from the accessor of the same name, and a finalizer that passes each field once, all in the order of
the components. -/
structure Stages (name : String) (components : List Parameter) (staging : Declaration) : Prop where
  named : staging.head.name = CopyProtocol.staging
  constructs : ∃ fields constructor, staging.shape = .classShape fields [constructor] ∧
    fields.map (fun f => (f.name, f.type)) = components.map (fun c => (c.name, c.type)) ∧
    constructor.parameters.map (·.name) = [stagingSource] ∧
    constructor.body = components.map fun c =>
      .assign (.field (.name thisName) c.name) (.call (.name stagingSource) c.name [])
  finalizes : ∃ method, staging.head.methods = [method] ∧ method.name = CopyProtocol.finalizer ∧
    method.parameters = [] ∧
    method.body = some [.give (.construct name (components.map fun c => .name c.name))]

/-- A record with the copy-with protocol. Its components have names of their own, and its staging
class is what the name of the staging class denotes in it. -/
structure Copies (name : String) (components : List Parameter) (record : Declaration) : Prop where
  named : record.head.name = name
  distinct : (components.map (·.name)).Nodup
  shape : ∃ implements, record.shape = .recordShape components implements
  copies : ∃ method, record.head.methods = [method] ∧ method.name = CopyProtocol.method ∧
    method.parameters.map (·.name) = [CopyProtocol.setter] ∧
    method.body = some [
      .declare stagingVariable (.construct CopyProtocol.staging [.name thisName]),
      .evaluate (.call (.name CopyProtocol.setter) acceptName [.name stagingVariable]),
      .give (.call (.name stagingVariable) CopyProtocol.finalizer [])]
  stages : ∃ staging others, record.nested = staging :: others ∧ Stages name components staging ∧
    ∀ d ∈ others, d.head.name ≠ name
  ne_staging : name ≠ CopyProtocol.staging
  this_not_mem : thisName ∉ components.map (·.name)

namespace Copies

variable {name : String} {components : List Parameter} {record : Declaration}

theorem visible?_staging (hc : Copies name components record) :
    ∃ staging, record.visible? CopyProtocol.staging = some staging ∧
      Stages name components staging := by
  obtain ⟨staging, others, hnested, hstages, -⟩ := hc.stages
  refine ⟨staging, ?_, hstages⟩
  rw [Declaration.visible?, hnested, List.find?_cons_of_pos (by simp [hstages.named])]

theorem visible?_name (hc : Copies name components record) :
    record.visible? name = some record := by
  obtain ⟨staging, others, hnested, hstages, hothers⟩ := hc.stages
  have hnone : record.nested.find? (·.head.name == name) = none := by
    rw [hnested, List.find?_eq_none]
    intro d hd
    rcases List.mem_cons.mp hd with rfl | hd
    · simpa [hstages.named] using Ne.symm hc.ne_staging
    · simpa using hothers d hd
  rw [Declaration.visible?, hnone]
  simp [hc.named]

end Copies

/-! ## Running a copy -/

section

variable {α : Type} {name : String} {components : List Parameter} {record : Declaration}
  {h : Heap α} {place : Nat} {v : String → α}

/-- The values of components after assignments, the latest of which counts. -/
def overridden (v : String → α) (assignments : List (String × α)) : String → α :=
  assignments.foldl (fun v e => Function.update v e.1 e.2) v

/-- An object that holds a value for every component. -/
def holding (className : String) (components : List Parameter) (v : String → α) : Object α :=
  objectOf className (components.map (·.name)) fun n => .plain (v n)

/-- An accessor gives the component's value. -/
theorem Copies.accessor (hc : Copies name components record)
    (hobject : h[place]? = some (holding name components v)) {n : String}
    (hn : n ∈ components.map (·.name)) (depth : Nat) :
    callsAt record (depth + 1) (.method (.object place) n []) h = some (.plain (v n), h) := by
  obtain ⟨method, hmethods, -, hparameters, -⟩ := hc.copies
  obtain ⟨implements, hshape⟩ := hc.shape
  have harity : method.parameters.length = 1 := by
    simpa using congrArg List.length hparameters
  have hnone : record.head.methods.find? (fun m => m.name == n && m.parameters.length == 0) =
      none := by
    simp [hmethods, harity]
  have hread : readField h n (.object place) = some (.plain (v n)) :=
    readField_objectOf hobject hn
  have hvisible : record.visible? (holding name components v).className = some record :=
    hc.visible?_name
  simp only [callsAt, hobject, hvisible, Option.bind_eq_bind, Option.bind_some, callMethod,
    List.length_nil, hnone, hshape]
  rw [if_pos hn, hread]
  rfl

/-- Running the assignments of some fields takes their values over and leaves the other fields as
they are. -/
theorem Copies.runBody_assignments (hc : Copies name components record)
    (hobject : h[place]? = some (holding name components v)) (depth : Nat) :
    ∀ (names : List String) (f : String → Value α), (∀ n ∈ names, n ∈ components.map (·.name)) →
      runBody (callsAt record (depth + 1))
        [(thisName, .object h.length), (stagingSource, .object place)]
        (h ++ [objectOf CopyProtocol.staging (components.map (·.name)) f])
        (names.map fun n =>
          .assign (.field (.name thisName) n) (.call (.name stagingSource) n [])) =
      some (.null, h ++ [objectOf CopyProtocol.staging (components.map (·.name))
        (names.foldl (fun f n => Function.update f n (.plain (v n))) f)]) := by
  intro names
  induction names with
  | nil =>
      intro f _
      rfl
  | cons n names ih =>
      intro f hnames
      obtain ⟨hn, hnames⟩ := List.forall_mem_cons.mp hnames
      have hthis : Table.findEntry thisName [(thisName, Value.object (α := α) h.length),
          (stagingSource, .object place)] = some (.object h.length) := rfl
      have hsource : Table.findEntry stagingSource [(thisName, Value.object (α := α) h.length),
          (stagingSource, .object place)] = some (.object place) := rfl
      -- The record is where it was before the staging object was made.
      have hkept : (h ++ [objectOf CopyProtocol.staging (components.map (·.name)) f])[place]? =
          some (holding name components v) := by
        obtain ⟨hlt, -⟩ := List.getElem?_eq_some_iff.mp hobject
        rw [List.getElem?_append_left hlt, hobject]
      simp only [List.map_cons, runBody, Expr.eval, evalAll, readName, hthis, hsource,
        Option.map_some, Option.bind_eq_bind, Option.bind_some,
        hc.accessor hkept hn depth, writeField_last h hc.distinct hn]
      exact ih _ hnames

theorem foldl_update_of_mem {β : Type} (g : String → β) {n : String} : ∀ {names : List String}
    {f : String → β}, n ∈ names ∨ f n = g n →
      names.foldl (fun f n => Function.update f n (g n)) f n = g n := by
  intro names
  induction names with
  | nil =>
      intro f h
      simpa using h
  | cons m names ih =>
      intro f h
      rw [List.foldl_cons]
      apply ih
      by_cases hm : n = m
      · subst hm
        exact Or.inr (Function.update_self ..)
      · rw [Function.update_of_ne hm]
        exact h.imp_left fun hmem => (List.mem_cons.mp hmem).resolve_left hm

/-- The staging class's constructor makes an object with the record's values. -/
theorem Copies.construct_staging (hc : Copies name components record)
    (hobject : h[place]? = some (holding name components v)) (depth : Nat) :
    callsAt record (depth + 2) (.construct CopyProtocol.staging [.object place]) h =
      some (.object h.length, h ++ [holding CopyProtocol.staging components v]) := by
  obtain ⟨staging, hvisible, hstages⟩ := hc.visible?_staging
  obtain ⟨fields, constructor, hshape, hfields, hparameters, hbody⟩ := hstages.constructs
  have harity : constructor.parameters.length = 1 := by
    simpa using congrArg List.length hparameters
  have hempty : (⟨staging.head.name, fields.map fun f => (f.name, .null)⟩ : Object α) =
      objectOf CopyProtocol.staging (components.map (·.name)) fun _ => .null := by
    have hnames : fields.map (·.name) = components.map (·.name) := by
      simpa [Function.comp_def] using congrArg (List.map (·.1)) hfields
    rw [objectOf, ← hnames, hstages.named, List.map_map]
    rfl
  have hfilled : objectOf CopyProtocol.staging (components.map (·.name))
      ((components.map (·.name)).foldl (fun f n => Function.update f n (.plain (v n)))
        fun _ => .null) = holding CopyProtocol.staging components v := by
    rw [holding, objectOf, objectOf]
    congr 1
    refine List.map_congr_left fun n hn => ?_
    rw [foldl_update_of_mem (fun n => Value.plain (v n)) (Or.inl hn)]
  have hrun : runBody (callsAt record (depth + 1))
      (scopeOf (.object h.length) constructor.parameters [.object place])
      (h ++ [⟨staging.head.name, fields.map fun f => (f.name, .null)⟩]) constructor.body =
      some (.null, h ++ [holding CopyProtocol.staging components v]) := by
    have hscope : scopeOf (.object h.length) constructor.parameters [.object place] =
        [(thisName, Value.object (α := α) h.length), (stagingSource, .object place)] := by
      rw [scopeOf, hparameters]
      rfl
    rw [hscope, hempty, hbody, ← hfilled,
      ← hc.runBody_assignments hobject depth _ (fun _ => .null) fun _ hn => hn, List.map_map]
    rfl
  simp [callsAt, hvisible, construct, hshape, harity, hrun]

/-- The setter overrides values of the staging object. -/
theorem assignAll_last (h : Heap α) (className : String)
    (hdistinct : (components.map (·.name)).Nodup) : ∀ {assignments : List (String × α)}
    {v : String → α}, (∀ e ∈ assignments, e.1 ∈ components.map (·.name)) →
      assignAll (h ++ [holding className components v]) (.object h.length) assignments =
        some (h ++ [holding className components (overridden v assignments)]) := by
  intro assignments
  induction assignments with
  | nil =>
      intro v _
      rfl
  | cons e assignments ih =>
      intro v hnames
      obtain ⟨he, hnames⟩ := List.forall_mem_cons.mp hnames
      have hplain : Function.update (fun n => Value.plain (v n)) e.1 (.plain e.2) =
          fun n => .plain (Function.update v e.1 e.2 n) :=
        (Function.comp_update Value.plain v e.1 e.2).symm
      rw [assignAll, List.foldlM_cons, holding, writeField_last h hdistinct he, hplain]
      exact ih hnames

/-- The components are read from the staging object in their order. -/
theorem evalAll_names (calls : Calls α)
    (hobject : h[place]? = some (holding CopyProtocol.staging components v))
    (hthis : thisName ∉ components.map (·.name)) : ∀ {names : List String},
      (∀ n ∈ names, n ∈ components.map (·.name)) →
      evalAll calls [(thisName, .object place)] h (names.map .name) =
        some (names.map fun n => .plain (v n), h) := by
  intro names
  induction names with
  | nil =>
      intro _
      rfl
  | cons n names ih =>
      intro hnames
      obtain ⟨hn, hnames⟩ := List.forall_mem_cons.mp hnames
      have hne : thisName ≠ n := fun heq => hthis (heq ▸ hn)
      have hread : readField h n (.object place) = some (.plain (v n)) :=
        readField_objectOf hobject hn
      have hname : readName h [(thisName, .object place)] n = some (.plain (v n)) := by
        simp [readName, Table.findEntry, hne, hread]
      simp [evalAll, Expr.eval, hname, ih hnames]

/-- A record is made of values for its components, given in their order. -/
theorem Copies.construct_record (hc : Copies name components record) (v : String → α)
    (h : Heap α) (depth : Nat) : callsAt record (depth + 1)
        (.construct name ((components.map (·.name)).map fun n => .plain (v n))) h =
      some (.object h.length, h ++ [holding name components v]) := by
  obtain ⟨implements, hshape⟩ := hc.shape
  have hfields : (components.map (·.name)).zip
      ((components.map (·.name)).map fun n => Value.plain (v n)) =
        (components.map (·.name)).map fun n => (n, .plain (v n)) :=
    List.map_prod_left_eq_zip.symm
  simp only [callsAt, hc.visible?_name, Option.bind_eq_bind, Option.bind_some, construct, hshape,
    List.length_map, if_true, hfields, hc.named]
  rfl

/-- The finalizer makes a record of the values of the staging object. -/
theorem Copies.finalize (hc : Copies name components record)
    (hobject : h[place]? = some (holding CopyProtocol.staging components v)) (depth : Nat) :
    callsAt record (depth + 2) (.method (.object place) CopyProtocol.finalizer []) h =
      some (.object h.length, h ++ [holding name components v]) := by
  obtain ⟨staging, hvisible, hstages⟩ := hc.visible?_staging
  obtain ⟨method, hmethods, hname, hparameters, hbody⟩ := hstages.finalizes
  have harguments : evalAll (callsAt record (depth + 1)) [(thisName, .object place)] h
      (components.map fun c => .name c.name) =
        some ((components.map (·.name)).map fun n => .plain (v n), h) := by
    rw [← evalAll_names (callsAt record (depth + 1)) hobject hc.this_not_mem fun _ hn => hn,
      List.map_map]
    rfl
  have hfind : staging.head.methods.find? (fun m =>
      m.name == CopyProtocol.finalizer && m.parameters.length == 0) = some method := by
    simp [hmethods, hname, hparameters]
  have hvisible : record.visible? (holding CopyProtocol.staging components v).className =
      some staging := hvisible
  simp only [callsAt, hobject, hvisible, Option.bind_eq_bind, Option.bind_some, callMethod,
    List.length_nil, hfind, hbody, runBody, Expr.eval, scopeOf, hparameters, List.map_nil,
    List.zip_nil_left, harguments]
  exact hc.construct_record v h depth

/-- A call of the copy method adds the staging object and the copy to the heap. -/
theorem Copies.copy (hc : Copies name components record)
    (hobject : h[place]? = some (holding name components v)) {assignments : List (String × α)}
    (hnames : ∀ e ∈ assignments, e.1 ∈ components.map (·.name)) (depth : Nat) :
    callsAt record (depth + 3)
        (.method (.object place) CopyProtocol.method [.setter assignments]) h =
      some (.object (h.length + 1),
        h ++ [holding CopyProtocol.staging components (overridden v assignments),
          holding name components (overridden v assignments)]) := by
  obtain ⟨method, hmethods, hname, hparameters, hbody⟩ := hc.copies
  have harity : method.parameters.length = 1 := by
    simpa using congrArg List.length hparameters
  have hfind : record.head.methods.find? (fun m =>
      m.name == CopyProtocol.method && m.parameters.length == 1) = some method := by
    simp [hmethods, hname, harity]
  have hvisible : record.visible? (holding name components v).className = some record :=
    hc.visible?_name
  have hscope : scopeOf (.object place) method.parameters [.setter assignments] =
      [(thisName, .object place), (CopyProtocol.setter, .setter assignments)] := by
    rw [scopeOf, hparameters]
    rfl
  -- The three statements of the body, with the names in scope at each.
  have hdeclare : (Expr.construct CopyProtocol.staging [.name thisName]).eval
      (callsAt record (depth + 2))
      [(thisName, .object place), (CopyProtocol.setter, .setter assignments)] h =
        some (.object h.length, h ++ [holding CopyProtocol.staging components v]) :=
    hc.construct_staging hobject depth
  have haccept : (Expr.call (.name CopyProtocol.setter) acceptName [.name stagingVariable]).eval
      (callsAt record (depth + 2)) [(stagingVariable, .object h.length),
        (thisName, .object place), (CopyProtocol.setter, .setter assignments)]
      (h ++ [holding CopyProtocol.staging components v]) = some (.null,
        h ++ [holding CopyProtocol.staging components (overridden v assignments)]) := by
    change (assignAll _ _ assignments).map _ = _
    rw [assignAll_last h CopyProtocol.staging hc.distinct hnames]
    rfl
  have hgive : (Expr.call (.name stagingVariable) CopyProtocol.finalizer []).eval
      (callsAt record (depth + 2)) [(stagingVariable, .object h.length),
        (thisName, .object place), (CopyProtocol.setter, .setter assignments)]
      (h ++ [holding CopyProtocol.staging components (overridden v assignments)]) =
        some (.object (h.length + 1),
          h ++ [holding CopyProtocol.staging components (overridden v assignments),
            holding name components (overridden v assignments)]) := by
    have hlast : (h ++ [holding CopyProtocol.staging components
        (overridden v assignments)])[h.length]? =
          some (holding CopyProtocol.staging components (overridden v assignments)) := by simp
    have hfinal := hc.finalize hlast depth
    rw [List.length_append, List.append_assoc] at hfinal
    exact hfinal
  simp only [callsAt, hobject, hvisible, Option.bind_eq_bind, Option.bind_some, callMethod,
    List.length_cons, List.length_nil, hfind, hbody, hscope, runBody]
  rw [hdeclare, Option.bind_some, haccept, Option.bind_some, hgive]

/-- Calls the copy method once for every setter, each time on what the call before gave. -/
def copyEach (d : Declaration) (depth : Nat) (this : Value α) (h : Heap α)
    (setters : List (List (String × α))) : Option (Value α × Heap α) :=
  setters.foldlM (fun (s : Value α × Heap α) assignments =>
    callsAt d depth (.method s.1 CopyProtocol.method [.setter assignments]) s.2) (this, h)

theorem overridden_append (v : String → α) (as bs : List (String × α)) :
    overridden v (as ++ bs) = overridden (overridden v as) bs :=
  List.foldl_append

/-- A chain of calls ends with a record that all assignments have overridden, and leaves what was
on the heap before as it was. -/
theorem Copies.copyEach_eq (hc : Copies name components record) (depth : Nat) :
    ∀ {setters : List (List (String × α))} {h : Heap α} {place : Nat} {v : String → α},
      h[place]? = some (holding name components v) →
      (∀ as ∈ setters, ∀ e ∈ as, e.1 ∈ components.map (·.name)) →
      ∃ place' h', copyEach record (depth + 3) (.object place) h setters =
          some (.object place', h') ∧ h <+: h' ∧
        h'[place']? = some (holding name components (overridden v setters.flatten)) := by
  intro setters
  induction setters with
  | nil =>
      intro h place v hobject _
      exact ⟨place, h, rfl, List.prefix_rfl, hobject⟩
  | cons as setters ih =>
      intro h place v hobject hnames
      obtain ⟨hfirst, hrest⟩ := List.forall_mem_cons.mp hnames
      have hcopy := hc.copy hobject hfirst depth
      have hmade : (h ++ [holding CopyProtocol.staging components (overridden v as),
          holding name components (overridden v as)])[h.length + 1]? =
            some (holding name components (overridden v as)) := by
        simp
      obtain ⟨place', h', hrun, hkept, hlast⟩ := ih hmade hrest
      refine ⟨place', h', ?_, (List.prefix_append _ _).trans hkept, ?_⟩
      · rw [copyEach, List.foldlM_cons, hcopy]
        exact hrun
      · rw [List.flatten_cons, overridden_append]
        exact hlast

end

/-- The copy method is a record update, whatever the components hold. A call with a setter gives a
record that holds the values overridden by the setter's assignments, and everything on the heap
stays as it was, the record itself among it. A chain of calls gives what one call gives whose setter
carries out all the assignments. -/
structure Updates (name : String) (components : List Parameter) (record : Declaration) : Prop where
  call : ∀ (α : Type) (h : Heap α) (place : Nat) (v : String → α)
    (assignments : List (String × α)) (depth : Nat), 3 ≤ depth →
    h[place]? = some (holding name components v) →
    (∀ e ∈ assignments, e.1 ∈ components.map (·.name)) →
    ∃ place' h', callsAt record depth
        (.method (.object place) CopyProtocol.method [.setter assignments]) h =
          some (.object place', h') ∧ h <+: h' ∧
      h'[place']? = some (holding name components (overridden v assignments))
  chain : ∀ (α : Type) (h : Heap α) (place : Nat) (v : String → α)
    (setters : List (List (String × α))) (depth : Nat), 3 ≤ depth →
    h[place]? = some (holding name components v) →
    (∀ as ∈ setters, ∀ e ∈ as, e.1 ∈ components.map (·.name)) →
    ∃ chained h' called h'',
      copyEach record depth (.object place) h setters = some (.object chained, h') ∧
      callsAt record depth
        (.method (.object place) CopyProtocol.method [.setter setters.flatten]) h =
          some (.object called, h'') ∧ h <+: h' ∧ h'[chained]? = h''[called]? ∧
      h'[chained]? = some (holding name components (overridden v setters.flatten))

theorem Copies.updates {name : String} {components : List Parameter} {record : Declaration}
    (hc : Copies name components record) : Updates name components record where
  call α h place v assignments depth hdepth hobject hnames := by
    obtain ⟨depth, rfl⟩ := Nat.exists_eq_add_of_le' hdepth
    exact ⟨_, _, hc.copy hobject hnames depth, List.prefix_append _ _, by simp⟩
  chain α h place v setters depth hdepth hobject hnames := by
    obtain ⟨depth, rfl⟩ := Nat.exists_eq_add_of_le' hdepth
    have hall : ∀ e ∈ setters.flatten, e.1 ∈ components.map (·.name) := by
      intro e he
      obtain ⟨as, has, he⟩ := List.mem_flatten.mp he
      exact hnames as has e he
    have honce := hc.copy hobject hall depth
    obtain ⟨chained, h', hrun, hkept, hlast⟩ := hc.copyEach_eq depth hobject hnames
    exact ⟨chained, h', _, _, hrun, honce, hkept, by simp [hlast], hlast⟩

/-! ## The records of a result -/

variable {config : Config} {g : ClassGraph} {a : Analysis}

theorem legalMember_not_reserved (name : String) : legalMember name ∉ reservedWords := by
  have hlonger : ∀ w ∈ reservedWords ++ objectMethods, w ++ "_" ∉ reservedWords := by decide
  rw [legalMember]
  split
  · rename_i h
    exact hlonger name (List.mem_append.mpr h)
  · rename_i h
    exact fun hmem => h (Or.inl hmem)

/-- A declaration in whose body further types are nested. -/
def Declaration.nest (d : Declaration) (others : List Declaration) : Declaration :=
  .mk d.head d.shape (d.nested ++ others)

/-- The components of a record, under their member names and with their translated types. -/
def Written (a : Analysis) (d : GeneratedRecord) (components : List Parameter) : Prop :=
  ∃ members, a.memberTable legalMember d.toTypeHead = .ok members ∧
    List.Forall₂ (fun c p => memberOf members c.name = .ok p.name ∧
      translate a c.type c.nullable = .ok p.type) d.components components

theorem componentNames_spec (h : a.Describes config g) {r : Resolution} (hr : r ∈ a.resolutions)
    {t : TypePath} {components : List Parameter}
    (hcomponents : List.Forall₂ (fun (c : Component) (p : Parameter) =>
      memberOf (allocateMembers legalMember [] r.properties) c.name = .ok p.name)
      (Analysis.recordOf config g r t).components components) :
    (components.map (·.name)).Nodup ∧ thisName ∉ components.map (·.name) := by
  constructor
  · exact h.memberNames_nodup legalMember_lengthens hr (List.forall₂_map_right_iff.mpr hcomponents)
  · intro hmem
    obtain ⟨p, hp, hthis⟩ := List.mem_map.mp hmem
    obtain ⟨c, -, hc⟩ := hcomponents.exists_left p hp
    obtain ⟨wanted, hwanted⟩ :=
      exists_escape_of_memberOf (h.resolved.properties_nodup hr) hc
    exact legalMember_not_reserved wanted (by rw [← hwanted, hthis]; decide)

/-- With the copy-with protocol, the declaration of a record copies its components, whatever types
of other names are nested in it besides its staging class. -/
theorem recordDeclaration_copies (h : a.Describes config g) (hplain : PlainNames a)
    (hwithers : config.withers = true) {d : GeneratedRecord} (hd : d ∈ a.records)
    {declared : Declaration} (hdeclared : recordDeclaration config a d = .ok declared)
    {others : List Declaration} (hothers : ∀ o ∈ others, o.head.name ≠ d.name) :
    ∃ components, Written a d components ∧ Copies d.name components (declared.nest others) := by
  obtain ⟨r, hr, t, ht, rfl⟩ := h.mem_records.mp hd
  obtain ⟨members, components, doc, hmembers, hcomponents, hdeclared⟩ :=
    recordDeclaration_spec hdeclared
  have hcopy : (Analysis.recordOf config g r t).copyWith.isSome = true := by
    simp [Analysis.recordOf, hwithers]
  obtain ⟨copy, hcopy⟩ := Option.isSome_iff_exists.mp hcopy
  rw [hcopy] at hdeclared
  obtain ⟨stagingDoc, rfl⟩ := hdeclared
  have hwritten := (mapM_eq_ok.mp hcomponents).imp fun _ _ => componentParameter_spec
  obtain rfl := Except.ok.inj ((h.memberTable_ok legalMember hr rfl).symm.trans hmembers)
  obtain ⟨hdistinct, hthis⟩ := componentNames_spec h hr (hwritten.imp fun _ _ hc => hc.1)
  have hne : t.name ≠ CopyProtocol.staging :=
    ne_staging_of_not_mem (hplain.names t (h.counterpart_mem hr (Or.inr ht))).2
  refine ⟨components, ⟨_, hmembers, hwritten⟩, rfl, hdistinct, ⟨_, rfl⟩, ⟨_, rfl, rfl, rfl, rfl⟩,
    ⟨stagingClass stagingDoc t.name components, others, rfl, ?_, hothers⟩, hne, hthis⟩
  refine ⟨rfl, ⟨_, _, rfl, ?_, rfl, ?_⟩, ⟨_, rfl, rfl, rfl, ?_⟩⟩
  · simp
  · simp [thisName]
  · simp [Analysis.recordOf]

/-- A declaration of a type stands in one of the units: as the whole unit, the other types of the
container nested in it, or as it was made, nested in the container's declaration. -/
def Stands (config : Config) (a : Analysis) (us : List (String × CompilationUnit))
    (d : GeneratedType) (written : Declaration) : Prop :=
  ∃ declared others, declaration config a d = .ok declared ∧ written = declared.nest others ∧
    (∀ o ∈ others, o.head.name ≠ d.head.name) ∧
    ∃ e ∈ us, ∃ whole, e.2.types = [whole] ∧ (written = whole ∨ written ∈ whole.nested)

theorem exists_stands (h : a.Describes config g) {comment : String}
    {us : List (String × CompilationUnit)} (hus : units config a comment = .ok us)
    {d : GeneratedType} (hd : d ∈ a.types) : ∃ written, Stands config a us d written := by
  obtain ⟨modules, rfl, hmodules⟩ := units_spec hus
  have hgroup : (d.head.container,
      a.types.filter (·.head.container == d.head.container)) ∈ groups a := by
    refine List.mem_map.mpr ⟨d.head.container, ?_, rfl⟩
    exact List.mem_eraseDups.mpr (List.mem_map_of_mem hd)
  obtain ⟨e, he, -, hok⟩ := hmodules.exists_right _ hgroup
  obtain ⟨top, head, shape, nested, others, hfind, hdeclared, hothers, -, htypes, -⟩ :=
    containerUnit_spec hok
  have hothers := mapM_eq_ok.mp hothers
  have hnested := fun x => mem_eraseP_isModuleType h (d := x)
    (show a.types.filter (·.head.container == d.head.container) = _ from rfl)
  cases hmodule : d.head.isModuleType with
  | true =>
      have htop : top.head.isModuleType = true := by simpa using List.find?_some hfind
      obtain ⟨hmem, hcontainer⟩ := List.mem_filter.mp (List.mem_of_find?_eq_some hfind)
      obtain rfl := eq_of_isModuleType h hmem hd (by simpa using hcontainer) htop hmodule
      refine ⟨_, .mk head shape nested, others, hdeclared, rfl, fun o ho hname => ?_, e,
        List.mem_append_left _ he, _, htypes, Or.inl rfl⟩
      obtain ⟨x, hx, hxo⟩ := hothers.exists_left o ho
      obtain ⟨hx, hcontainer, hxmodule⟩ := (hnested x).mp hx
      have hpath : x.head.path = top.head.path := by
        rw [TypeHead.path, TypeHead.path, hcontainer, ← hname,
          (declaration_declaredAs h hx hxo).name]
      rw [h.isModuleType_eq hx, hpath, ← h.isModuleType_eq hd, hmodule] at hxmodule
      cases hxmodule
  | false =>
      obtain ⟨declared, hmem, hdeclared⟩ :=
        hothers.exists_right d ((hnested d).mpr ⟨hd, rfl, hmodule⟩)
      have hsame : declared.nest [] = declared := by
        cases declared
        simp [Declaration.nest, Declaration.head, Declaration.shape, Declaration.nested]
      refine ⟨declared, declared, [], hdeclared, hsame.symm, by simp, e,
        List.mem_append_left _ he, _, htypes, Or.inr ?_⟩
      exact List.mem_append_right _ hmem

/-- With the copy-with protocol, a run in Java writes for every record a declaration that stages its
components under member names of their own, and whose copy method is a record update. -/
theorem generate_updates {r : Run} {doc : Json} {files : Files}
    (hrecords : r.config.records = true) (hwithers : r.config.withers = true)
    (hvalidate : r.validate = .ok .java) (h : r.generate (.document doc) = .ok files) :
    ∃ a us, r.analyze (.document doc) = .ok a ∧ units r.config a (r.banner .java) = .ok us ∧
      files = us.map (fun e => (e.1, e.2.print r.config.indent)) ∧
      ∀ d ∈ a.records, ∃ record components, Stands r.config a us (.record d) record ∧
        Written a d components ∧ Copies d.name components record ∧
        Updates d.name components record := by
  obtain ⟨g, a, us, hd, hanalyze, hus, hfiles⟩ := generate_units hrecords hvalidate h
  refine ⟨a, us, hanalyze, hus, hfiles, fun d hrecord => ?_⟩
  obtain ⟨_, hconfig, -⟩ := bind_eq_ok.mp hvalidate
  have hplain := plainNames hd (undotted_of_acceptsPrefix (acceptsPrefix_of_validate hconfig))
  obtain ⟨r', hr', t, ht, hdt⟩ := hd.mem_records.mp hrecord
  obtain ⟨record, hstands⟩ := exists_stands hd hus (hd.mem_types.mpr
    ⟨r', hr', Or.inr ⟨t, ht, congrArg GeneratedType.record hdt⟩⟩)
  obtain ⟨declared, others, hdeclared, rfl, hothers, -⟩ := id hstands
  obtain ⟨components, hwritten, hcopies⟩ :=
    recordDeclaration_copies hd hplain hwithers hrecord hdeclared hothers
  exact ⟨_, components, hstands, hwritten, hcopies, hcopies.updates⟩

theorem generate_updates_shapes :
    ({ config := { withers := true } } : Run).validate = .ok .java ∧
    ∃ files, ({ config := { withers := true } } : Run).generate (.document Document.shapes) =
      .ok files ∧
    ∃ a us, ({ config := { withers := true } } : Run).analyze (.document Document.shapes) = .ok a ∧
      units { withers := true } a (({ config := { withers := true } } : Run).banner .java) =
        .ok us ∧
      files = us.map (fun e => (e.1, e.2.print ({ withers := true } : Config).indent)) ∧
      ∀ d ∈ a.records, ∃ record components,
        Stands { withers := true } a us (.record d) record ∧ Written a d components ∧
        Copies d.name components record ∧ Updates d.name components record := by
  have hvalidate : ({ config := { withers := true } } : Run).validate = .ok .java := by rfl
  have hok : (({ config := { withers := true } } : Run).generate
      (.document Document.shapes)).isOk = true := by
    decide +kernel
  obtain ⟨files, h⟩ := exists_ok hok
  exact ⟨hvalidate, files, h, generate_updates rfl rfl hvalidate h⟩

end RecordGen.Java

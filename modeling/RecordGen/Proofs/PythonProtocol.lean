import RecordGen.Proofs.JavaCopies
import RecordGen.Proofs.PythonExecution

/-! # The copy-with protocol of a module

A record is copied by functions of its staging class, where names are read as names of that class. A
copy is the record again, or the record with assignments carried out, as long as no name is private
to classes and the class is not called like a local name of these functions. A private field is lost
on the way: the staging class is called with an argument of a name that none of its fields has. -/

namespace RecordGen.Python

open Fallible ClassGraph
open Java (overridden)

variable {α : Type}

/-! ## Classes with the copy-with protocol -/

/-- Makes a staging object from a record. -/
def copyFunction (name : String) (fields : List (String × Ty)) : Statement :=
  .function [.name "classmethod"] "_of"
    [{ name := "cls" }, { name := stagingSource, type := some (.reference name) }]
    (stagingExpr name)
    [.give (.call (.name "cls") [] (copiedFields stagingSource fields))]

/-- Makes a record from a staging object. -/
def buildFunction (name : String) (fields : List (String × Ty)) : Statement :=
  .function [] ("_" ++ CopyProtocol.finalizer) [{ name := "self" }] (.reference name)
    [.give (.call (.reference name) [] (copiedFields "self" fields))]

theorem stagingClass_eq (doc : List Statement) (name : String) (fields : List (String × Ty)) :
    stagingClass doc name fields = .classDefinition [.name "dataclass"] CopyProtocol.staging []
      (doc ++ fields.map (fun f => .field f.1 f.2) ++
        [copyFunction name fields, buildFunction name fields]) :=
  rfl

/-- The class of a record has a staging class with the same fields, and a function that copies. -/
def Copying (name : String) (fields : List (String × Ty)) (staging record : Statement) : Prop :=
  ∃ doc stagingDoc bases, (∀ s ∈ doc, ∃ text, s = .doc text) ∧
    (∀ s ∈ stagingDoc, ∃ text, s = .doc text) ∧ staging = stagingClass stagingDoc name fields ∧
    record = .classDefinition
      [.name "final", .call (.name "dataclass") [] [("frozen", .name "True")]] name bases
      (doc ++ fields.map (fun f => .field f.1 f.2) ++ [staging, withFunction name])

/-- The names of the fields that a class declares. -/
def Statement.fieldNames : Statement → List String
  | .classDefinition _ _ _ body => body.filterMap Statement.fieldName?
  | _ => []

theorem Copying.names_eq {name : String} {fields : List (String × Ty)} {staging record : Statement}
    (h : Copying name fields staging record) :
    record.className? = some name ∧ record.fieldNames = fields.map (·.1) := by
  obtain ⟨doc, stagingDoc, bases, hdoc, -, rfl, rfl⟩ := h
  refine ⟨rfl, fieldNames_eq hdoc ?_⟩
  simp [stagingClass, withFunction, Statement.fieldName?]

/-! ## What the functions read and mention -/

/-- What an expression in a function of a class means as a name of the module. Local names mean no
such name. -/
def moduleName? (className : String) (function : Statement) : Expr → Option String
  | .name id => do
    let key ← inClass className id
    guard (some key ∉ function.localNames.map (inClass className))
    return key
  | _ => none

/-- What the functions of the protocol read, pass and mention, compared with what fields are stored
under and with what the class is bound to. Fields and classes whose names cannot be read are left
out. -/
structure Reaches (name : String) (fields : List (String × Ty)) : Prop where
  source : ∀ f ∈ fields, (asRead f.1).isSome = true →
    (inClass CopyProtocol.staging (referredName f.1) = inClass name f.1 ↔
      isPrivate f.1 = false ∨ classStem name = classStem CopyProtocol.staging)
  staged : ∀ f ∈ fields, (asRead f.1).isSome = true →
    inClass CopyProtocol.staging (referredName f.1) = inClass CopyProtocol.staging f.1
  passed : ∀ f ∈ fields, (asRead f.1).isSome = true → ∀ className,
    (asRead (referredName f.1) = inClass className f.1 ↔
      isPrivate f.1 = false ∨ classStem className = [])
  built : (asRead name).isSome = true →
    (moduleName? CopyProtocol.staging (buildFunction name fields) (.reference name) =
      asRead name ↔ isPrivate name = false ∧ name ≠ "self")
  copied : (asRead name).isSome = true →
    (moduleName? name (withFunction name) (.reference name) = asRead name ↔
      isPrivate name = false ∧ name ∉ ["self", CopyProtocol.setter, stagingVariable])

/-- The names that the protocol itself uses. -/
def publicWords : List String :=
  ["cls", stagingSource, "self", CopyProtocol.setter, stagingVariable] ++ protocolMembers

theorem public_words : ∀ w ∈ publicWords, Public w := by
  have hall : ∀ w ∈ publicWords, asRead w = some w ∧ isPrivate w = false := by decide +kernel
  exact hall

theorem classStem_staging : classStem CopyProtocol.staging ≠ [] := by
  decide

/-- A class is mentioned by its name in the module if the name is public and not local. -/
theorem moduleName?_reference {name className : String} {function : Statement}
    (hread : asRead name = some name) (hlocals : ∀ n ∈ function.localNames, Public n)
    (hstem : isPrivate name = true → classStem className ≠ []) :
    moduleName? className function (.reference name) = asRead name ↔
      isPrivate name = false ∧ name ∉ function.localNames := by
  have hmap : function.localNames.map (inClass className) = function.localNames.map some :=
    List.map_congr_left fun n hn => (hlocals n hn).inClass className
  have hkey : inClass className name = some (mangled className name) := by
    rw [inClass, hread, Option.map_some]
  rw [reference_eq hread, moduleName?, hmap, hkey, hread]
  simp only [Option.bind_eq_bind, Option.bind_some, Option.bind_eq_some_iff, Option.guard_eq_some',
    Option.pure_def, Option.some.injEq, List.mem_map_of_injective (Option.some_injective _)]
  constructor
  · rintro ⟨-, hnot, hsame⟩
    rw [hsame] at hnot
    refine ⟨?_, hnot⟩
    rcases (mangled_eq_self_iff className).mp hsame with hpublic | hnone
    · exact hpublic
    · exact Bool.eq_false_iff.mpr fun hprivate => hstem hprivate hnone
  · rintro ⟨hpublic, hnot⟩
    rw [mangled_of_public hpublic]
    exact ⟨(), hnot, rfl⟩

theorem reaches {name : String} {fields : List (String × Ty)}
    (hname : (asRead name).isSome = true → asRead name = some name)
    (hfields : ∀ f ∈ fields, (asRead f.1).isSome = true → asRead f.1 = some f.1) :
    Reaches name fields where
  source f hf hsome := by
    rw [referredName_eq (hfields f hf hsome), inClass, inClass, hfields f hf hsome,
      Option.map_some, Option.map_some, Option.some.injEq, mangled_eq_iff]
    simp only [eq_comm]
  staged f hf hsome := by rw [referredName_eq (hfields f hf hsome)]
  passed f hf hsome className := by
    rw [referredName_eq (hfields f hf hsome), inClass, hfields f hf hsome, Option.map_some,
      Option.some.injEq, eq_comm, mangled_eq_self_iff]
  built hsome := by
    have hlocals : (buildFunction name fields).localNames = ["self"] := rfl
    have hpublic : ["self"] ⊆ publicWords := by decide
    rw [moduleName?_reference (hname hsome) (hlocals ▸ fun n hn => public_words n (hpublic hn))
      fun _ => classStem_staging, hlocals, List.mem_singleton]
  copied hsome := by
    have hlocals : (withFunction name).localNames =
      ["self", CopyProtocol.setter, stagingVariable] := rfl
    have hpublic : ["self", CopyProtocol.setter, stagingVariable] ⊆ publicWords := by decide
    rw [moduleName?_reference (hname hsome) (hlocals ▸ fun n hn => public_words n (hpublic hn))
      classStem_ne_nil, hlocals]

/-! ## Running the functions -/

/-- Makes a staging object from the record at a place, and a record from that. -/
def freshCopy (m : ModuleScope) (depth : Nat) (record : Statement) (place : Nat) (h : Heap α) :
    Option (Value α × Heap α) := do
  let staging ← attributeOf m h CopyProtocol.staging (.type record)
  let (copy, h) ← callMember m depth staging "_of" [.object place] h
  callMember m depth copy "_build" [] h

/-- A fresh copy of a record is a record of the same class with the same values. What was there
before stays as it was, the record itself among it. -/
def FreshCopies (m : ModuleScope) (record : Statement) (name : String) (names : List String) :
    Prop :=
  ∀ (α : Type) (h : Heap α) (place : Nat) (v : String → α) (depth : Nat), 2 ≤ depth →
    h[place]? = some (holding record name names v) →
    ∃ place' h', freshCopy m depth record place h = some (.object place', h') ∧ h <+: h' ∧
      h'[place']? = some (holding record name names v)

/-- Fresh copies are copies, and the copy method gives a record with the values overridden by the
setter's assignments, all else staying as it was. -/
structure Copies (m : ModuleScope) (record : Statement) (name : String) (names : List String) :
    Prop where
  fresh : FreshCopies m record name names
  update : ∀ (α : Type) (h : Heap α) (place : Nat) (v : String → α)
    (assignments : List (String × α)) (depth : Nat), 3 ≤ depth →
    h[place]? = some (holding record name names v) → (∀ e ∈ assignments, e.1 ∈ names) →
    ∃ place' h', callMember m depth (.object place) "with_" [.setter assignments] h =
        some (.object place', h') ∧ h <+: h' ∧
      h'[place']? = some (holding record name names (overridden v assignments))

/-- No name stands in the way of copies: the names of the class and of its fields are public, and
the class is not called like a local name of the functions that mention it. -/
structure AllowsCopies (locals : List String) (name : String) (names : List String) : Prop where
  fields : ∀ n ∈ names, isPrivate n = false
  own : isPrivate name = false
  global : name ∉ locals

instance (locals : List String) (name : String) (names : List String) :
    Decidable (AllowsCopies locals name names) :=
  decidable_of_iff ((∀ n ∈ names, isPrivate n = false) ∧ isPrivate name = false ∧ name ∉ locals)
    ⟨fun h => ⟨h.1, h.2.1, h.2.2⟩, fun h => ⟨h.fields, h.own, h.global⟩⟩

/-- A record's class in a module where no class hides the decorators. The names of the class and of
its fields can be read, no field is special, and no field is called like a member of the protocol.
-/
structure Available (m : ModuleScope) (name : String) (fields : List (String × Ty))
    (staging record : Statement) : Prop where
  copying : Copying name fields staging record
  found : ∀ k, Table.findEntry k m = some record ↔ k = name
  undisturbed : ∀ n ∈ ["classmethod", "dataclass"], Table.findEntry n m = none
  read : asRead name = some name
  fieldsRead : ∀ f ∈ fields, asRead f.1 = some f.1
  distinct : (fields.map (·.1)).Nodup
  plain : ∀ f ∈ fields, isSpecial f.1 = false
  escaped : ∀ f ∈ fields, f.1 ∉ protocolMembers

section

variable {m : ModuleScope} {calls : Calls α} {className : String} {scope : Scope α}
  {definition : Statement} {h : Heap α} {place : Nat} {names : List String}

theorem copiedFields_eq {fields : List (String × Ty)} (hread : ∀ f ∈ fields, asRead f.1 = some f.1)
    (object : String) : copiedFields object fields = readEach object (fields.map (·.1)) := by
  rw [copiedFields, readEach, List.map_map]
  refine List.map_congr_left fun f hf => ?_
  simp only [referredName_eq (hread f hf), Function.comp_apply]

/-- A setter overrides values of the staging object. -/
theorem assignAll_last (hpublic : ∀ n ∈ names, Public n) (hdistinct : names.Nodup)
    (hfrozen : definition.isFrozen = false) (v : String → α) {assignments : List (String × α)}
    (hnames : ∀ e ∈ assignments, e.1 ∈ names) :
    assignAll (h ++ [holding definition className names v]) (.object h.length) assignments =
      some (h ++ [holding definition className names (overridden v assignments)]) := by
  have hassigned : ∀ v : String → α,
      assignments.foldl (fun as e => Table.insertEntry e.1 (.plain e.2) as)
        (names.map fun n => (n, Value.plain (v n))) =
          names.map fun n => (n, Value.plain (overridden v assignments n)) := by
    induction assignments with
    | nil => exact fun v => rfl
    | cons e assignments ih =>
        intro v
        obtain ⟨he, hnames⟩ := List.forall_mem_cons.mp hnames
        have hplain : Function.update (fun n => Value.plain (v n)) e.1 (.plain e.2) =
            fun n => .plain (Function.update v e.1 e.2 n) :=
          (Function.comp_update Value.plain v e.1 e.2).symm
        rw [List.foldl_cons, Table.insertEntry_map hdistinct he fun n => Value.plain (v n), hplain]
        exact ih hnames _
  simp [assignAll, holding_eq hpublic, hfrozen, hassigned, guard]

theorem bindings_record {name : String} {fields : List (String × Ty)} {doc : List Statement}
    {staging : Statement} (hstaging : staging = stagingClass doc name fields) :
    bindings (inClass name) [staging, withFunction name] =
      [("with_", withFunction name), (CopyProtocol.staging, staging)] := by
  have hname : (withFunction name).boundName? = some "with_" := rfl
  exact bindings_pair (hstaging ▸ rfl) hname ((public_words _ (by decide)).inClass name)
    ((public_words _ (by decide)).inClass name)

theorem bindings_staging (name : String) (fields : List (String × Ty)) :
    bindings (inClass CopyProtocol.staging) [copyFunction name fields, buildFunction name fields] =
      [("_build", buildFunction name fields), ("_of", copyFunction name fields)] := by
  have hname : (buildFunction name fields).boundName? = some "_build" := rfl
  exact bindings_pair rfl hname ((public_words _ (by decide)).inClass _)
    ((public_words _ (by decide)).inClass _)

end

namespace Available

variable {m : ModuleScope} {name : String} {fields : List (String × Ty)}
  {staging record : Statement}
  {h : Heap α} {place : Nat} {v : String → α}

/-! ### Members -/

theorem member_staging (hm : Available m name fields staging record)
    (receiver : Option (Value α)) :
    memberOfClass m record receiver CopyProtocol.staging = some (.type staging) := by
  obtain ⟨doc, stagingDoc, bases, hdoc, -, hstaging, rfl⟩ := hm.copying
  simp only [memberOfClass, hm.read, bindings_members _ hdoc, bindings_record hstaging,
    Option.bind_eq_bind, Option.bind_some]
  rw [hstaging]
  rfl

theorem member_with (hm : Available m name fields staging record) (receiver : Value α) :
    memberOfClass m record (some receiver) "with_" =
      some (.method name (withFunction name) receiver) := by
  obtain ⟨doc, stagingDoc, bases, hdoc, -, hstaging, rfl⟩ := hm.copying
  simp only [memberOfClass, hm.read, bindings_members _ hdoc, bindings_record hstaging,
    Option.bind_eq_bind, Option.bind_some]
  rfl

theorem member_of (hm : Available m name fields staging record) (receiver : Option (Value α)) :
    memberOfClass m staging receiver "_of" =
      some (.method CopyProtocol.staging (copyFunction name fields) (.type staging)) := by
  obtain ⟨_, stagingDoc, _, -, hdoc, rfl, -⟩ := hm.copying
  have hread := (public_words CopyProtocol.staging (by decide)).1
  have hdecorated : decoratedWith m "classmethod" [.name "classmethod"] = true := by
    simp [decoratedWith, Expr.decoratorName?, hm.undisturbed "classmethod" (by simp)]
  have hfound : Table.findEntry "_of" [("_build", buildFunction name fields),
      ("_of", copyFunction name fields)] = some (copyFunction name fields) := rfl
  simp only [stagingClass_eq, memberOfClass, hread, bindings_members _ hdoc, bindings_staging,
    Option.bind_eq_bind, Option.bind_some, hfound]
  simp only [copyFunction, hdecorated, if_true]
  rfl

theorem member_build (hm : Available m name fields staging record) (receiver : Value α) :
    memberOfClass m staging (some receiver) "_build" =
      some (.method CopyProtocol.staging (buildFunction name fields) receiver) := by
  obtain ⟨_, stagingDoc, _, -, hdoc, rfl, -⟩ := hm.copying
  have hread := (public_words CopyProtocol.staging (by decide)).1
  simp only [stagingClass_eq, memberOfClass, hread, bindings_members _ hdoc, bindings_staging,
    Option.bind_eq_bind, Option.bind_some]
  rfl

/-! ### Public names -/

theorem not_mem (hm : Available m name fields staging record) {n : String}
    (hn : n ∈ protocolMembers) : n ∉ fields.map (·.1) := by
  intro hmem
  obtain ⟨f, hf, rfl⟩ := List.mem_map.mp hmem
  exact hm.escaped f hf hn

theorem public_names (hm : Available m name fields staging record)
    (hpublic : ∀ f ∈ fields, isPrivate f.1 = false) : ∀ n ∈ fields.map (·.1), Public n := by
  intro n hn
  obtain ⟨f, hf, rfl⟩ := List.mem_map.mp hn
  exact ⟨hm.fieldsRead f hf, hpublic f hf⟩

theorem instantiate_staging (hm : Available m name fields staging record)
    (hpublic : ∀ f ∈ fields, isPrivate f.1 = false) :
    instantiate m staging ((fields.map (·.1)).map fun n => (n, .plain (v n))) h =
      some (.object h.length,
        h ++ [holding staging CopyProtocol.staging (fields.map (·.1)) v]) := by
  obtain ⟨_, stagingDoc, _, -, hdoc, hstaging, -⟩ := hm.copying
  have hread := (public_words CopyProtocol.staging (by decide)).1
  have hdecorated : decoratedWith m "dataclass" [.name "dataclass"] = true := by
    simp [decoratedWith, Expr.decoratorName?, hm.undisturbed "dataclass" (by simp)]
  rw [holding_eq (hm.public_names hpublic)]
  refine instantiate_eq hdecorated hread hdoc ?_ (fun f hf => ?_) hm.distinct hm.plain hstaging _
  · simp [Statement.fieldName?]
  · exact ⟨hm.fieldsRead f hf, hpublic f hf⟩

theorem instantiate_record (hm : Available m name fields staging record)
    (hpublic : ∀ f ∈ fields, isPrivate f.1 = false) :
    instantiate m record ((fields.map (·.1)).map fun n => (n, .plain (v n))) h =
      some (.object h.length, h ++ [holding record name (fields.map (·.1)) v]) := by
  obtain ⟨doc, stagingDoc, bases, hdoc, -, hstaging, hrecord⟩ := hm.copying
  have hdecorated : decoratedWith m "dataclass"
      [.name "final", .call (.name "dataclass") [] [("frozen", .name "True")]] = true := by
    simp [decoratedWith, Expr.decoratorName?, hm.undisturbed "dataclass" (by simp)]
  rw [holding_eq (hm.public_names hpublic)]
  refine instantiate_eq hdecorated hm.read hdoc ?_ (fun f hf => ?_) hm.distinct hm.plain hrecord _
  · simp [hstaging, stagingClass, withFunction, Statement.fieldName?]
  · exact ⟨hm.fieldsRead f hf, hpublic f hf⟩

/-- Staging objects can be changed. -/
theorem not_frozen (hm : Available m name fields staging record) : staging.isFrozen = false := by
  obtain ⟨_, _, _, -, -, rfl, -⟩ := hm.copying
  rfl

/-! ### Calls -/

theorem callsAt_copyFunction (name : String) (fields : List (String × Ty))
    (receiver source : Value α) (depth : Nat) :
    callsAt m (depth + 1) (.method CopyProtocol.staging (copyFunction name fields) receiver)
        [source] [] h =
      (Expr.call (.name "cls") [] (copiedFields stagingSource fields)).eval m (callsAt m depth)
        CopyProtocol.staging [("cls", some receiver), (stagingSource, some source)] h := by
  have hlocals : (copyFunction name fields).localNames = ["cls", stagingSource] := rfl
  have hpublic : ["cls", stagingSource] ⊆ publicWords := by decide
  exact callsAt_method hlocals (fun n hn => public_words n (hpublic hn)) rfl depth

theorem callsAt_buildFunction (name : String) (fields : List (String × Ty)) (receiver : Value α)
    (depth : Nat) :
    callsAt m (depth + 1) (.method CopyProtocol.staging (buildFunction name fields) receiver) [] []
        h =
      (Expr.call (.reference name) [] (copiedFields "self" fields)).eval m (callsAt m depth)
        CopyProtocol.staging [("self", some receiver)] h := by
  have hlocals : (buildFunction name fields).localNames = ["self"] := rfl
  have hpublic : ["self"] ⊆ publicWords := by decide
  exact callsAt_method hlocals (fun n hn => public_words n (hpublic hn)) rfl depth

theorem callsAt_withFunction (name : String) (receiver setter : Value α) (depth : Nat) :
    callsAt m (depth + 1) (.method name (withFunction name) receiver) [setter] [] h =
      runBody m (callsAt m depth) name
        [("self", some receiver), (CopyProtocol.setter, some setter), (stagingVariable, none)] h
        [.assign stagingVariable (.call (.member (stagingExpr name) "_of") [.name "self"] []),
         .evaluate (.call (.name CopyProtocol.setter) [.name stagingVariable] []),
         .give (.call (.member (.name stagingVariable) "_build") [] [])] := by
  have hlocals : (withFunction name).localNames =
    ["self", CopyProtocol.setter, stagingVariable] := rfl
  have hpublic : ["self", CopyProtocol.setter, stagingVariable] ⊆ publicWords := by decide
  exact callsAt_method hlocals (fun n hn => public_words n (hpublic hn)) rfl depth

/-- A call whose arguments are public fields of a local object passes their values. -/
theorem eval_readEach {calls : Calls α} {className object : String} {scope : Scope α}
    {definition : Statement} {owner : String} {names : List String} (hobject : Public object)
    (hlocal : Table.findEntry object scope = some (some (.object place)))
    (hplace : h[place]? = some (holding definition owner names v))
    (hpublic : ∀ n ∈ names, Public n) (function : Expr) {f : Value α}
    (hfunction : function.eval m calls className scope h = some (f, h)) :
    (Expr.call function [] (readEach object names)).eval m calls className scope h =
      calls f [] (names.map fun n => (n, .plain (v n))) h := by
  have hnamed : evalNamed m calls className scope h (readEach object names) =
      some (names.map fun n => (n, .plain (v n)), h) :=
    evalNamed_readEach hobject hlocal hpublic fun n hn => attributeOf_holding hpublic hplace hn
  simp only [Expr.eval, hfunction, evalAll, hnamed, Option.bind_eq_bind, Option.bind_some]

/-- The staging object has the values of the record. -/
theorem callsAt_copy (hm : Available m name fields staging record)
    (hpublic : ∀ f ∈ fields, isPrivate f.1 = false)
    (hobject : h[place]? = some (holding record name (fields.map (·.1)) v)) (depth : Nat) :
    callsAt m (depth + 2) (.method CopyProtocol.staging (copyFunction name fields) (.type staging))
        [.object place] [] h =
      some (.object h.length,
        h ++ [holding staging CopyProtocol.staging (fields.map (·.1)) v]) := by
  rw [callsAt_copyFunction, copiedFields_eq hm.fieldsRead,
    eval_readEach (public_words stagingSource (by decide)) rfl hobject (hm.public_names hpublic) _
      (eval_local (public_words "cls" (by decide)) rfl)]
  exact hm.instantiate_staging hpublic

/-- A public name of the class means the class, unless it is local. -/
theorem eval_name (hm : Available m name fields staging record) {calls : Calls α}
    {className : String} {scope : Scope α} (hname : isPrivate name = false)
    (hlocal : Table.findEntry name scope = none) :
    (Expr.reference name).eval m calls className scope h = some (.type record, h) := by
  rw [reference_eq hm.read, eval_class (inClass_of_public hm.read hname className) hlocal,
    (hm.found name).mpr rfl]
  rfl

/-- The record that is built has the values of the staging object. -/
theorem callsAt_build (hm : Available m name fields staging record)
    (hpublic : ∀ f ∈ fields, isPrivate f.1 = false) (hname : isPrivate name = false)
    (hself : name ≠ "self")
    (hobject : h[place]? = some (holding staging CopyProtocol.staging (fields.map (·.1)) v))
    (depth : Nat) :
    callsAt m (depth + 2)
        (.method CopyProtocol.staging (buildFunction name fields) (.object place)) [] [] h =
      some (.object h.length, h ++ [holding record name (fields.map (·.1)) v]) := by
  have hlocal : Table.findEntry name [("self", some (Value.object (α := α) place))] = none := by
    simp [Table.findEntry, Ne.symm hself]
  rw [callsAt_buildFunction, copiedFields_eq hm.fieldsRead,
    eval_readEach (public_words "self" (by decide)) rfl hobject (hm.public_names hpublic) _
      (hm.eval_name hname hlocal)]
  exact hm.instantiate_record hpublic

section

variable {scope : Scope α} {assignments : List (String × α)} {className : String} {staged : Nat}

/-! ### The statements of the copy method -/

theorem eval_staging (hm : Available m name fields staging record)
    (hpublic : ∀ f ∈ fields, isPrivate f.1 = false) (hname : isPrivate name = false)
    (hlocal : Table.findEntry name scope = none)
    (hself : Table.findEntry "self" scope = some (some (.object place)))
    (hobject : h[place]? = some (holding record name (fields.map (·.1)) v)) (depth : Nat) :
    (Expr.call (.member (stagingExpr name) "_of") [.name "self"] []).eval m (callsAt m (depth + 2))
        className scope h =
      some (.object h.length,
        h ++ [holding staging CopyProtocol.staging (fields.map (·.1)) v]) := by
  have hclass : (Expr.reference name).eval m (callsAt m (depth + 2)) className scope h =
      some (.type record, h) := hm.eval_name hname hlocal
  have hstaging := eval_member (public_words CopyProtocol.staging (by decide)) hclass
    (hm.member_staging none)
  have hof := eval_member (public_words "_of" (by decide)) hstaging (hm.member_of none)
  rw [← hm.callsAt_copy hpublic hobject depth]
  exact eval_call hof (.cons ⟨public_words "self" (by decide), hself⟩ .nil)

theorem eval_setter (hm : Available m name fields staging record)
    (hpublic : ∀ f ∈ fields, isPrivate f.1 = false)
    (hsetter : Table.findEntry CopyProtocol.setter scope = some (some (.setter assignments)))
    (hstaged : Table.findEntry stagingVariable scope = some (some (.object h.length)))
    (hnames : ∀ e ∈ assignments, e.1 ∈ fields.map (·.1)) (depth : Nat) :
    (Expr.call (.name CopyProtocol.setter) [.name stagingVariable] []).eval m
        (callsAt m (depth + 1)) className scope
        (h ++ [holding staging CopyProtocol.staging (fields.map (·.1)) v]) =
      some (.nothing, h ++ [holding staging CopyProtocol.staging (fields.map (·.1))
        (overridden v assignments)]) := by
  refine (eval_call (eval_local (public_words CopyProtocol.setter (by decide)) hsetter)
    (.cons ⟨public_words stagingVariable (by decide), hstaged⟩ .nil)).trans ?_
  rw [callsAt, assignAll_last (hm.public_names hpublic) hm.distinct hm.not_frozen v hnames]
  rfl

theorem eval_build (hm : Available m name fields staging record)
    (hpublic : ∀ f ∈ fields, isPrivate f.1 = false) (hname : isPrivate name = false)
    (hne : name ≠ "self")
    (hstaged : Table.findEntry stagingVariable scope = some (some (.object staged)))
    (hobject : h[staged]? = some (holding staging CopyProtocol.staging (fields.map (·.1)) v))
    (depth : Nat) :
    (Expr.call (.member (.name stagingVariable) "_build") [] []).eval m (callsAt m (depth + 2))
        className scope h =
      some (.object h.length, h ++ [holding record name (fields.map (·.1)) v]) := by
  have hmember := (attributeOf_of_not_mem (m := m) (hm.public_names hpublic) hobject
    (hm.not_mem (n := "_build") (by decide))).trans (hm.member_build (.object staged))
  rw [← hm.callsAt_build hpublic hname hne hobject depth]
  exact eval_call (eval_member (public_words "_build" (by decide))
    (eval_local (public_words stagingVariable (by decide)) hstaged) hmember) .nil

/-- The copy method makes a staging object, lets the setter change it, and builds a record. -/
theorem callsAt_with (hm : Available m name fields staging record)
    (hpublic : ∀ f ∈ fields, isPrivate f.1 = false) (hname : isPrivate name = false)
    (hlocal : name ∉ ["self", CopyProtocol.setter, stagingVariable])
    (hobject : h[place]? = some (holding record name (fields.map (·.1)) v))
    (hnames : ∀ e ∈ assignments, e.1 ∈ fields.map (·.1)) (depth : Nat) :
    callsAt m (depth + 3) (.method name (withFunction name) (.object place))
        [.setter assignments] [] h =
      some (.object (h.length + 1),
        h ++ [holding staging CopyProtocol.staging (fields.map (·.1)) (overridden v assignments),
          holding record name (fields.map (·.1)) (overridden v assignments)]) := by
  rw [callsAt_withFunction]
  simp only [List.mem_cons, List.not_mem_nil, or_false, not_or] at hlocal
  have hfree : Table.findEntry name [("self", some (Value.object (α := α) place)),
      (CopyProtocol.setter, some (.setter assignments)), (stagingVariable, none)] = none := by
    simp [Table.findEntry, Ne.symm hlocal.1, Ne.symm hlocal.2.1, Ne.symm hlocal.2.2]
  have hlast : (h ++ [holding staging CopyProtocol.staging (fields.map (·.1))
      (overridden v assignments)])[h.length]? = some (holding staging CopyProtocol.staging
        (fields.map (·.1)) (overridden v assignments)) := by
    simp
  have hkey := (public_words stagingVariable (by decide)).inClass name
  rw [runBody, hkey, hm.eval_staging hpublic hname hfree rfl hobject]
  simp only [Option.bind_eq_bind, Option.bind_some]
  rw [runBody, hm.eval_setter hpublic rfl rfl hnames]
  simp only [Option.bind_eq_bind, Option.bind_some]
  rw [runBody, hm.eval_build hpublic hname hlocal.1 rfl hlast]
  simp

end

/-! ### What goes wrong -/

/-- Renaming leaves no field of the staging class with a private name, so no staging object is made
if there is a value for one. -/
theorem callsAt_copy_eq_none (hm : Available m name fields staging record) {f : String × Ty}
    (hf : f ∈ fields) (hprivate : isPrivate f.1 = true) (source : Value α) (depth : Nat) :
    callsAt m depth (.method CopyProtocol.staging (copyFunction name fields) (.type staging))
      [source] [] h = none := by
  obtain ⟨_, stagingDoc, _, -, hdoc, hstaging, -⟩ := hm.copying
  cases depth with
  | zero => rfl
  | succ depth =>
      rw [callsAt_copyFunction, copiedFields_eq hm.fieldsRead, Expr.eval,
        eval_local (public_words "cls" (by decide)) rfl]
      simp only [evalAll, Option.bind_eq_bind, Option.bind_some, Option.bind_eq_none_iff]
      rintro ⟨ws, h'⟩ hnamed
      have hkeys := evalNamed_keys (fun n hn => by
        obtain ⟨f, hf, rfl⟩ := List.mem_map.mp hn
        exact hm.fieldsRead f hf) hnamed
      cases depth with
      | zero => rfl
      | succ depth =>
          have hmem : f.1 ∈ ws.map (·.1) := hkeys ▸ List.mem_map_of_mem hf
          refine instantiate_eq_none hstaging hmem (fun attributes hattributes hpublic => ?_)
            (public_words CopyProtocol.staging (by decide)).1
          have hnot := fieldAttributes?_public classStem_staging hattributes _ hpublic
          rw [hprivate] at hnot
          cases hnot

/-- A private name of a class means another class to its staging class, or none. -/
theorem callsAt_build_ne (hm : Available m name fields staging record)
    (hname : isPrivate name = true) {receiver : Value α} {depth copy : Nat} {h' : Heap α}
    {attributes : List (String × Value α)}
    (hmade : callsAt m depth (.method CopyProtocol.staging (buildFunction name fields) receiver) []
      [] h = some (.object copy, h')) : h'[copy]? ≠ some ⟨record, attributes⟩ := by
  cases depth with
  | zero => cases hmade
  | succ depth =>
      have hkey : inClass CopyProtocol.staging name =
          some (mangled CopyProtocol.staging name) := by
        rw [inClass, hm.read, Option.map_some]
      have hpublic := isPrivate_mangled classStem_staging name
      have hself : mangled CopyProtocol.staging name ≠ "self" := by
        intro heq
        have hhead := congrArg (fun n => n.toList.head?) heq
        simp [toList_mangled hname, if_neg classStem_staging] at hhead
      have hlocal : Table.findEntry (mangled CopyProtocol.staging name)
          [("self", some receiver)] = none := by
        simp [Table.findEntry, Ne.symm hself]
      rw [callsAt_buildFunction, copiedFields_eq hm.fieldsRead, reference_eq hm.read, Expr.eval,
        eval_class hkey hlocal] at hmade
      simp only [evalAll, Option.bind_eq_bind, Option.bind_eq_some_iff, Option.map_eq_some_iff,
        Option.bind_some] at hmade
      obtain ⟨_, ⟨definition, hfound, rfl⟩, ⟨ws, h''⟩, hnamed, hmade⟩ := hmade
      have hother : definition ≠ record := by
        rintro rfl
        rw [(hm.found _).mp hfound, hname] at hpublic
        cases hpublic
      cases depth with
      | zero => cases hmade
      | succ depth =>
          obtain ⟨own, hcopy, rfl⟩ := instantiate_spec hmade
          obtain rfl := Value.object.inj hcopy
          simp [hother]

/-- A class called like the parameter is hidden by the staging object, which cannot be called. -/
theorem callsAt_build_eq_none (hm : Available m "self" fields staging record) (staged depth : Nat) :
    callsAt m depth
      (.method CopyProtocol.staging (buildFunction "self" fields) (.object staged)) [] [] h =
        none := by
  cases depth with
  | zero => rfl
  | succ depth =>
      rw [callsAt_buildFunction, reference_eq hm.read, Expr.eval,
        eval_local (public_words "self" (by decide)) rfl]
      simp only [evalAll, Option.bind_eq_bind, Option.bind_some, Option.bind_eq_none_iff]
      rintro ⟨ws, h'⟩ -
      cases depth <;> rfl

/-- A class called like a local name is not reached where that name has no value, or one without
members. -/
theorem eval_stagingExpr_eq_none (hm : Available m name fields staging record)
    (hpublic : Public name) {calls : Calls α} {className : String} {scope : Scope α}
    {value : Option (Value α)}
    (hvalue : Table.findEntry name scope = some value)
    (hmember : ∀ v ∈ value, ∀ n, attributeOf m h n v = none) :
    (stagingExpr name).eval m calls className scope h = none := by
  rw [stagingExpr, reference_eq hm.read, Expr.eval]
  cases value with
  | none => rw [eval_unassigned hpublic hvalue, Option.bind_eq_bind, Option.bind_none]
  | some v =>
      rw [eval_local hpublic hvalue]
      simp [hmember v rfl]

/-- In the copy method the setter and the variable hide classes called like them. -/
theorem callsAt_with_eq_none (hm : Available m name fields staging record)
    (hlocal : name ∈ [CopyProtocol.setter, stagingVariable]) (receiver : Value α)
    (assignments : List (String × α)) (depth : Nat) :
    callsAt m depth (.method name (withFunction name) receiver) [.setter assignments] [] h =
      none := by
  cases depth with
  | zero => rfl
  | succ depth =>
      have hkey := (public_words stagingVariable (by decide)).inClass name
      have hlocals : [CopyProtocol.setter, stagingVariable] ⊆ publicWords := by decide
      obtain ⟨value, hvalue, hnone⟩ : ∃ value : Option (Value α),
          Table.findEntry name [("self", some receiver),
            (CopyProtocol.setter, some (.setter assignments)), (stagingVariable, none)] =
              some value ∧ ∀ v ∈ value, ∀ n, attributeOf m h n v = none := by
        rcases List.mem_cons.mp hlocal with rfl | hlocal
        · exact ⟨some (.setter assignments), rfl, fun v hv n => by cases hv; rfl⟩
        · obtain rfl := List.mem_singleton.mp hlocal
          exact ⟨none, rfl, by simp⟩
      rw [callsAt_withFunction, runBody, hkey, Expr.eval, Expr.eval,
        hm.eval_stagingExpr_eq_none (public_words name (hlocals hlocal)) hvalue hnone]
      rfl

/-! ### Copies -/

/-- A fresh copy is what is built from what the staging class makes of the record. -/
theorem freshCopy_bind (hm : Available m name fields staging record) (depth : Nat) :
    freshCopy m depth record place h =
      (callsAt m depth (.method CopyProtocol.staging (copyFunction name fields) (.type staging))
        [.object place] [] h).bind fun made => callMember m depth made.1 "_build" [] made.2 := by
  have hstaging : attributeOf m h CopyProtocol.staging (.type record) = some (.type staging) :=
    hm.member_staging none
  have hof : attributeOf m h "_of" (.type staging) =
      some (.method CopyProtocol.staging (copyFunction name fields) (.type staging)) :=
    hm.member_of none
  simp only [freshCopy, hstaging, callMember, hof, Option.bind_eq_bind, Option.bind_some]

theorem freshCopy_eq (hm : Available m name fields staging record)
    (hpublic : ∀ f ∈ fields, isPrivate f.1 = false)
    (hobject : h[place]? = some (holding record name (fields.map (·.1)) v)) (depth : Nat) :
    freshCopy m (depth + 2) record place h =
      callsAt m (depth + 2)
        (.method CopyProtocol.staging (buildFunction name fields) (.object h.length)) [] []
        (h ++ [holding staging CopyProtocol.staging (fields.map (·.1)) v]) := by
  have hbuild := (attributeOf_of_not_mem (m := m) (hm.public_names hpublic)
    (List.getElem?_concat_length (l := h)
      (a := holding staging CopyProtocol.staging (fields.map (·.1)) v))
    (hm.not_mem (n := "_build") (by decide))).trans (hm.member_build (.object h.length))
  rw [hm.freshCopy_bind, hm.callsAt_copy hpublic hobject, Option.bind_some, callMember, hbuild,
    Option.bind_eq_bind, Option.bind_some]

theorem freshCopy_eq_none (hm : Available m name fields staging record) {f : String × Ty}
    (hf : f ∈ fields) (hprivate : isPrivate f.1 = true) (depth : Nat) :
    freshCopy m depth record place h = none := by
  rw [hm.freshCopy_bind, hm.callsAt_copy_eq_none hf hprivate, Option.bind_none]

/-- Fresh copies are copies if and only if no name stands in the way. -/
theorem freshCopies_iff (hm : Available m name fields staging record) :
    FreshCopies m record name (fields.map (·.1)) ↔
      AllowsCopies ["self"] name (fields.map (·.1)) := by
  constructor
  · intro hc
    -- The only record of a heap is tried.
    have hobject : [holding record name (fields.map (·.1)) fun _ => ()][0]? =
        some (holding record name (fields.map (·.1)) fun _ => ()) := rfl
    obtain ⟨copy, h', hfresh, -, hcopy⟩ := hc Unit _ 0 _ 2 (Nat.le_refl 2) hobject
    have hpublic : ∀ f ∈ fields, isPrivate f.1 = false := by
      intro f hf
      by_contra hprivate
      rw [hm.freshCopy_eq_none hf (by simpa using hprivate)] at hfresh
      cases hfresh
    rw [hm.freshCopy_eq hpublic hobject] at hfresh
    refine ⟨fun n hn => ?_, ?_, fun hlocal => ?_⟩
    · obtain ⟨f, hf, rfl⟩ := List.mem_map.mp hn
      exact hpublic f hf
    · by_contra hprivate
      exact hm.callsAt_build_ne (by simpa using hprivate) hfresh hcopy
    · obtain rfl := List.mem_singleton.mp hlocal
      rw [hm.callsAt_build_eq_none] at hfresh
      cases hfresh
  · intro hallows α h place v depth hdepth hobject
    obtain ⟨depth, rfl⟩ := Nat.exists_eq_add_of_le' hdepth
    have hpublic : ∀ f ∈ fields, isPrivate f.1 = false :=
      fun f hf => hallows.fields _ (List.mem_map_of_mem hf)
    have hself : name ≠ "self" := fun heq => hallows.global (heq ▸ List.mem_cons_self)
    have hrun := hm.freshCopy_eq hpublic hobject depth
    rw [hm.callsAt_build hpublic hallows.own hself List.getElem?_concat_length] at hrun
    refine ⟨_, _, hrun, ?_, List.getElem?_concat_length⟩
    exact (List.prefix_append _ _).trans (List.prefix_append _ _)

/-- The copy method mentions the class beside two more local names. -/
theorem copies_iff (hm : Available m name fields staging record) :
    Copies m record name (fields.map (·.1)) ↔
      AllowsCopies ["self", CopyProtocol.setter, stagingVariable] name (fields.map (·.1)) := by
  have hmember : ∀ {α : Type} {h : Heap α} {place : Nat} {v : String → α},
      (∀ f ∈ fields, isPrivate f.1 = false) →
      h[place]? = some (holding record name (fields.map (·.1)) v) →
      attributeOf m h "with_" (.object place) =
        some (.method name (withFunction name) (.object place)) := fun hpublic hobject =>
    (attributeOf_of_not_mem (hm.public_names hpublic) hobject (hm.not_mem (by decide))).trans
      (hm.member_with _)
  constructor
  · intro hc
    have hallows := hm.freshCopies_iff.mp hc.fresh
    have hpublic : ∀ f ∈ fields, isPrivate f.1 = false :=
      fun f hf => hallows.fields _ (List.mem_map_of_mem hf)
    refine ⟨hallows.fields, hallows.own, fun hlocal => ?_⟩
    have hobject : [holding record name (fields.map (·.1)) fun _ => ()][0]? =
        some (holding record name (fields.map (·.1)) fun _ => ()) := rfl
    obtain ⟨_, _, hupdate, -⟩ := hc.update Unit _ 0 _ [] 3 (Nat.le_refl 3) hobject (by simp)
    have hothers := (List.mem_cons.mp hlocal).resolve_left fun heq =>
      hallows.global (heq ▸ List.mem_cons_self)
    rw [callMember, hmember hpublic hobject, Option.bind_eq_bind, Option.bind_some,
      hm.callsAt_with_eq_none hothers] at hupdate
    cases hupdate
  · intro hallows
    have hpublic : ∀ f ∈ fields, isPrivate f.1 = false :=
      fun f hf => hallows.fields _ (List.mem_map_of_mem hf)
    have hself : name ∉ ["self"] := fun hlocal =>
      hallows.global (List.mem_singleton.mp hlocal ▸ List.mem_cons_self)
    refine ⟨hm.freshCopies_iff.mpr ⟨hallows.fields, hallows.own, hself⟩, ?_⟩
    intro α h place v assignments depth hdepth hobject hnames
    obtain ⟨depth, rfl⟩ := Nat.exists_eq_add_of_le' hdepth
    simp only [callMember, hmember hpublic hobject, Option.bind_eq_bind, Option.bind_some,
      hm.callsAt_with hpublic hallows.own hallows.global hobject hnames depth]
    exact ⟨_, _, rfl, List.prefix_append _ _, by simp⟩

end Available

end RecordGen.Python

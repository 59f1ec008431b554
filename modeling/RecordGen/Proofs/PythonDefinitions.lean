import RecordGen.Proofs.Outcomes
import RecordGen.Proofs.PythonLinearization
import RecordGen.Text.NormalForm

/-! # Defining the classes of a module

A module defines its classes from the top down. A class statement looks up its bases, merges their
orders to that of the new class, and binds the class's name. Generated classes list their interfaces
nearest first and come after them, so all orders agree and every class is defined, as long as names
that are written differently are also read differently. -/

namespace RecordGen.Python

open Fallible ClassGraph

/-! ## Class statements -/

/-- A class in a module: one of the language, or the one bound at a place. -/
inductive ClassObject where
  | object
  | generic
  | protocol
  | defined (place : Nat)
deriving DecidableEq, Repr

/-- What the names of a module are bound to, the latest binding first: classes, each with its
ancestors behind it in the order of the class. -/
abbrev Namespace := List (String × List ClassObject)

/-- The order of `Protocol`. -/
def protocolOrder : List ClassObject := [.protocol, .generic, .object]

/-- The name a base is looked up by. A subscript stands for the class it is put on. -/
def Expr.baseName? : Expr → Option String
  | .name n => some n
  | .subscript (.name n) _ => some n
  | _ => none

section

variable (reads : String → Option String) (ns : Namespace)

/-- The order of the class a base stands for, if it is bound. -/
def baseOrder? (base : Expr) : Option (List ClassObject) := do
  Table.findEntry (← reads (← base.baseName?)) ns

/-- The ancestors of a class in their order: the orders of its bases merged with the list of the
bases. -/
def ancestorOrder? (bases : List Expr) : Option (List ClassObject) :=
  if bases.isEmpty then some [.object]
  else do
    let orders ← bases.mapM (baseOrder? reads ns)
    merge? (orders ++ [orders.filterMap List.head?])

/-- The bases of each class that a body defines. -/
def nestedBases (body : List Statement) : List (List Expr) :=
  body.filterMap fun
    | .classDefinition _ _ bases _ => some bases
    | _ => none

/-- A class statement binds the class, if the classes in its body can be defined and its own
ancestors can be put in order. -/
def define : Statement → Option Namespace
  | .classDefinition _ name bases body => do
    guard ((nestedBases body).all fun nested => (ancestorOrder? reads ns nested).isSome)
    let ancestors ← ancestorOrder? reads ns bases
    return (← reads name, .defined ns.length :: ancestors) :: ns
  | _ => some ns

end

/-- What the imports of a module bind, as far as it is used as a base. -/
def importedNamespace? (reads : String → Option String) (a : Analysis) (body : List Statement) :
    Option Namespace :=
  if "Protocol" ∈ typingImports a body then do return [(← reads "Protocol", protocolOrder)]
  else some []

/-- The classes that a module defines before those of its types. -/
def preludeClasses (a : Analysis) : List Statement :=
  if a.contract.isSome then [contractClass] else []

/-- What the names of a module are bound to in the end. -/
def moduleNamespace? (reads : String → Option String) (a : Analysis) (body : List Statement) :
    Option Namespace := do
  (preludeClasses a ++ body).foldlM (define reads) (← importedNamespace? reads a body)

/-- All classes of a module can be defined one after the other, its names being read in some way. -/
def Definable (reads : String → Option String) (a : Analysis) (body : List Statement) : Prop :=
  (moduleNamespace? reads a body).isSome = true

instance (reads : String → Option String) (a : Analysis) (body : List Statement) :
    Decidable (Definable reads a body) :=
  inferInstanceAs (Decidable (_ = _))

/-! ## Names as they are read -/

def Statement.className? : Statement → Option String
  | .classDefinition _ name _ _ => some name
  | _ => none

/-- The names that class statements of a module bind and look up. -/
def boundNames (a : Analysis) (body : List Statement) : List String :=
  "Protocol" :: (preludeClasses a ++ body).filterMap Statement.className?

/-- All names can be read, and no two of them alike. -/
def ReadsApart (reads : String → Option String) (names : List String) : Prop :=
  ∀ n ∈ names, (reads n).isSome = true ∧ ∀ m ∈ names, reads n = reads m → n = m

instance (reads : String → Option String) (names : List String) :
    Decidable (ReadsApart reads names) :=
  inferInstanceAs (Decidable (∀ n ∈ names, (reads n).isSome = true ∧
    ∀ m ∈ names, reads n = reads m → n = m))

/-- A name as it is written. -/
def asWritten (name : String) : Option String :=
  some name

/-- A name as the language reads it: what is no name of the grammar cannot be read, and names are
compared in their normal form. -/
def asRead (name : String) : Option String :=
  if isIdentifier name ∧ name ∉ keywords then some (Text.normalForm name) else none

theorem readsApart_asWritten (names : List String) : ReadsApart asWritten names :=
  fun _ _ => ⟨rfl, fun _ _ h => Option.some.inj h⟩

/-! ## Looking up bases -/

section

variable {reads : String → Option String} {ns : Namespace}

theorem baseOrder?_eq {base : Expr} {n k : String} (hbase : base.baseName? = some n)
    (hk : reads n = some k) : baseOrder? reads ns base = Table.findEntry k ns := by
  simp [baseOrder?, hbase, hk]

theorem baseOrder?_cons_self {base : Expr} {n k : String} (hbase : base.baseName? = some n)
    (hk : reads n = some k) (order : List ClassObject) :
    baseOrder? reads ((k, order) :: ns) base = some order := by
  rw [baseOrder?_eq hbase hk, Table.findEntry, if_pos rfl]

/-- A binding hides no name but its own. -/
theorem ReadsApart.baseOrder?_cons {names : List String} (h : ReadsApart reads names)
    {n m k : String} (hn : n ∈ names) (hm : m ∈ names) (hne : n ≠ m) (hk : reads m = some k)
    {base : Expr} (hbase : base.baseName? = some n) (order : List ClassObject) :
    baseOrder? reads ((k, order) :: ns) base = baseOrder? reads ns base := by
  obtain ⟨k', hk'⟩ := Option.isSome_iff_exists.mp (h n hn).1
  have hdiffer : k ≠ k' := fun heq => hne ((h n hn).2 m hm (by rw [hk', hk, heq]))
  rw [baseOrder?_eq hbase hk', baseOrder?_eq hbase hk', Table.findEntry, if_neg hdiffer]

theorem ancestorOrder?_eq {bases : List Expr} {orders : List (List ClassObject)}
    (hbases : bases ≠ [])
    (h : List.Forall₂ (fun b o => baseOrder? reads ns b = some o) bases orders) :
    ancestorOrder? reads ns bases = merge? (orders ++ [orders.filterMap List.head?]) := by
  rw [ancestorOrder?, if_neg (by simpa using hbases), mapM_eq_some.mpr h]
  rfl

theorem define_classDefinition {decorators bases : List Expr} {name k : String}
    {body : List Statement} {ancestors : List ClassObject}
    (hnested : ∀ nested ∈ nestedBases body, nested = [])
    (hancestors : ancestorOrder? reads ns bases = some ancestors) (hk : reads name = some k) :
    define reads ns (.classDefinition decorators name bases body) =
      some ((k, .defined ns.length :: ancestors) :: ns) := by
  have hinner : ((nestedBases body).all fun nested =>
      (ancestorOrder? reads ns nested).isSome) = true := by
    rw [List.all_eq_true]
    rintro nested hmem
    rw [hnested nested hmem]
    rfl
  rw [define, guard, if_pos hinner, hancestors, hk]
  rfl

end

/-! ## Orders that agree -/

section

variable {place : TypePath → ClassObject}

/-- The order of the class of an interface: its interfaces, itself first, before those of the
language. -/
def interfaceOrder (place : TypePath → ClassObject) (ts : List TypePath) : List ClassObject :=
  ts.map place ++ protocolOrder

theorem merge?_protocol : merge? [protocolOrder, [.protocol]] = some protocolOrder := by
  decide

/-- An interface that extends another one gets the order of that one behind it. -/
theorem merge?_parent {u : TypePath} {us : List TypePath}
    (hn : (interfaceOrder place (u :: us)).Nodup) :
    merge? [interfaceOrder place (u :: us), protocolOrder, [place u, .protocol]] =
      some (interfaceOrder place (u :: us)) := by
  refine (Ordered.of_mem hn (by simp) ?_).merge?_eq
  have hprotocol : [ClassObject.protocol].Sublist protocolOrder := by decide
  simp only [List.forall_mem_cons, List.not_mem_nil, false_implies, implies_true, and_true]
  refine ⟨List.Sublist.refl _, List.sublist_append_right _ _, ?_⟩
  rw [interfaceOrder, List.map_cons, List.cons_append]
  exact (hprotocol.trans (List.sublist_append_right _ _)).cons_cons _

/-- The orders of the classes of some interfaces. What an interface extends follows it in the
list. -/
def OrdersOf (place : TypePath → ClassObject) (ts : List TypePath)
    (orders : List (List ClassObject)) : Prop :=
  List.Forall₂ (fun t o => ∃ us, t :: us <:+ ts ∧ o = interfaceOrder place (t :: us)) ts orders

namespace OrdersOf

variable {ts : List TypePath} {orders : List (List ClassObject)}

theorem heads (h : OrdersOf place ts orders) : orders.filterMap List.head? = ts.map place := by
  have hheads : List.Forall₂ (fun t o => o.head? = some (place t)) ts orders := by
    refine List.Forall₂.imp ?_ h
    rintro t o ⟨us, -, rfl⟩
    rfl
  clear h
  induction hheads with
  | nil => rfl
  | cons hhead _ ih => rw [List.filterMap_cons_some hhead, List.map_cons, ih]

/-- An order keeps its place in the order of the whole list, whatever else is put in front of the
classes of the language. -/
theorem sublist (h : OrdersOf place ts orders) (between : List ClassObject) :
    ∀ o ∈ orders, o.Sublist (ts.map place ++ (between ++ protocolOrder)) := by
  intro o ho
  obtain ⟨t, _, us, hsuffix, rfl⟩ := List.Forall₂.exists_left h o ho
  exact (hsuffix.sublist.map place).append (List.sublist_append_right _ _)

theorem first_mem {t : TypePath} {ts : List TypePath} (hn : (t :: ts).Nodup)
    (h : OrdersOf place (t :: ts) orders) : interfaceOrder place (t :: ts) ∈ orders := by
  cases h with
  | cons hfirst _ =>
      obtain ⟨us, hsuffix, rfl⟩ := hfirst
      rcases List.suffix_cons_iff.mp hsuffix with heq | hsuffix
      · exact heq ▸ List.mem_cons_self
      · exact absurd (hsuffix.subset List.mem_cons_self) (List.nodup_cons.mp hn).1

/-- A record without the copy-with protocol gets the order of its nearest interface behind it. -/
theorem merge?_implements {t : TypePath} {ts : List TypePath} (hn : (t :: ts).Nodup)
    (hplaces : (interfaceOrder place (t :: ts)).Nodup) (h : OrdersOf place (t :: ts) orders) :
    merge? (orders ++ [orders.filterMap List.head?]) = some (interfaceOrder place (t :: ts)) := by
  refine (Ordered.of_mem hplaces (List.mem_append_left _ (h.first_mem hn)) ?_).merge?_eq
  intro o ho
  rcases List.mem_append.mp ho with ho | ho
  · exact h.sublist [] o ho
  · rw [List.mem_singleton.mp ho, h.heads]
    exact List.sublist_append_left _ _

/-- With the copy-with protocol the contract comes between the interfaces and the classes of the
language: the list of the bases says so up to the contract, and the contract's order from there
on. -/
theorem merge?_contract {c : ClassObject} (hplaces : (ts.map place ++ c :: protocolOrder).Nodup)
    (h : OrdersOf place ts orders) :
    merge? ((orders ++ [c :: protocolOrder]) ++
        [(orders ++ [c :: protocolOrder]).filterMap List.head?]) =
      some (ts.map place ++ c :: protocolOrder) := by
  have hheads : (orders ++ [c :: protocolOrder]).filterMap List.head? = ts.map place ++ [c] := by
    rw [List.filterMap_append, h.heads]
    rfl
  rw [hheads]
  refine (Ordered.of_overlap hplaces (by simp) (by simp) ?_).merge?_eq
  intro o ho
  rw [List.append_assoc, List.mem_append, List.mem_append, List.mem_singleton,
    List.mem_singleton] at ho
  rcases ho with ho | rfl | rfl
  · exact h.sublist [c] o ho
  · exact List.sublist_append_right _ _
  · exact (List.Sublist.refl _).append (by simp)

end OrdersOf

end

/-! ## Places -/

/-- The class of a type, if the class of the first type is bound at a given place. -/
def placeOf (start : Nat) (ts : List TypePath) (t : TypePath) : ClassObject :=
  .defined (start + ts.idxOf t)

theorem map_placeOf_nodup {start : Nat} {ts us : List TypePath} (hn : us.Nodup) (hsub : us ⊆ ts) :
    (us.map (placeOf start ts)).Nodup := by
  refine List.Nodup.map_on (fun t ht u _ heq => ?_) hn
  rw [placeOf, placeOf, ClassObject.defined.injEq, Nat.add_left_cancel_iff] at heq
  exact (List.idxOf_inj (hsub ht)).mp heq

theorem interfaceOrder_nodup {start : Nat} {ts us : List TypePath} (hn : us.Nodup)
    (hsub : us ⊆ ts) : (interfaceOrder (placeOf start ts) us).Nodup := by
  rw [interfaceOrder, List.nodup_append]
  refine ⟨map_placeOf_nodup hn hsub, by decide, ?_⟩
  rintro o ho o' ho' rfl
  obtain ⟨t, -, rfl⟩ := List.mem_map.mp ho
  simp [placeOf, protocolOrder] at ho'

theorem contractOrder_nodup {start w : Nat} (hw : w < start) {ts us : List TypePath} (hn : us.Nodup)
    (hsub : us ⊆ ts) : (us.map (placeOf start ts) ++ .defined w :: protocolOrder).Nodup := by
  rw [List.nodup_append]
  refine ⟨map_placeOf_nodup hn hsub, ?_, ?_⟩
  · rw [List.nodup_cons]
    exact ⟨by simp [protocolOrder], by decide⟩
  · rintro o ho o' ho' rfl
    obtain ⟨t, -, rfl⟩ := List.mem_map.mp ho
    simp [placeOf, protocolOrder] at ho'
    omega

/-! ## What the classes before a class have bound -/

section

variable {config : Config} {g : ClassGraph} {a : Analysis} {names : Table TypePath String}
  {reads : String → Option String} {bound : List String}

/-- The paths of the types of a result. -/
def paths (a : Analysis) : List TypePath :=
  a.types.map (·.head.path)

/-- The names that the classes of a result bind and look up are among some names, which can be told
apart. -/
structure Names (a : Analysis) (names : Table TypePath String) (reads : String → Option String)
    (bound : List String) : Prop where
  apart : ReadsApart reads bound
  protocol : "Protocol" ∈ bound
  contract : a.contract.isSome = true → CopyProtocol.contract ∈ bound
  types : ∀ t ∈ paths a, ∀ n, classNameOf names t = .ok n → n ∈ bound

/-- After the classes of some types, `Protocol`, the contract and the interfaces among the types are
bound, each in its order. -/
structure Bound (a : Analysis) (names : Table TypePath String) (reads : String → Option String)
    (start : Nat) (done : List GeneratedType) (ns : Namespace) : Prop where
  size : ns.length = start + done.length
  protocol : a.contract.isSome = true ∨ a.interfaces ≠ [] →
    ∀ base : Expr, base.baseName? = some "Protocol" → baseOrder? reads ns base = some protocolOrder
  contract : a.contract.isSome = true → ∃ w < start, ∀ base : Expr,
    base.baseName? = some CopyProtocol.contract →
      baseOrder? reads ns base = some (.defined w :: protocolOrder)
  interfaces : ∀ r ∈ a.resolutions, ∀ t, r.interface = some t → t ∈ done.map (·.head.path) →
    ∀ n, classNameOf names t = .ok n → ∀ base : Expr, base.baseName? = some n →
      baseOrder? reads ns base = some (interfaceOrder (placeOf start (paths a)) r.contracts)

theorem className_not_mem (h : a.Describes config g) (hnames : classNames a = .ok names)
    {t : TypePath} (ht : t ∈ paths a) {n : String} (hn : classNameOf names t = .ok n) :
    n ∉ moduleNames ++ if a.contract.isSome then contractNames else [] :=
  (flatNames_apart h.paths_nodup hnames t ht n (classNameOf_eq_ok.mp hn)).1

theorem className_inj (h : a.Describes config g) (hnames : classNames a = .ok names)
    {t u : TypePath} (ht : t ∈ paths a) (hu : u ∈ paths a) {n : String}
    (htn : classNameOf names t = .ok n) (hun : classNameOf names u = .ok n) : t = u :=
  (flatNames_apart h.paths_nodup hnames t ht n (classNameOf_eq_ok.mp htn)).2 u hu
    (classNameOf_eq_ok.mp hun)

variable {start : Nat} {done rest : List GeneratedType} {d : GeneratedType} {ns : Namespace}

/-- A class statement keeps what is bound, and binds its own type. -/
theorem Bound.snoc (hb : Bound a names reads start done ns) (h : a.Describes config g)
    (hnames : classNames a = .ok names) (hn : Names a names reads bound)
    (htypes : a.types = done ++ d :: rest) {n k : String}
    (hname : classNameOf names d.head.path = .ok n) (hk : reads n = some k)
    {ancestors : List ClassObject} (hown : ∀ r ∈ a.resolutions, r.interface = some d.head.path →
      .defined ns.length :: ancestors = interfaceOrder (placeOf start (paths a)) r.contracts) :
    Bound a names reads start (done ++ [d]) ((k, .defined ns.length :: ancestors) :: ns) := by
  have hd : d.head.path ∈ paths a := List.mem_map_of_mem (by simp [htypes])
  have hbound := hn.types _ hd _ hname
  have hfresh := className_not_mem h hnames hd hname
  refine ⟨?_, fun hsome base hbase => ?_, fun hsome => ?_, fun r hr t ht hmem m hm base hbase => ?_⟩
  · simp only [List.length_cons, List.length_append, List.length_nil, hb.size]
    omega
  · have hne : "Protocol" ≠ n := by
      rintro rfl
      exact hfresh (List.mem_append_left _ (by decide))
    rw [hn.apart.baseOrder?_cons hn.protocol hbound hne hk hbase, hb.protocol hsome base hbase]
  · obtain ⟨w, hw, hcontract⟩ := hb.contract hsome
    have hne : CopyProtocol.contract ≠ n := by
      rintro rfl
      rw [if_pos hsome] at hfresh
      exact hfresh (List.mem_append_right _ (by decide))
    refine ⟨w, hw, fun base hbase => ?_⟩
    rw [hn.apart.baseOrder?_cons (hn.contract hsome) hbound hne hk hbase, hcontract base hbase]
  · rw [List.map_append, List.mem_append, List.map_singleton, List.mem_singleton] at hmem
    rcases hmem with hmem | rfl
    · have ht' : t ∈ paths a := by
        rw [paths, htypes, List.map_append]
        exact List.mem_append_left _ hmem
      have hne : m ≠ n := by
        rintro rfl
        obtain rfl := className_inj h hnames ht' hd hm hname
        have hpaths := h.paths_nodup
        rw [htypes, List.map_append, List.map_cons, List.nodup_append] at hpaths
        exact hpaths.2.2 _ hmem _ List.mem_cons_self rfl
      rw [hn.apart.baseOrder?_cons (hn.types t ht' m hm) hbound hne hk hbase,
        hb.interfaces r hr t ht hmem m hm base hbase]
    · obtain rfl := Except.ok.inj (hname.symm.trans hm)
      rw [baseOrder?_cons_self hbase hk, hown r hr ht]

/-- The types of a result are bound one after the other. -/
theorem Bound.placeOf_eq (hb : Bound a names reads start done ns) (h : a.Describes config g)
    (htypes : a.types = done ++ d :: rest) :
    placeOf start (paths a) d.head.path = .defined ns.length := by
  have hpaths := h.paths_nodup
  rw [htypes, List.map_append, List.map_cons, List.nodup_append] at hpaths
  have hnew : d.head.path ∉ done.map (·.head.path) :=
    fun hmem => hpaths.2.2 _ hmem _ List.mem_cons_self rfl
  rw [placeOf, paths, htypes, List.map_append, List.map_cons, List.idxOf_append_of_notMem hnew,
    List.idxOf_cons_self, List.length_map, hb.size, Nat.add_zero]

/-- The contracts of a class with an interface begin with the interface. -/
theorem exists_contracts_eq_cons (h : a.Describes config g) {r : Resolution}
    (hr : r ∈ a.resolutions) {t : TypePath} (ht : r.interface = some t) :
    ∃ us, r.contracts = t :: us := by
  rcases h.resolved.contracts_eq h.linked.nameable hr ht with
    ⟨-, heq⟩ | ⟨_, -, r', -, -, -, heq⟩
  · exact ⟨[], heq⟩
  · exact ⟨r'.contracts, heq⟩

theorem contracts_subset (h : a.Describes config g) {r : Resolution} (hr : r ∈ a.resolutions) :
    r.contracts ⊆ paths a := by
  intro u hu
  obtain ⟨r', hr', -, hinterface⟩ := (h.resolved.mem_contracts hr).mp hu
  exact h.counterpart_mem hr' (Or.inl hinterface)

theorem nestedBases_fields {doc : List Statement} (hdoc : ∀ s ∈ doc, ∃ text, s = .doc text)
    (fields : List (String × Ty)) :
    nestedBases (doc ++ fields.map fun f => .field f.1 f.2) = [] := by
  rw [nestedBases, List.filterMap_eq_nil_iff]
  intro s hs
  rcases List.mem_append.mp hs with hs | hs
  · obtain ⟨text, rfl⟩ := hdoc s hs
    rfl
  · obtain ⟨f, -, rfl⟩ := List.mem_map.mp hs
    rfl

theorem nestedBases_append (body body' : List Statement) :
    nestedBases (body ++ body') = nestedBases body ++ nestedBases body' :=
  List.filterMap_append

theorem nestedBases_nonEmptyBody (body : List Statement) :
    nestedBases (nonEmptyBody body) = nestedBases body := by
  cases body <;> rfl

/-- The ancestors of an interface follow it in the order of its contracts. -/
theorem Bound.exists_interfaceAncestors (hb : Bound a names reads start done ns)
    (h : a.Describes config g) {r : Resolution} (hr : r ∈ a.resolutions) {t : TypePath}
    (ht : r.interface = some t)
    (hbefore : ∀ u ∈ r.contracts, u ≠ t → u ∈ done.map (·.head.path)) {parents : List String}
    (hparents : (Analysis.interfaceOf g r t).parent.toList.mapM (classNameOf names) =
      .ok parents) : ∃ ancestors,
        ancestorOrder? reads ns (parents.map .name ++ [.name "Protocol"]) = some ancestors ∧
        placeOf start (paths a) t :: ancestors =
          interfaceOrder (placeOf start (paths a)) r.contracts := by
  have hprotocol : baseOrder? reads ns (.name "Protocol") = some protocolOrder := by
    refine hb.protocol (Or.inr ?_) _ rfl
    exact List.ne_nil_of_mem (h.exists_interface hr ht).1
  rcases h.resolved.contracts_eq h.linked.nameable hr ht with
    ⟨hnone, hcontracts⟩ | ⟨u, hu, r', hr', -, hinterface, hcontracts⟩
  · have hparent : (Analysis.interfaceOf g r t).parent = none := hnone
    rw [hparent] at hparents
    obtain rfl := Except.ok.inj hparents
    refine ⟨protocolOrder, ?_, by rw [hcontracts]; rfl⟩
    exact (ancestorOrder?_eq (by simp) (.cons hprotocol .nil)).trans merge?_protocol
  · have hparent : (Analysis.interfaceOf g r t).parent = some u := hu
    rw [hparent] at hparents
    obtain ⟨n, hn, hparents⟩ := bind_eq_ok.mp hparents
    obtain rfl := Except.ok.inj hparents
    obtain ⟨us, hus⟩ := exists_contracts_eq_cons h hr' hinterface
    rw [hus] at hcontracts
    have hne : u ≠ t := by
      have hdistinct := h.resolved.contracts_nodup hr
      rw [hcontracts, List.nodup_cons, List.mem_cons, not_or] at hdistinct
      exact Ne.symm hdistinct.1.1
    have horder := hb.interfaces r' hr' u hinterface (hbefore u (by simp [hcontracts]) hne) n hn
      (.name n) rfl
    have hplaces : (interfaceOrder (placeOf start (paths a)) r'.contracts).Nodup :=
      interfaceOrder_nodup (h.resolved.contracts_nodup hr') (contracts_subset h hr')
    rw [hus] at horder hplaces
    refine ⟨interfaceOrder (placeOf start (paths a)) (u :: us), ?_, by rw [hcontracts]; rfl⟩
    exact (ancestorOrder?_eq (by simp) (.cons horder (.cons hprotocol .nil))).trans
      (merge?_parent hplaces)

/-- An interface is defined where what it extends is bound. -/
theorem Bound.interface (hb : Bound a names reads start done ns) (h : a.Describes config g)
    (hnames : classNames a = .ok names) (hn : Names a names reads bound) {r : Resolution}
    (hr : r ∈ a.resolutions) {t : TypePath} (ht : r.interface = some t)
    (htypes : a.types = done ++ .interface (Analysis.interfaceOf g r t) :: rest)
    (hbefore : ∀ u ∈ r.contracts, u ≠ t → u ∈ done.map (·.head.path)) {s : Statement}
    (hs : interfaceClass config a names (Analysis.interfaceOf g r t) = .ok s) :
    ∃ ns', define reads ns s = some ns' ∧ Bound a names reads start
      (done ++ [.interface (Analysis.interfaceOf g r t)]) ns' := by
  obtain ⟨_, doc, name, fields, parents, -, hdoc, -, hname, hparents, rfl⟩ := interfaceClass_spec hs
  have hpath := h.interface_path hr ht
  have hplace : placeOf start (paths a) t = .defined ns.length := by
    rw [← hb.placeOf_eq h htypes]
    exact congrArg _ hpath.symm
  have hmem : (Analysis.interfaceOf g r t).path ∈ paths a := by
    rw [hpath]
    exact h.counterpart_mem hr (Or.inl ht)
  obtain ⟨k, hk⟩ := Option.isSome_iff_exists.mp (hn.apart name (hn.types _ hmem name hname)).1
  obtain ⟨ancestors, hancestors, hown⟩ := hb.exists_interfaceAncestors h hr ht hbefore hparents
  refine ⟨_, define_classDefinition ?_ hancestors hk,
    hb.snoc h hnames hn htypes hname hk fun r' hr' ht' => ?_⟩
  · rw [nestedBases_nonEmptyBody, nestedBases_fields hdoc]
    simp
  · obtain rfl := h.resolved.eq_of_interface hr hr' ht (ht'.trans (congrArg some hpath))
    rw [← hplace, hown]

/-- The bases of a record are bound once all its interfaces are. -/
theorem Bound.exists_orders (hb : Bound a names reads start done ns) (h : a.Describes config g)
    {r : Resolution} (hr : r ∈ a.resolutions)
    (hbefore : ∀ u ∈ r.contracts, u ∈ done.map (·.head.path)) {bases : List String}
    (hbases : r.contracts.mapM (classNameOf names) = .ok bases) :
    ∃ orders, List.Forall₂ (fun b o => baseOrder? reads ns b = some o) (bases.map .name) orders ∧
      OrdersOf (placeOf start (paths a)) r.contracts orders := by
  simp only [List.forall₂_map_left_iff]
  refine (mapM_eq_ok.mp hbases).exists_third fun u hu n hname => ?_
  obtain ⟨r', hr', hdescends, hinterface⟩ := (h.resolved.mem_contracts hr).mp hu
  have horder := hb.interfaces r' hr' u hinterface (hbefore u hu) n hname (.name n) rfl
  have hsuffix := h.resolved.contracts_suffix hr hr' hdescends
  obtain ⟨us, hus⟩ := exists_contracts_eq_cons h hr' hinterface
  rw [hus] at horder hsuffix
  exact ⟨_, horder, us, hsuffix, rfl⟩

/-- The ancestors of a record can be put in order once all its interfaces are bound. -/
theorem Bound.exists_recordAncestors (hb : Bound a names reads start done ns)
    (h : a.Describes config g) {r : Resolution} (hr : r ∈ a.resolutions)
    (hbefore : ∀ u ∈ r.contracts, u ∈ done.map (·.head.path)) {bases : List String}
    (hbases : r.contracts.mapM (classNameOf names) = .ok bases) :
    ∃ ancestors, ancestorOrder? reads ns (bases.map .name) = some ancestors := by
  obtain ⟨orders, horders, hlists⟩ := hb.exists_orders h hr hbefore hbases
  have hdistinct := h.resolved.contracts_nodup hr
  have hplaces : (interfaceOrder (placeOf start (paths a)) r.contracts).Nodup :=
    interfaceOrder_nodup hdistinct (contracts_subset h hr)
  cases hcontracts : r.contracts with
  | nil =>
      rw [hcontracts] at hbases
      obtain rfl := Except.ok.inj hbases
      exact ⟨_, rfl⟩
  | cons t ts =>
      rw [hcontracts] at hbases hlists hdistinct hplaces
      have hne : bases.map Expr.name ≠ [] := by
        have hlength := (mapM_eq_ok.mp hbases).length_eq
        rintro hnil
        simp [List.map_eq_nil_iff.mp hnil] at hlength
      exact ⟨_, (ancestorOrder?_eq hne horders).trans (hlists.merge?_implements hdistinct hplaces)⟩

/-- With the copy-with protocol the contract is one more base, behind the interfaces. -/
theorem Bound.exists_copyingAncestors (hb : Bound a names reads start done ns)
    (h : a.Describes config g) {r : Resolution} (hr : r ∈ a.resolutions)
    (hbefore : ∀ u ∈ r.contracts, u ∈ done.map (·.head.path)) {bases : List String}
    (hbases : r.contracts.mapM (classNameOf names) = .ok bases)
    (hsome : a.contract.isSome = true) {contract : Expr}
    (hcontract : contract.baseName? = some CopyProtocol.contract) :
    ∃ ancestors, ancestorOrder? reads ns (bases.map .name ++ [contract]) = some ancestors := by
  obtain ⟨orders, horders, hlists⟩ := hb.exists_orders h hr hbefore hbases
  obtain ⟨w, hw, horder⟩ := hb.contract hsome
  have hplaces := contractOrder_nodup hw (h.resolved.contracts_nodup hr) (contracts_subset h hr)
  exact ⟨_, (ancestorOrder?_eq (by simp) (List.rel_append horders
    (.cons (horder contract hcontract) .nil))).trans (hlists.merge?_contract hplaces)⟩

/-- A record is defined where all its interfaces are bound. -/
theorem Bound.record (hb : Bound a names reads start done ns) (h : a.Describes config g)
    (hnames : classNames a = .ok names) (hn : Names a names reads bound) {r : Resolution}
    (hr : r ∈ a.resolutions) {t : TypePath} (ht : r.record = some t)
    (htypes : a.types = done ++ .record (Analysis.recordOf config g r t) :: rest)
    (hbefore : ∀ u ∈ r.contracts, u ∈ done.map (·.head.path)) {s : Statement}
    (hs : recordClass config a names (Analysis.recordOf config g r t) = .ok s) :
    ∃ ns', define reads ns s = some ns' ∧ Bound a names reads start
      (done ++ [.record (Analysis.recordOf config g r t)]) ns' := by
  obtain ⟨_, doc, name, fields, bases, -, hdoc, -, hname, hbases, hs⟩ := recordClass_spec hs
  have hpath := h.record_path hr ht
  have hmem : (Analysis.recordOf config g r t).path ∈ paths a := by
    rw [hpath]
    exact h.counterpart_mem hr (Or.inr ht)
  obtain ⟨k, hk⟩ := Option.isSome_iff_exists.mp (hn.apart name (hn.types _ hmem name hname)).1
  have himplements : (Analysis.recordOf config g r t).implements = r.contracts := by
    simp [Analysis.recordOf, Resolution.implements, ht]
  rw [himplements] at hbases
  have hnone : ∀ r' ∈ a.resolutions,
      r'.interface ≠ some (Analysis.recordOf config g r t).path := by
    intro r' hr' hinterface
    exact h.resolved.record_ne_interface hr' hr (hinterface.trans (congrArg some hpath)) ht
  obtain ⟨decorators, exprs, body, rfl, hnested, ancestors, hancestors⟩ :
      ∃ decorators exprs body, s = .classDefinition decorators name exprs body ∧
        (∀ nested ∈ nestedBases body, nested = []) ∧
          ∃ ancestors, ancestorOrder? reads ns exprs = some ancestors := by
    cases hcopy : (Analysis.recordOf config g r t).copyWith with
    | none =>
        rw [hcopy] at hs
        refine ⟨_, _, _, hs, ?_, hb.exists_recordAncestors h hr hbefore hbases⟩
        rw [nestedBases_nonEmptyBody, nestedBases_fields hdoc]
        simp
    | some copy =>
        rw [hcopy] at hs
        obtain ⟨stagingDoc, -, hs⟩ := hs
        have hwithers : config.withers = true := by
          by_contra hwithers
          simp [Analysis.recordOf, hwithers] at hcopy
        have hsome : a.contract.isSome = true := by simp [h.contract, hwithers]
        refine ⟨_, _, _, hs, ?_, hb.exists_copyingAncestors h hr hbefore hbases hsome rfl⟩
        rw [nestedBases_append, nestedBases_fields hdoc]
        simp [nestedBases, stagingClass, withFunction]
  exact ⟨_, define_classDefinition hnested hancestors hk,
    hb.snoc h hnames hn htypes hname hk fun r' hr' hinterface =>
      absurd hinterface (hnone r' hr')⟩

/-! ## Whole modules -/

/-- The contracts of a class are its own interface and interfaces of classes resolved before. -/
theorem contract_before (h : a.Describes config g) {pre post : List Resolution} {r : Resolution}
    (hrs : a.resolutions = pre ++ r :: post) {u : TypePath} (hu : u ∈ r.contracts) :
    r.interface = some u ∨ u ∈ (pre.flatMap (Analysis.typesOf config g)).map (·.head.path) := by
  have hr : r ∈ a.resolutions := by simp [hrs]
  obtain ⟨r', hr', hdescends, hinterface⟩ := (h.resolved.mem_contracts hr).mp hu
  obtain ⟨l, hl, -⟩ := h.resolved.described r hr
  rcases List.mem_cons.mp (hl.descendsFrom_iff.mp hdescends) with heq | hmem
  · obtain rfl := h.resolved.eq_of_source hr' hr heq
    exact Or.inl hinterface
  · have hordered := h.resolved.ordered
    rw [hrs, List.map_append, List.map_cons] at hordered
    obtain ⟨r'', hpre, hsource⟩ := List.mem_map.mp (hordered.ancestors_before hl _ hmem)
    obtain rfl := h.resolved.eq_of_source (by simp [hrs, hpre]) hr' hsource
    refine Or.inr (List.mem_map.mpr ⟨.interface (Analysis.interfaceOf g r'' u), ?_,
      h.interface_path hr' hinterface⟩)
    exact List.mem_flatMap.mpr ⟨r'', hpre, by simp [Analysis.typesOf, hinterface]⟩

/-- A type that a class may have is defined, if it can be. -/
theorem Bound.optional (hb : Bound a names reads start done ns) {o : Option GeneratedType}
    (hdefine : ∀ d, o = some d → ∀ s, classDefinition config a names d = .ok s →
      ∃ ns', define reads ns s = some ns' ∧ Bound a names reads start (done ++ [d]) ns')
    {body : List Statement} (hbody : o.toList.mapM (classDefinition config a names) = .ok body) :
    ∃ ns', body.foldlM (define reads) ns = some ns' ∧
      Bound a names reads start (done ++ o.toList) ns' := by
  cases o with
  | none =>
      obtain rfl := Except.ok.inj hbody
      exact ⟨ns, rfl, by simpa using hb⟩
  | some d =>
      obtain ⟨s, hs, hbody⟩ := bind_eq_ok.mp hbody
      obtain rfl := Except.ok.inj hbody
      obtain ⟨ns', hdefined, hb⟩ := hdefine d rfl s hs
      exact ⟨ns', by simp [hdefined], hb⟩

/-- The types of a class are defined where those of the classes resolved before it are bound: its
interface, and its record after that. -/
theorem Bound.typesOf (h : a.Describes config g) (hnames : classNames a = .ok names)
    (hn : Names a names reads bound) {pre post : List Resolution} {r : Resolution}
    (hrs : a.resolutions = pre ++ r :: post)
    (hb : Bound a names reads start (pre.flatMap (Analysis.typesOf config g)) ns)
    {body : List Statement}
    (hbody : (Analysis.typesOf config g r).mapM (classDefinition config a names) = .ok body) :
    ∃ ns', body.foldlM (define reads) ns = some ns' ∧ Bound a names reads start
      (pre.flatMap (Analysis.typesOf config g) ++ Analysis.typesOf config g r) ns' := by
  have hr : r ∈ a.resolutions := by simp [hrs]
  have htypes := h.types
  rw [hrs, List.flatMap_append, List.flatMap_cons, Analysis.typesOf] at htypes
  have hbefore := fun u => contract_before h hrs (u := u)
  generalize pre.flatMap (Analysis.typesOf config g) = done at hb htypes hbefore ⊢
  obtain ⟨own, last, hown, hlast, rfl⟩ := mapM_append_eq_ok.mp hbody
  have hinterface := hb.optional (fun d hd s hs => by
    obtain ⟨t, ht, rfl⟩ := Option.map_eq_some_iff.mp hd
    rw [ht] at htypes
    refine hb.interface h hnames hn hr ht (by simpa using htypes) (fun u hu hne => ?_) hs
    exact (hbefore u hu).resolve_left fun heq => hne (Option.some.inj (heq.symm.trans ht))) hown
  obtain ⟨ns', hdefined, hb⟩ := hinterface
  have hrecord := hb.optional (fun d hd s hs => by
    obtain ⟨t, ht, rfl⟩ := Option.map_eq_some_iff.mp hd
    rw [ht] at htypes
    refine hb.record h hnames hn hr ht (by simpa using htypes) (fun u hu => ?_) hs
    rw [List.map_append, List.mem_append]
    refine (hbefore u hu).symm.imp_right fun hi => ?_
    simpa [hi, GeneratedType.head] using (h.interface_path hr hi).symm) hlast
  obtain ⟨ns'', hdefined', hb⟩ := hrecord
  refine ⟨ns'', ?_, by rwa [Analysis.typesOf, ← List.append_assoc]⟩
  rw [List.foldlM_append, hdefined]
  exact hdefined'

/-- The classes of a result are defined one after the other. -/
theorem Bound.run (h : a.Describes config g) (hnames : classNames a = .ok names)
    (hn : Names a names reads bound) : ∀ {todo pre : List Resolution} {ns : Namespace}
    {body : List Statement}, a.resolutions = pre ++ todo →
      Bound a names reads start (pre.flatMap (Analysis.typesOf config g)) ns →
      (todo.flatMap (Analysis.typesOf config g)).mapM (classDefinition config a names) = .ok body →
      ∃ ns', body.foldlM (define reads) ns = some ns' := by
  intro todo
  induction todo with
  | nil =>
      intro pre ns body _ _ hbody
      obtain rfl := Except.ok.inj hbody
      exact ⟨ns, rfl⟩
  | cons r todo ih =>
      intro pre ns body hrs hb hbody
      rw [List.flatMap_cons] at hbody
      obtain ⟨own, rest, hown, hrest, rfl⟩ := mapM_append_eq_ok.mp hbody
      obtain ⟨ns', hdefined, hb⟩ := Bound.typesOf h hnames hn hrs hb hown
      have hrs' : a.resolutions = (pre ++ [r]) ++ todo := by simp [hrs]
      obtain ⟨ns'', hdefined'⟩ := ih hrs' (by simpa using hb) hrest
      exact ⟨ns'', by rw [List.foldlM_append, hdefined]; exact hdefined'⟩

theorem ancestorOrder?_protocol {base : Expr}
    (h : baseOrder? reads ns base = some protocolOrder) :
    ancestorOrder? reads ns [base] = some protocolOrder :=
  (ancestorOrder?_eq (by simp) (.cons h .nil)).trans merge?_protocol

/-- The prelude binds `Protocol` where it is needed, and the contract. -/
theorem exists_prelude (hn : Names a names reads bound) (body : List Statement) :
    ∃ imported ns, importedNamespace? reads a body = some imported ∧
      (preludeClasses a).foldlM (define reads) imported = some ns ∧
      Bound a names reads ns.length [] ns := by
  obtain ⟨k, hk⟩ := Option.isSome_iff_exists.mp (hn.apart _ hn.protocol).1
  have himports : "Protocol" ∈ typingImports a body ↔
      a.contract.isSome = true ∨ a.interfaces ≠ [] := by
    simp [typingImports]
  have hprotocol : ∀ base : Expr, base.baseName? = some "Protocol" →
      baseOrder? reads [(k, protocolOrder)] base = some protocolOrder :=
    fun _ hbase => baseOrder?_cons_self hbase hk _
  by_cases hcontract : a.contract.isSome = true
  · obtain ⟨k', hk'⟩ := Option.isSome_iff_exists.mp (hn.apart _ (hn.contract hcontract)).1
    refine ⟨[(k, protocolOrder)], [(k', .defined 1 :: protocolOrder), (k, protocolOrder)], ?_, ?_,
      ⟨rfl, fun _ base hbase => ?_, fun _ => ⟨1, by simp, fun base hbase => ?_⟩, by simp⟩⟩
    · rw [importedNamespace?, if_pos (himports.mpr (Or.inl hcontract)), hk]
      rfl
    · rw [preludeClasses, if_pos hcontract, List.foldlM_cons, contractClass,
        define_classDefinition (by simp [nestedBases])
          (ancestorOrder?_protocol (hprotocol _ rfl)) hk']
      rfl
    · rw [hn.apart.baseOrder?_cons hn.protocol (hn.contract hcontract) (by decide) hk' hbase]
      exact hprotocol base hbase
    · exact baseOrder?_cons_self hbase hk' _
  · by_cases hinterfaces : a.interfaces ≠ []
    · refine ⟨[(k, protocolOrder)], [(k, protocolOrder)], ?_, ?_,
        ⟨rfl, fun _ => hprotocol, fun hsome => absurd hsome hcontract, by simp⟩⟩
      · rw [importedNamespace?, if_pos (himports.mpr (Or.inr hinterfaces)), hk]
        rfl
      · rw [preludeClasses, if_neg hcontract]
        rfl
    · have hnone : ¬(a.contract.isSome = true ∨ a.interfaces ≠ []) :=
        not_or.mpr ⟨hcontract, hinterfaces⟩
      refine ⟨[], [], ?_, ?_,
        ⟨rfl, fun hsome => absurd hsome hnone, fun hsome => absurd hsome hcontract, by simp⟩⟩
      · rw [importedNamespace?, if_neg (himports.not.mpr hnone)]
      · rw [preludeClasses, if_neg hcontract]
        rfl

/-- A class is written under the name of its type. -/
theorem className?_eq {d : GeneratedType} {s : Statement} {n : String}
    (h : classDefinition config a names d = .ok s) (hn : classNameOf names d.head.path = .ok n) :
    s.className? = some n := by
  cases d with
  | interface d =>
      obtain ⟨_, _, name, _, _, -, -, -, hname, -, rfl⟩ := interfaceClass_spec h
      obtain rfl := Except.ok.inj (hname.symm.trans hn)
      rfl
  | record d =>
      obtain ⟨_, _, name, _, _, -, -, -, hname, -, hs⟩ := recordClass_spec h
      obtain rfl := Except.ok.inj (hname.symm.trans hn)
      cases hcopy : d.copyWith with
      | none =>
          rw [hcopy] at hs
          rw [hs]
          rfl
      | some copy =>
          rw [hcopy] at hs
          obtain ⟨_, -, rfl⟩ := hs
          rfl

/-- The classes of a result can be defined, if their names can be told apart. -/
theorem definable (h : a.Describes config g) {body : List Statement}
    (hbody : classes config a = .ok body) (hapart : ReadsApart reads (boundNames a body)) :
    Definable reads a body := by
  obtain ⟨names, hnames, hclasses⟩ := bind_eq_ok.mp hbody
  have hn : Names a names reads (boundNames a body) := by
    refine ⟨hapart, List.mem_cons_self, fun hsome => ?_, fun t ht n hn => ?_⟩
    · rw [boundNames, preludeClasses, if_pos hsome]
      simp [contractClass, Statement.className?]
    · obtain ⟨d, hd, rfl⟩ := List.mem_map.mp ht
      obtain ⟨s, hs, hclass⟩ := (mapM_eq_ok.mp hclasses).exists_right d hd
      refine List.mem_cons_of_mem _ (List.mem_filterMap.mpr ⟨s, ?_, className?_eq hclass hn⟩)
      exact List.mem_append_right _ hs
  obtain ⟨imported, ns, himported, hprelude, hb⟩ := exists_prelude hn body
  rw [h.types] at hclasses
  obtain ⟨ns', hdefined⟩ := Bound.run h hnames hn (List.nil_append _).symm hb hclasses
  rw [Definable, moduleNamespace?, himported, Option.bind_eq_bind, Option.bind_some,
    List.foldlM_append, hprelude, Option.bind_eq_bind, Option.bind_some, hdefined]
  rfl

end

end RecordGen.Python

namespace RecordGen

open Fallible

/-- The classes of an accepted document can be defined one after the other, as they are written.
Where all their names are names of the grammar that are also read differently, the language can
define them too. -/
theorem generate_definable {r : Run} {doc : Json} {files : Files}
    (hrecords : r.config.records = true) (hvalidate : r.validate = .ok .python)
    (h : r.generate (.document doc) = .ok files) :
    ∃ a body, r.analyze (.document doc) = .ok a ∧ Python.classes r.config a = .ok body ∧
      files = Python.fileOf a (r.banner .python) body ∧ Python.Definable Python.asWritten a body ∧
      (Python.ReadsApart Python.asRead (Python.boundNames a body) →
        Python.Definable Python.asRead a body) := by
  obtain ⟨language, g, a, hlanguage, hload, hanalyze, hemit⟩ := Run.generate_ok hrecords h
  obtain rfl := Except.ok.inj (hvalidate.symm.trans hlanguage)
  have hd := analyze_describes (Document.load_linked hload) hanalyze
  obtain ⟨body, hbody, rfl⟩ := Python.generate_eq_ok hemit
  refine ⟨a, body, ?_, hbody, rfl, Python.definable hd hbody (Python.readsApart_asWritten _),
    Python.definable hd hbody⟩
  simp only [Run.analyze, hvalidate, Source.load, hload, hanalyze, mapError_ok, ok_bind]

theorem generate_definable_shapes :
    ({ config := { withers := true }, language := "python" } : Run).validate = .ok .python ∧
    ∃ files, ({ config := { withers := true }, language := "python" } : Run).generate
      (.document Document.shapes) = .ok files ∧
    ∃ a body, ({ config := { withers := true }, language := "python" } : Run).analyze
        (.document Document.shapes) = .ok a ∧
      Python.classes { withers := true } a = .ok body ∧
      files = Python.fileOf a (Run.banner { config := { withers := true } } .python) body ∧
      Python.Definable Python.asWritten a body ∧
      (Python.ReadsApart Python.asRead (Python.boundNames a body) →
        Python.Definable Python.asRead a body) := by
  have hvalidate : ({ config := { withers := true }, language := "python" } : Run).validate =
      .ok .python := rfl
  have hok : (({ config := { withers := true }, language := "python" } : Run).generate
      (.document Document.shapes)).isOk = true := by
    decide +kernel
  obtain ⟨files, h⟩ := exists_ok hok
  exact ⟨hvalidate, files, h, generate_definable rfl hvalidate h⟩

/-- A module with a class `fiA` below the class `A`. -/
def Document.ligature : Json :=
  .object [("modules", .list [.object [("name", .text "m"), ("classes", .list [
    .object [("name", .text "A"), ("kind", .text "open")],
    .object [("name", .text "C"), ("kind", .text "open"), ("extends", .text "A")],
    .object [("name", .text "fiA"), ("extends", .text "C")],
    .object [("name", .text "D"), ("extends", .text "C")]])]])]

/-- The prefix is one character that is read as `fi`, so the interface of `A` and the record of
`fiA` have names that are read alike. Behind both, the bases of a record contradict each other. -/
theorem ligature_not_definable :
    (∃ files, ({ config := { interfacePrefix := "\uFB01" }, language := "python" } : Run).generate
      (.document Document.ligature) = .ok files) ∧
    ∃ a body, ({ config := { interfacePrefix := "\uFB01" }, language := "python" } : Run).analyze
        (.document Document.ligature) = .ok a ∧
      Python.classes { interfacePrefix := "\uFB01" } a = .ok body ∧
      ¬Python.Definable Python.asRead a body := by
  have hok : (({ config := { interfacePrefix := "\uFB01" }, language := "python" } : Run).generate
      (.document Document.ligature)).isOk = true := by
    decide +kernel
  obtain ⟨a, ha, hclasses⟩ : ∃ a,
      ({ config := { interfacePrefix := "\uFB01" }, language := "python" } : Run).analyze
        (.document Document.ligature) = .ok a ∧
      (Python.classes { interfacePrefix := "\uFB01" } a).toOption.any
        (fun body => decide ¬Python.Definable Python.asRead a body) = true :=
    exists_ok_and (by decide +kernel)
  obtain ⟨body, hbody, hnot⟩ := exists_ok_and hclasses
  exact ⟨exists_ok hok, a, body, ha, hbody, hnot⟩

end RecordGen

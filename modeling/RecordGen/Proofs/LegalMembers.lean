import RecordGen.Proofs.JavaUnits
import RecordGen.Proofs.PythonClasses
import RecordGen.Proofs.TypeNames

/-! # Which names members get

A member keeps the name of its property unless the language or another member of its chain has it
already. Then the name is made longer until it is free. The search ends whatever names there are,
with a name that the language accepts, and no class renames what it inherits. -/

namespace RecordGen

open Fallible ClassGraph

/-! ## Searching without a bound -/

/-- The search for a free name: a taken name gets an underscore and is escaped again. Nothing bounds
the rounds. -/
inductive FindsFree (escapes : String → String → Prop) (taken : List String) :
    String → String → Prop where
  | free {name : String} (h : name ∉ taken) : FindsFree escapes taken name name
  | again {name next found : String} (h : name ∈ taken) (hnext : escapes (name ++ "_") next)
      (rest : FindsFree escapes taken next found) : FindsFree escapes taken name found

/-- The members of a chain, from the root down: each property gets a free name, which is taken for
those after it. -/
inductive ClaimsMembers (escapes : String → String → Prop) :
    List String → List Declared → List (String × String) → Prop where
  | nil {taken : List String} : ClaimsMembers escapes taken [] []
  | cons {taken : List String} {d : Declared} {ds : List Declared} {wanted name : String}
      {members : List (String × String)} (hwanted : escapes d.property.name wanted)
      (hname : FindsFree escapes taken wanted name)
      (rest : ClaimsMembers escapes (name :: taken) ds members) :
      ClaimsMembers escapes taken (d :: ds) ((d.property.name, name) :: members)

section

variable {escapes : String → String → Prop} {escape : String → String}

/-- A bounded search that ends with a free name ends like the search without a bound. -/
theorem findsFree_of_not_mem (hescape : ∀ name, escapes name (escape name))
    {taken : List String} : ∀ {steps : Nat} {name : String},
      freeMember escape taken steps name ∉ taken →
        FindsFree escapes taken name (freeMember escape taken steps name) := by
  intro steps
  induction steps with
  | zero => exact fun h => .free h
  | succ steps ih =>
      intro name h
      rw [freeMember] at h ⊢
      split
      · rename_i hmem
        rw [if_pos hmem] at h
        exact .again hmem (hescape _) (ih h)
      · rename_i hmem
        exact .free hmem

/-- The rounds of the search suffice. -/
theorem freeMember_findsFree (hescape : ∀ name, escapes name (escape name))
    (he : Lengthens escape) (taken : List String) (name : String) :
    FindsFree escapes taken name (freeMember escape taken (taken.length + 1) name) :=
  findsFree_of_not_mem hescape (freeMember_not_mem he taken name)

theorem allocateMembers_claims (hescape : ∀ name, escapes name (escape name))
    (he : Lengthens escape) (taken : List String) (ds : List Declared) :
    ClaimsMembers escapes taken ds (allocateMembers escape taken ds) := by
  induction ds generalizing taken with
  | nil => exact .nil
  | cons d ds ih =>
      exact .cons (hescape _) (freeMember_findsFree hescape he taken _) (ih _)

end

/-! ## Languages -/

/-- No reserved word of Java and no method of its objects ends with an underscore but the underscore
itself, so a name is legal after one. -/
theorem Java.legalMember_legal (name : String) :
    legalMember name ∉ reservedWords ++ objectMethods := by
  rw [legalMember]
  split
  · rename_i hmem
    intro hlonger
    have hends : ∀ w ∈ reservedWords ++ objectMethods, "_".toList <:+ w.toList → w = "_" := by
      decide +kernel
    have hempty : name = "" := by
      have := congrArg String.toList (hends _ hlonger ⟨name.toList, by simp⟩)
      simpa using this
    rw [hempty] at hmem
    exact absurd hmem (by decide +kernel)
  · rename_i hmem
    simpa using hmem

/-- No keyword ends with an underscore, so no name is a keyword after one. -/
theorem Python.legalMember_legal (name : String) :
    legalMember name ∉ keywords ++ protocolMembers := by
  have hlonger : ∀ n : String, n ++ "_" ∉ keywords := fun n => append_not_mem (by decide +kernel)
  have hmethod : legalMethod name ∉ keywords := by
    rw [legalMethod]
    split
    · exact hlonger name
    · assumption
  have havoid : ∀ (steps : Nat) {n : String}, n ∉ keywords → avoidMembers steps n ∉ keywords := by
    intro steps
    induction steps with
    | zero => exact fun hn => hn
    | succ steps ih =>
        intro n hn
        rw [avoidMembers]
        split
        · exact ih (hlonger n)
        · exact hn
  rw [List.mem_append, not_or]
  exact ⟨havoid _ hmethod, legalMember_not_protocol name⟩

namespace Language

/-- The member name of a property before others are looked at. -/
def legalMember : Language → String → String
  | java => Java.legalMember
  | python => Python.legalMember

/-- How a language escapes a name: Java with one underscore at most, Python with one after a keyword
and then with as many as it takes to avoid the members of the copy-with protocol. -/
def Escapes : Language → String → String → Prop
  | java, name, escaped => Java.legalMember name = escaped
  | python, name, escaped =>
    FindsFree Eq Python.protocolMembers (Python.legalMethod name) escaped

/-- The names that no member can have. -/
def forbiddenMembers : Language → List String
  | java => Java.reservedWords ++ Java.objectMethods
  | python => Python.keywords ++ Python.protocolMembers

theorem legalMember_escapes (l : Language) (name : String) :
    l.Escapes name (l.legalMember name) := by
  cases l with
  | java => exact rfl
  | python =>
      have hfound : FindsFree Eq Python.protocolMembers (Python.legalMethod name)
          (freeMember id Python.protocolMembers (Python.protocolMembers.length + 1)
            (Python.legalMethod name)) :=
        freeMember_findsFree (fun _ => rfl) (fun _ => Nat.le_refl _) _ _
      rwa [← Python.avoidMembers_eq] at hfound

theorem legalMember_lengthens (l : Language) : Lengthens l.legalMember := by
  cases l with
  | java => exact Java.legalMember_lengthens
  | python => exact Python.legalMember_lengthens

theorem legalMember_not_forbidden (l : Language) (name : String) :
    l.legalMember name ∉ l.forbiddenMembers := by
  cases l with
  | java => exact Java.legalMember_legal name
  | python => exact Python.legalMember_legal name

end Language

/-! ## The members of a class -/

/-- The members of a class in a language, each property of its chain with its name. All types of the
class use them. -/
structure Analysis.Names (a : Analysis) (g : ClassGraph) (l : Language) (c : ClassId)
    (members : List (String × String)) : Prop where
  typed : ∃ d ∈ a.types, d.head.source = c
  tables : ∀ d ∈ a.types, d.head.source = c → a.memberTable l.legalMember d.head = .ok members
  claimed : ∃ ds, g.flatten c = .ok ds ∧ ClaimsMembers l.Escapes [] ds members ∧
    members.map (·.1) = propertyNames ds
  properties_nodup : (members.map (·.1)).Nodup
  names_nodup : (members.map (·.2)).Nodup
  legal : ∀ m ∈ members, m.2 ∉ l.forbiddenMembers

namespace Analysis.Describes

variable {config : Config} {g : ClassGraph} {a : Analysis}

/-- The types of a resolved class come from it, and there is one. -/
theorem exists_type (h : a.Describes config g) {r : Resolution} (hr : r ∈ a.resolutions) :
    ∃ d ∈ a.types, d.head.source = r.source := by
  obtain ⟨t, ht⟩ := h.resolved.exists_counterpart h.linked.nameable hr
  rcases Resolution.eq_of_counterpart? ht with ht | ht
  · exact ⟨_, h.mem_types.mpr ⟨r, hr, Or.inl ⟨t, ht, rfl⟩⟩, rfl⟩
  · exact ⟨_, h.mem_types.mpr ⟨r, hr, Or.inr ⟨t, ht, rfl⟩⟩, rfl⟩

theorem names (h : a.Describes config g) (l : Language) {r : Resolution}
    (hr : r ∈ a.resolutions) :
    a.Names g l r.source (allocateMembers l.legalMember [] r.properties) where
  typed := h.exists_type hr
  tables d _ hsource := h.memberTable_ok l.legalMember hr hsource
  claimed := by
    obtain ⟨above, habove, hdescribes⟩ := h.resolved.described r hr
    exact ⟨r.properties,
      (flatten_eq_ok habove).mpr ⟨hdescribes.properties, hdescribes.names_nodup⟩,
      allocateMembers_claims l.legalMember_escapes l.legalMember_lengthens _ _,
      allocateMembers_keys _ _⟩
  properties_nodup := by
    rw [allocateMembers_keys]
    exact h.resolved.properties_nodup hr
  names_nodup := (allocateMembers_fresh l.legalMember_lengthens _ _).1
  legal m hm := by
    obtain ⟨wanted, hwanted⟩ := exists_escape_eq m hm
    rw [hwanted]
    exact l.legalMember_not_forbidden wanted

/-- Of the members of a class, those of an ancestor are the ancestor's. -/
theorem names_inherited (h : a.Describes config g) (l : Language) {r r' : Resolution}
    (hr : r ∈ a.resolutions) (hr' : r' ∈ a.resolutions)
    (hdescends : g.DescendsFrom r.source r'.source) :
    (allocateMembers l.legalMember [] r.properties).filter
        (·.1 ∈ (allocateMembers l.legalMember [] r'.properties).map (·.1)) =
      allocateMembers l.legalMember [] r'.properties := by
  obtain ⟨own, hproperties⟩ := h.resolved.exists_properties_append hr hr' hdescends
  obtain ⟨more, hmore⟩ := allocateMembers_append l.legalMember [] r'.properties own
  have hkeys : ((allocateMembers l.legalMember [] r.properties).map (·.1)).Nodup := by
    rw [allocateMembers_keys]
    exact h.resolved.properties_nodup hr
  rw [hproperties, hmore, List.map_append, List.nodup_append] at hkeys
  rw [hproperties, hmore, List.filter_append, List.filter_eq_self.mpr, List.filter_eq_nil_iff.mpr,
    List.append_nil]
  · intro e he hmem
    exact hkeys.2.2 _ (by simpa using hmem) _ (List.mem_map_of_mem he) rfl
  · intro e he
    simpa using List.mem_map_of_mem (f := (·.1)) he

end Analysis.Describes

/-- The members of every class of a loaded graph are found in both languages, are legal and differ,
and include those of its ancestors as they are. -/
theorem analyze_members {doc : Json} {g : ClassGraph} {config : Config} {workers : Option Int}
    {a : Analysis} (hload : Document.load doc = .ok g) (h : analyze config workers g = .ok a) :
    ∀ (l : Language), ∀ c ∈ g.classes, ∃ members, a.Names g l c members ∧
      ∀ b, g.DescendsFrom c b → ∃ inherited, a.Names g l b inherited ∧
        members.filter (·.1 ∈ inherited.map (·.1)) = inherited := by
  have hdescribes := analyze_describes (Document.load_linked hload) h
  intro l c hc
  obtain ⟨r, hr, rfl⟩ := hdescribes.resolved.complete c hc
  refine ⟨_, hdescribes.names l hr, fun b hb => ?_⟩
  obtain ⟨above, habove, -⟩ := hdescribes.resolved.described r hr
  obtain ⟨r', hr', rfl⟩ :=
    hdescribes.resolved.exists_of_mem_chain hr habove (habove.descendsFrom_iff.mp hb)
  exact ⟨_, hdescribes.names l hr', hdescribes.names_inherited l hr hr' hb⟩

theorem analyze_members_shapes : ∃ g a, Document.load Document.shapes = .ok g ∧
    analyze {} none g = .ok a ∧ ∀ (l : Language), ∀ c ∈ g.classes, ∃ members,
      a.Names g l c members ∧ ∀ b, g.DescendsFrom c b → ∃ inherited, a.Names g l b inherited ∧
        members.filter (·.1 ∈ inherited.map (·.1)) = inherited := by
  have hok : (Document.load Document.shapes >>= analyze {} none).isOk = true := by decide +kernel
  obtain ⟨a, h⟩ := exists_ok hok
  obtain ⟨g, hload, ha⟩ := bind_eq_ok.mp h
  exact ⟨g, a, hload, ha, analyze_members hload ha⟩

end RecordGen

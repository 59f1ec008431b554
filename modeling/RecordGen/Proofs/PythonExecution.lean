import Mathlib.Data.Option.Basic
import RecordGen.Proofs.PythonBuiltins

/-! # Running functions of classes

The functions that generated classes define are run on a heap of objects. Inside a class a private
name stands for another one that holds the name of the class: where fields are declared, where
attributes are read and where classes are mentioned, but not where a call names its arguments. -/

namespace RecordGen.Python

open Fallible

variable {α : Type}

/-! ## Names in class bodies -/

/-- Two underscores in front, and not two at the end. -/
def isPrivate (name : String) : Bool :=
  ['_', '_'].isPrefixOf name.toList && !(['_', '_'].isSuffixOf name.toList)

/-- The name of a class without the underscores in front. -/
def classStem (className : String) : List Char :=
  className.toList.dropWhile (· == '_')

/-- What a name is renamed to inside a class. -/
def mangled (className name : String) : String :=
  if isPrivate name && !(classStem className).isEmpty then
    "_" ++ .ofList (classStem className) ++ name
  else name

/-- What a name stands for inside a class, as far as it is a name. -/
def inClass (className name : String) : Option String :=
  (asRead name).map (mangled className)

/-- Attributes that classes and protocols have of their own, and those of the classes of classes:
`mro` of every class, the others of protocols. A field of such a name gets what is there as its
default, or cannot be set. -/
def isSpecial (name : String) : Bool :=
  ['_', '_'].isPrefixOf name.toList && ['_', '_'].isSuffixOf name.toList ||
    name ∈ ["_abc_caches_clear", "_abc_impl", "_abc_registry_clear", "_dump_registry",
      "_is_protocol", "_is_runtime_protocol", "mro", "register"]

/-! ## Objects -/

/-- What an expression evaluates to, where `α` holds the values of fields. -/
inductive Value (α : Type) where
  | plain (x : α)
  /-- The object at a place of the heap. -/
  | object (place : Nat)
  /-- The class that a statement defines. -/
  | type (definition : Statement)
  /-- A function of a class with its first argument. -/
  | method (className : String) (function : Statement) (receiver : Value α)
  /-- A function that assigns attributes of the object it is given, one after the other. -/
  | setter (assignments : List (String × α))
  | nothing

/-- An object of a class, with the attributes that are its own. -/
structure Object (α : Type) where
  definition : Statement
  attributes : List (String × Value α)

/-- The objects made so far, each at its place. -/
abbrev Heap (α : Type) := List (Object α)

/-! ## Classes -/

/-- The name that a statement binds to a function or a class. -/
def Statement.boundName? : Statement → Option String
  | .function _ name _ _ _ => some name
  | .classDefinition _ name _ _ => some name
  | _ => none

/-- What the statements of a body bind, the latest first. -/
def bindings (reads : String → Option String) (body : List Statement) :
    List (String × Statement) :=
  (body.filterMap fun s => do return (← reads (← s.boundName?), s)).reverse

/-- The classes of a module by name. -/
abbrev ModuleScope := List (String × Statement)

def moduleScope (a : Analysis) (body : List Statement) : ModuleScope :=
  bindings asRead (preludeClasses a ++ body)

/-- Whether a decorator of the language is among some decorators. A class of the module could stand
in for it. -/
def decoratedWith (m : ModuleScope) (name : String) (decorators : List Expr) : Bool :=
  name ∈ decorators.filterMap Expr.decoratorName? && (Table.findEntry name m).isNone

/-- Whether objects of a class are kept from being changed. -/
def Statement.isFrozen : Statement → Bool
  | .classDefinition decorators _ _ _ => decorators.any fun
    | .call _ _ named => "frozen" ∈ named.map (·.1)
    | _ => false
  | _ => false

/-- A member of a class, seen from one of its objects or from the class itself. A class method gets
the class as its first argument, any other function the object. -/
def memberOfClass (m : ModuleScope) (definition : Statement) (receiver : Option (Value α))
    (key : String) : Option (Value α) :=
  match definition with
  | .classDefinition _ name _ body => do
    let className ← asRead name
    let member ← Table.findEntry key (bindings (inClass className) body)
    match member with
    | .function decorators _ _ _ _ =>
      if decoratedWith m "classmethod" decorators then
        return .method className member (.type definition)
      else return .method className member (← receiver)
    | _ => return .type member
  | _ => none

/-- An object's own attributes stand before those of its class. -/
def attributeOf (m : ModuleScope) (h : Heap α) (key : String) (v : Value α) : Option (Value α) :=
  match v with
  | .object place => do
    let o ← h[place]?
    match Table.findEntry key o.attributes with
    | some v => return v
    | none => memberOfClass m o.definition (some v) key
  | .type definition => memberOfClass m definition none key
  | _ => none

def Statement.fieldName? : Statement → Option String
  | .field name _ => some name
  | _ => none

/-- The attributes that a class stores its fields under. -/
def fieldAttributes? (className : String) (body : List Statement) : Option (List String) :=
  List.eraseDups <$> (body.filterMap Statement.fieldName?).mapM (inClass className)

/-- An object of a data class is made from a value for each of its fields, given by name. What
happens to fields with special names is left out. -/
def instantiate (m : ModuleScope) (definition : Statement) (named : List (String × Value α))
    (h : Heap α) : Option (Value α × Heap α) :=
  match definition with
  | .classDefinition decorators name _ body => do
    guard (decoratedWith m "dataclass" decorators)
    let attributes ← fieldAttributes? (← asRead name) body
    guard (attributes.all (!isSpecial ·))
    guard ((named.map (·.1)).Nodup ∧ named.map (·.1) ⊆ attributes)
    let values ← attributes.mapM fun k => Table.findEntry k named
    return (.object h.length, h ++ [⟨definition, attributes.zip values⟩])
  | _ => none

/-! ## Bodies -/

/-- What a call gives and the heap it leaves behind, from the function, the arguments in order and
those by name. -/
abbrev Calls (α : Type) :=
  Value α → List (Value α) → List (String × Value α) → Heap α → Option (Value α × Heap α)

/-- The parameters and local variables of a function, the latest first. A variable is local before
it is assigned, but has no value yet. -/
abbrev Scope (α : Type) := List (String × Option (Value α))

def Statement.assignedName? : Statement → Option String
  | .assign name _ => some name
  | _ => none

/-- The names that are local to a function: its parameters, and the variables that it assigns. -/
def Statement.localNames : Statement → List String
  | .function _ _ parameters _ body =>
    parameters.map (·.name) ++ body.filterMap Statement.assignedName?
  | _ => []

section

variable (m : ModuleScope) (calls : Calls α) (className : String)

mutual

/-- Evaluates an expression in a function of a class. A name that is not local is one of the
module's. -/
def Expr.eval (scope : Scope α) (h : Heap α) : Expr → Option (Value α × Heap α)
  | .name id => do
    let key ← inClass className id
    match Table.findEntry key scope with
    | some v => return (← v, h)
    | none => return (.type (← Table.findEntry key m), h)
  | .member object name => do
    let (v, h) ← object.eval scope h
    return (← attributeOf m h (← inClass className name) v, h)
  | .call function arguments named => do
    let (f, h) ← function.eval scope h
    let (vs, h) ← evalAll scope h arguments
    let (ws, h) ← evalNamed scope h named
    calls f vs ws h
  | _ => none

def evalAll (scope : Scope α) (h : Heap α) : List Expr → Option (List (Value α) × Heap α)
  | [] => some ([], h)
  | e :: es => do
    let (v, h) ← e.eval scope h
    let (vs, h) ← evalAll scope h es
    return (v :: vs, h)

/-- The name of an argument is not renamed. -/
def evalNamed (scope : Scope α) (h : Heap α) :
    List (String × Expr) → Option (List (String × Value α) × Heap α)
  | [] => some ([], h)
  | (name, e) :: rest => do
    let key ← asRead name
    let (v, h) ← e.eval scope h
    let (ws, h) ← evalNamed scope h rest
    return ((key, v) :: ws, h)

end

/-- Runs a body up to the statement that gives its result. -/
def runBody (scope : Scope α) (h : Heap α) : List Statement → Option (Value α × Heap α)
  | [] => some (.nothing, h)
  | .doc _ :: rest => runBody scope h rest
  | .assign name value :: rest => do
    let key ← inClass className name
    let (v, h) ← value.eval m calls className scope h
    runBody ((key, some v) :: scope) h rest
  | .evaluate e :: rest => do
    let (_, h) ← e.eval m calls className scope h
    runBody scope h rest
  | .give e :: _ => e.eval m calls className scope h
  | _ => none

end

/-- Assigns attributes of an object, one after the other. -/
def assignAll (h : Heap α) (object : Value α) (assignments : List (String × α)) :
    Option (Heap α) :=
  match object with
  | .object place => do
    let o ← h[place]?
    guard (!o.definition.isFrozen)
    return h.set place { o with
      attributes := assignments.foldl (fun as e => Table.insertEntry e.1 (.plain e.2) as)
        o.attributes }
  | _ => none

/-- Calls, nested at most so deep. -/
def callsAt (m : ModuleScope) : Nat → Calls α
  | _ + 1, .type definition, [], named, h => instantiate m definition named h
  | depth + 1, .method className (.function decorators name parameters result body) receiver,
      arguments, [], h => do
    guard (parameters.length = arguments.length + 1)
    let keys ← (Statement.function decorators name parameters result body).localNames.mapM
      (inClass className)
    let values := (receiver :: arguments).map some
    let unassigned := List.replicate (keys.length - values.length) none
    runBody m (callsAt m depth) className (keys.zip (values ++ unassigned)) h body
  | _ + 1, .setter assignments, [object], [], h =>
    (assignAll h object assignments).map (.nothing, ·)
  | _, _, _, _, _ => none

/-- Calls a member of a value from outside of all classes. -/
def callMember (m : ModuleScope) (depth : Nat) (receiver : Value α) (name : String)
    (arguments : List (Value α)) (h : Heap α) : Option (Value α × Heap α) := do
  callsAt m depth (← attributeOf m h name receiver) arguments [] h

/-! ## Names that refer to themselves -/

theorem asRead_eq_self {n : String} (h : asRead n = some n) :
    isIdentifier n = true ∧ n ∉ keywords ∧ Text.normalForm n = n := by
  rw [asRead] at h
  split at h
  · rename_i hname
    exact ⟨hname.1, hname.2, Option.some.inj h⟩
  · cases h

/-- White space is no part of a name. -/
theorem isMargin_eq_false_of_mem {n : String} (h : isIdentifier n = true) :
    ∀ c ∈ n.toList, isMargin c = false := by
  have hmargins : [' ', '\t', '\n', '\r', '\x0c'].all
      (fun c => !Text.isIdentifierStart c && !Text.isIdentifierPart c) = true := by decide +kernel
  have hnone : ∀ c, isMargin c = true →
      Text.isIdentifierStart c = false ∧ Text.isIdentifierPart c = false := by
    intro c hmargin
    have hmem : c ∈ [' ', '\t', '\n', '\r', '\x0c'] := by
      simpa only [isMargin, Bool.or_eq_true, beq_iff_eq, List.mem_cons, List.not_mem_nil, or_false,
        or_assoc] using hmargin
    simpa using List.all_eq_true.mp hmargins c hmem
  intro c hc
  by_contra hmargin
  obtain ⟨hstart, hpart⟩ := hnone c (by simpa using hmargin)
  rw [isIdentifier] at h
  split at h
  · cases h
  · rename_i d ds hs
    rw [Bool.and_eq_true, List.all_eq_true] at h
    rw [hs] at hc
    rcases List.mem_cons.mp hc with rfl | hc
    · rw [hstart] at h
      exact absurd h.1 (by decide)
    · rw [h.2 c hc] at hpart
      cases hpart

theorem withoutMargins_eq {s : List Char} (h : ∀ c ∈ s, isMargin c = false) :
    withoutMargins s = s := by
  have hkept : ∀ {t : List Char}, (∀ c ∈ t, isMargin c = false) → t.dropWhile isMargin = t := by
    intro t ht
    cases t with
    | nil => rfl
    | cons c cs => rw [List.dropWhile_cons, if_neg (by simp [ht c List.mem_cons_self])]
  rw [withoutMargins, hkept h, hkept fun c hc => h c (List.mem_reverse.mp hc), List.reverse_reverse]

theorem referredName_eq {n : String} (h : asRead n = some n) : referredName n = n := by
  obtain ⟨hname, -, hnormal⟩ := asRead_eq_self h
  rw [referredName, withoutMargins_eq (isMargin_eq_false_of_mem hname), String.ofList_toList,
    hnormal]

theorem digitGroup?_eq_none {p : Char → Bool} {c : Char} (h : p c = false) (cs : List Char) :
    digitGroup? p (c :: cs) = none := by
  unfold digitGroup?
  split <;> simp_all

/-- A number begins with a digit or a point. -/
theorem ofText?_eq_none {c : Char} (hdigit : c.isDigit = false) (hpoint : c ≠ '.')
    (cs : List Char) : Number.ofText? (c :: cs) = none := by
  have hzero : c ≠ '0' := by
    rintro rfl
    exact absurd hdigit (by decide)
  have hdecimal : Number.ofText? (c :: cs) = Number.ofDecimal? (c :: cs) := by
    unfold Number.ofText?
    split <;> simp_all
  have hnone : ∀ t, optionalDigits? (c :: t) = none := fun t => by
    rw [optionalDigits?, List.isEmpty_cons, if_neg (by simp), digitGroup?_eq_none hdigit]
  have hbody : ∀ imaginary : Bool, (if imaginary = true then (c :: cs).dropLast else c :: cs) = [] ∨
      ∃ t, (if imaginary = true then (c :: cs).dropLast else c :: cs) = c :: t := by
    intro imaginary
    cases imaginary <;> cases cs <;> simp
  rw [hdecimal, Number.ofDecimal?]
  rcases hbody ((c :: cs).getLast?.any fun d => d == 'j' || d == 'J') with hempty | ⟨t, ht⟩
  · simp [hempty, optionalDigits?]
  · have hfront := List.takeWhile_cons (p := fun d => !(d == 'e' || d == 'E')) (a := c) (l := t)
    cases hmark : c == 'e' || c == 'E' with
    | true =>
        -- Nothing stands in front of the exponent.
        simp only [hmark, Bool.not_true, Bool.false_eq_true, if_false] at hfront
        simp only [ht, hfront]
        simp [optionalDigits?]
    | false =>
        simp only [hmark, Bool.not_false, if_true] at hfront
        have hwhole : ∀ l, (c :: l).takeWhile (· != '.') = c :: l.takeWhile (· != '.') := by
          simp [hpoint]
        simp only [ht, hfront, hwhole, hnone]
        rfl

/-- The name of a class that can be read is what refers to the class. -/
theorem reference_eq {n : String} (h : asRead n = some n) : Expr.reference n = .name n := by
  obtain ⟨hname, hkeyword, hnormal⟩ := asRead_eq_self h
  have hnumber : Number.ofText? n.toList = none := by
    rw [isIdentifier] at hname
    split at hname
    · cases hname
    · rename_i c cs hs
      rw [Bool.and_eq_true] at hname
      have hdigits : ∀ n < 128, (Char.ofNat n).isDigit = true →
          Text.isIdentifierStart (Char.ofNat n) = false := by decide +kernel
      rw [hs]
      refine ofText?_eq_none ?_ ?_ cs
      · by_contra hdigit
        have hlt : c.toNat < 128 := toNat_lt_of_isAlphanum (by simp [Char.isAlphanum, hdigit])
        have hnone := hdigits c.toNat hlt (by simpa using hdigit)
        rw [Char.ofNat_toNat, hname.1] at hnone
        cases hnone
      · rintro rfl
        exact absurd hname.1 (by decide +kernel)
  have hwords : ∀ w ∈ ["True", "False"], w ∈ keywords := by decide
  have htrue : n.toList ≠ "True".toList := fun heq =>
    hkeyword (String.toList_inj.mp heq ▸ hwords "True" (by simp))
  have hfalse : n.toList ≠ "False".toList := fun heq =>
    hkeyword (String.toList_inj.mp heq ▸ hwords "False" (by simp))
  simp only [Expr.reference, withoutMargins_eq (isMargin_eq_false_of_mem hname), hnumber,
    if_neg htrue, if_neg hfalse, referredName_eq h]

/-! ## Renamed names -/

theorem mangled_of_public {n : String} (h : isPrivate n = false) (className : String) :
    mangled className n = n := by
  simp [mangled, h]

theorem inClass_of_public {n : String} (hread : asRead n = some n) (h : isPrivate n = false)
    (className : String) : inClass className n = some n := by
  rw [inClass, hread, Option.map_some, mangled_of_public h]

/-- A private name has more than underscores, or it would end in two of them. -/
theorem classStem_ne_nil {n : String} (h : isPrivate n = true) : classStem n ≠ [] := by
  intro hstem
  rw [isPrivate, Bool.and_eq_true, Bool.not_eq_true', List.isPrefixOf_iff_prefix] at h
  obtain ⟨⟨t, ht⟩, hsuffix⟩ := h
  have hall : ∀ c ∈ n.toList, c = '_' := by
    simpa [classStem, List.dropWhile_eq_nil_iff] using hstem
  have hlist : n.toList = List.replicate t.length '_' ++ ['_', '_'] := by
    rw [List.eq_replicate_iff.mpr ⟨rfl, hall⟩, ← ht]
    exact List.replicate_add t.length 2 '_'
  rw [hlist, ← Bool.not_eq_true, List.isSuffixOf_iff_suffix] at hsuffix
  exact hsuffix (List.suffix_append _ _)

theorem toList_mangled {n : String} (h : isPrivate n = true) (className : String) :
    (mangled className n).toList =
      (if classStem className = [] then [] else '_' :: classStem className) ++ n.toList := by
  by_cases hstem : classStem className = []
  · simp [mangled, hstem]
  · simp [mangled, h, hstem]

/-- A private name is renamed alike in two classes if they have one stem. -/
theorem mangled_eq_iff {n : String} (c d : String) : mangled c n = mangled d n ↔
    isPrivate n = false ∨ classStem c = classStem d := by
  cases h : isPrivate n with
  | false => simp [mangled_of_public h]
  | true =>
      rw [← String.toList_inj, toList_mangled h, toList_mangled h, List.append_left_inj]
      by_cases hc : classStem c = []
      · by_cases hd : classStem d = []
        · simp [hc, hd]
        · simp [hc, hd, Ne.symm hd]
      · by_cases hd : classStem d = [] <;> simp [hc, hd]

/-- A private name is renamed in every class that has a stem. -/
theorem mangled_eq_self_iff {n : String} (className : String) :
    mangled className n = n ↔ isPrivate n = false ∨ classStem className = [] := by
  cases h : isPrivate n with
  | false => simp [mangled_of_public h]
  | true =>
      rw [← String.toList_inj, toList_mangled h, List.append_left_eq_self]
      by_cases hstem : classStem className = [] <;> simp [hstem]

/-- Behind the underscore in front of a renamed name stands the class's name. -/
theorem isPrivate_mangled {className : String} (hstem : classStem className ≠ []) (n : String) :
    isPrivate (mangled className n) = false := by
  cases h : isPrivate n with
  | false => rw [mangled_of_public h, h]
  | true =>
      rw [isPrivate, toList_mangled h, if_neg hstem]
      cases hs : classStem className with
      | nil => exact absurd hs hstem
      | cons c cs =>
          have hc : c ≠ '_' := by
            have hhead := List.head?_dropWhile_not (· == '_') className.toList
            rw [← classStem, hs] at hhead
            simpa using hhead
          simp [List.isPrefixOf, Ne.symm hc]

/-! ## Class bodies -/

section

variable {doc : List Statement} {fields : List (String × Ty)} {className : String}

/-- Names that are read as they are, and stand for themselves in every class. -/
def Public (n : String) : Prop :=
  asRead n = some n ∧ isPrivate n = false

theorem Public.inClass {n : String} (h : Public n) (className : String) :
    inClass className n = some n :=
  inClass_of_public h.1 h.2 className

/-- Documentation and fields bind no members. -/
theorem bindings_members (reads : String → Option String) (hdoc : ∀ s ∈ doc, ∃ text, s = .doc text)
    (members : List Statement) :
    bindings reads (doc ++ fields.map (fun f => .field f.1 f.2) ++ members) =
      bindings reads members := by
  have hnone : (doc ++ fields.map fun f => Statement.field f.1 f.2).filterMap (fun s => do
      return (← reads (← s.boundName?), s)) = [] := by
    refine List.filterMap_eq_nil_iff.mpr fun s hs => ?_
    rcases List.mem_append.mp hs with hs | hs
    · obtain ⟨text, rfl⟩ := hdoc s hs
      rfl
    · obtain ⟨f, -, rfl⟩ := List.mem_map.mp hs
      rfl
  rw [bindings, List.filterMap_append, hnone, List.nil_append, bindings]

/-- What two members of a class are bound to. -/
theorem bindings_pair {reads : String → Option String} {s t : Statement} {n n' k k' : String}
    (hs : s.boundName? = some n) (ht : t.boundName? = some n') (hn : reads n = some k)
    (hn' : reads n' = some k') : bindings reads [s, t] = [(k', t), (k, s)] := by
  simp [bindings, hs, ht, hn, hn']

/-- The fields of a class are those that are declared, whatever members follow. -/
theorem fieldNames_eq (hdoc : ∀ s ∈ doc, ∃ text, s = .doc text) {members : List Statement}
    (hmembers : ∀ s ∈ members, s.fieldName? = none) :
    (doc ++ fields.map (fun f => Statement.field f.1 f.2) ++ members).filterMap
        Statement.fieldName? =
      fields.map (·.1) := by
  have hdocs : doc.filterMap Statement.fieldName? = [] :=
    List.filterMap_eq_nil_iff.mpr fun s hs => by
      obtain ⟨text, rfl⟩ := hdoc s hs
      rfl
  rw [List.filterMap_append, List.filterMap_append, hdocs, List.filterMap_eq_nil_iff.mpr hmembers,
    List.nil_append, List.append_nil, List.filterMap_map]
  exact List.filterMap_eq_map_iff_forall_eq_some.mpr fun f _ => rfl

theorem fieldAttributes?_eq (hdoc : ∀ s ∈ doc, ∃ text, s = .doc text) {members : List Statement}
    (hmembers : ∀ s ∈ members, s.fieldName? = none) (hpublic : ∀ f ∈ fields, Public f.1)
    (hdistinct : (fields.map (·.1)).Nodup) :
    fieldAttributes? className (doc ++ fields.map (fun f => .field f.1 f.2) ++ members) =
      some (fields.map (·.1)) := by
  have hread : (fields.map (·.1)).mapM (inClass className) = some (fields.map (·.1)) := by
    rw [mapM_eq_some, List.forall₂_same]
    intro n hn
    obtain ⟨f, hf, rfl⟩ := List.mem_map.mp hn
    exact (hpublic f hf).inClass className
  rw [fieldAttributes?, fieldNames_eq hdoc hmembers, hread, Option.map_eq_map, Option.map_some,
    eraseDups_of_nodup hdistinct]

/-- No attribute has a private name. -/
theorem fieldAttributes?_public (hstem : classStem className ≠ []) {body : List Statement}
    {attributes : List String} (h : fieldAttributes? className body = some attributes) :
    ∀ k ∈ attributes, isPrivate k = false := by
  rw [fieldAttributes?, Option.map_eq_map, Option.map_eq_some_iff] at h
  obtain ⟨keys, hkeys, rfl⟩ := h
  intro k hk
  obtain ⟨n, -, hn⟩ := (mapM_eq_some.mp hkeys).exists_left k (List.mem_eraseDups.mp hk)
  obtain ⟨k', -, rfl⟩ := Option.map_eq_some_iff.mp hn
  exact isPrivate_mangled hstem k'

variable {m : ModuleScope} {definition : Statement} {h : Heap α} {members : List Statement}
  {bases decorators : List Expr}

/-- An object is made of the values that the fields are given by name. -/
theorem instantiate_eq (hdecorators : decoratedWith m "dataclass" decorators = true)
    (hread : asRead className = some className) (hdoc : ∀ s ∈ doc, ∃ text, s = .doc text)
    (hmembers : ∀ s ∈ members, s.fieldName? = none) (hpublic : ∀ f ∈ fields, Public f.1)
    (hdistinct : (fields.map (·.1)).Nodup) (hplain : ∀ f ∈ fields, isSpecial f.1 = false)
    (hdefinition : definition = .classDefinition decorators className bases
      (doc ++ fields.map (fun f => .field f.1 f.2) ++ members)) (f : String → Value α) :
    instantiate m definition ((fields.map (·.1)).map fun n => (n, f n)) h =
      some (.object h.length, h ++ [⟨definition, (fields.map (·.1)).map fun n => (n, f n)⟩]) := by
  have hspecial : (fields.map (·.1)).all (!isSpecial ·) = true := by
    simpa using fun n t hf => hplain _ hf
  have hkeys : ((fields.map (·.1)).map fun n => (n, f n)).map (·.1) = fields.map (·.1) := by
    simp [Function.comp_def]
  have hvalues : (fields.map (·.1)).mapM
      (fun k => Table.findEntry k ((fields.map (·.1)).map fun n => (n, f n))) =
        some ((fields.map (·.1)).map f) := by
    rw [mapM_eq_some, List.forall₂_map_right_iff, List.forall₂_same]
    exact fun n hn => Table.findEntry_map hn f
  simp only [hdefinition, instantiate, guard, hdecorators, if_true, hread,
    fieldAttributes?_eq hdoc hmembers hpublic hdistinct, hspecial, hkeys, hdistinct,
    List.Subset.refl, and_self, hvalues, Option.pure_def, Option.bind_eq_bind, Option.bind_some,
    ← List.map_prod_left_eq_zip]

/-- No object is made if an argument has the name of no attribute. -/
theorem instantiate_eq_none {named : List (String × Value α)} {body : List Statement} {n : String}
    (hdefinition : definition = .classDefinition decorators className bases body)
    (hn : n ∈ named.map (·.1)) (hnone : ∀ attributes, fieldAttributes? className body =
      some attributes → n ∉ attributes) (hread : asRead className = some className) :
    instantiate m definition named h = none := by
  rw [Option.eq_none_iff_forall_not_mem]
  intro result hresult
  simp only [hdefinition, instantiate, hread, Option.bind_eq_bind, Option.mem_def,
    Option.bind_eq_some_iff, Option.bind_some, Option.guard_eq_some'] at hresult
  obtain ⟨-, -, attributes, hattributes, -, -, -, hguard, -⟩ := hresult
  exact hnone attributes hattributes (hguard.2 hn)

/-- What is made is a new object of the class. -/
theorem instantiate_spec {named : List (String × Value α)} {v : Value α} {h' : Heap α}
    (hmade : instantiate m definition named h = some (v, h')) :
    ∃ attributes, v = .object h.length ∧ h' = h ++ [⟨definition, attributes⟩] := by
  unfold instantiate at hmade
  split at hmade
  · simp only [Option.bind_eq_bind, Option.bind_eq_some_iff, Option.pure_def, Option.some.injEq,
      Prod.mk.injEq] at hmade
    obtain ⟨-, -, -, -, attributes, -, -, -, -, -, values, -, rfl, rfl⟩ := hmade
    exact ⟨_, rfl, rfl⟩
  · cases hmade

end

/-! ## Values of fields -/

/-- An object of a class whose fields have given names, with a value for each. -/
def holding (definition : Statement) (className : String) (names : List String) (v : String → α) :
    Object α :=
  ⟨definition, names.map fun n => (mangled className n, .plain (v n))⟩

section

variable {m : ModuleScope} {definition : Statement} {className : String} {h : Heap α} {place : Nat}
  {names : List String}

theorem holding_eq (hpublic : ∀ n ∈ names, Public n) (definition : Statement) (className : String)
    (v : String → α) : holding definition className names v =
      ⟨definition, names.map fun n => (n, .plain (v n))⟩ := by
  rw [holding]
  congr 1
  exact List.map_congr_left fun n hn => by rw [mangled_of_public (hpublic n hn).2]

/-- A public field of an object is read under its name. -/
theorem attributeOf_holding (hpublic : ∀ n ∈ names, Public n) {v : String → α}
    (hobject : h[place]? = some (holding definition className names v)) {n : String}
    (hn : n ∈ names) : attributeOf m h n (.object place) = some (.plain (v n)) := by
  rw [holding_eq hpublic] at hobject
  simp only [attributeOf, hobject, Option.bind_eq_bind, Option.bind_some,
    Table.findEntry_map hn fun n => Value.plain (v n)]
  rfl

/-- What is no field is a member of the class. -/
theorem attributeOf_of_not_mem (hpublic : ∀ n ∈ names, Public n) {v : String → α}
    (hobject : h[place]? = some (holding definition className names v)) {n : String}
    (hn : n ∉ names) :
    attributeOf m h n (.object place) = memberOfClass m definition (some (.object place)) n := by
  rw [holding_eq hpublic] at hobject
  have hnone : Table.findEntry n (names.map fun n => (n, Value.plain (v n))) = none :=
    Table.findEntry_eq_none.mpr fun w hw => by
      obtain ⟨n', hn', heq⟩ := List.mem_map.mp hw
      exact hn ((Prod.mk.inj heq).1 ▸ hn')
  simp only [attributeOf, hobject, Option.bind_eq_bind, Option.bind_some, hnone]

end

/-! ## Evaluation -/

section

variable {m : ModuleScope} {calls : Calls α} {className object : String} {scope : Scope α}
  {h : Heap α} {v : Value α} {names : List String}

theorem eval_local {n : String} (hn : Public n)
    (hvalue : Table.findEntry n scope = some (some v)) :
    (Expr.name n).eval m calls className scope h = some (v, h) := by
  rw [Expr.eval, hn.inClass]
  simp [hvalue]

/-- A variable that is not assigned yet cannot be read, whatever the module has. -/
theorem eval_unassigned {n : String} (hn : Public n)
    (hvalue : Table.findEntry n scope = some none) :
    (Expr.name n).eval m calls className scope h = none := by
  rw [Expr.eval, hn.inClass]
  simp [hvalue]

/-- A name that is not local means a class of the module. -/
theorem eval_class {n k : String} (hk : inClass className n = some k)
    (hlocal : Table.findEntry k scope = none) :
    (Expr.name n).eval m calls className scope h =
      (Table.findEntry k m).map fun s => (.type s, h) := by
  rw [Expr.eval, hk]
  cases hfound : Table.findEntry k m <;> simp [hlocal, hfound]

theorem eval_member {e : Expr} {w : Value α} {n : String} (hn : Public n)
    (he : e.eval m calls className scope h = some (v, h)) (hmember : attributeOf m h n v = some w) :
    (Expr.member e n).eval m calls className scope h = some (w, h) := by
  simp only [Expr.eval, he, hn.inClass, hmember, Option.bind_eq_bind, Option.bind_some,
    Option.pure_def]

/-- A call with local variables. -/
theorem eval_call {function : Expr} {f : Value α} {arguments : List String} {vs : List (Value α)}
    (hfunction : function.eval m calls className scope h = some (f, h))
    (harguments : List.Forall₂ (fun n v => Public n ∧ Table.findEntry n scope = some (some v))
      arguments vs) :
    (Expr.call function (arguments.map .name) []).eval m calls className scope h =
      calls f vs [] h := by
  have hvalues : evalAll m calls className scope h (arguments.map .name) = some (vs, h) := by
    induction harguments with
    | nil => rfl
    | cons hn _ ih => simp [evalAll, eval_local hn.1 hn.2, ih]
  simp only [Expr.eval, hfunction, hvalues, evalNamed, Option.bind_eq_bind, Option.bind_some]

/-- Arguments that read attributes of one object. -/
def readEach (object : String) (names : List String) : List (String × Expr) :=
  names.map fun n => (n, .member (.name object) n)

/-- Public attributes of a local object are passed under their names. -/
theorem evalNamed_readEach (hobject : Public object)
    (hv : Table.findEntry object scope = some (some v)) (hnames : ∀ n ∈ names, Public n)
    {f : String → Value α} (hattributes : ∀ n ∈ names, attributeOf m h n v = some (f n)) :
    evalNamed m calls className scope h (readEach object names) =
      some (names.map fun n => (n, f n), h) := by
  induction names with
  | nil => rfl
  | cons n names ih =>
      obtain ⟨hn, hnames⟩ := List.forall_mem_cons.mp hnames
      obtain ⟨hattribute, hattributes⟩ := List.forall_mem_cons.mp hattributes
      have hrest := ih hnames hattributes
      have hfirst : (Expr.member (.name object) n).eval m calls className scope h =
          some (f n, h) := eval_member hn (eval_local hobject hv) hattribute
      rw [readEach] at hrest
      simp [readEach, evalNamed, hn.1, hfirst, hrest]

/-- Arguments keep their names. -/
theorem evalNamed_keys (hnames : ∀ n ∈ names, asRead n = some n) :
    ∀ {h : Heap α} {ws : List (String × Value α)} {h' : Heap α},
      evalNamed m calls className scope h (readEach object names) = some (ws, h') →
        ws.map (·.1) = names := by
  induction names with
  | nil =>
      intro h ws h' heval
      cases heval
      rfl
  | cons n names ih =>
      intro h ws h' heval
      obtain ⟨hn, hnames⟩ := List.forall_mem_cons.mp hnames
      simp only [readEach, List.map_cons, evalNamed, hn, Option.bind_eq_bind, Option.bind_some,
        Option.bind_eq_some_iff, Option.pure_def, Option.some.injEq, Prod.mk.injEq] at heval
      obtain ⟨_, -, ⟨rest, _⟩, hrest, rfl, rfl⟩ := heval
      rw [List.map_cons, ih hnames hrest]

/-- A function of public names runs with its parameters bound to what it is called with, and its
variables to nothing. -/
theorem callsAt_method {decorators : List Expr} {name : String} {parameters : List Parameter}
    {result : Expr} {body : List Statement} {receiver : Value α} {arguments : List (Value α)}
    {locals : List String}
    (hlocals : (Statement.function decorators name parameters result body).localNames = locals)
    (hpublic : ∀ n ∈ locals, Public n) (harity : parameters.length = arguments.length + 1)
    (depth : Nat) :
    callsAt m (depth + 1)
        (.method className (.function decorators name parameters result body) receiver) arguments []
        h =
      runBody m (callsAt m depth) className (locals.zip ((receiver :: arguments).map some ++
        List.replicate (locals.length - (arguments.length + 1)) none)) h body := by
  have hkeys : locals.mapM (inClass className) = some locals := by
    rw [mapM_eq_some, List.forall₂_same]
    exact fun n hn => (hpublic n hn).inClass className
  simp [callsAt, hlocals, harity, hkeys, guard]

end

end RecordGen.Python

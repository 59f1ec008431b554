import RecordGen.Config
import RecordGen.Proofs.Loading
import RecordGen.Proofs.Validation

/-! # What the names of types are like

Naming escapes the names of modules and classes and appends to them. So a property that the escaped
names have and that survives what is appended holds of every type and every container. No name holds
a point, and a dotted name is read back part by part; no name is that of a platform type; and no
container is named like a package, with a small letter first. -/

namespace RecordGen

open Text

/-! ## Allocated names -/

/-- A property that the names of containers keep: the escaped names of modules have it, and so has
such a name with a number after it. -/
structure KeptInContainers (P : String → Prop) : Prop where
  container : ∀ m, P (safeTypeName (pascalCase m))
  numbered : ∀ {name} (n : Nat), P name → P (name ++ toString n)

/-- A property that naming a graph keeps: the stems of its names have it, and so has whatever naming
puts together from names that have it. -/
structure KeptByNaming (g : ClassGraph) (p : String) (P : String → Prop) : Prop
    extends KeptInContainers P where
  record : ∀ c ∈ g.classes, P (safeTypeName (g.decl c).name)
  interface : ∀ c ∈ g.classes, P (safeTypeName (p ++ (g.decl c).name))
  implementing : ∀ {name}, P name → P (name ++ "Impl")

namespace KeptInContainers

variable {g : ClassGraph} {p : String} {P : String → Prop}

theorem uniqueName (h : KeptInContainers P) {taken : List String} {name : String} (hname : P name) :
    P (uniqueName taken name) := by
  by_cases hmem : name ∈ taken
  · obtain ⟨k, hunique, -⟩ := uniqueName_of_mem hmem
    rw [hunique]
    exact h.numbered _ hname
  · rwa [uniqueName_of_not_mem hmem]

theorem containerNames (h : KeptInContainers P) (taken ms : List String) :
    ∀ c ∈ containerNames taken ms, P c := by
  induction ms generalizing taken with
  | nil => simp [RecordGen.containerNames]
  | cons m ms ih =>
      rw [RecordGen.containerNames]
      exact List.forall_mem_cons.mpr ⟨h.uniqueName (h.container m), ih _⟩

theorem housing (h : KeptInContainers P) {m : ClassId × String} (hm : m ∈ Naming.housing g) :
    P m.2 := by
  apply h.containerNames protocolTypes (g.modules.map fun m => (g.decl m).name)
  rw [← Naming.housing_map_snd g]
  exact List.mem_map_of_mem hm

/-- The container of every type has what the names of containers keep. -/
theorem pathContainer (h : KeptInContainers P) {s : Slot} {c : ClassId} {t : TypePath}
    (ht : ((Naming.ofGraph p g).at s).find? c = some t) : P t.container := by
  obtain ⟨e, he, hentry⟩ := Naming.exists_allotment_of_find? ht
  obtain ⟨-, -, hcontainer⟩ := Allotment.entry_eq_some.mp hentry
  obtain ⟨m, hm, he⟩ := List.mem_flatMap.mp he
  have hk : t.container = m.2 := hcontainer.symm.trans (Naming.ofModule_container e he)
  exact hk ▸ h.housing hm

end KeptInContainers

namespace KeptByNaming

variable {g : ClassGraph} {p : String} {P : String → Prop}

theorem claim (h : KeptByNaming g p P) {taken : List String} {wanted : Option String}
    (hwanted : ∀ n ∈ wanted, P n) : ∀ n ∈ (claim taken wanted).1, P n := by
  cases wanted with
  | none => simp [RecordGen.claim]
  | some name => simpa [RecordGen.claim] using h.uniqueName (hwanted name rfl)

theorem moduleNames (h : KeptByNaming g p P) {container : String} (hcontainer : P container)
    (kind : Extensibility) : ∀ n ∈ (moduleNames container kind).1.toList, P n := by
  cases kind with
  | final => simpa [RecordGen.moduleNames, ClassNames.toList] using hcontainer
  | abstract => simpa [RecordGen.moduleNames, ClassNames.toList] using hcontainer
  | extensible =>
      simpa [RecordGen.moduleNames, ClassNames.toList, RecordGen.claim] using
        ⟨hcontainer, h.uniqueName (h.implementing hcontainer)⟩

theorem classNames (h : KeptByNaming g p P) {cs : List ClassId} (hcs : ∀ c ∈ cs, c ∈ g.classes) :
    ∀ {taken : List String}, ∀ n ∈ classNames p taken (cs.map fun c =>
      ((g.decl c).name, (g.decl c).kind)), ∀ x ∈ n.toList, P x := by
  induction cs with
  | nil => simp [RecordGen.classNames]
  | cons c cs ih =>
      intro taken n hn x hx
      obtain ⟨hc, hrest⟩ := List.forall_mem_cons.mp hcs
      rw [List.map_cons, RecordGen.classNames] at hn
      rcases List.mem_cons.mp hn with rfl | hn
      · rcases List.mem_append.mp hx with hx | hx
        · refine h.claim (fun n hn => ?_) x (Option.mem_toList.mp hx)
          split at hn
          · obtain rfl := Option.some.inj hn
            exact h.interface c hc
          · cases hn
        · refine h.claim (fun n hn => ?_) x (Option.mem_toList.mp hx)
          split at hn
          · obtain rfl := Option.some.inj hn
            exact h.record c hc
          · cases hn
      · exact ih hrest n hn x hx

/-- Every type, and the container it lives in, has what naming keeps. -/
theorem typePath (h : KeptByNaming g p P) {s : Slot} {c : ClassId} {t : TypePath}
    (ht : ((Naming.ofGraph p g).at s).find? c = some t) : P t.name ∧ P t.container := by
  refine ⟨?_, h.pathContainer ht⟩
  obtain ⟨e, he, hentry⟩ := Naming.exists_allotment_of_find? ht
  obtain ⟨-, hname, -⟩ := Allotment.entry_eq_some.mp hentry
  have hmem : t.name ∈ e.names.toList := ClassNames.mem_toList.mpr ⟨s, hname⟩
  obtain ⟨m, hm, he⟩ := List.mem_flatMap.mp he
  have hnames := List.mem_map_of_mem (f := Allotment.names) he
  rw [Naming.ofModule_names] at hnames
  rcases List.mem_cons.mp hnames with heq | hnames
  · exact h.moduleNames (h.housing hm) _ _ (heq ▸ hmem)
  · exact h.classNames (fun x hx => (ClassGraph.mem_membersOf.mp hx).1) _ hnames _ hmem

end KeptByNaming

/-! ## ASCII letters -/

theorem toNat_toUpper {c : Char} (h : c.isLower = true) : c.toUpper.toNat = c.toNat - 32 := by
  have hlower := isLower_iff.mp h
  have hvalue : c.toUpper.toNat = (c.val + ('A'.val - 'a'.val)).toNat := by
    delta Char.toUpper
    rw [dif_pos (show 'a'.val ≤ c.val ∧ c.val ≤ 'z'.val from hlower)]
    rfl
  have hshift : ('A'.val - 'a'.val).toNat = 2 ^ 32 - 32 := by decide
  rw [hvalue, UInt32.toNat_add, hshift, Char.toNat_val]
  omega

theorem isUpper_toUpper {c : Char} (h : c.isLower = true) : c.toUpper.isUpper = true := by
  rw [isUpper_iff, toNat_toUpper h]
  rw [isLower_iff] at h
  omega

theorem isLower_eq_false_of_isUpper {c : Char} (h : c.isUpper = true) : c.isLower = false := by
  rw [Bool.eq_false_iff, Ne, isLower_iff]
  rw [isUpper_iff] at h
  omega

theorem toLower_eq_self {c : Char} (h : c.isUpper = false) : c.toLower = c := by
  delta Char.toLower
  exact dif_neg fun hupper => absurd (isUpper_iff.mpr hupper) (by simp [h])

/-! ## Numbers -/

theorem isDigit_of_mem_toString {n : Nat} {c : Char} (h : c ∈ (toString n).toList) :
    c.isDigit = true := by
  rw [Nat.toString_eq_ofList_toDigits, String.toList_ofList] at h
  exact Nat.isDigit_of_mem_toDigits (by decide) (by decide) h

theorem exists_mem_toString (n : Nat) : ∃ c, c ∈ (toString n).toList := by
  rw [Nat.toString_eq_ofList_toDigits, String.toList_ofList]
  exact List.exists_mem_of_ne_nil _ Nat.toDigits_ne_nil

/-! ## No points -/

/-- A name that reads as one part of a dotted name. -/
def Undotted (name : String) : Prop :=
  '.' ∉ name.toList

instance (name : String) : Decidable (Undotted name) :=
  inferInstanceAs (Decidable ('.' ∉ name.toList))

theorem Undotted.append {s t : String} (hs : Undotted s) (ht : Undotted t) :
    Undotted (s ++ t) := by
  simpa [Undotted] using ⟨hs, ht⟩

theorem undotted_toString (n : Nat) : Undotted (toString n) := fun hmem =>
  absurd (isDigit_of_mem_toString hmem) (by decide)

/-- A name of the schema is an identifier, and a line feed may follow. -/
theorem mem_of_isSchemaName {name : String} (h : isSchemaName name = true) {c : Char}
    (hc : c ∈ name.toList) :
    opensIdentifier c = true ∨ continuesIdentifier c = true ∨ c = '\n' := by
  have hword : ∀ s : List Char, isWord opensIdentifier continuesIdentifier s = true →
      ∀ d ∈ s, opensIdentifier d = true ∨ continuesIdentifier d = true := by
    intro s hs
    cases s with
    | nil => simp
    | cons d ds =>
        simp only [isWord, Bool.and_eq_true, List.all_eq_true] at hs
        exact List.forall_mem_cons.mpr ⟨Or.inl hs.1, fun e he => Or.inr (hs.2 e he)⟩
  rw [← or_assoc]
  have hmem := hword _ h
  rw [dropFinalNewline] at hmem
  split at hmem
  · rename_i hlast
    rw [← List.dropLast_append_getLast? _ hlast, List.mem_append] at hc
    exact hc.imp (hmem c) List.mem_singleton.mp
  · exact Or.inl (hmem c hc)

theorem undotted_of_isSchemaName {name : String} (h : isSchemaName name = true) :
    Undotted name := fun hmem =>
  absurd (mem_of_isSchemaName h hmem) (by decide)

theorem undotted_of_isIdentifier {s : String} (h : Python.isIdentifier s = true) : Undotted s := by
  rw [Python.isIdentifier] at h
  rw [Undotted]
  split at h
  · cases h
  · rename_i c cs hs
    rw [hs]
    simp only [Bool.and_eq_true, List.all_eq_true] at h
    rw [List.mem_cons, not_or]
    constructor
    · rintro rfl
      exact absurd h.1 (by decide +kernel)
    · intro hmem
      exact absurd (h.2 '.' hmem) (by decide +kernel)

theorem undotted_of_acceptsPrefix {p : String} (h : Config.acceptsPrefix p = true) :
    Undotted p := by
  rw [Config.acceptsPrefix, Bool.or_eq_true, Bool.and_eq_true] at h
  rcases h with h | ⟨h, -⟩
  · simp [Undotted, String.isEmpty_iff.mp h]
  · exact undotted_of_isIdentifier h

/-- A configuration that passes its checks has an accepted interface prefix. -/
theorem acceptsPrefix_of_validate {c : Config} (h : c.validate = .ok ()) :
    Config.acceptsPrefix c.interfacePrefix = true := by
  obtain ⟨-, -, -, -, -, hprefix⟩ := Config.validate_eq_ok.mp h
  exact hprefix

theorem mem_capitalized {c : Char} {s : List Char} : ∀ {afterLetter : Bool},
    c ∈ capitalized afterLetter s → c.isAlphanum = true := by
  induction s with
  | nil => simp [capitalized]
  | cons d ds ih =>
      intro afterLetter hc
      rw [capitalized] at hc
      split at hc
      · rename_i hlower
        rcases List.mem_cons.mp hc with rfl | hc
        · cases afterLetter with
          | false =>
              show d.toUpper.isAlphanum = true
              rw [Char.isAlphanum, isAlpha_eq, isUpper_toUpper hlower, Bool.true_or, Bool.true_or]
          | true => simp [Char.isAlphanum, isAlpha_eq, hlower]
        · exact ih hc
      · split at hc
        · rename_i hupper
          rcases List.mem_cons.mp hc with rfl | hc
          · simp [Char.isAlphanum, isAlpha_eq, hupper]
          · exact ih hc
        · split at hc
          · rename_i hdigit
            rcases List.mem_cons.mp hc with rfl | hc
            · simp [Char.isAlphanum, hdigit]
            · exact ih hc
          · exact ih hc

theorem undotted_pascalCase (s : String) : Undotted (pascalCase s) := by
  rw [Undotted, pascalCase, String.toList_ofList]
  intro hmem
  exact absurd (mem_capitalized hmem) (by decide)

theorem undotted_safeTypeName {name : String} (h : Undotted name) :
    Undotted (safeTypeName name) := by
  rw [safeTypeName]
  split
  · exact h.append (by decide)
  · exact h

theorem undotted_keptByNaming {g : ClassGraph} (h : g.Linked) {p : String} (hp : Undotted p) :
    KeptByNaming g p Undotted where
  container m := undotted_safeTypeName (undotted_pascalCase m)
  record c hc := undotted_safeTypeName (undotted_of_isSchemaName (h.named c hc))
  interface c hc := undotted_safeTypeName (hp.append (undotted_of_isSchemaName (h.named c hc)))
  numbered n hname := hname.append (undotted_toString n)
  implementing hname := hname.append (by decide)

/-- The types of a loaded graph have undotted names, and neither they nor their containers have a
name of the copy-with protocol. -/
theorem ClassGraph.Linked.type_names {g : ClassGraph} (h : g.Linked) {p : String}
    (hp : Undotted p) {s : Slot} {c : ClassId} {t : TypePath}
    (ht : ((Naming.ofGraph p g).at s).find? c = some t) :
    Undotted t.name ∧ Undotted t.container ∧ t.name ∉ protocolTypes ∧
      t.container ∉ protocolTypes := by
  obtain ⟨hname, hcontainer⟩ := (undotted_keptByNaming h hp).typePath ht
  exact ⟨hname, hcontainer, Naming.not_mem_protocolTypes_of_find? ht⟩

/-! ## No platform types -/

/-- A name that ends like no word of a list is none of them. -/
theorem append_not_mem {words : List String} {name suffix : String}
    (h : ∀ w ∈ words, ¬suffix.toList <:+ w.toList) : name ++ suffix ∉ words := by
  intro hmem
  exact h _ hmem ⟨name.toList, by simp⟩

/-- A name with a number after it is no word without digits. -/
theorem numbered_not_mem {words : List String} (h : ∀ w ∈ words, w.toList.any Char.isDigit = false)
    (name : String) (n : Nat) : name ++ toString n ∉ words := by
  obtain ⟨c, hc⟩ := exists_mem_toString n
  intro hmem
  refine List.any_eq_false.mp (h _ hmem) c ?_ (isDigit_of_mem_toString hc)
  rw [String.toList_append]
  exact List.mem_append_right _ hc

theorem safeTypeName_not_mem_platformTypes (name : String) :
    safeTypeName name ∉ platformTypes := by
  rw [safeTypeName]
  split
  · exact append_not_mem (by decide)
  · rename_i h
    simpa using fun hmem => h (by simp [hmem])

theorem platform_keptByNaming (g : ClassGraph) (p : String) :
    KeptByNaming g p (· ∉ platformTypes) where
  container _ := safeTypeName_not_mem_platformTypes _
  record _ _ := safeTypeName_not_mem_platformTypes _
  interface _ _ := safeTypeName_not_mem_platformTypes _
  numbered n _ := numbered_not_mem (by decide) _ n
  implementing _ := append_not_mem (by decide)

/-! ## No reserved words -/

/-- What no name of a type may be in lower case. -/
def reservedTypeNames : List String :=
  Java.reservedWords ++ Python.keywords.map lower

theorem isReservedTypeName_iff {name : String} :
    isReservedTypeName name = true ↔ lower name ∈ reservedTypeNames := by
  simp [isReservedTypeName, reservedTypeNames]

theorem lower_append (s t : String) : lower (s ++ t) = lower s ++ lower t := by
  apply String.toList_inj.mp
  simp [lower]

theorem lower_toString (n : Nat) : lower (toString n) = toString n := by
  apply String.toList_inj.mp
  rw [lower, String.toList_map]
  refine (List.map_congr_left fun c hc => ?_).trans (List.map_id _)
  have hdigit := isDigit_of_mem_toString hc
  have halpha := isAlpha_eq_false_of_isDigit hdigit
  rw [isAlpha_eq, Bool.or_eq_false_iff] at halpha
  rw [lowerChar, if_neg, toLower_eq_self halpha.1, id]
  rintro rfl
  exact absurd hdigit (by decide)

theorem append_not_reserved {name suffix : String}
    (h : ∀ w ∈ reservedTypeNames, ¬(lower suffix).toList <:+ w.toList) :
    lower (name ++ suffix) ∉ reservedTypeNames := by
  rw [lower_append]
  exact append_not_mem h

theorem numbered_not_reserved (name : String) (n : Nat) :
    lower (name ++ toString n) ∉ reservedTypeNames := by
  rw [lower_append, lower_toString]
  exact numbered_not_mem (by decide +kernel) _ n

theorem safeTypeName_not_reserved (name : String) :
    lower (safeTypeName name) ∉ reservedTypeNames := by
  rw [safeTypeName]
  split
  · exact append_not_reserved (by decide +kernel)
  · rename_i h
    rw [Bool.or_eq_true, not_or] at h
    exact isReservedTypeName_iff.not.mp h.1

theorem reserved_keptByNaming (g : ClassGraph) (p : String) :
    KeptByNaming g p (lower · ∉ reservedTypeNames) where
  container _ := safeTypeName_not_reserved _
  record _ _ := safeTypeName_not_reserved _
  interface _ _ := safeTypeName_not_reserved _
  numbered n _ := numbered_not_reserved _ n
  implementing _ := append_not_reserved (by decide +kernel)

/-! ## No small letters first -/

/-- A name that does not begin with a small letter. -/
def NoSmallStart (name : String) : Prop :=
  ∀ c ∈ name.toList.head?, c.isLower = false

instance (name : String) : Decidable (NoSmallStart name) :=
  decidable_of_iff (name.toList.head?.all (!·.isLower) = true) <| by
    simp [NoSmallStart, Option.all_eq_true]

theorem NoSmallStart.append {s t : String} (hs : NoSmallStart s) (ht : NoSmallStart t) :
    NoSmallStart (s ++ t) := by
  intro c hc
  rw [String.toList_append, List.head?_append, Option.mem_def, Option.or_eq_some_iff] at hc
  rcases hc with hc | ⟨-, hc⟩
  · exact hs c hc
  · exact ht c hc

theorem isLower_eq_false_of_isDigit {c : Char} (h : c.isDigit = true) : c.isLower = false :=
  (Bool.or_eq_false_iff.mp (isAlpha_eq_false_of_isDigit h)).2

theorem noSmallStart_toString (n : Nat) : NoSmallStart (toString n) := fun _ hc =>
  isLower_eq_false_of_isDigit (isDigit_of_mem_toString (List.mem_of_mem_head? hc))

theorem noSmallStart_pascalCase (s : String) : NoSmallStart (pascalCase s) := by
  rw [NoSmallStart, pascalCase, String.toList_ofList]
  induction s.toList with
  | nil => simp [capitalized]
  | cons d ds ih =>
      rw [capitalized]
      split
      · rename_i hlower
        intro c hc
        obtain rfl := Option.some.inj hc
        exact isLower_eq_false_of_isUpper (isUpper_toUpper hlower)
      · split
        · rename_i hupper
          intro c hc
          obtain rfl := Option.some.inj hc
          exact isLower_eq_false_of_isUpper hupper
        · split
          · rename_i hdigit
            simpa using isLower_eq_false_of_isDigit hdigit
          · exact ih

theorem noSmallStart_keptInContainers : KeptInContainers NoSmallStart where
  container m := by
    rw [safeTypeName]
    split
    · exact (noSmallStart_pascalCase m).append (by decide)
    · exact noSmallStart_pascalCase m
  numbered n hname := hname.append (noSmallStart_toString n)

end RecordGen

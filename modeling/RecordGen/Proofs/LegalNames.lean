import RecordGen.Proofs.JavaCapture
import RecordGen.Proofs.NameClaims

/-! # Which names of types are legal

A name must be a name of the grammar in both targets and none of the words that a target keeps for
itself. Naming escapes reserved words, but four words that only types cannot have are not among
them; the name of a module may hold no letter to begin with; a line feed may end the name of a
class; and Unicode lets the prefix of interfaces hold characters that Java does not know. All other
names are legal. -/

namespace RecordGen

open Text

/-! ## Legal names -/

namespace Java

/-- Words that are names, but not of types. -/
def restrictedNames : List String :=
  ["permits", "record", "sealed", "var", "yield"]

/-- Characters that Unicode lets open identifiers by exception. Java makes no exceptions. -/
def exceptionalStarts : List Char :=
  ['\u1885', '\u1886', '\u2118', '\u212E']

/-- Characters that Unicode lets continue identifiers by exception. -/
def exceptionalParts : List Char :=
  ['\u00B7', '\u0387', '\u1369', '\u136A', '\u136B', '\u136C', '\u136D', '\u136E', '\u136F',
   '\u1370', '\u1371', '\u19DA', '\u2118', '\u212E']

/-- Java knows more signs of currencies and none of the exceptions. No other character that begins a
name of Unicode differs. -/
def isIdentifierStart (c : Char) : Bool :=
  c == '$' || Text.isIdentifierStart c && c ∉ exceptionalStarts

def isIdentifierPart (c : Char) : Bool :=
  c == '$' || Text.isIdentifierPart c && c ∉ exceptionalParts

def isIdentifier (s : String) : Bool :=
  isWord isIdentifierStart isIdentifierPart s.toList

end Java

/-- A name that types can have in both targets. -/
def isLegalTypeName (name : String) : Bool :=
  Java.isIdentifier name && name ∉ Java.reservedWords && name ∉ Java.restrictedNames &&
    Python.isIdentifier name && name ∉ Python.keywords

/-- Of the letters and digits of a text, a letter is the first. -/
def opensWithLetter (s : String) : Bool :=
  (s.toList.find? Char.isAlphanum).any Char.isAlpha

/-! ## Words -/

section Words

variable {start rest : Char → Bool} {s t : List Char}

theorem isWord_append (hs : s ≠ []) :
    isWord start rest (s ++ t) = (isWord start rest s && t.all rest) := by
  cases s with
  | nil => exact absurd rfl hs
  | cons c cs => simp [isWord, Bool.and_assoc]

theorem isWord_and (start rest start' rest' : Char → Bool) (s : List Char) :
    isWord (fun c => start c && start' c) (fun c => rest c && rest' c) s =
      (isWord start rest s && isWord start' rest' s) := by
  cases s with
  | nil => rfl
  | cons c cs =>
      have hall : cs.all (fun c => rest c && rest' c) = (cs.all rest && cs.all rest') := by
        induction cs with
        | nil => rfl
        | cons d ds ih => simp [ih, Bool.and_assoc, Bool.and_left_comm]
      simp [isWord, hall, Bool.and_assoc, Bool.and_left_comm]

end Words

/-- What opens a name in both targets. -/
def opensName (c : Char) : Bool :=
  Text.isIdentifierStart c && c ∉ Java.exceptionalStarts

/-- What continues a name in both targets. -/
def continuesName (c : Char) : Bool :=
  Text.isIdentifierPart c && c ∉ Java.exceptionalParts

theorem python_isIdentifier_eq (name : String) : Python.isIdentifier name =
    isWord Text.isIdentifierStart Text.isIdentifierPart name.toList := by
  rw [Python.isIdentifier]
  cases name.toList <;> rfl

/-- The names of both grammars. -/
theorem isIdentifier_both (name : String) : (Java.isIdentifier name && Python.isIdentifier name) =
    isWord opensName continuesName name.toList := by
  have hshared : ∀ (f : Char → Bool) (exceptions : List Char), f '$' = false →
      (fun c => (c == '$' || f c && c ∉ exceptions) && f c) = fun c => f c && c ∉ exceptions := by
    intro f exceptions hdollar
    funext c
    by_cases hc : c = '$'
    · simp [hc, hdollar]
    · cases hf : f c <;> simp [hc]
  have hdollar : Text.isIdentifierStart '$' = false ∧ Text.isIdentifierPart '$' = false := by
    decide +kernel
  rw [Java.isIdentifier, python_isIdentifier_eq, ← isWord_and]
  congr 1
  · exact hshared _ _ hdollar.1
  · exact hshared _ _ hdollar.2

theorem isLegalTypeName_iff {name : String} : isLegalTypeName name = true ↔
    isWord opensName continuesName name.toList = true ∧ name ∉ Java.reservedWords ∧
      name ∉ Java.restrictedNames ∧ name ∉ Python.keywords := by
  rw [← isIdentifier_both]
  simp only [isLegalTypeName, Bool.and_eq_true, decide_eq_true_eq]
  tauto

/-! ## Names of the schema -/

/-- The ASCII characters of names are letters, digits and underscores. -/
theorem ascii_names : ∀ n < 128, opensName (Char.ofNat n) = opensIdentifier (Char.ofNat n) ∧
    continuesName (Char.ofNat n) = continuesIdentifier (Char.ofNat n) := by
  decide +kernel

theorem opensName_eq {c : Char} (h : c.toNat < 128) : opensName c = opensIdentifier c := by
  simpa using (ascii_names _ h).1

theorem continuesName_eq {c : Char} (h : c.toNat < 128) :
    continuesName c = continuesIdentifier c := by
  simpa using (ascii_names _ h).2

theorem continuesName_of_isAlphanum {c : Char} (h : c.isAlphanum = true) :
    continuesName c = true := by
  rw [continuesName_eq (toNat_lt_of_isAlphanum h), continuesIdentifier, h, Bool.true_or]

theorem opensName_of_isAlphanum {c : Char} (h : c.isAlphanum = true) :
    opensName c = c.isAlpha := by
  rw [opensName_eq (toNat_lt_of_isAlphanum h), opensIdentifier]
  by_cases hc : c = '_'
  · subst hc
    exact absurd h (by decide)
  · simp [hc]

theorem toNat_lt_of_continuesIdentifier {c : Char} (h : continuesIdentifier c = true) :
    c.toNat < 128 := by
  rw [continuesIdentifier, Bool.or_eq_true, beq_iff_eq] at h
  rcases h with h | rfl
  · exact toNat_lt_of_isAlphanum h
  · decide

theorem continuesName_of_continues {c : Char} (h : continuesIdentifier c = true) :
    continuesName c = true := by
  rwa [continuesName_eq (toNat_lt_of_continuesIdentifier h)]

theorem continuesIdentifier_of_opens {c : Char} (h : opensIdentifier c = true) :
    continuesIdentifier c = true := by
  rw [opensIdentifier, Bool.or_eq_true] at h
  rw [continuesIdentifier, Char.isAlphanum, Bool.or_eq_true, Bool.or_eq_true]
  exact h.imp_left Or.inl

theorem opensName_of_opens {c : Char} (h : opensIdentifier c = true) : opensName c = true := by
  rwa [opensName_eq (toNat_lt_of_continuesIdentifier (continuesIdentifier_of_opens h))]

/-- Without a line feed after it, a name of the schema is one word. -/
theorem word_of_isSchemaName {name : String} (h : isSchemaName name = true)
    (hends : ¬Java.EndsLine name) :
    isWord opensIdentifier continuesIdentifier name.toList = true := by
  have hlast : name.toList.getLast? ≠ some '\n' := hends
  rwa [isSchemaName, dropFinalNewline, if_neg hlast] at h

/-- Nothing in a name of the targets ends a line. -/
theorem not_endsLine {name : String}
    (h : ∀ c ∈ name.toList, opensName c = true ∨ continuesName c = true) :
    ¬Java.EndsLine name := by
  intro hends
  exact absurd (h _ (List.mem_of_getLast? hends)) (by decide +kernel)

/-- A name of the schema is a name in both targets exactly if no line feed ends it. -/
theorem isWord_schemaName_iff {name : String} (h : isSchemaName name = true) :
    isWord opensName continuesName name.toList = true ↔ ¬Java.EndsLine name := by
  cases hs : name.toList with
  | nil =>
      rw [isSchemaName, dropFinalNewline, hs] at h
      cases h
  | cons c cs =>
      rw [isWord, Bool.and_eq_true, List.all_eq_true]
      constructor
      · rintro ⟨hc, hcs⟩
        refine not_endsLine ?_
        rw [hs]
        exact List.forall_mem_cons.mpr ⟨Or.inl hc, fun d hd => Or.inr (hcs d hd)⟩
      · intro hends
        have hword := word_of_isSchemaName h hends
        rw [hs, isWord, Bool.and_eq_true, List.all_eq_true] at hword
        exact ⟨opensName_of_opens hword.1, fun d hd => continuesName_of_continues (hword.2 d hd)⟩

/-- It continues another name under the same condition. -/
theorem all_continuesName_iff {name : String} (h : isSchemaName name = true) :
    name.toList.all continuesName = true ↔ ¬Java.EndsLine name := by
  rw [List.all_eq_true]
  refine ⟨fun hall => not_endsLine fun d hd => Or.inr (hall d hd), fun hends => ?_⟩
  have hword := word_of_isSchemaName h hends
  cases hs : name.toList with
  | nil => simp
  | cons c cs =>
      rw [hs, isWord, Bool.and_eq_true, List.all_eq_true] at hword
      exact List.forall_mem_cons.mpr
        ⟨continuesName_of_continues (continuesIdentifier_of_opens hword.1),
          fun d hd => continuesName_of_continues (hword.2 d hd)⟩

/-! ## Letters and digits -/

/-- A name of letters and digits; `letter` says whether a letter opens it. -/
structure Plain (letter : Bool) (name : String) : Prop where
  alphanum : ∀ c ∈ name.toList, c.isAlphanum = true
  head : name.toList.head?.any Char.isAlpha = letter

theorem head_capitalized (s : List Char) (afterLetter : Bool) :
    (capitalized afterLetter s).head?.any Char.isAlpha =
      (s.find? Char.isAlphanum).any Char.isAlpha := by
  induction s generalizing afterLetter with
  | nil => simp [capitalized]
  | cons c cs ih =>
      rw [capitalized, List.find?_cons]
      by_cases hlower : c.isLower = true
      · cases afterLetter with
        | false =>
            have hupper : c.toUpper.isAlpha = true := by
              rw [isAlpha_eq, isUpper_toUpper hlower, Bool.true_or]
            simp only [hlower, hupper, if_true, if_false, Bool.false_eq_true, List.head?_cons,
              Option.any_some, Char.isAlphanum, isAlpha_eq, Bool.or_true, Bool.true_or]
        | true => simp [hlower, Char.isAlphanum, isAlpha_eq]
      · by_cases hupper : c.isUpper = true
        · simp [hlower, hupper, Char.isAlphanum, isAlpha_eq]
        · by_cases hdigit : c.isDigit = true
          · simp [hlower, hupper, hdigit, Char.isAlphanum, isAlpha_eq]
          · simp [hlower, hupper, hdigit, Char.isAlphanum, isAlpha_eq, ih]

namespace Plain

variable {letter : Bool} {name : String}

theorem pascalCase (s : String) : Plain (opensWithLetter s) (pascalCase s) where
  alphanum c hc := by
    rw [Text.pascalCase, String.toList_ofList] at hc
    exact mem_capitalized hc
  head := by
    rw [Text.pascalCase, String.toList_ofList]
    exact head_capitalized s.toList false

/-- What stands first counts, so a digit may follow a name without one. -/
theorem append (h : Plain letter name) {t : String}
    (ht : ∀ c ∈ t.toList, c.isAlphanum = true)
    (hempty : name = "" → t.toList.head?.any Char.isAlpha = false) :
    Plain letter (name ++ t) where
  alphanum c hc := by
    rw [String.toList_append] at hc
    exact (List.mem_append.mp hc).elim (h.alphanum c) (ht c)
  head := by
    rw [String.toList_append, List.head?_append, ← h.head]
    cases hs : name.toList with
    | nil => simpa [hs] using hempty (String.toList_eq_nil_iff.mp hs)
    | cons c cs => rfl

theorem numbered (h : Plain letter name) (n : Nat) : Plain letter (name ++ toString n) := by
  refine h.append (fun c hc => ?_) fun _ => ?_
  · rw [Char.isAlphanum, isDigit_of_mem_toString hc, Bool.or_true]
  · cases hs : (toString n).toList with
    | nil => rfl
    | cons c cs =>
        exact isAlpha_eq_false_of_isDigit (isDigit_of_mem_toString (hs ▸ List.mem_cons_self))

theorem safe (h : Plain letter name) : Plain letter (safeTypeName name) := by
  rw [safeTypeName]
  split
  · rename_i hname
    refine h.append (List.all_eq_true.mp (by decide)) fun hempty => ?_
    rw [hempty] at hname
    exact absurd hname (by decide +kernel)
  · exact h

theorem firstFree (h : Plain letter name) {taken : List String} {given : String}
    (hfree : IsFirstFree taken name given) : Plain letter given := by
  rcases hfree.exists_append with rfl | ⟨k, rfl⟩
  · exact h
  · exact h.numbered k

/-- A letter opens it, or else it is no name. -/
theorem isWord_eq (h : Plain letter name) :
    isWord opensName continuesName name.toList = letter := by
  rw [← h.head]
  have halphanum := h.alphanum
  cases hs : name.toList with
  | nil => rfl
  | cons c cs =>
      rw [hs, List.forall_mem_cons] at halphanum
      have hcs : cs.all continuesName = true :=
        List.all_eq_true.mpr fun d hd => continuesName_of_isAlphanum (halphanum.2 d hd)
      simp [isWord, hcs, opensName_of_isAlphanum halphanum.1]

end Plain

/-! ## Escaped and numbered names -/

/-- Naming appends to names, so what is no name remains none. -/
theorem isWord_safeTypeName {name : String} (h : name ≠ "") :
    isWord opensName continuesName (safeTypeName name).toList =
      isWord opensName continuesName name.toList := by
  rw [safeTypeName]
  split
  · have htype : "Type".toList.all continuesName = true := by decide +kernel
    rw [String.toList_append, isWord_append (String.toList_eq_nil_iff.not.mpr h), htype,
      Bool.and_true]
  · rfl

theorem isWord_firstFree {taken : List String} {base name : String} (h : base ≠ "")
    (hfree : IsFirstFree taken base name) :
    isWord opensName continuesName name.toList = isWord opensName continuesName base.toList := by
  rcases hfree.exists_append with rfl | ⟨k, rfl⟩
  · rfl
  · have hdigits : (toString k).toList.all continuesName = true :=
      List.all_eq_true.mpr fun c hc => continuesName_of_isAlphanum (by
        rw [Char.isAlphanum, isDigit_of_mem_toString hc, Bool.or_true])
    rw [String.toList_append, isWord_append (String.toList_eq_nil_iff.not.mpr h), hdigits,
      Bool.and_true]

theorem safeTypeName_ne_empty {name : String} (h : name ≠ "") : safeTypeName name ≠ "" := by
  rw [safeTypeName]
  split <;> simp [h]

/-- A restricted word is neither escaped nor numbered. -/
theorem eq_stem_of_restricted {taken : List String} {stem name : String}
    (hfree : IsFirstFree taken (safeTypeName stem) name) (h : name ∈ Java.restrictedNames) :
    name = stem := by
  rcases hfree.exists_append with rfl | ⟨k, rfl⟩
  · rw [safeTypeName] at h ⊢
    split at h
    · exact absurd h (append_not_mem (by decide))
    · rename_i hsafe
      rw [if_neg hsafe]
  · exact absurd h (numbered_not_mem (by decide) _ k)

/-- No name of a type is a reserved word. -/
theorem not_mem_words {name : String} (h : lower name ∉ reservedTypeNames) :
    name ∉ Java.reservedWords ∧ name ∉ Python.keywords := by
  rw [reservedTypeNames, List.mem_append, not_or] at h
  refine ⟨fun hmem => h.1 ?_, fun hmem => h.2 (List.mem_map_of_mem hmem)⟩
  have hlower : ∀ w ∈ Java.reservedWords, lower w = w := by decide +kernel
  rwa [hlower _ hmem]

/-- Restricted words begin with a small letter. -/
theorem not_restricted {name : String} (h : NoSmallStart name) : name ∉ Java.restrictedNames := by
  have hsmall : ∀ w ∈ Java.restrictedNames, ¬NoSmallStart w := by decide
  exact fun hmem => hsmall _ hmem h

namespace Naming

open ClassGraph

variable {p : String} {g : ClassGraph}

/-! ## What naming a graph promises -/

/-- Which names of a graph are legal. A module needs a letter before its digits; the name of a class
must not end a line; a prefix of interfaces must be a name for Java as well; and no class must be
called by a restricted word, or get it together with the prefix. -/
structure Legal (n : Naming) (p : String) (g : ClassGraph) : Prop where
  containers : ∀ m ∈ g.modules, ∃ container, n.containers.find? (g.decl m).name = some container ∧
    (isLegalTypeName container = true ↔ opensWithLetter (g.decl m).name = true)
  own : ∀ {s m t}, m ∈ g.modules → (n.at s).find? m = some t →
    (isLegalTypeName t.name = true ↔
      opensWithLetter (g.decl m).name = true ∨ (t.container = "" ∧ t.isModuleType = false))
  classes : ∀ {s c t}, (g.decl c).isModule = false → (n.at s).find? c = some t →
    (isLegalTypeName t.name = true ↔ ¬Java.EndsLine (g.decl c).name ∧
      (s = .interface → p = "" ∨ Java.isIdentifier p = true) ∧
      (stem p g s c ∈ Java.restrictedNames → t.name ≠ stem p g s c))

theorem plain_container (h : g.Nameable) {m : ClassId} {container : String}
    (hm : (m, container) ∈ housing g) :
    Plain (opensWithLetter (g.decl m).name) container := by
  obtain ⟨pre, post, hsplit⟩ := List.append_of_mem (mem_modules_of_mem_housing hm)
  obtain ⟨name, hname, hfree⟩ := isFirstFree_of_claimAll (containers_names (p := "") h) hsplit
  have hfind := (ofGraph_container_find? (p := "") h.names_nodup).mpr ⟨m, hm, rfl⟩
  obtain rfl := Option.some.inj (hname.symm.trans hfind)
  exact ((Plain.pascalCase _).safe).firstFree hfree

/-- Of a plain name without a small letter first, only the first character counts. -/
theorem isLegalTypeName_of_plain {letter : Bool} {name : String} (h : Plain letter name)
    (hreserved : lower name ∉ reservedTypeNames) (hsmall : NoSmallStart name) :
    isLegalTypeName name = letter := by
  obtain ⟨hjava, hpython⟩ := not_mem_words hreserved
  rw [Bool.eq_iff_iff, isLegalTypeName_iff, h.isWord_eq]
  exact ⟨fun hlegal => hlegal.1, fun hletter => ⟨hletter, hjava, not_restricted hsmall, hpython⟩⟩

theorem container_legal (h : g.Nameable) {m : ClassId} {container : String}
    (hm : (m, container) ∈ housing g) :
    isLegalTypeName container = opensWithLetter (g.decl m).name :=
  isLegalTypeName_of_plain (plain_container h hm)
    ((reserved_keptByNaming g "").housing hm) (noSmallStart_keptInContainers.housing hm)

/-- The record beside the interface that a container is. -/
theorem implementing_legal (h : g.Nameable) {m : ClassId} {container name : String}
    {taken : List String} (hm : (m, container) ∈ housing g)
    (hfree : IsFirstFree taken (container ++ "Impl") name)
    (hreserved : lower name ∉ reservedTypeNames) :
    isLegalTypeName name = true ↔ opensWithLetter (g.decl m).name = true ∨ container = "" := by
  have hsmall : NoSmallStart (container ++ "Impl") :=
    (noSmallStart_keptInContainers.housing hm).append (by decide)
  have hname : NoSmallStart name := by
    rcases hfree.exists_append with rfl | ⟨k, rfl⟩
    · exact hsmall
    · exact hsmall.append (noSmallStart_toString k)
  by_cases hempty : container = ""
  · subst hempty
    have hplain : Plain true ("" ++ "Impl") := ⟨List.all_eq_true.mp (by decide), by decide⟩
    simp [isLegalTypeName_of_plain (hplain.firstFree hfree) hreserved hname]
  · have hplain := (plain_container h hm).append (t := "Impl") (List.all_eq_true.mp (by decide))
      fun heq => absurd heq hempty
    simp [isLegalTypeName_of_plain (hplain.firstFree hfree) hreserved hname, hempty]

theorem own_legal (h : g.Nameable) {s : Slot} {m : ClassId} {t : TypePath} (hm : m ∈ g.modules)
    (ht : ((ofGraph p g).at s).find? m = some t) : isLegalTypeName t.name = true ↔
      opensWithLetter (g.decl m).name = true ∨ (t.container = "" ∧ t.isModuleType = false) := by
  cases hown : t.isModuleType with
  | true =>
      have heq : t.name = t.container := by simpa [TypePath.isModuleType] using hown
      rw [heq, container_legal h (mem_housing_of_isModuleType h ht hown)]
      simp
  | false =>
      obtain ⟨hhoused, _, hfree⟩ := claimed_own h (h.modules_are m hm) ht hown
      simpa using implementing_legal h hhoused hfree ((reserved_keptByNaming g p).typePath ht).1

/-- The stem of a type's name is a name in both targets if it is one in Java. -/
theorem stem_legal (h : g.Linked) (hp : Config.acceptsPrefix p = true) {s : Slot} {c : ClassId}
    (hc : c ∈ g.classes) : isWord opensName continuesName (stem p g s c).toList = true ↔
      ¬Java.EndsLine (g.decl c).name ∧ (s = .interface → p = "" ∨ Java.isIdentifier p = true) := by
  cases s with
  | record => simp [stem, isWord_schemaName_iff (h.named c hc)]
  | interface =>
      by_cases hempty : p = ""
      · simp [stem, hempty, isWord_schemaName_iff (h.named c hc)]
      · have hpython : Python.isIdentifier p = true := by
          simp only [Config.acceptsPrefix, Bool.or_eq_true, Bool.and_eq_true,
            String.isEmpty_iff] at hp
          exact (hp.resolve_left hempty).1
        rw [stem, String.toList_append, isWord_append (String.toList_eq_nil_iff.not.mpr hempty),
          Bool.and_eq_true, all_continuesName_iff (h.named c hc), ← isIdentifier_both, hpython]
        simp [hempty, and_comm]

theorem stem_ne_empty (h : g.Linked) {s : Slot} {c : ClassId} (hc : c ∈ g.classes) :
    stem p g s c ≠ "" := by
  have hne : (g.decl c).name ≠ "" := by
    intro heq
    exact absurd (h.named c hc) (by rw [heq]; decide)
  cases s <;> simp [stem, hne]

theorem class_legal (h : g.Linked) (hp : Config.acceptsPrefix p = true) {s : Slot} {c : ClassId}
    {t : TypePath} (hmodule : (g.decl c).isModule = false)
    (ht : ((ofGraph p g).at s).find? c = some t) :
    isLegalTypeName t.name = true ↔ ¬Java.EndsLine (g.decl c).name ∧
      (s = .interface → p = "" ∨ Java.isIdentifier p = true) ∧
      (stem p g s c ∈ Java.restrictedNames → t.name ≠ stem p g s c) := by
  obtain ⟨hc, _, hfree, -⟩ := claimed_class h.nameable hmodule ht
  have hstem := stem_ne_empty (p := p) h (s := s) hc
  obtain ⟨hjava, hpython⟩ := not_mem_words ((reserved_keptByNaming g p).typePath ht).1
  rw [isLegalTypeName_iff, isWord_firstFree (safeTypeName_ne_empty hstem) hfree,
    isWord_safeTypeName hstem, stem_legal h hp hc, and_assoc]
  refine and_congr_right fun _ => and_congr_right fun _ => ?_
  constructor
  · rintro ⟨-, hfine, -⟩ hstem heq
    exact hfine (heq ▸ hstem)
  · intro hfine
    refine ⟨hjava, fun hmem => ?_, hpython⟩
    have heq := eq_stem_of_restricted hfree hmem
    exact hfine (heq ▸ hmem) heq

/-- The names of a loaded document are legal but for these exceptions. -/
theorem ofGraph_legal {doc : Json} {g : ClassGraph} {config : Config}
    (hload : Document.load doc = .ok g) (hvalidate : config.validate = .ok ()) :
    (ofGraph config.interfacePrefix g).Legal config.interfacePrefix g where
  containers m hm := by
    have hg := (Document.load_linked hload).nameable
    rw [← housing_map_fst g] at hm
    obtain ⟨⟨m, container⟩, hhoused, rfl⟩ := List.mem_map.mp hm
    exact ⟨container, (ofGraph_container_find? hg.names_nodup).mpr ⟨m, hhoused, rfl⟩,
      Bool.eq_iff_iff.mp (container_legal hg hhoused)⟩
  own hm ht := own_legal (Document.load_linked hload).nameable hm ht
  classes hmodule ht :=
    class_legal (Document.load_linked hload) (acceptsPrefix_of_validate hvalidate) hmodule ht

end Naming

/-- Two modules without a letter before their digits, and classes called by a restricted word and
with a line feed at the end. -/
def Document.odd : Json :=
  .object [("modules", .list [
    .object [("name", .text "_")],
    .object [("name", .text "_1"), ("kind", .text "open")],
    .object [("name", .text "m"), ("classes", .list [
      .object [("name", .text "record")],
      .object [("name", .text "A\n")],
      .object [("name", .text "B"), ("kind", .text "open")]])]])]

namespace Naming

theorem ofGraph_legal_odd : ∃ g, Document.load Document.odd = .ok g ∧
    ({ interfacePrefix := "_" } : Config).validate = .ok () ∧
    (ofGraph "_" g).Legal "_" g := by
  have hok : (Document.load Document.odd).isOk = true := by decide +kernel
  obtain ⟨g, hload⟩ := Fallible.exists_ok hok
  have hvalidate : ({ interfacePrefix := "_" } : Config).validate = .ok () := by decide +kernel
  exact ⟨g, hload, hvalidate,
    @ofGraph_legal _ g { interfacePrefix := "_" } hload hvalidate⟩

/-- Two containers, two records and, with a prefix that only Unicode takes for a name, an interface
of this document have no legal names. -/
theorem odd_illegal : ({ interfacePrefix := "\u2118" } : Config).validate = .ok () ∧
    ∃ g, Document.load Document.odd = .ok g ∧
      let n := ofGraph "\u2118" g
      n.containers.find? "_" = some "" ∧ isLegalTypeName "" = false ∧
      n.containers.find? "_1" = some "1" ∧ isLegalTypeName "1" = false ∧
      n.records.find? 3 = some ⟨"record", "M"⟩ ∧ isLegalTypeName "record" = false ∧
      n.records.find? 4 = some ⟨"A\n", "M"⟩ ∧ isLegalTypeName "A\n" = false ∧
      n.interfaces.find? 5 = some ⟨"\u2118B", "M"⟩ ∧ isLegalTypeName "\u2118B" = false := by
  refine ⟨by decide +kernel, Fallible.exists_ok_and ?_⟩
  decide +kernel

end Naming

end RecordGen

import RecordGen.Config
import RecordGen.Proofs.Fallible
import RecordGen.Text.Blank

/-! # Which configurations are accepted

Dotted names go into sources as they are, so a configuration should be accepted only if each of them
is a sequence of identifiers on one line. The check lets a line feed pass at the end of every
identifier, also after a reserved word, and nothing else. -/

namespace RecordGen

open Fallible

/-! ## ASCII characters -/

theorem isUpper_iff {c : Char} : c.isUpper = true ↔ 65 ≤ c.toNat ∧ c.toNat ≤ 90 :=
  decide_eq_true_iff

theorem isLower_iff {c : Char} : c.isLower = true ↔ 97 ≤ c.toNat ∧ c.toNat ≤ 122 := by
  change (decide (97 ≤ c.toNat) && decide (c.toNat ≤ 122)) = true ↔ _
  rw [Bool.and_eq_true, decide_eq_true_iff, decide_eq_true_iff]

theorem isDigit_iff {c : Char} : c.isDigit = true ↔ 48 ≤ c.toNat ∧ c.toNat ≤ 57 := by
  change (decide (48 ≤ c.toNat) && decide (c.toNat ≤ 57)) = true ↔ _
  rw [Bool.and_eq_true, decide_eq_true_iff, decide_eq_true_iff]

theorem isAlpha_eq (c : Char) : c.isAlpha = (c.isUpper || c.isLower) := rfl

theorem isAlpha_eq_false_of_isDigit {c : Char} (h : c.isDigit = true) : c.isAlpha = false := by
  rw [Bool.eq_false_iff, isAlpha_eq, Ne, Bool.or_eq_true, isUpper_iff, isLower_iff]
  rw [isDigit_iff] at h
  omega

theorem toNat_lt_of_isAlphanum {c : Char} (h : c.isAlphanum = true) : c.toNat < 128 := by
  simp only [Char.isAlphanum, isAlpha_eq, Bool.or_eq_true, isUpper_iff, isLower_iff,
    isDigit_iff] at h
  omega

/-! ## Dotted names -/

namespace Java

/-- An identifier of ASCII letters, digits, underscores and dollar signs. -/
structure IsPart (part : String) : Prop where
  ne_empty : part ≠ ""
  chars : ∀ c ∈ part.toList, c.isAlphanum = true ∨ c = '_' ∨ c = '$'
  opening : ∀ c ∈ part.toList.head?, c.isDigit = false

/-- An identifier that is no reserved word. -/
def IsProper (part : String) : Prop :=
  IsPart part ∧ part ∉ reservedWords

/-- What passes for an identifier: a proper one, or any with a line feed after it. -/
def IsAdmitted (part : String) : Prop :=
  IsProper part ∨ ∃ name, IsPart name ∧ part = name ++ "\n"

/-- A text of parts with single points between them. -/
def IsDotted (isPart : String → Prop) (least : Nat) (s : String) : Prop :=
  ∃ parts : List String, least ≤ parts.length ∧ s = ".".intercalate parts ∧
    ∀ part ∈ parts, isPart part

/-- Nothing in the text ends a line. -/
def OnOneLine (s : String) : Prop :=
  ∀ c ∈ s.toList, Text.isLineEnd c = false

instance (s : String) : Decidable (OnOneLine s) :=
  decidable_of_iff (s.toList.all (!Text.isLineEnd ·) = true) <| by simp [OnOneLine]

/-- What identifiers and dotted names are made of is neither white space nor a point. -/
theorem inert_of_isPart {part : String} (h : IsPart part) :
    ∀ c ∈ part.toList, c ≠ '.' ∧ Text.isLineEnd c = false := by
  have hwords : ∀ n < 128, (Char.ofNat n).isAlphanum = true →
      Char.ofNat n ≠ '.' ∧ Text.isLineEnd (Char.ofNat n) = false := by
    decide +kernel
  intro c hc
  rcases h.chars c hc with hword | rfl | rfl
  · simpa using hwords c.toNat (toNat_lt_of_isAlphanum hword) (by simpa using hword)
  · decide
  · decide

theorem isWord_iff {part : String} : Text.isWord (fun c => Text.opensIdentifier c || c == '$')
    (fun c => Text.continuesIdentifier c || c == '$') part.toList = true ↔ IsPart part := by
  have hopens : ∀ c : Char, (Text.opensIdentifier c || c == '$') = true ↔
      (c.isAlphanum = true ∨ c = '_' ∨ c = '$') ∧ c.isDigit = false := by
    intro c
    by_cases hdigit : c.isDigit = true
    · have hsign : c ≠ '_' ∧ c ≠ '$' := by
        constructor <;> (rintro rfl; exact absurd hdigit (by decide))
      simp [Text.opensIdentifier, isAlpha_eq_false_of_isDigit hdigit, hdigit, hsign]
    · simp [Text.opensIdentifier, Char.isAlphanum, hdigit, or_assoc]
  have hcontinues : ∀ c : Char, (Text.continuesIdentifier c || c == '$') = true ↔
      c.isAlphanum = true ∨ c = '_' ∨ c = '$' := by
    intro c
    simp [Text.continuesIdentifier, or_assoc]
  have hparts : IsPart part ↔ part.toList ≠ [] ∧
      (∀ c ∈ part.toList, c.isAlphanum = true ∨ c = '_' ∨ c = '$') ∧
        ∀ c ∈ part.toList.head?, c.isDigit = false := by
    rw [Ne, String.toList_eq_nil_iff]
    exact ⟨fun h => ⟨h.ne_empty, h.chars, h.opening⟩, fun h => ⟨h.1, h.2.1, h.2.2⟩⟩
  rw [hparts]
  cases part.toList with
  | nil => simp [Text.isWord]
  | cons c cs =>
      rw [Text.isWord, Bool.and_eq_true, List.all_eq_true, hopens, List.forall_mem_cons,
        List.head?_cons]
      simp only [hcontinues, Option.mem_some_iff, forall_eq', ne_eq, reduceCtorEq,
        not_false_eq_true, true_and]
      exact and_right_comm

/-- The check of one part of a dotted name. -/
theorem isSegment_iff {part : String} : isSegment part.toList = true ↔ IsAdmitted part := by
  have hplain : ∀ {name : String}, IsPart name → '\n' ∉ name.toList := by
    intro name hname hmem
    exact absurd (inert_of_isPart hname _ hmem).2 (by decide)
  have hfeed : "\n".toList = ['\n'] := rfl
  rw [isSegment, Bool.and_eq_true, decide_eq_true_eq, String.ofList_toList, IsAdmitted]
  by_cases hends : part.toList.getLast? = some '\n'
  · -- What stands before the line feed is looked at alone, but compared with its line feed.
    obtain ⟨front, hfront⟩ := List.getLast?_eq_some_iff.mp hends
    have hpart : part = String.ofList front ++ "\n" := by
      rw [← String.toList_inj, String.toList_append, String.toList_ofList, hfront, hfeed]
    have hfree : part ∉ reservedWords := by
      have hwords : ∀ w ∈ reservedWords, '\n' ∉ w.toList := by decide +kernel
      intro hmem
      exact hwords _ hmem (List.mem_of_getLast? hends)
    have hdrop : Text.dropFinalNewline part.toList = (String.ofList front).toList := by
      rw [Text.dropFinalNewline, if_pos hends, hfront, List.dropLast_concat, String.toList_ofList]
    rw [hdrop, isWord_iff]
    constructor
    · exact fun h => Or.inr ⟨_, h.1, hpart⟩
    · rintro (h | ⟨name, hname, heq⟩)
      · exact absurd (List.mem_of_getLast? hends) (hplain h.1)
      · have hsame : String.ofList front = name :=
          String.append_left_inj _ |>.mp (hpart.symm.trans heq)
        exact ⟨hsame ▸ hname, hfree⟩
  · rw [Text.dropFinalNewline, if_neg hends, isWord_iff]
    constructor
    · exact Or.inl
    · rintro (h | ⟨name, -, rfl⟩)
      · exact h
      · exact absurd (by simp [hfeed]) hends

theorem IsAdmitted.not_mem_point {part : String} (h : IsAdmitted part) : '.' ∉ part.toList := by
  rcases h with h | ⟨name, hname, rfl⟩
  · exact fun hmem => (inert_of_isPart h.1 _ hmem).1 rfl
  · rw [String.toList_append, List.mem_append, not_or]
    exact ⟨fun hmem => (inert_of_isPart hname _ hmem).1 rfl, by decide⟩

/-- The check of a dotted name of one part or more. -/
theorem isQualifiedName_iff {least : Nat} (hleast : 0 < least) {s : String} :
    isQualifiedName least s = true ↔ IsDotted IsAdmitted least s := by
  have hpoint : ".".toList = ['.'] := rfl
  simp only [isQualifiedName, Bool.and_eq_true, decide_eq_true_eq, List.all_eq_true]
  constructor
  · rintro ⟨hlength, hsegments⟩
    refine ⟨(s.toList.splitOn '.').map String.ofList, by simpa using hlength, ?_, ?_⟩
    · rw [← String.toList_inj, String.toList_intercalate, hpoint, List.map_map]
      simp [Function.comp_def]
    · intro part hpart
      obtain ⟨segment, hsegment, rfl⟩ := List.mem_map.mp hpart
      rw [← isSegment_iff, String.toList_ofList]
      exact hsegments segment hsegment
  · rintro ⟨parts, hlength, rfl, hparts⟩
    have hsplit : (".".intercalate parts).toList.splitOn '.' = parts.map String.toList := by
      rw [String.toList_intercalate, hpoint, List.splitOn_intercalate]
      · simpa using fun part hpart => (hparts part hpart).not_mem_point
      · have hne : parts ≠ [] := List.ne_nil_of_length_pos (Nat.lt_of_lt_of_le hleast hlength)
        simpa using hne
    rw [hsplit, List.length_map]
    refine ⟨hlength, fun segment hsegment => ?_⟩
    obtain ⟨part, hpart, rfl⟩ := List.mem_map.mp hsegment
    exact isSegment_iff.mpr (hparts part hpart)

theorem onOneLine_append {s t : String} : OnOneLine (s ++ t) ↔ OnOneLine s ∧ OnOneLine t := by
  simp only [OnOneLine, String.toList_append, List.mem_append, or_imp, forall_and]

theorem onOneLine_intercalate {parts : List String} :
    OnOneLine (".".intercalate parts) ↔ ∀ part ∈ parts, OnOneLine part := by
  have hpoint : OnOneLine "." := by decide
  induction parts with
  | nil => simp [OnOneLine]
  | cons part parts ih =>
      cases parts with
      | nil => simp
      | cons part' parts =>
          rw [String.intercalate_cons_cons, onOneLine_append, onOneLine_append,
            List.forall_mem_cons, and_assoc]
          exact and_congr_right fun _ => (and_iff_right hpoint).trans ih

/-- The dotted names that should be accepted are those that are accepted and stay on one line. -/
theorem isDotted_proper_iff {least : Nat} {s : String} :
    IsDotted IsProper least s ↔ IsDotted IsAdmitted least s ∧ OnOneLine s := by
  constructor
  · rintro ⟨parts, hlength, rfl, hparts⟩
    refine ⟨⟨parts, hlength, rfl, fun part hpart => Or.inl (hparts part hpart)⟩, ?_⟩
    rw [onOneLine_intercalate]
    exact fun part hpart c hc => (inert_of_isPart (hparts part hpart).1 c hc).2
  · rintro ⟨⟨parts, hlength, rfl, hparts⟩, hline⟩
    rw [onOneLine_intercalate] at hline
    refine ⟨parts, hlength, rfl, fun part hpart => ?_⟩
    rcases hparts part hpart with h | ⟨name, -, rfl⟩
    · exact h
    · have hfeed := (onOneLine_append.mp (hline _ hpart)).2
      exact absurd hfeed (by decide)

end Java

/-! ## Configurations -/

namespace Config

/-- A configuration whose dotted names are made of such parts. The annotations need two parts at
least, a package one; without records nothing that needs them is on; and the prefix of interfaces is
empty or a name of Python. -/
structure WellFormed (isPart : String → Prop) (c : Config) : Prop where
  marker : ∀ m, c.nullabilityMarker = some m → Java.IsDotted isPart 2 m
  withers : c.records = false → c.withers = false
  builder : c.records = false → c.builder = false
  builderName : c.builder = true → Java.IsDotted isPart 2 c.builderName
  javaPackage : c.javaPackage = "" ∨ Java.IsDotted isPart 1 c.javaPackage
  interfacePrefix : c.interfacePrefix = "" ∨
    Python.isIdentifier c.interfacePrefix = true ∧ c.interfacePrefix ∉ Python.keywords

/-- The dotted names that go into sources. -/
def dottedNames (c : Config) : List String :=
  c.nullabilityMarker.toList ++ (if c.builder then [c.builderName] else []) ++
    if c.javaPackage.isEmpty then [] else [c.javaPackage]

theorem acceptsPrefix_iff {s : String} : acceptsPrefix s = true ↔
    s = "" ∨ Python.isIdentifier s = true ∧ s ∉ Python.keywords := by
  simp [acceptsPrefix]

/-- The guards of the check, one after the other. -/
theorem validate_eq_ok {c : Config} : c.validate = .ok () ↔
    (∀ m, c.nullabilityMarker = some m → Java.isQualifiedName 2 m = true) ∧
      (c.records = false → c.withers = false) ∧ (c.records = false → c.builder = false) ∧
        (c.builder = true → Java.isQualifiedName 2 c.builderName = true) ∧
          (c.javaPackage = "" ∨ Java.isQualifiedName 1 c.javaPackage = true) ∧
            acceptsPrefix c.interfacePrefix = true := by
  rw [or_iff_not_imp_left]
  cases hmarker : c.nullabilityMarker with
  | none =>
      simp only [validate, hmarker, throw_eq, error_bind, guard_eq_ok]
      simp
  | some m =>
      simp only [validate, hmarker, throw_eq, error_bind, guard_eq_ok]
      simp

theorem validate_eq_ok_iff {c : Config} : c.validate = .ok () ↔ c.WellFormed Java.IsAdmitted := by
  rw [validate_eq_ok]
  simp only [Java.isQualifiedName_iff (by decide : 0 < 2), Java.isQualifiedName_iff Nat.one_pos,
    acceptsPrefix_iff]
  exact ⟨fun ⟨h₁, h₂, h₃, h₄, h₅, h₆⟩ => ⟨h₁, h₂, h₃, h₄, h₅, h₆⟩,
    fun h => ⟨h.marker, h.withers, h.builder, h.builderName, h.javaPackage, h.interfacePrefix⟩⟩

theorem forall_mem_dottedNames {c : Config} {P : String → Prop} :
    (∀ s ∈ c.dottedNames, P s) ↔ (∀ m, c.nullabilityMarker = some m → P m) ∧
      (c.builder = true → P c.builderName) ∧ (c.javaPackage = "" ∨ P c.javaPackage) := by
  simp only [dottedNames, List.mem_append, or_imp, forall_and, and_assoc, Option.mem_toList]
  refine and_congr_right fun _ => and_congr ?_ ?_
  · cases c.builder <;> simp
  · rw [or_iff_not_imp_left]
    by_cases hempty : c.javaPackage = "" <;> simp [hempty]

/-- A configuration with proper dotted names is one that is accepted and has each on one line. -/
theorem wellFormed_proper_iff {c : Config} : c.WellFormed Java.IsProper ↔
    c.WellFormed Java.IsAdmitted ∧ ∀ s ∈ c.dottedNames, Java.OnOneLine s := by
  rw [forall_mem_dottedNames]
  constructor
  · intro h
    have hsplit {least s} : Java.IsDotted Java.IsProper least s → _ := Java.isDotted_proper_iff.mp
    exact ⟨{ marker := fun m hm => (hsplit (h.marker m hm)).1
             withers := h.withers
             builder := h.builder
             builderName := fun hb => (hsplit (h.builderName hb)).1
             javaPackage := h.javaPackage.imp_right fun hp => (hsplit hp).1
             interfacePrefix := h.interfacePrefix },
      fun m hm => (hsplit (h.marker m hm)).2, fun hb => (hsplit (h.builderName hb)).2,
      h.javaPackage.imp_right fun hp => (hsplit hp).2⟩
  · rintro ⟨h, hmarker, hbuilder, hpackage⟩
    have hjoin {least s} : Java.IsDotted Java.IsAdmitted least s → Java.OnOneLine s →
        Java.IsDotted Java.IsProper least s :=
      fun hadmitted hline => Java.isDotted_proper_iff.mpr ⟨hadmitted, hline⟩
    exact { marker := fun m hm => hjoin (h.marker m hm) (hmarker m hm)
            withers := h.withers
            builder := h.builder
            builderName := fun hb => hjoin (h.builderName hb) (hbuilder hb)
            javaPackage := or_iff_not_imp_left.mpr fun hne =>
              hjoin (h.javaPackage.resolve_left hne) (hpackage.resolve_left hne)
            interfacePrefix := h.interfacePrefix }

/-- The check accepts the well-formed configurations, but for line feeds after the parts of dotted
names: what should be accepted is what is accepted and keeps each dotted name on one line. -/
theorem validate_admits (c : Config) :
    (c.validate = .ok () ↔ c.WellFormed Java.IsAdmitted) ∧
      (c.WellFormed Java.IsProper ↔
        c.validate = .ok () ∧ ∀ s ∈ c.dottedNames, Java.OnOneLine s) := by
  rw [validate_eq_ok_iff]
  exact ⟨Iff.rfl, wellFormed_proper_iff⟩

/-- A package and an annotation that are accepted with a line feed at their ends; the annotation is
named by a reserved word. -/
theorem broken_names_admitted :
    ({ javaPackage := "a\n" } : Config).validate = .ok () ∧
      ¬({ javaPackage := "a\n" } : Config).WellFormed Java.IsProper ∧
    ({ nullabilityMarker := some "com.class\n" } : Config).validate = .ok () ∧
      ¬({ nullabilityMarker := some "com.class\n" } : Config).WellFormed Java.IsProper := by
  refine ⟨eq_ok_of (by decide +kernel), fun h => ?_, eq_ok_of (by decide +kernel), fun h => ?_⟩
  · exact absurd ((wellFormed_proper_iff.mp h).2 "a\n" (by decide)) (by decide)
  · exact absurd ((wellFormed_proper_iff.mp h).2 "com.class\n" (by decide)) (by decide)

end Config

end RecordGen

import RecordGen.Proofs.DocLines
import RecordGen.Proofs.JavaUnits
import RecordGen.Proofs.Outcomes

/-! # Banners

The line that says what generated a file stands above everything else in it. What comes below, and
whether there is a file at all, has nothing to do with what that line says. -/

namespace RecordGen

open Fallible

/-- A text below a banner, with an empty line between them. -/
def underBanner (banner text : String) : String :=
  if banner.isEmpty then text else banner ++ "\n\n" ++ text

/-- Files that all have one banner. -/
def Files.underBanner (banner : String) (files : Files) : Files :=
  files.map fun file => (file.1, RecordGen.underBanner banner file.2)

theorem underBanner_empty (text : String) : underBanner "" text = text := rfl

theorem underBanner_of_ne {banner : String} (h : banner ≠ "") (text : String) :
    underBanner banner text = banner ++ "\n\n" ++ text := by
  rw [underBanner, if_neg (by simpa using h)]

/-- Lines below a banner. -/
theorem intercalate_underBanner (banner : String) {lines : List String} (h : lines ≠ []) :
    "\n".intercalate (banner :: "" :: lines) = banner ++ "\n\n" ++ "\n".intercalate lines := by
  have hfeeds : "\n\n" = "\n" ++ "\n" := rfl
  rw [String.intercalate_cons_cons, String.intercalate_cons_of_ne_nil h, String.empty_append,
    hfeeds]
  simp only [String.append_assoc]

/-! ## Java -/

namespace Java

theorem Layout.declarationLines_ne_nil (l : Layout) (depth : Nat) (d : Declaration) :
    l.declarationLines depth d ≠ [] := by
  cases d
  rw [Layout.declarationLines]
  exact List.append_ne_nil_of_right_ne_nil _ (List.cons_ne_nil _ _)

theorem Layout.separate_blocks_ne_nil (l : Layout) (depth : Nat) {ds : List Declaration}
    (h : ds ≠ []) : separate (l.blocks depth ds) ≠ [] := by
  obtain ⟨d, ds, rfl⟩ := List.exists_cons_of_ne_nil h
  have hfirst := l.declarationLines_ne_nil depth d
  rw [Layout.blocks]
  cases l.blocks depth ds with
  | nil => exact hfirst
  | cons b bs => exact List.append_ne_nil_of_left_ne_nil hfirst _

/-- The same unit with another comment on top. -/
def CompilationUnit.withComment (comment : String) (u : CompilationUnit) : CompilationUnit :=
  { u with comment }

/-- A unit that declares something is printed below its comment. -/
theorem CompilationUnit.print_withComment {u : CompilationUnit} (hbare : u.comment = "")
    (htypes : u.types ≠ []) (comment indent : String) :
    (u.withComment comment).print indent = underBanner comment (u.print indent) := by
  by_cases hcomment : comment = ""
  · rw [hcomment, underBanner_empty, ← hbare]
    rfl
  · have hne : comment.isEmpty = false := by simpa using hcomment
    have hnone : u.comment.isEmpty = true := by simp [hbare]
    have hlines := Layout.separate_blocks_ne_nil ⟨indent, u.container⟩ 0 htypes
    simp only [print, withComment, hne, hnone, Bool.false_eq_true, if_false, if_true,
      List.cons_append, List.nil_append, underBanner_of_ne hcomment]
    rw [intercalate_underBanner _ (List.append_ne_nil_of_right_ne_nil _ hlines),
      String.append_assoc]
    rfl

variable (config : Config) (a : Analysis) (comment : String)

theorem containerUnit_comment (group : String × List GeneratedType) :
    containerUnit config a comment group =
      CompilationUnit.withComment comment <$> containerUnit config a "" group := by
  rw [containerUnit, containerUnit]
  cases group.2.find? (·.head.isModuleType) with
  | none => rfl
  | some top =>
      simp only [map_bind]
      refine bind_congr ?_
      rintro ⟨head, shape, nested⟩
      simp only [map_bind, map_pure]
      rfl

theorem units_comment : units config a comment =
    List.map (fun e => (e.1, e.2.withComment comment)) <$> units config a "" := by
  have hmodule : ∀ group : String × List GeneratedType,
      (do return (filePath config group.1, ← containerUnit config a comment group)) =
        (fun e : String × CompilationUnit => (e.1, e.2.withComment comment)) <$>
          (do return (filePath config group.1, ← containerUnit config a "" group) :
            Except TargetFault (String × CompilationUnit)) := by
    intro group
    rw [containerUnit_comment config a comment, bind_map_left, map_bind]
    simp only [map_pure]
  rw [units, units, funext hmodule, mapM_map, bind_map_left, map_bind]
  simp only [map_pure, List.map_append, List.map_map]
  rfl

/-- Units without a comment, all of which declare something. -/
theorem units_bare {us : List (String × CompilationUnit)} (h : units config a "" = .ok us) :
    ∀ e ∈ us, e.2.comment = "" ∧ e.2.types ≠ [] := by
  obtain ⟨modules, hus, hmodules⟩ := units_spec h
  intro e he
  rcases List.mem_append.mp (hus ▸ he) with he | he
  · obtain ⟨group, -, -, hunit⟩ := hmodules.exists_left e he
    obtain ⟨_, head, shape, nested, others, -, -, -, -, htypes, -⟩ := containerUnit_spec hunit
    rw [containerUnit_comment] at hunit
    obtain ⟨unit, -, hcomment⟩ := map_eq_ok.mp hunit
    exact ⟨hcomment ▸ rfl, htypes ▸ List.cons_ne_nil _ _⟩
  · obtain ⟨c, -, rfl⟩ := List.mem_map.mp he
    exact ⟨rfl, List.cons_ne_nil _ _⟩

theorem generate_underBanner : generate config a comment =
    Files.underBanner comment <$> generate config a "" := by
  rw [generate, generate, units_comment, bind_map_left, map_bind]
  cases hus : units config a "" with
  | error e => rfl
  | ok us =>
      refine congrArg Except.ok ?_
      rw [Files.underBanner, List.map_map, List.map_map]
      refine List.map_congr_left fun e he => ?_
      obtain ⟨hbare, htypes⟩ := units_bare config a hus e he
      exact congrArg (Prod.mk e.1) (CompilationUnit.print_withComment hbare htypes _ _)

end Java

/-! ## Python

A module is put together line by line from its last line up. Lines that stand above one with
something in it are never looked at. -/

namespace Python

/-- There is more in a text than line feeds. -/
def IsInked (s : String) : Prop :=
  ∃ c ∈ s.toList, c ≠ '\n'

theorem isInked_append {s t : String} : IsInked (s ++ t) ↔ IsInked s ∨ IsInked t := by
  simp only [IsInked, String.toList_append, List.mem_append, or_and_right, exists_or]

theorem IsInked.ne_empty {s : String} (h : IsInked s) : s ≠ "" := by
  rintro rfl
  obtain ⟨c, hc, -⟩ := h
  cases hc

/-- A text is made of its lines. -/
theorem isInked_intercalate {ls : List String} :
    IsInked ("\n".intercalate ls) ↔ ∃ l ∈ ls, IsInked l := by
  have hfeed : ¬ IsInked "\n" := by simp [IsInked]
  induction ls with
  | nil => simp [IsInked]
  | cons l ls ih =>
      cases ls with
      | nil => simp
      | cons m ls =>
          rw [String.intercalate_cons_cons, isInked_append, isInked_append, or_iff_left hfeed,
            List.exists_mem_cons_iff]
          exact or_congr_right ih

theorem dropNewlines_append (s : String) {t : String} (h : IsInked t) :
    dropNewlines (s ++ t) = s ++ dropNewlines t := by
  obtain ⟨c, hc, hne⟩ := h
  have hkept : c ∈ t.toList.reverse.dropWhile (· == '\n') :=
    Text.mem_dropWhile (List.mem_reverse.mpr hc) (by simpa using hne)
  have hfull : (t.toList.reverse.dropWhile (· == '\n')).isEmpty = false := by
    simpa using List.ne_nil_of_mem hkept
  rw [dropNewlines, dropNewlines, ← String.toList_inj]
  simp only [String.toList_append, List.reverse_append, List.dropWhile_append, hfull,
    Bool.false_eq_true, if_false, String.toList_ofList, List.reverse_reverse]

theorem dropNewlines_inked {s : String} (h : IsInked s) : IsInked (dropNewlines s) := by
  obtain ⟨c, hc, hne⟩ := h
  have hkept : c ∈ s.toList.reverse.dropWhile (· == '\n') :=
    Text.mem_dropWhile (List.mem_reverse.mpr hc) (by simpa using hne)
  exact ⟨c, by simpa [dropNewlines] using hkept, hne⟩

theorem splitLines_append (s t : String) :
    splitLines (s ++ "\n" ++ t) = splitLines s ++ splitLines t := by
  have hsplit : (s ++ "\n" ++ t).toList.splitOn '\n' =
      s.toList.splitOn '\n' ++ t.toList.splitOn '\n' := by
    have hfeed : ('\n' == '\n') = true := rfl
    simpa [List.splitOn] using
      List.splitOnP_append_cons (p := (· == '\n')) s.toList t.toList hfeed
  rw [splitLines, hsplit, List.map_append, splitLines, splitLines]

theorem intercalate_splitLines (s : String) : "\n".intercalate (splitLines s) = s := by
  have hfeed : "\n".toList = ['\n'] := rfl
  rw [← String.toList_inj, String.toList_intercalate, splitLines, List.map_map, hfeed]
  simp [Function.comp_def]

theorem splitLines_ne_nil (s : String) : splitLines s ≠ [] := by
  simp [splitLines]

theorem mem_addLine {above : List String} {l line : String} (hl : l ∈ above) (hne : l ≠ "") :
    l ∈ addLine above line := by
  have hkept : l ∈ above.dropWhile (·.isEmpty) := Text.mem_dropWhile hl (by simpa using hne)
  rw [addLine]
  split
  · simp [hkept]
  · simp [hl]

/-- Only what is above the last line with something in it is out of reach. -/
theorem addLine_append {above : List String} {l : String} (hl : l ∈ above) (hne : l ≠ "")
    (far : List String) (line : String) :
    addLine (above ++ far) line = addLine above line ++ far := by
  have hkept : l ∈ above.dropWhile (·.isEmpty) := Text.mem_dropWhile hl (by simpa using hne)
  have hfull : (above.dropWhile (·.isEmpty)).isEmpty = false := by
    simpa using List.ne_nil_of_mem hkept
  have hhead : (above ++ far).head? = above.head? :=
    List.head?_append_of_ne_nil _ (List.ne_nil_of_mem hl)
  rw [addLine, addLine, hhead, List.dropWhile_append, hfull]
  split <;> rfl

theorem foldl_addLine_append {above : List String} {l : String} (hl : l ∈ above) (hne : l ≠ "")
    (far lines : List String) :
    lines.foldl addLine (above ++ far) = lines.foldl addLine above ++ far ∧
      l ∈ lines.foldl addLine above := by
  induction lines generalizing above with
  | nil => exact ⟨rfl, hl⟩
  | cons line lines ih =>
      rw [List.foldl_cons, List.foldl_cons, addLine_append hl hne]
      exact ih (mem_addLine hl hne)

theorem joinModule_underBanner {comment prelude : String} (h : IsInked prelude) (code : String) :
    joinModule (comment ++ "\n\n" ++ prelude) code =
      comment ++ "\n\n" ++ joinModule prelude code := by
  have hfeeds : ∀ s t : String, s ++ "\n\n" ++ t = s ++ "\n" ++ ("" ++ "\n" ++ t) := by
    intro s t
    have hfeeds : "\n\n" = "\n" ++ "\n" := rfl
    simp only [hfeeds, String.append_assoc, String.empty_append]
  have hprelude := dropNewlines_inked h
  rw [← intercalate_splitLines (dropNewlines prelude), isInked_intercalate] at hprelude
  obtain ⟨l, hl, hline⟩ := hprelude
  have habove : (splitLines (dropNewlines (comment ++ "\n\n" ++ prelude))).reverse =
      (splitLines (dropNewlines prelude)).reverse ++ ("" :: (splitLines comment).reverse) := by
    rw [dropNewlines_append _ h, hfeeds, splitLines_append, splitLines_append]
    simp [show splitLines "" = [""] from rfl]
  obtain ⟨hfold, hkept⟩ := foldl_addLine_append (List.mem_reverse.mpr hl) hline.ne_empty
    ("" :: (splitLines comment).reverse) (splitLines code)
  rw [joinModule, joinModule, habove, hfold]
  generalize (splitLines code).foldl addLine (splitLines (dropNewlines prelude)).reverse = all
    at hkept
  have hne : all.reverse ≠ [] := List.ne_nil_of_mem (List.mem_reverse.mpr hkept)
  have hinked : IsInked ("\n".intercalate all.reverse) :=
    isInked_intercalate.mpr ⟨l, List.mem_reverse.mpr hkept, hline⟩
  have hlines : "\n".intercalate (all ++ "" :: (splitLines comment).reverse).reverse =
      comment ++ "\n\n" ++ "\n".intercalate all.reverse := by
    rw [hfeeds, List.reverse_append, List.reverse_cons, List.reverse_reverse, List.append_assoc,
      List.singleton_append, String.intercalate_append_of_ne_nil (splitLines_ne_nil _)
      (List.cons_ne_nil _ _), intercalate_splitLines, String.intercalate_cons_of_ne_nil hne]
  rw [hlines, dropNewlines_append _ hinked, String.append_assoc]

variable (config : Config) (a : Analysis) (comment : String)

/-- The lines that every module begins with, below its comment. -/
theorem preludeLines_comment (typing : List String) (hcomment : comment ≠ "") :
    preludeLines a typing comment = comment :: "" :: preludeLines a typing "" := by
  have hne : comment.isEmpty = false := by simpa using hcomment
  simp only [preludeLines, hne, Bool.false_eq_true, if_false]
  rfl

theorem preludeLines_inked (typing : List String) :
    IsInked ("\n".intercalate (preludeLines a typing "")) := by
  refine isInked_intercalate.mpr ⟨"from dataclasses import dataclass", ?_, 'f', by decide⟩
  simp [preludeLines]

theorem generate_underBanner : generate config a comment =
    Files.underBanner comment <$> generate config a "" := by
  have hfile : ∀ typing code, joinModule ("\n".intercalate (preludeLines a typing comment)) code =
      underBanner comment (joinModule ("\n".intercalate (preludeLines a typing "")) code) := by
    intro typing code
    by_cases hcomment : comment = ""
    · rw [hcomment, underBanner_empty]
    · have hinked := preludeLines_inked a typing
      have hlines : preludeLines a typing "" ≠ [] := by
        intro hnil
        rw [hnil, String.intercalate_nil] at hinked
        exact hinked.ne_empty rfl
      rw [preludeLines_comment a comment typing hcomment, intercalate_underBanner _ hlines,
        joinModule_underBanner hinked, underBanner_of_ne hcomment]
  simp only [generate, hfile, map_bind]
  refine bind_congr fun body => ?_
  split
  · rfl
  · rfl

end Python

/-! ## Runs -/

theorem emit_underBanner (config : Config) (language : Language) (a : Analysis)
    (comment : String) : emit config language a comment =
      Files.underBanner comment <$> emit config language a "" := by
  cases language with
  | java => exact Java.generate_underBanner config a comment
  | python => exact Python.generate_underBanner config a comment

namespace Run

variable {r : Run} {doc : Json}

/-- Without anything to stand in for records, these are generated. -/
theorem records_of_validate (hnone : r.fallback = none) {language : Language}
    (h : r.validate = .ok language) : r.config.records = true := by
  cases hrecords : r.config.records with
  | true => rfl
  | false =>
      obtain ⟨fallback, hsome⟩ := validate_fallback hrecords h
      cases hnone.symm.trans hsome

/-- The files of a run under any other command line differ in their banner alone. -/
theorem generate_underBanner {files : Files} (hnone : r.fallback = none)
    (h : r.generate (.document doc) = .ok files) :
    ∃ language, ∃ bodies : Files, r.validate = .ok language ∧
      files = bodies.underBanner (r.banner language) ∧
      ∀ commandLine, ({ r with commandLine } : Run).generate (.document doc) =
        .ok (bodies.underBanner (({ r with commandLine } : Run).banner language)) := by
  have hvalid : ∃ language, r.validate = .ok language := by
    obtain ⟨language, hvalidate, -⟩ := bind_eq_ok.mp h
    exact ⟨language, mapError_eq_ok.mp hvalidate⟩
  obtain ⟨language, hvalidate⟩ := hvalid
  have hrecords := records_of_validate hnone hvalidate
  obtain ⟨language', g, a, hvalidate', hload, ha, hemit⟩ := generate_ok hrecords h
  obtain rfl := Except.ok.inj (hvalidate.symm.trans hvalidate')
  rw [emit_underBanner] at hemit
  obtain ⟨bodies, hbodies, hfiles⟩ := map_eq_ok.mp hemit
  refine ⟨language, bodies, hvalidate, hfiles.symm, fun commandLine => ?_⟩
  have hother : ({ r with commandLine } : Run).validate = .ok language := hvalidate
  rw [generate_eq_emit (r := { r with commandLine }) hrecords hother hload ha, emit_underBanner,
    hbodies, map_ok, mapError_ok]

end Run

end RecordGen

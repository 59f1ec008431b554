import RecordGen.Proofs.BlankDocs

/-! # What the step of indentation changes

A step of indentation stands in front of lines, and its length has a say in whether the header of a
record is broken. If it is white space, it changes the white space of a file and nothing else: files
that are printed with two such steps show the same characters in the same order. -/

namespace RecordGen

open Text Fallible

/-! ## What a text shows -/

/-- The characters of a text that are not white space. -/
def ink (s : String) : List Char :=
  s.toList.filter fun c => !isBlank c

theorem ink_append (s t : String) : ink (s ++ t) = ink s ++ ink t := by
  simp [ink]

theorem ink_eq_nil {s : String} : ink s = [] ↔ blank s = true := by
  simp [ink, blank]

theorem ink_intercalate (separator : String) (parts : List String) :
    ink (separator.intercalate parts) = (ink separator).intercalate (parts.map ink) := by
  induction parts with
  | nil => rfl
  | cons part parts ih =>
      cases parts with
      | nil => simp
      | cons part' parts =>
          rw [String.intercalate_cons_cons, ink_append, ink_append, ih]
          simp [List.intercalate]

/-- Lines show what each of them shows. -/
theorem ink_lines (lines : List String) : ink ("\n".intercalate lines) = lines.flatMap ink := by
  have hfeed : ink "\n" = [] := rfl
  rw [ink_intercalate, hfeed, List.flatMap_def]
  induction lines with
  | nil => rfl
  | cons line lines ih =>
      cases lines with
      | nil => simp
      | cons line' lines =>
          rw [List.map_cons, List.map_cons, List.intercalate_cons_cons, ← List.map_cons, ih]
          simp

namespace Java

/-! ## Headers of records -/

/-- The header of a record with white space in front of it, in front of its components and between
them. -/
def recordHeader (container : String) (h : Head) (components : List Parameter)
    (implements : List Ty) (margin lead gap : String) : String :=
  let l : Layout := ⟨"", container⟩
  margin ++ modifiersText h.access h.modifiers ++ "record " ++ l.declaredName h ++ "(" ++ lead ++
    ("," ++ gap).intercalate (components.map (Parameter.text container)) ++ ")" ++
      l.clause "implements" implements ++ " \x7b"

theorem ink_recordHeader {margin lead gap : String} (hmargin : blank margin = true)
    (hlead : blank lead = true) (hgap : blank gap = true) (container : String) (h : Head)
    (components : List Parameter) (implements : List Ty) :
    ink (recordHeader container h components implements margin lead gap) =
      ink (recordHeader container h components implements "" "" "") := by
  simp only [recordHeader, ink_append, ink_intercalate, ink_eq_nil.mpr hmargin,
    ink_eq_nil.mpr hlead, ink_eq_nil.mpr hgap]
  rfl

namespace Layout

theorem intercalate_broken (inner stop : String) {parts : List String} (h : parts ≠ []) :
    "\n".intercalate
        (parts.dropLast.map (inner ++ · ++ ",") ++ [inner ++ parts.getLastD "" ++ stop]) =
      inner ++ ("," ++ ("\n" ++ inner)).intercalate parts ++ stop := by
  induction parts with
  | nil => exact absurd rfl h
  | cons part parts ih =>
      cases parts with
      | nil => simp
      | cons part' parts =>
          have hlast : (part :: part' :: parts).getLastD "" = (part' :: parts).getLastD "" := rfl
          rw [List.dropLast_cons_cons, List.map_cons, hlast, List.cons_append,
            String.intercalate_cons_of_ne_nil (by simp), ih (by simp),
            String.intercalate_cons_cons]
          simp only [String.append_assoc]

/-- The header of a record stands on one line, or its components stand on lines of their own. -/
theorem headerLines_record (l : Layout) (depth : Nat) (h : Head) (components : List Parameter)
    (implements : List Ty) :
    let text := "\n".intercalate (l.headerLines depth h (.recordShape components implements))
    let header := recordHeader l.container h components implements (l.margin depth)
    let inner := "\n" ++ l.margin (depth + 2)
    text = header "" " " ∨ text = header inner inner := by
  intro text header inner
  have hname : (Layout.mk "" l.container).declaredName h = l.declaredName h := rfl
  have hclause : (Layout.mk "" l.container).clause "implements" implements =
      l.clause "implements" implements := rfl
  simp only [text, header, headerLines, recordHeader, hname, hclause]
  split
  · left
    simp [String.append_assoc]
  · rename_i hbroken
    right
    have hparts : components.map (Parameter.text l.container) ≠ [] := by
      intro hnil
      simp [hnil] at hbroken
    rw [List.singleton_append, List.cons_append, String.intercalate_cons_of_ne_nil (by simp),
      intercalate_broken _ _ hparts]
    simp only [inner, String.append_assoc]

/-- The same header at the same depth, with steps of no character and of eight. -/
example :
    let h : Head := { name := "Reading" }
    let shape := Shape.recordShape [⟨"warmth", .named "String", false⟩,
      ⟨"wind", .named "String", false⟩] [.named "Wither<Reading, Reading.Memento>"]
    ((Layout.mk "" "Sky").headerLines 1 h shape).length = 1 ∧
      ((Layout.mk "        " "Sky").headerLines 1 h shape).length = 3 := by
  decide +kernel

/-- A margin of white space shows nothing. -/
theorem ink_margin {indent : String} (h : blank indent = true) (container : String)
    (depth : Nat) : ink ((Layout.mk indent container).margin depth) = [] := by
  rw [ink_eq_nil, blank, margin, String.toList_join, List.all_flatMap, List.all_replicate]
  split
  · rfl
  · exact h

/-! ## Two steps of indentation -/

section

variable {i j : String} (hi : blank i = true) (hj : blank j = true) (container : String)

include hi hj

theorem flatMap_ink_body (depth : Nat) (statements : List Statement) :
    ((Layout.mk i container).body depth statements).flatMap ink =
      ((Layout.mk j container).body depth statements).flatMap ink := by
  simp only [body, List.flatMap_map, ink_append, ink_margin hi, ink_margin hj]

theorem ink_fieldLine (depth : Nat) (f : Field) :
    ink ((Layout.mk i container).fieldLine depth f) =
      ink ((Layout.mk j container).fieldLine depth f) := by
  simp only [fieldLine, ink_append, ink_margin hi, ink_margin hj]

theorem flatMap_ink_constructorLines (depth : Nat) (c : Constructor) :
    ((Layout.mk i container).constructorLines depth c).flatMap ink =
      ((Layout.mk j container).constructorLines depth c).flatMap ink := by
  simp only [constructorLines, List.flatMap_append, List.flatMap_singleton, ink_append,
    ink_margin hi, ink_margin hj, flatMap_ink_body hi hj]

theorem flatMap_ink_methodLines (depth : Nat) (m : Method) :
    ((Layout.mk i container).methodLines depth m).flatMap ink =
      ((Layout.mk j container).methodLines depth m).flatMap ink := by
  cases hbody : m.body <;>
    simp only [methodLines, hbody, List.flatMap_append, List.flatMap_map, List.flatMap_singleton,
      ink_append, ink_margin hi, ink_margin hj, flatMap_ink_body hi hj]

theorem flatMap_ink_headerLines (depth : Nat) (h : Head) (shape : Shape) :
    ((Layout.mk i container).headerLines depth h shape).flatMap ink =
      ((Layout.mk j container).headerLines depth h shape).flatMap ink := by
  cases shape with
  | interfaceShape parents =>
      simp only [headerLines, List.flatMap_singleton, ink_append, ink_margin hi, ink_margin hj]
      rfl
  | classShape fields constructors =>
      simp only [headerLines, List.flatMap_singleton, ink_append, ink_margin hi, ink_margin hj]
      rfl
  | recordShape components implements =>
      have hheader : ∀ {indent : String}, blank indent = true →
          ((Layout.mk indent container).headerLines depth h
            (.recordShape components implements)).flatMap ink =
              ink (recordHeader container h components implements "" "" "") := by
        intro indent hindent
        have hinner : blank ("\n" ++ (Layout.mk indent container).margin (depth + 2)) = true := by
          rw [← ink_eq_nil, ink_append, ink_margin hindent]
          rfl
        have hmargin := ink_eq_nil.mp (ink_margin hindent container depth)
        rw [← ink_lines]
        rcases headerLines_record ⟨indent, container⟩ depth h components implements with
          hone | hmany
        · rw [hone, ink_recordHeader hmargin rfl rfl]
        · rw [hmany, ink_recordHeader hmargin hinner hinner]
      rw [hheader hi, hheader hj]

theorem flatMap_ink_ownBlocks (depth : Nat) (shape : Shape) :
    ((Layout.mk i container).ownBlocks depth shape).flatten.flatMap ink =
      ((Layout.mk j container).ownBlocks depth shape).flatten.flatMap ink := by
  cases shape with
  | classShape fields constructors =>
      cases fields <;> simp [ownBlocks, ← List.flatMap_def, List.flatMap_assoc, List.flatMap_map,
        ink_fieldLine hi hj, flatMap_ink_constructorLines hi hj]
  | interfaceShape parents => rfl
  | recordShape components implements => rfl

end

/-- Blank lines between blocks show nothing. -/
theorem flatMap_ink_separate (bs : List (List String)) :
    (separate bs).flatMap ink = bs.flatten.flatMap ink := by
  have hempty : ink "" = [] := rfl
  fun_induction separate bs with
  | case1 => rfl
  | case2 b => simp
  | case3 b bs hbs ih => simp [ih, hempty]

mutual

theorem flatMap_ink_declarationLines {i j : String} (hi : blank i = true) (hj : blank j = true)
    (container : String) : ∀ (d : Declaration) (depth : Nat),
      ((Layout.mk i container).declarationLines depth d).flatMap ink =
        ((Layout.mk j container).declarationLines depth d).flatMap ink
  | .mk head shape nested, depth => by
      simp only [declarationLines, List.flatMap_append, flatMap_ink_separate, List.flatten_append,
        ← List.flatMap_def, List.flatMap_assoc, List.flatMap_map, List.flatMap_singleton,
        ink_append, ink_margin hi, ink_margin hj, flatMap_ink_headerLines hi hj,
        flatMap_ink_ownBlocks hi hj, flatMap_ink_methodLines hi hj,
        flatMap_ink_blocks hi hj container nested]

theorem flatMap_ink_blocks {i j : String} (hi : blank i = true) (hj : blank j = true)
    (container : String) : ∀ (ds : List Declaration) (depth : Nat),
      ((Layout.mk i container).blocks depth ds).flatten.flatMap ink =
        ((Layout.mk j container).blocks depth ds).flatten.flatMap ink
  | [], _ => rfl
  | d :: ds, depth => by
      rw [blocks, blocks, List.flatten_cons, List.flatten_cons, List.flatMap_append,
        List.flatMap_append, flatMap_ink_declarationLines hi hj container d,
        flatMap_ink_blocks hi hj container ds]

end

end Layout

/-- The text of a unit with another step of white space shows the same. -/
theorem CompilationUnit.ink_print (u : CompilationUnit) {i j : String} (hi : blank i = true)
    (hj : blank j = true) : ink (u.print i) = ink (u.print j) := by
  simp only [print, ink_append, ink_lines, List.flatMap_append, Layout.flatMap_ink_separate,
    Layout.flatMap_ink_blocks hi hj]

end Java

/-! ## Runs

Only printing looks at the step of indentation. -/

section

variable (config : Config) (indent : String)

theorem analyze_indent (workers : Option Int) (g : ClassGraph) :
    analyze { config with indent } workers g = analyze config workers g := rfl

theorem Java.units_indent (a : Analysis) (comment : String) :
    Java.units { config with indent } a comment = Java.units config a comment := rfl

theorem Java.generate_indent (a : Analysis) (comment : String) :
    Java.generate { config with indent } a comment =
      List.map (fun e => (e.1, e.2.print indent)) <$> Java.units config a comment := by
  rw [Java.generate, Java.units_indent]
  rfl

theorem Python.generate_indent (a : Analysis) (comment : String) :
    Python.generate { config with indent } a comment = Python.generate config a comment := rfl

end

/-- The paths of files and what their texts show. -/
def Files.shown (files : Files) : List (String × List Char) :=
  files.map fun f => (f.1, ink f.2)

theorem shown_emit (config : Config) (language : Language) (a : Analysis) (comment : String)
    {i j : String} (hi : blank i = true) (hj : blank j = true) :
    Files.shown <$> emit { config with indent := i } language a comment =
      Files.shown <$> emit { config with indent := j } language a comment := by
  cases language with
  | python => rw [emit, emit, Python.generate_indent config i, Python.generate_indent config j]
  | java =>
      rw [emit, emit, Java.generate_indent config i, Java.generate_indent config j,
        Functor.map_map, Functor.map_map]
      congr 1
      funext us
      simp [Files.shown, Java.CompilationUnit.ink_print _ hi hj]

namespace Run

/-- The run with another step of indentation. -/
def indentedBy (r : Run) (indent : String) : Run :=
  { r with config := { r.config with indent } }

theorem generate_indentedBy (r : Run) (s : Source) (hrecords : r.config.records = true)
    (indent : String) : (r.indentedBy indent).generate s = (do
      let language ← r.validate.mapError .config
      let g ← s.load.mapError .schema
      let a ← (RecordGen.analyze r.config r.workers g).mapError .schema
      (emit { r.config with indent } language a (r.banner language)).mapError .target) := by
  have hvalidate : (r.indentedBy indent).validate = r.validate := rfl
  have hbanner : (r.indentedBy indent).banner = r.banner := rfl
  have hindented : (r.indentedBy indent).config.records = true := hrecords
  rw [generate, hvalidate, hbanner]
  refine bind_congr fun language => bind_congr fun g => ?_
  rw [hindented, ← analyze_indent r.config indent]
  rfl

/-- Runs with two such steps of indentation are refused alike, or their files show the same. -/
theorem shown_generate (r : Run) (s : Source) (hrecords : r.config.records = true) {i j : String}
    (hi : blank i = true) (hj : blank j = true) :
    Files.shown <$> (r.indentedBy i).generate s = Files.shown <$> (r.indentedBy j).generate s := by
  rw [r.generate_indentedBy s hrecords, r.generate_indentedBy s hrecords]
  simp only [map_bind]
  refine bind_congr fun language => bind_congr fun g => bind_congr fun a => ?_
  rw [map_mapError, map_mapError, shown_emit _ _ _ _ hi hj]

end Run

/-- Two steps of indentation of white space show the same: in any unit, and in the files of any run
with records, the one of the copy-with contract included. So the header of a record declares the
same components in the same order and implements the same types, whether it is broken or not. -/
theorem indents_alike {i j : String} (hi : blank i = true) (hj : blank j = true) :
    (∀ u : Java.CompilationUnit, ink (u.print i) = ink (u.print j)) ∧
    (∀ (r : Run) (s : Source), r.config.records = true →
      Files.shown <$> (r.indentedBy i).generate s = Files.shown <$> (r.indentedBy j).generate s) ∧
    ∀ (l : Java.Layout) (depth : Nat) (h : Java.Head) (components : List Java.Parameter)
      (implements : List Java.Ty),
      let text := "\n".intercalate (l.headerLines depth h (.recordShape components implements))
      let header := Java.recordHeader l.container h components implements (l.margin depth)
      let inner := "\n" ++ l.margin (depth + 2)
      text = header "" " " ∨ text = header inner inner :=
  ⟨fun u => u.ink_print hi hj, fun r s hrecords => r.shown_generate s hrecords hi hj,
    fun l => l.headerLines_record⟩

/-- A record whose header fits on a line, if little stands in front of it. -/
def Document.weather : Json :=
  .object [("modules", .list [
    .object [("name", .text "sky"), ("classes", .list [
      .object [("name", .text "Reading"), ("properties", .list [
        .object [("name", .text "warmth"), ("type", .text "String")],
        .object [("name", .text "wind"), ("type", .text "String")]])]])]])]

/-- A run with records that can be copied. What they implement makes their headers longer. -/
def copying : Run where
  config := { withers := true }

theorem indents_alike_weather : blank "" = true ∧ blank "        " = true ∧
    copying.config.records = true ∧ ∃ narrow wide : Files,
      (copying.indentedBy "").generate (.document Document.weather) = .ok narrow ∧
      (copying.indentedBy "        ").generate (.document Document.weather) = .ok wide ∧
      narrow.length = 2 ∧ narrow.shown = wide.shown := by
  obtain ⟨narrow, hnarrow, hlength⟩ : ∃ narrow,
      (copying.indentedBy "").generate (.document Document.weather) = .ok narrow ∧
        narrow.length = 2 := by
    apply exists_ok_and
    decide +kernel
  obtain ⟨wide, hwide⟩ := exists_ok
    (x := (copying.indentedBy "        ").generate (.document Document.weather)) (by decide +kernel)
  have hshown := (indents_alike (i := "") (j := "        ") rfl rfl).2.1 copying
    (.document Document.weather) rfl
  rw [hnarrow, hwide] at hshown
  exact ⟨rfl, rfl, rfl, narrow, wide, hnarrow, hwide, hlength, Except.ok.inj hshown⟩

end RecordGen

import RecordGen.Proofs.Banners
import RecordGen.Proofs.PythonCopies
import RecordGen.Proofs.PythonLines

/-! # Classes in a module

A module is put together from the prelude and the text of all classes, line by line. Each class
stands there as it is printed alone, two blank lines below what is above it. -/

namespace RecordGen.Python

open Text Fallible

/-! ## Joining texts of classes -/

/-- A line that begins like a decorator. -/
def isDecorator (line : String) : Bool :=
  ['@'].isPrefixOf line.toList

/-- A text of lines among which only the first one, and such as stand below a decorator, open a
class. It ends with a line that holds something and decorates nothing. -/
structure IsClassText (text : String) : Prop where
  opens : ∀ l ∈ (splitLines text).head?, isDecorator l = true
  inside : (splitLines text).IsChain fun above line =>
    opensClass line = true → isDecorator above = true
  last : ∀ l ∈ (splitLines text).getLast?, isDecorator l = false
  open_ended : text.toList.getLast? ≠ some '\n'

/-- Lines, listed from the last one up, below which a class can begin. -/
def Ended (above : List String) : Prop :=
  ∃ l ∈ above.head?, l ≠ "" ∧ isDecorator l = false

/-- Where nothing opens a class, lines are put below each other as they are. -/
theorem foldl_addLine_inside {line : String} {lines above : List String}
    (h : (line :: lines).IsChain fun above line =>
      opensClass line = true → isDecorator above = true) :
    lines.foldl addLine (line :: above) = lines.reverse ++ line :: above := by
  induction lines generalizing line above with
  | nil => rfl
  | cons next lines ih =>
      obtain ⟨hnext, hrest⟩ := List.isChain_cons_cons.mp h
      have hput : addLine (line :: above) next = next :: line :: above := by
        refine if_neg fun hopens => ?_
        rw [Bool.and_eq_true, Bool.not_eq_true'] at hopens
        have hdecorated : isDecorator line = false := hopens.2
        rw [hnext hopens.1] at hdecorated
        cases hdecorated
      rw [List.foldl_cons, hput, ih hrest, List.reverse_cons, List.append_assoc]
      rfl

theorem addLine_empty (above : List String) : addLine above "" = "" :: above := by
  have hnone : opensClass "" = false := by decide
  rw [addLine, hnone, Bool.false_and]
  rfl

/-- A line that opens a class is put two empty lines below the others. An empty line that is there
already is one of these. -/
theorem addLine_opening {line : String} {above : List String} (hline : opensClass line = true)
    (h : Ended above) : addLine above line = line :: "" :: "" :: above ∧
      addLine ("" :: above) line = line :: "" :: "" :: above := by
  obtain ⟨l, hl, hne, hplain⟩ := h
  obtain ⟨above, rfl⟩ := List.head?_eq_some_iff.mp hl
  have hplain' : ['@'].isPrefixOf l.toList = false := hplain
  simp [addLine, hline, hplain', hne]

/-- The lines of a text of a class as they are put below what stands above them, with an empty line
before them or without one. -/
theorem IsClassText.foldl_addLine {text : String} (h : IsClassText text) {above : List String}
    (habove : Ended above) :
    (splitLines text).foldl addLine above = (splitLines text).reverse ++ "" :: "" :: above ∧
      ("" :: splitLines text).foldl addLine above =
        (splitLines text).reverse ++ "" :: "" :: above := by
  obtain ⟨line, lines, hlines⟩ := List.exists_cons_of_ne_nil (splitLines_ne_nil text)
  have hinside := h.inside
  have hopens : opensClass line = true := by
    have hfirst : isDecorator line = true := h.opens line (by simp [hlines])
    exact Bool.or_eq_true_iff.mpr (Or.inl hfirst)
  obtain ⟨hbelow, hbelow'⟩ := addLine_opening hopens habove
  rw [hlines] at hinside ⊢
  rw [List.foldl_cons, List.foldl_cons, addLine_empty, List.foldl_cons, hbelow, hbelow',
    foldl_addLine_inside hinside, List.reverse_cons, List.append_assoc]
  exact ⟨rfl, rfl⟩

/-- The last line of a text that does not end its line holds something, if the text does. -/
theorem ne_empty_of_last {text : String} (hne : text ≠ "")
    (hopen : text.toList.getLast? ≠ some '\n') : ∀ l ∈ (splitLines text).getLast?, l ≠ "" := by
  rintro l hl rfl
  obtain ⟨lines, hlines⟩ := List.getLast?_eq_some_iff.mp hl
  have htext := intercalate_splitLines text
  rw [hlines] at htext
  cases lines with
  | nil => exact hne (by simpa using htext.symm)
  | cons first lines =>
      rw [String.intercalate_append_of_ne_nil (List.cons_ne_nil _ _) (List.cons_ne_nil _ _)]
        at htext
      exact hopen (by simp [← htext])

theorem IsClassText.ne_empty {text : String} (h : IsClassText text) : text ≠ "" := by
  rintro rfl
  exact absurd (h.opens "" rfl) (by decide)

theorem IsClassText.ended {text : String} (h : IsClassText text) (above : List String) :
    Ended ((splitLines text).reverse ++ above) := by
  have hsome := List.getLast?_eq_some_getLast (splitLines_ne_nil text)
  refine ⟨_, ?_, ne_empty_of_last h.ne_empty h.open_ended _ hsome, h.last _ hsome⟩
  rw [List.head?_append_of_ne_nil _ (by simpa using splitLines_ne_nil text), List.head?_reverse]
  exact hsome

/-- What is put below a prelude, the lines of several classes with an empty line before each. -/
theorem foldl_addLine_texts {texts : List String} (h : ∀ t ∈ texts, IsClassText t)
    {above : List String} (habove : Ended above) :
    (texts.flatMap fun t => "" :: splitLines t).foldl addLine above =
      (texts.flatMap fun t => "" :: "" :: splitLines t).reverse ++ above := by
  induction texts generalizing above with
  | nil => rfl
  | cons t texts ih =>
      obtain ⟨ht, htexts⟩ := List.forall_mem_cons.mp h
      rw [List.flatMap_cons, List.foldl_append, (ht.foldl_addLine habove).2,
        ih htexts (ht.ended _), List.flatMap_cons]
      simp

/-- The lines of texts with an empty line between them. -/
theorem splitLines_intercalate (t : String) (texts : List String) :
    splitLines ("\n\n".intercalate (t :: texts)) =
      splitLines t ++ texts.flatMap fun t => "" :: splitLines t := by
  induction texts generalizing t with
  | nil => simp
  | cons t' texts ih =>
      have hfeeds : ∀ rest, t ++ "\n\n" ++ rest = t ++ "\n" ++ "" ++ "\n" ++ rest := fun rest => by
        simp [← String.toList_inj]
      rw [String.intercalate_cons_cons, hfeeds, splitLines_append, splitLines_append, ih,
        List.flatMap_cons]
      simp [show splitLines "" = [""] from rfl]

theorem dropNewlines_of_open {s : String} (h : s.toList.getLast? ≠ some '\n') :
    dropNewlines s = s := by
  have hkept : s.toList.reverse.dropWhile (· == '\n') = s.toList.reverse := by
    refine List.dropWhile_eq_self_iff.mpr fun hpos hfeed => h ?_
    rw [← List.head?_reverse, List.head?_eq_getElem?, List.getElem?_eq_getElem hpos]
    simpa using hfeed
  rw [dropNewlines, hkept, List.reverse_reverse, String.ofList_toList]

theorem dropNewlines_open (s : String) : (dropNewlines s).toList.getLast? ≠ some '\n' := by
  rw [dropNewlines, String.toList_ofList, List.getLast?_reverse]
  intro hhead
  have hfeed := List.head?_dropWhile_not (· == '\n') s.toList.reverse
  rw [hhead] at hfeed
  cases hfeed

theorem dropNewlines_feed (s : String) : dropNewlines (s ++ "\n") = dropNewlines s := by
  rw [dropNewlines, String.toList_append, List.reverse_append]
  rfl

/-- The lines of texts, two empty lines before each, below other lines. -/
theorem intercalate_texts {lines : List String} (hlines : lines ≠ []) (texts : List String) :
    "\n".intercalate (lines ++ texts.flatMap fun t => "" :: "" :: splitLines t) =
      "\n".intercalate lines ++ .join (texts.map ("\n\n\n" ++ ·)) := by
  induction texts generalizing lines with
  | nil => simp
  | cons t texts ih =>
      have hnext : "\n".intercalate (lines ++ "" :: "" :: splitLines t) =
          "\n".intercalate lines ++ ("\n\n\n" ++ t) := by
        have hfeeds : "\n\n\n" = "\n" ++ ("\n" ++ "\n") := rfl
        rw [String.intercalate_append_of_ne_nil hlines (List.cons_ne_nil _ _),
          String.intercalate_cons_cons, String.intercalate_cons_of_ne_nil (splitLines_ne_nil t),
          intercalate_splitLines, hfeeds]
        simp only [String.append_assoc, String.empty_append]
      have hsplit : lines ++ (t :: texts).flatMap (fun t => "" :: "" :: splitLines t) =
          (lines ++ "" :: "" :: splitLines t) ++
            texts.flatMap fun t => "" :: "" :: splitLines t := by
        simp
      rw [hsplit, ih (by simp), hnext, List.map_cons, String.join_cons, String.append_assoc]

/-- A module: the prelude without the line feeds at its end, two empty lines before every class,
and one line feed. -/
def moduleText (prelude : String) (texts : List String) : String :=
  dropNewlines prelude ++ .join (texts.map ("\n\n\n" ++ ·)) ++ "\n"

theorem join_open {s : String} {texts : List String} (hs : s.toList.getLast? ≠ some '\n')
    (h : ∀ t ∈ texts, IsClassText t) :
    (s ++ .join (texts.map ("\n\n\n" ++ ·))).toList.getLast? ≠ some '\n' := by
  induction texts generalizing s with
  | nil => simpa using hs
  | cons t texts ih =>
      obtain ⟨ht, htexts⟩ := List.forall_mem_cons.mp h
      rw [List.map_cons, String.join_cons, ← String.append_assoc]
      refine ih ?_ htexts
      rw [String.toList_append, String.toList_append,
        List.getLast?_append_of_ne_nil _ (by simp),
        List.getLast?_append_of_ne_nil _ (by simpa using ht.ne_empty)]
      exact ht.open_ended

/-- Classes are joined to the prelude as they are printed. -/
theorem joinModule_texts {prelude : String} {texts : List String}
    (hprelude : Ended (splitLines (dropNewlines prelude)).reverse)
    (h : ∀ t ∈ texts, IsClassText t) :
    joinModule prelude ("\n\n".intercalate texts) = moduleText prelude texts := by
  have hopen := dropNewlines_open prelude
  cases texts with
  | nil =>
      -- The text of no class is one empty line, which is dropped with the line feed before it.
      have hall : ((splitLines "").foldl addLine
          (splitLines (dropNewlines prelude)).reverse).reverse =
            splitLines (dropNewlines prelude) ++ [""] := by
        have hempty : splitLines "" = [""] := rfl
        rw [hempty, List.foldl_cons, List.foldl_nil, addLine_empty, List.reverse_cons,
          List.reverse_reverse]
      simp only [joinModule, moduleText, String.intercalate_nil, hall]
      rw [String.intercalate_append_of_ne_nil (splitLines_ne_nil _) (List.cons_ne_nil _ _),
        intercalate_splitLines, String.intercalate_singleton, String.append_empty,
        dropNewlines_feed, dropNewlines_of_open hopen]
      simp
  | cons t texts =>
      have hfold : (splitLines ("\n\n".intercalate (t :: texts))).foldl addLine
          (splitLines (dropNewlines prelude)).reverse =
            ((t :: texts).flatMap fun t => "" :: "" :: splitLines t).reverse ++
              (splitLines (dropNewlines prelude)).reverse := by
        obtain ⟨ht, htexts⟩ := List.forall_mem_cons.mp h
        rw [splitLines_intercalate, List.foldl_append, (ht.foldl_addLine hprelude).1,
          foldl_addLine_texts htexts (ht.ended _)]
        simp
      rw [joinModule, hfold, List.reverse_append, List.reverse_reverse, List.reverse_reverse,
        intercalate_texts (splitLines_ne_nil _), intercalate_splitLines,
        dropNewlines_of_open (join_open hopen h)]
      rfl

/-! ## The text of a class -/

/-- A line that can follow a line feed opens no class. -/
theorem opensNothing {l : String} (h : Follows l) :
    opensClass l = false ∧ isDecorator l = false := by
  rw [opensClass, isDecorator]
  cases hl : l.toList with
  | nil => decide
  | cons c cs =>
      have hc : IsQuiet c := h c (by simp [hl])
      have hat : ('@' == c) = false := by simpa using hc.1.symm
      have hclass : ('c' == c) = false := by simpa using hc.2.symm
      simp [List.isPrefixOf, hat, hclass]

theorem splitLines_of_flat {s : String} (h : '\n' ∉ s.toList) : splitLines s = [s] := by
  have hsplit : s.toList.splitOn '\n' = [s.toList] :=
    List.splitOnP_eq_singleton fun c hc => beq_eq_false_iff_ne.mpr fun heq => h (heq ▸ hc)
  rw [splitLines, hsplit, List.map_singleton, String.ofList_toList]

/-- The lines of a calm text, but for the first one, can follow a line feed. -/
theorem follows_of_calm {line : String} {lines : List String}
    (h : Calm ("\n".intercalate (line :: lines))) : ∀ l ∈ lines, Follows l := by
  induction lines generalizing line with
  | nil => simp
  | cons next lines ih =>
      rw [String.intercalate_cons_cons, calm_append] at h
      obtain ⟨-, hcalm, hfollows⟩ := h
      have hrest := hfollows (by simp)
      refine List.forall_mem_cons.mpr ⟨fun c hc => hrest c ?_, ih hcalm⟩
      cases lines with
      | nil => simpa using hc
      | cons _ _ =>
          rw [String.intercalate_cons_cons, String.append_assoc, String.toList_append,
            List.head?_append, Option.mem_def.mp hc]
          rfl

theorem splitLines_intercalate_lines (line : String) (lines : List String) :
    splitLines ("\n".intercalate (line :: lines)) = (line :: lines).flatMap splitLines := by
  induction lines generalizing line with
  | nil => simp
  | cons next lines ih =>
      rw [String.intercalate_cons_cons, splitLines_append, ih, List.flatMap_cons (x := line)]

theorem exists_intercalate_cons (line : String) (lines : List String) :
    ∃ rest, "\n".intercalate (line :: lines) = line ++ rest := by
  cases lines with
  | nil => exact ⟨"", by simp⟩
  | cons next lines =>
      rw [String.intercalate_cons_cons, String.append_assoc]
      exact ⟨_, rfl⟩

theorem isDecorator_first {text line : String} {lines : List String}
    (hlines : splitLines text = line :: lines) (h : isDecorator text = false) :
    isDecorator line = false := by
  obtain ⟨rest, htext⟩ := exists_intercalate_cons line lines
  rw [← hlines, intercalate_splitLines] at htext
  cases hline : isDecorator line with
  | false => rfl
  | true =>
      have hprefix : ['@'] <+: text.toList := by
        rw [htext, String.toList_append]
        exact (List.isPrefixOf_iff_prefix.mp hline).trans (List.prefix_append _ _)
      rw [isDecorator, List.isPrefixOf_iff_prefix.mpr hprefix] at h
      cases h

/-- Decorators above a text that opens a class and is calm otherwise. -/
theorem isClassText_of_steady {decorators : List String} {text : String} (hne : decorators ≠ [])
    (hdecorators : ∀ d ∈ decorators, isDecorator d = true ∧ '\n' ∉ d.toList)
    (htext : Steady text) (hempty : text ≠ "") (hplain : isDecorator text = false) :
    IsClassText ("\n".intercalate (decorators ++ [text])) := by
  obtain ⟨line, lines, hlines⟩ := List.exists_cons_of_ne_nil (splitLines_ne_nil text)
  have hsplit : splitLines ("\n".intercalate (decorators ++ [text])) =
      decorators ++ line :: lines := by
    obtain ⟨d, ds, rfl⟩ := List.exists_cons_of_ne_nil hne
    have hself : (d :: ds).flatMap splitLines = d :: ds := by
      rw [List.flatMap_congr fun d hd => splitLines_of_flat (hdecorators d hd).2]
      exact List.flatMap_singleton' _
    rw [List.cons_append, splitLines_intercalate_lines, ← List.cons_append, List.flatMap_append,
      hself, List.flatMap_singleton, hlines]
  -- Behind its first line the text opens no class, so only decorators stand above one that does.
  have hbelow : ∀ l ∈ lines, opensClass l = false ∧ isDecorator l = false := by
    have hcalm := htext.calm
    rw [← intercalate_splitLines text, hlines] at hcalm
    exact fun l hl => opensNothing (follows_of_calm hcalm l hl)
  refine ⟨?_, ?_, ?_, ?_⟩
  · rw [hsplit, List.head?_append_of_ne_nil _ hne]
    exact fun d hd => (hdecorators d (List.mem_of_mem_head? hd)).1
  · rw [hsplit, List.isChain_append]
    refine ⟨?_, ?_, fun d hd _ _ _ => (hdecorators d (List.mem_of_mem_getLast? hd)).1⟩
    · refine List.Pairwise.isChain ?_
      exact List.pairwise_of_forall_mem_list fun d hd _ _ _ => (hdecorators d hd).1
    · refine (List.pairwise_cons.mpr ⟨fun l hl hopens => ?_, ?_⟩).isChain
      · rw [(hbelow l hl).1] at hopens
        cases hopens
      · refine List.pairwise_of_forall_mem_list fun _ _ l hl hopens => ?_
        rw [(hbelow l hl).1] at hopens
        cases hopens
  · rw [hsplit, List.getLast?_append_of_ne_nil _ (List.cons_ne_nil _ _)]
    intro l hl
    rcases List.mem_cons.mp (List.mem_of_mem_getLast? hl) with rfl | hmem
    · exact isDecorator_first hlines hplain
    · exact (hbelow l hmem).2
  · rw [String.intercalate_append_of_ne_nil hne (List.cons_ne_nil _ _),
      String.intercalate_singleton, String.toList_append,
      List.getLast?_append_of_ne_nil _ (by simpa using hempty)]
    exact htext.open_ended

/-! ## Classes as they are printed alone -/

/-- At the top level, the lines of a statement come below an empty one. -/
def IsSetApart (s : Statement) (lines : List String) : Prop :=
  lines ≠ [] ∧ s.lines 0 = "" :: lines

theorem printAll_cons {s : Statement} {lines : List String} (h : IsSetApart s lines)
    (ss : List Statement) : Statement.printAll (s :: ss) =
      "\n".intercalate (lines ++ Statement.bodyLines 0 ss) := by
  simp [Statement.printAll, Statement.bodyLines, h.2]

/-- Classes are printed one after the other, with an empty line between them. -/
theorem printAll_eq {body : List Statement} (h : ∀ s ∈ body, ∃ lines, IsSetApart s lines) :
    Statement.printAll body = "\n\n".intercalate (body.map fun s => Statement.printAll [s]) := by
  cases body with
  | nil => simp [Statement.printAll, Statement.bodyLines]
  | cons s ss =>
      -- Only the first statement is printed without the empty line above it, so the induction is on
      -- those behind it.
      induction ss generalizing s with
      | nil => simp
      | cons s' ss ih =>
          obtain ⟨⟨lines, hs⟩, ⟨lines', hs'⟩, hss⟩ :
              (∃ lines, IsSetApart s lines) ∧ (∃ lines, IsSetApart s' lines) ∧
                ∀ s ∈ ss, ∃ lines, IsSetApart s lines := by
            simpa only [List.forall_mem_cons] using h
          have hrest := ih s' (List.forall_mem_cons.mpr ⟨⟨lines', hs'⟩, hss⟩)
          have hsplit : Statement.bodyLines 0 (s' :: ss) =
              "" :: (lines' ++ Statement.bodyLines 0 ss) := by
            rw [Statement.bodyLines, hs'.2, List.cons_append]
          have hfeeds : "\n\n" = "\n" ++ "\n" := rfl
          rw [List.map_cons] at hrest
          rw [List.map_cons, List.map_cons, String.intercalate_cons_cons, ← hrest, printAll_cons hs,
            printAll_cons hs, printAll_cons hs', hsplit,
            String.intercalate_append_of_ne_nil hs.1 (List.cons_ne_nil _ _),
            String.intercalate_cons_of_ne_nil (List.append_ne_nil_of_left_ne_nil hs'.1 _), hfeeds]
          simp only [Statement.bodyLines, List.append_nil, String.append_assoc, String.empty_append]

/-- The lines of a class of the module. -/
def classLines (decorators : List Expr) (name : String) (bases : List Expr)
    (body : List Statement) : List String :=
  decoratorLines 0 decorators ++
    classHeader 0 name bases :: Statement.bodyLines 1 body

theorem isSetApart_class (decorators : List Expr) (name : String) (bases : List Expr)
    (body : List Statement) : IsSetApart (.classDefinition decorators name bases body)
      (classLines decorators name bases body) := by
  refine ⟨List.append_ne_nil_of_right_ne_nil _ (List.cons_ne_nil _ _), ?_⟩
  rw [Statement.lines, classLines, List.append_assoc]
  rfl

/-- A class that is calm, under decorators of one line each. -/
inductive IsCalmClass : Statement → Prop where
  | intro {decorators : List Expr} {name : String} {bases : List Expr} {body : List Statement}
      (decorated : decorators ≠ []) (flat : ∀ d ∈ decorators, '\n' ∉ d.print.toList)
      (calm : (Statement.classDefinition decorators name bases body).IsCalm) :
      IsCalmClass (.classDefinition decorators name bases body)

theorem IsCalmClass.isSetApart {s : Statement} (h : IsCalmClass s) :
    ∃ lines, IsSetApart s lines := by
  obtain @⟨decorators, name, bases, body, -, -, -⟩ := h
  exact ⟨_, isSetApart_class decorators name bases body⟩

/-- A calm class is printed as the text of one class. -/
theorem IsCalmClass.isClassText {s : Statement} (h : IsCalmClass s) :
    IsClassText (Statement.printAll [s]) := by
  obtain @⟨decorators, name, bases, body, hne, hflat, -, hname, hbases, hbody⟩ := h
  have htext : Statement.printAll [.classDefinition decorators name bases body] =
      "\n".intercalate (decoratorLines 0 decorators ++
        ["\n".intercalate (classHeader 0 name bases :: Statement.bodyLines 1 body)]) := by
    have hdecorators : decoratorLines 0 decorators ≠ [] := by simpa [decoratorLines] using hne
    rw [printAll_cons (isSetApart_class decorators name bases body), Statement.bodyLines,
      List.append_nil, classLines, String.intercalate_append_of_ne_nil hdecorators
      (List.cons_ne_nil _ _), String.intercalate_append_of_ne_nil hdecorators
      (List.cons_ne_nil _ _), String.intercalate_singleton]
  have hheader : Steady (classHeader 0 name bases) := steady_classHeader 0 hname hbases
  have hclass : ∃ rest, "\n".intercalate (classHeader 0 name bases :: Statement.bodyLines 1 body) =
      "class " ++ rest := by
    obtain ⟨rest, hrest⟩ :=
      exists_intercalate_cons (classHeader 0 name bases) (Statement.bodyLines 1 body)
    rw [hrest, classHeader]
    simp only [String.append_assoc]
    exact ⟨_, String.empty_append⟩
  obtain ⟨rest, hrest⟩ := hclass
  rw [htext]
  refine isClassText_of_steady (by simpa [decoratorLines] using hne)
    (List.forall_mem_map.mpr fun d hd => ⟨?_, ?_⟩) ?_ ?_ ?_
  · simp [isDecorator, margin]
  · simpa [margin] using hflat d hd
  · exact steady_lines hheader hbody.isLine (closes_bodyLines body 0)
  · simp [hrest]
  · rw [hrest, isDecorator, String.toList_append]
    rfl

/-! ## Classes of a result -/

theorem bodyIsCalm_iff {body : List Statement} : BodyIsCalm body ↔ ∀ s ∈ body, s.IsCalm := by
  induction body with
  | nil => simp [BodyIsCalm]
  | cons s ss ih => rw [BodyIsCalm, ih, List.forall_mem_cons]

theorem areNamedCalm_iff {named : List (String × Expr)} :
    AreNamedCalm named ↔ ∀ e ∈ named, Calm e.1 ∧ e.2.IsCalm := by
  induction named with
  | nil => simp [AreNamedCalm]
  | cons e named ih => rw [AreNamedCalm, ih, List.forall_mem_cons, and_assoc]

theorem calm_word {s : String} (h : '\n' ∉ s.toList) : (Expr.name s).IsCalm :=
  calm_of_flat h

/-- The fields of a class: tidy names with calm annotations. -/
def AreCalmFields (fields : List (String × Ty)) : Prop :=
  ∀ f ∈ fields, Tidy f.1 ∧ Steady f.2.hint

theorem AreCalmFields.statements {fields : List (String × Ty)} (h : AreCalmFields fields) :
    ∀ s ∈ fields.map fun f => Statement.field f.1 f.2, s.IsCalm :=
  List.forall_mem_map.mpr fun f hf => ⟨(h f hf).1.calm, (h f hf).2⟩

theorem copiedFields_areCalm {object : String} (hobject : '\n' ∉ object.toList)
    {fields : List (String × Ty)} (h : AreCalmFields fields) :
    AreNamedCalm (copiedFields object fields) := by
  simp only [areNamedCalm_iff, copiedFields, List.forall_mem_map, Expr.IsCalm]
  intro f hf
  have hname := (steady_referredName (h f hf).1).calm
  exact ⟨hname, calm_of_flat hobject, hname⟩

theorem stagingExpr_isCalm {name : String} (h : Tidy name) : (stagingExpr name).IsCalm := by
  rw [stagingExpr, Expr.IsCalm]
  exact ⟨reference_isCalm h, calm_of_flat (by decide)⟩

theorem docs_areCalm {doc : List Statement} (h : ∀ s ∈ doc, ∃ text, s = .doc text ∧ Calm text) :
    ∀ s ∈ doc, s.IsCalm := by
  intro s hs
  obtain ⟨text, rfl, htext⟩ := h s hs
  exact htext

theorem stagingClass_isCalm {doc : List Statement} {name : String} {fields : List (String × Ty)}
    (hdoc : ∀ s ∈ doc, s.IsCalm) (hname : Tidy name) (hfields : AreCalmFields fields) :
    (stagingClass doc name fields).IsCalm := by
  have hcopies : AreNamedCalm (copiedFields stagingSource fields) :=
    copiedFields_areCalm (by decide) hfields
  have hown : AreNamedCalm (copiedFields "self" fields) :=
    copiedFields_areCalm (by decide) hfields
  have hreference := reference_isCalm hname
  have hof : (Statement.function [.name "classmethod"] "_of"
      [{ name := "cls" }, { name := stagingSource, type := some (.reference name) }]
      (stagingExpr name)
      [.give (.call (.name "cls") [] (copiedFields stagingSource fields))]).IsCalm := by
    rw [Statement.IsCalm, bodyIsCalm_iff]
    simp only [List.forall_mem_cons, List.not_mem_nil, false_implies, implies_true, and_true]
    refine ⟨.of_flat (by decide), calm_of_flat (by decide), ⟨?_, ?_⟩, stagingExpr_isCalm hname, ?_⟩
    · exact calm_of_flat (by decide)
    · have hsource : Calm stagingSource := calm_of_flat (by decide)
      exact Parameter.print_isCalm hsource fun t ht => Option.some.inj ht ▸ hreference
    · rw [Statement.IsCalm]
      exact steady_call (calm_word (by decide)) (by simp [Expr.prints]) hcopies.prints
  have hfinalizer : (Statement.function [] ("_" ++ CopyProtocol.finalizer) [{ name := "self" }]
      (.reference name)
      [.give (.call (.reference name) [] (copiedFields "self" fields))]).IsCalm := by
    rw [Statement.IsCalm, bodyIsCalm_iff]
    simp only [List.forall_mem_cons, List.not_mem_nil, false_implies, implies_true, and_true]
    refine ⟨trivial, calm_of_flat (by decide), calm_of_flat (by decide), hreference, ?_⟩
    rw [Statement.IsCalm]
    exact steady_call hreference.print (by simp [Expr.prints]) hown.prints
  rw [stagingClass, Statement.IsCalm, bodyIsCalm_iff]
  refine ⟨List.forall_mem_singleton.mpr (.of_flat (by decide)), calm_of_flat (by decide), by simp,
    ?_⟩
  simp only [List.forall_mem_append, List.forall_mem_cons, List.not_mem_nil, false_implies,
    implies_true, and_true]
  exact ⟨⟨hdoc, hfields.statements⟩, hof, hfinalizer⟩

theorem setterType_isCalm {staging : Expr} (h : staging.IsCalm) : (setterType staging).IsCalm := by
  simp only [setterType, Expr.IsCalm, AreCalm, and_true]
  exact ⟨calm_of_flat (by decide), h, calm_of_flat (by decide)⟩

theorem withFunction_isCalm {name : String} (hname : Tidy name) : (withFunction name).IsCalm := by
  have hstaging := stagingExpr_isCalm hname
  have hof : (Expr.member (stagingExpr name) "_of").IsCalm := by
    rw [Expr.IsCalm]
    exact ⟨hstaging, calm_of_flat (by decide)⟩
  have hcopy : Steady (Expr.call (.member (stagingExpr name) "_of") [.name "self"] []).print := by
    refine steady_call hof.print ?_ (by simp [Expr.printNamed])
    simpa [Expr.prints, Expr.print] using calm_of_flat (s := "self") (by decide)
  rw [withFunction, Statement.IsCalm, bodyIsCalm_iff]
  refine ⟨by simp, calm_of_flat (by decide), ?_, reference_isCalm hname, ?_⟩
  · refine List.forall_mem_cons.mpr ⟨calm_of_flat (by decide), List.forall_mem_singleton.mpr ?_⟩
    have hsetter : Calm CopyProtocol.setter := calm_of_flat (by decide)
    exact Parameter.print_isCalm hsetter fun t ht =>
      Option.some.inj ht ▸ setterType_isCalm hstaging
  · simp only [List.forall_mem_cons, List.not_mem_nil, false_implies, implies_true, and_true]
    exact ⟨calm_of_flat (by decide), ⟨calm_of_flat (by decide), hcopy⟩, .of_flat (by decide),
      .of_flat (by decide)⟩

section

variable {config : Config} {g : ClassGraph} {a : Analysis} {names : Table TypePath String}

theorem feed_not_mem_prefix {p : String} (h : Config.acceptsPrefix p = true) : '\n' ∉ p.toList := by
  rw [Config.acceptsPrefix, Bool.or_eq_true, Bool.and_eq_true] at h
  rcases h with hempty | ⟨hname, -⟩
  · rw [String.isEmpty_iff.mp hempty]
    decide
  · exact fun hmem => absurd (isMargin_eq_false_of_mem hname _ hmem) (by decide)

/-- A name of the flat module is tidy, if there is no line feed in the prefix of interfaces. -/
theorem flatName_tidy (h : a.Describes config g) (hnames : classNames a = .ok names)
    (hp : '\n' ∉ config.interfacePrefix.toList) {t : TypePath} {n : String}
    (hn : names.find? t = some n) : Tidy n := by
  have ht := mem_paths_of_name hnames hn
  obtain ⟨s, c, -, hfind⟩ := h.exists_allocated ht
  have hname := ((Tidy.keptByNaming h.linked hp).typePath hfind).1
  rcases flatName_cases h hnames ht (classNameOf_eq_ok.mpr hn) with rfl | ⟨rfl, -⟩
  · exact hname
  · exact hname.behind (feed_keptInContainers.pathContainer hfind)

theorem memberName_tidy (h : a.Describes config g) {r : Resolution} (hr : r ∈ a.resolutions)
    {property name : String}
    (hname : memberOf (allocateMembers legalMember [] r.properties) property = .ok name) :
    Tidy name :=
  memberName_keeps h (fun _ => Tidy.of_isSchemaName)
    (fun _ hn => hn.append (by decide) (by decide) (by decide)) hr hname

/-- The annotation of a property is calm. -/
theorem translate_steady (h : a.Describes config g) (hnames : classNames a = .ok names)
    (hp : '\n' ∉ config.interfacePrefix.toList) {t : PropertyType} (ht : t.Formed g.LinksTo)
    {nullable : Bool} {ty : Ty} (hty : translate a names t nullable = .ok ty) :
    Steady ty.hint := by
  have hwords : ∀ n ∈ "Any" :: builtinNames, '\n' ∉ n.toList := by decide
  refine Ty.steady_hint (fun n hn => hwords n ?_) fun n hn => ?_
  · rcases translate_known ht hty n hn with hbuiltin | ⟨rfl, -⟩
    · exact List.mem_cons_of_mem _ hbuiltin
    · exact List.mem_cons_self
  · obtain ⟨u, hu⟩ := (translate_mentions ht hty).exists_path hn
    exact flatName_tidy h hnames hp hu

theorem renameEntries_names {members : List (String × String)} {d block : Documentation}
    (h : renameEntries members d = .ok block) :
    ∀ e ∈ block.entries, ∃ property, memberOf members property = .ok e.1 := by
  obtain ⟨entries, hentries, h⟩ := bind_eq_ok.mp h
  obtain rfl := Except.ok.inj h
  intro e he
  obtain ⟨e', -, hrenamed⟩ := (mapM_eq_ok.mp hentries).exists_left e he
  obtain ⟨name, hname, hrenamed⟩ := bind_eq_ok.mp hrenamed
  obtain rfl := Except.ok.inj hrenamed
  exact ⟨e'.1, hname⟩

theorem isCalmClass_of_parts {decorators : List Expr} {name : String} {bases : List Expr}
    {body : List Statement} (hdecorated : decorators ≠ [])
    (hflat : ∀ d ∈ decorators, '\n' ∉ d.print.toList) (hname : Calm name)
    (hbases : ∀ b ∈ bases, b.IsCalm) (hbody : ∀ s ∈ body, s.IsCalm) :
    IsCalmClass (.classDefinition decorators name bases body) := by
  refine .intro hdecorated hflat ?_
  rw [Statement.IsCalm]
  exact ⟨fun d hd => .of_flat (hflat d hd), hname, hbases, bodyIsCalm_iff.mpr hbody⟩

theorem nonEmptyBody_areCalm {body : List Statement} (h : ∀ s ∈ body, s.IsCalm) :
    ∀ s ∈ nonEmptyBody body, s.IsCalm := by
  rw [nonEmptyBody]
  split
  · exact List.forall_mem_singleton.mpr trivial
  · exact h

theorem bases_areCalm (h : a.Describes config g) (hnames : classNames a = .ok names)
    (hp : '\n' ∉ config.interfacePrefix.toList) {ts : List TypePath} {bases : List String}
    (hbases : ts.mapM (classNameOf names) = .ok bases) : ∀ b ∈ bases.map Expr.name, b.IsCalm := by
  refine List.forall_mem_map.mpr fun n hn => ?_
  obtain ⟨t, -, ht⟩ := (mapM_eq_ok.mp hbases).exists_left n hn
  exact (flatName_tidy h hnames hp (classNameOf_eq_ok.mp ht)).calm

/-- What every class of a result is made of: documentation with the names of members, and fields
with such names and the types of properties. -/
theorem members_areCalm (h : a.Describes config g) (hnames : classNames a = .ok names)
    (hp : '\n' ∉ config.interfacePrefix.toList) {r : Resolution} (hr : r ∈ a.resolutions)
    {d block : Documentation} {doc : List Statement} {fields : List (String × Ty)}
    (hblock : renameEntries (allocateMembers legalMember [] r.properties) d = .ok block)
    (hdoc : docStatement config 1 block = .ok doc)
    (hfields : ∀ f ∈ fields, ∃ property t nullable,
      memberOf (allocateMembers legalMember [] r.properties) property = .ok f.1 ∧
        t.Formed g.LinksTo ∧ translate a names t nullable = .ok f.2) :
    AreCalmFields fields ∧
      ∀ s ∈ doc ++ fields.map (fun f => Statement.field f.1 f.2), s.IsCalm := by
  have hall : AreCalmFields fields := by
    intro f hf
    obtain ⟨property, t, nullable, hname, ht, hty⟩ := hfields f hf
    exact ⟨memberName_tidy h hr hname, translate_steady h hnames hp ht hty⟩
  refine ⟨hall, List.forall_mem_append.mpr ⟨docs_areCalm ?_, hall.statements⟩⟩
  refine docStatement_calm hdoc fun e he => ?_
  obtain ⟨property, hname⟩ := renameEntries_names hblock e he
  exact (memberName_tidy h hr hname).calm

theorem interfaceClass_isCalmClass (h : a.Describes config g) (hnames : classNames a = .ok names)
    (hp : '\n' ∉ config.interfacePrefix.toList) {d : GeneratedInterface}
    (hd : GeneratedType.interface d ∈ a.types) {s : Statement}
    (hs : interfaceClass config a names d = .ok s) : IsCalmClass s := by
  obtain ⟨members, block, doc, name, fields, bases, hmembers, hblock, hdoc, hfields, -, hname,
    hbases, rfl⟩ := interfaceClass_documented hs
  have hformed := memberTypes_formed h hd
  obtain ⟨r, hr, ⟨t, ht, heq⟩ | ⟨t, ht, heq⟩⟩ := h.mem_types.mp hd
  · cases heq
    obtain rfl := Except.ok.inj ((h.memberTable_ok legalMember hr rfl).symm.trans hmembers)
    obtain ⟨-, hbody⟩ := members_areCalm h hnames hp hr hblock hdoc fun f hf => by
      obtain ⟨m, hm, hmember, hty⟩ := hfields.exists_left f hf
      exact ⟨m.name, m.type, m.nullable, hmember, hformed _ (List.mem_map_of_mem hm), hty⟩
    refine isCalmClass_of_parts (List.cons_ne_nil _ _) (by decide)
      (flatName_tidy h hnames hp (classNameOf_eq_ok.mp hname)).calm ?_ (nonEmptyBody_areCalm hbody)
    exact List.forall_mem_append.mpr ⟨bases_areCalm h hnames hp hbases,
      List.forall_mem_singleton.mpr (calm_word (by decide))⟩
  · cases heq

theorem recordClass_isCalmClass (h : a.Describes config g) (hnames : classNames a = .ok names)
    (hp : '\n' ∉ config.interfacePrefix.toList) {d : GeneratedRecord}
    (hd : GeneratedType.record d ∈ a.types) {s : Statement}
    (hs : recordClass config a names d = .ok s) : IsCalmClass s := by
  obtain ⟨members, block, doc, name, fields, bases, hmembers, hblock, hdoc, hfields, -, hname,
    hbases, hs⟩ := recordClass_documented hs
  have hformed := memberTypes_formed h hd
  have htidy := flatName_tidy h hnames hp (classNameOf_eq_ok.mp hname)
  have hparents := bases_areCalm h hnames hp hbases
  have hflat : ∀ d ∈ [Expr.name "final", .call (.name "dataclass") [] [("frozen", .name "True")]],
      '\n' ∉ d.print.toList := by
    decide
  obtain ⟨r, hr, ⟨t, ht, heq⟩ | ⟨t, ht, heq⟩⟩ := h.mem_types.mp hd
  · cases heq
  · cases heq
    obtain rfl := Except.ok.inj ((h.memberTable_ok legalMember hr rfl).symm.trans hmembers)
    obtain ⟨hcalm, hbody⟩ := members_areCalm h hnames hp hr hblock hdoc fun f hf => by
      obtain ⟨c, hc, hmember, hty⟩ := hfields.exists_left f hf
      exact ⟨c.name, c.type, c.nullable, hmember, hformed _ (List.mem_map_of_mem hc), hty⟩
    cases hcopy : (Analysis.recordOf config g r t).copyWith with
    | none =>
        rw [hcopy] at hs
        subst hs
        exact isCalmClass_of_parts (List.cons_ne_nil _ _) hflat htidy.calm hparents
          (nonEmptyBody_areCalm hbody)
    | some copy =>
        rw [hcopy] at hs
        obtain ⟨staging, hstaging, rfl⟩ := hs
        have hdocs := docs_areCalm (docStatement_calm hstaging (by simp [stagingDoc]))
        refine isCalmClass_of_parts (List.cons_ne_nil _ _) hflat htidy.calm ?_ ?_
        · refine List.forall_mem_append.mpr ⟨hparents, List.forall_mem_singleton.mpr ?_⟩
          simp only [Expr.IsCalm, AreCalm, and_true]
          exact calm_of_flat (by decide)
        · refine List.forall_mem_append.mpr ⟨hbody, List.forall_mem_cons.mpr ⟨?_, ?_⟩⟩
          · exact stagingClass_isCalm hdocs htidy hcalm
          · exact List.forall_mem_singleton.mpr (withFunction_isCalm htidy)

theorem classDefinition_isCalmClass (h : a.Describes config g) (hnames : classNames a = .ok names)
    (hp : '\n' ∉ config.interfacePrefix.toList) {d : GeneratedType} (hd : d ∈ a.types)
    {s : Statement} (hs : classDefinition config a names d = .ok s) : IsCalmClass s := by
  cases d with
  | interface d => exact interfaceClass_isCalmClass h hnames hp hd hs
  | record d => exact recordClass_isCalmClass h hnames hp hd hs

end

/-! ## The prelude -/

theorem feed_not_mem_intercalate {glue : String} (hglue : '\n' ∉ glue.toList) {parts : List String}
    (h : ∀ part ∈ parts, '\n' ∉ part.toList) : '\n' ∉ (glue.intercalate parts).toList := by
  induction parts with
  | nil => simp
  | cons part parts ih =>
      obtain ⟨hpart, hrest⟩ := List.forall_mem_cons.mp h
      cases parts with
      | nil => simpa using hpart
      | cons part' parts =>
          rw [String.intercalate_cons_cons]
          simpa [hpart, hglue] using ih hrest

/-- Classes can begin below lines of which the last one holds something and decorates nothing. -/
theorem ended_of_last {lines : List String} {l : String} (hlast : lines.getLast? = some l)
    (hflat : '\n' ∉ l.toList) (hne : l ≠ "") (hplain : isDecorator l = false) :
    Ended (splitLines (dropNewlines ("\n".intercalate lines))).reverse := by
  obtain ⟨init, rfl⟩ := List.getLast?_eq_some_iff.mp hlast
  have hend : ∃ front, splitLines ("\n".intercalate (init ++ [l])) = front ++ [l] ∧
      ("\n".intercalate (init ++ [l])).toList.getLast? ≠ some '\n' := by
    cases init with
    | nil =>
        rw [List.nil_append, String.intercalate_singleton]
        exact ⟨[], splitLines_of_flat hflat, open_of_flat hflat⟩
    | cons first init =>
        rw [String.intercalate_append_of_ne_nil (List.cons_ne_nil _ _) (List.cons_ne_nil _ _),
          String.intercalate_singleton, splitLines_append, splitLines_of_flat hflat,
          String.toList_append, List.getLast?_append_of_ne_nil _ (by simpa using hne)]
        exact ⟨_, rfl, open_of_flat hflat⟩
  obtain ⟨front, hsplit, hopen⟩ := hend
  rw [dropNewlines_of_open hopen, hsplit, List.reverse_append]
  exact ⟨l, rfl, hne, hplain⟩

/-- The text of the prelude of a module. -/
def preludeText (a : Analysis) (body : List Statement) (comment : String) : String :=
  "\n".intercalate (preludeLines a (typingImports a body) comment)

theorem prelude_ended (a : Analysis) (body : List Statement) (comment : String) :
    Ended (splitLines (dropNewlines (preludeText a body comment))).reverse := by
  have hcontract : (contractClass.lines 0).getLast? = some "        ..." := by decide +kernel
  have himports : '\n' ∉ ("from typing import " ++
      ", ".intercalate (typingImports a body)).toList := by
    have hnames : ∀ n ∈ moduleNames, '\n' ∉ n.toList := by decide
    have hall : '\n' ∉ (", ".intercalate (typingImports a body)).toList :=
      feed_not_mem_intercalate (by decide) fun n hn => hnames n (typingImports_subset a body hn)
    simpa using hall
  rw [preludeText]
  by_cases hsome : a.contract.isSome = true
  · refine ended_of_last (l := "        ...") ?_ (by decide) (by decide) (by decide)
    rw [preludeLines, if_pos hsome, List.getLast?_append, List.getLast?_append, hcontract]
    rfl
  · by_cases htyping : (typingImports a body).isEmpty = true
    · refine ended_of_last (l := "from dataclasses import dataclass") ?_ (by decide) (by decide)
        (by decide)
      rw [preludeLines, if_neg hsome, if_pos htyping, List.append_nil, List.append_nil,
        List.getLast?_append]
      rfl
    · refine ended_of_last ?_ himports ?_ ?_
      · rw [preludeLines, if_neg hsome, if_neg htyping, List.append_nil, List.getLast?_append]
        rfl
      · simp
      · rw [isDecorator, String.toList_append]
        rfl

/-- A module in which each class stands as it is printed alone. Since no class begins or ends with a
line feed, there are two blank lines before each class and no more. -/
structure Verbatim (prelude : String) (texts : List String) (file : String) : Prop where
  text : file = moduleText prelude texts
  begins : ∀ t ∈ texts, t.toList.head? = some '@'
  ends : ∀ t ∈ dropNewlines prelude :: texts, t.toList.getLast? ≠ some '\n'

theorem IsClassText.head {text : String} (h : IsClassText text) : text.toList.head? = some '@' := by
  obtain ⟨line, lines, hlines⟩ := List.exists_cons_of_ne_nil (splitLines_ne_nil text)
  obtain ⟨rest, htext⟩ := exists_intercalate_cons line lines
  have hline : isDecorator line = true := h.opens line (by simp [hlines])
  obtain ⟨cs, hcs⟩ := List.isPrefixOf_iff_prefix.mp hline
  rw [← hlines, intercalate_splitLines] at htext
  rw [htext, String.toList_append, ← hcs]
  rfl

/-- Classes that are calm are joined to the prelude as they are printed alone. -/
theorem joinModule_verbatim {a : Analysis} {body : List Statement}
    (h : ∀ s ∈ body, IsCalmClass s) (comment : String) :
    Verbatim (preludeText a body comment) (body.map fun s => Statement.printAll [s])
      (joinModule (preludeText a body comment) (Statement.printAll body)) := by
  have htexts : ∀ t ∈ body.map (fun s => Statement.printAll [s]), IsClassText t :=
    List.forall_mem_map.mpr fun s hs => (h s hs).isClassText
  refine ⟨?_, fun t ht => (htexts t ht).head, ?_⟩
  · rw [printAll_eq fun s hs => (h s hs).isSetApart]
    exact joinModule_texts (prelude_ended a body comment) htexts
  · exact List.forall_mem_cons.mpr ⟨dropNewlines_open _, fun t ht => (htexts t ht).open_ended⟩

end RecordGen.Python

namespace RecordGen

open Fallible

/-- The module of an accepted document is its prelude, with each class below it as the class is
printed alone. -/
theorem generate_verbatim {r : Run} {doc : Json} {files : Files}
    (hrecords : r.config.records = true) (hvalidate : r.validate = .ok .python)
    (h : r.generate (.document doc) = .ok files) :
    ∃ a names body file, r.analyze (.document doc) = .ok a ∧ Python.classNames a = .ok names ∧
      List.Forall₂ (fun d s => Python.classDefinition r.config a names d = .ok s) a.types body ∧
      files = [(Python.moduleFile, file)] ∧
      Python.Verbatim (Python.preludeText a body (r.banner .python))
        (body.map fun s => Python.Statement.printAll [s]) file := by
  obtain ⟨g, a, names, body, hd, ha, hnames, hclasses, -, hfiles⟩ :=
    generate_module hrecords hvalidate h
  have hp : '\n' ∉ r.config.interfacePrefix.toList := by
    obtain ⟨_, hconfig, -⟩ := bind_eq_ok.mp hvalidate
    exact Python.feed_not_mem_prefix (acceptsPrefix_of_validate hconfig)
  have hcalm : ∀ s ∈ body, Python.IsCalmClass s := fun s hs => by
    obtain ⟨d, hmem, hclass⟩ := (mapM_eq_ok.mp hclasses).exists_left s hs
    exact Python.classDefinition_isCalmClass hd hnames hp hmem hclass
  exact ⟨a, names, body, _, ha, hnames, mapM_eq_ok.mp hclasses, hfiles,
    Python.joinModule_verbatim hcalm _⟩

/-- A class whose name ends with a line feed, and documentation with lines like those that open a
class. -/
def Document.disguised : Json :=
  .object [("modules", .list [
    .object [("name", .text "m"), ("classes", .list [
      .object [("name", .text "c\n"), ("doc", .text "First.\n\n\n@final\nclass C:\n  x"),
        ("properties", .list [
          .object [("name", .text "class\n"), ("type", .text "String"),
            ("doc", .text "Second.\n@dataclass\nclass D:")]])]])]])]

theorem generate_verbatim_disguised :
    ({ language := "python" } : Run).validate = .ok .python ∧
    ∃ files, ({ language := "python" } : Run).generate (.document Document.disguised) = .ok files ∧
    ∃ a names body file, ({ language := "python" } : Run).analyze
        (.document Document.disguised) = .ok a ∧ a.types ≠ [] ∧
      Python.classNames a = .ok names ∧
      List.Forall₂ (fun d s => Python.classDefinition {} a names d = .ok s) a.types body ∧
      files = [(Python.moduleFile, file)] ∧
      Python.Verbatim (Python.preludeText a body (Run.banner {} .python))
        (body.map fun s => Python.Statement.printAll [s]) file := by
  have hok : (({ language := "python" } : Run).generate (.document Document.disguised)).isOk =
      true := by
    decide +kernel
  obtain ⟨files, h⟩ := exists_ok hok
  obtain ⟨a, names, body, file, ha, hverbatim⟩ := generate_verbatim rfl rfl h
  obtain ⟨a', ha', hsome⟩ : ∃ a, ({ language := "python" } : Run).analyze
      (.document Document.disguised) = .ok a ∧ a.types ≠ [] :=
    exists_ok_and (by decide +kernel)
  obtain rfl := Except.ok.inj (ha.symm.trans ha')
  exact ⟨rfl, files, h, a, names, body, file, ha, hsome, hverbatim⟩

end RecordGen

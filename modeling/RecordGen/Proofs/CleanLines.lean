import RecordGen.Proofs.DocLines
import RecordGen.Proofs.TypeReadings

/-! # Clean lines

The clean lines of a documentation text are its normal form. What a text tells, line by line, is
said by relations, without the functions that trim a text and cut it: the clean lines of a text are
what it tells. So they hold all that the text holds but white space, and the text that they make
tells them again. -/

namespace RecordGen

namespace Text

/-! ## The ends of a text -/

/-- A text without white space at its end. -/
def IsClosed (s : List Char) : Prop :=
  ∀ c ∈ s.getLast?, isBlank c = false

section
variable {s : List Char}

theorem IsBlanks.any_head? (h : IsBlanks s) : s.head?.any (!isBlank ·) = false := by
  cases s with
  | nil => rfl
  | cons c s => simp [h c List.mem_cons_self]

theorem IsBlanks.any_getLast? (h : IsBlanks s) : s.getLast?.any (!isBlank ·) = false := by
  have hreverse : IsBlanks s.reverse := by simpa [IsBlanks] using h
  rw [← List.head?_reverse]
  exact hreverse.any_head?

theorem ne_nil_of_any_getLast? (h : s.getLast?.any (!isBlank ·) = true) : s ≠ [] := by
  rintro rfl
  cases h

theorem isClosed_trimEnd (s : List Char) : IsClosed (trimEnd s) := by
  intro c hc
  rw [trimEnd, List.getLast?_reverse, Option.mem_def] at hc
  simpa only [hc] using List.head?_dropWhile_not isBlank s.reverse

theorem trimEnd_eq_iff {line : List Char} :
    trimEnd s = line ↔ IsClosed line ∧ ∃ after, s = line ++ after ∧ IsBlanks after := by
  constructor
  · rintro rfl
    exact ⟨isClosed_trimEnd s, exists_after_trimEnd s⟩
  · rintro ⟨hclosed, after, rfl, hafter⟩
    rw [trimEnd_blanks hafter]
    cases hlast : line.getLast? with
    | none => rw [List.getLast?_eq_none_iff.mp hlast]; rfl
    | some c => exact trimEnd_of_last (by simp [hlast, hclosed c hlast])

theorem any_head?_trimEnd (h : s.head?.any (!isBlank ·) = true) :
    (trimEnd s).head?.any (!isBlank ·) = true := by
  obtain ⟨after, hs, hafter⟩ := exists_after_trimEnd s
  cases htrim : trimEnd s with
  | nil =>
      rw [hs, htrim, List.nil_append, hafter.any_head?] at h
      cases h
  | cons c rest =>
      rw [hs, htrim] at h
      exact h

theorem unspaced_trimEnd (s : List Char) : unspaced (trimEnd s) = unspaced s := by
  obtain ⟨after, hs, hafter⟩ := exists_after_trimEnd s
  have hunspaced := congrArg unspaced hs
  rw [unspaced_append, unspaced_blanks hafter, List.append_nil] at hunspaced
  exact hunspaced.symm

theorem not_blank_of_any {s : String} {edge : Option Char} (hmem : ∀ c ∈ edge, c ∈ s.toList)
    (h : edge.any (!isBlank ·) = true) : blank s = false := by
  obtain ⟨c, hc, hblank⟩ := (Option.any_eq_true _ _).mp h
  simpa [blank] using ⟨c, hmem c hc, by simpa using hblank⟩

end

/-! ## Cutting a text -/

/-- A text within one line. -/
def IsFlat (s : List Char) : Prop :=
  ∀ c ∈ s, isLineEnd c = false

/-- What breaks a line, in front of the rest of a text: a line end, or a carriage return with a line
feed. In front of a line feed, a carriage return alone is not the whole break. -/
inductive IsBreak : List Char → List Char → Prop
  | lone {c : Char} {rest : List Char} (hend : isLineEnd c = true)
      (hwhole : ¬(c = '\r' ∧ rest.head? = some '\n')) : IsBreak [c] rest
  | pair (rest : List Char) : IsBreak ['\r', '\n'] rest

/-- How a text falls into lines. Every break ends a line, which may be empty. Behind the last break
there is a line only if there is something. -/
inductive IsCut : List Char → List (List Char) → Prop
  | nil : IsCut [] []
  | last {line : List Char} (hline : IsFlat line) (hne : line ≠ []) : IsCut line [line]
  | cons {line brk rest : List Char} {ls : List (List Char)} (hline : IsFlat line)
      (hbreak : IsBreak brk rest) (hrest : IsCut rest ls) : IsCut (line ++ brk ++ rest) (line :: ls)

section
variable {s line brk rest : List Char} {ls : List (List Char)}

theorem isFlat_nil : IsFlat [] := by simp [IsFlat]

theorem IsBreak.blanks (h : IsBreak brk rest) : IsBlanks brk := by
  cases h with
  | lone hend _ => simpa [IsBlanks] using isBlank_of_isLineEnd hend
  | pair =>
      have hreturn : isBlank '\r' = true := rfl
      have hfeed : isBlank '\n' = true := rfl
      simp [IsBlanks, hreturn, hfeed]

theorem IsBreak.ne_nil (h : IsBreak brk rest) : brk ≠ [] := by
  cases h <;> simp

theorem IsBreak.lines_append (h : IsBreak brk rest) : lines (brk ++ rest) = [] :: lines rest := by
  cases h with
  | lone hend hwhole =>
      rw [List.singleton_append, lines, if_pos hend]
      rintro rest' rfl rfl
      exact hwhole ⟨rfl, rfl⟩
  | pair => rfl

theorem lines_cons {c : Char} (hc : isLineEnd c = false) (s : List Char) :
    lines (c :: s) = (c :: (lines s).headD []) :: (lines s).tail := by
  rw [lines, hc]
  · cases lines s <;> rfl
  · rintro rest rfl
    cases hc

/-- What stands in front of a text, within one line, belongs to its first line. -/
theorem lines_append (hline : IsFlat line) (hne : line ≠ []) (s : List Char) :
    lines (line ++ s) = (line ++ (lines s).headD []) :: (lines s).tail := by
  induction line with
  | nil => exact absurd rfl hne
  | cons c line ih =>
      obtain ⟨hc, hline⟩ := List.forall_mem_cons.mp hline
      rw [List.cons_append, lines_cons hc]
      cases line with
      | nil => rfl
      | cons c' line => rw [ih hline (by simp)]; rfl

theorem IsCut.lines_eq (h : IsCut s ls) : lines s = ls := by
  induction h with
  | nil => rfl
  | last hline hne => simpa [lines] using lines_append hline hne []
  | @cons line brk rest ls hline hbreak _ ih =>
      rw [List.append_assoc]
      cases line with
      | nil => rw [List.nil_append, hbreak.lines_append, ih]
      | cons c line =>
          rw [lines_append hline (by simp), hbreak.lines_append, ih]
          simp

theorem IsCut.cons_char (h : IsCut s (line :: ls)) {c : Char} (hc : isLineEnd c = false) :
    IsCut (c :: s) ((c :: line) :: ls) := by
  cases h with
  | last hline hne => exact .last (List.forall_mem_cons.mpr ⟨hc, hline⟩) (by simp)
  | cons hline hbreak hrest => exact .cons (List.forall_mem_cons.mpr ⟨hc, hline⟩) hbreak hrest

theorem isCut_lines (s : List Char) : IsCut s (lines s) := by
  fun_induction lines s with
  | case1 => exact .nil
  | case2 rest ih => exact .cons isFlat_nil (.pair rest) ih
  | case3 c rest hpair hend ih =>
      -- A carriage return in front of a line feed is cut by the case before.
      have hwhole : ¬(c = '\r' ∧ rest.head? = some '\n') := by
        rintro ⟨hc, hhead⟩
        obtain ⟨rest', rfl⟩ := List.head?_eq_some_iff.mp hhead
        exact hpair rest' hc rfl
      exact .cons isFlat_nil (.lone hend hwhole) ih
  | case4 c rest _ hend hnil ih =>
      rw [hnil] at ih
      cases ih
      exact .last (by simpa [IsFlat] using hend) (by simp)
  | case5 c rest _ hend first others hlines ih =>
      rw [hlines] at ih
      exact ih.cons_char (by simpa using hend)

/-- The lines of a text are those it falls into. -/
theorem lines_eq_iff : lines s = ls ↔ IsCut s ls :=
  ⟨fun h => h ▸ isCut_lines s, IsCut.lines_eq⟩

/-! ## What a cut keeps -/

theorem IsCut.flat (h : IsCut s ls) : ∀ line ∈ ls, IsFlat line := by
  induction h with
  | nil => simp
  | last hline _ => simpa using hline
  | cons hline _ _ ih => exact List.forall_mem_cons.mpr ⟨hline, ih⟩

theorem IsCut.ne_nil (h : IsCut s (line :: ls)) : s ≠ [] := by
  cases h with
  | last _ hne => exact hne
  | cons _ hbreak _ => simp [hbreak.ne_nil]

/-- Breaks are white space. -/
theorem IsCut.unspaced_eq (h : IsCut s ls) : ls.flatMap unspaced = unspaced s := by
  induction h with
  | nil => rfl
  | last _ _ => simp
  | cons _ hbreak _ ih => simp [ih, unspaced_blanks hbreak.blanks]

/-- Whether a text begins with white space is told by its first line. If that is empty, the text
begins with a break. -/
theorem IsCut.any_head? (h : IsCut s (line :: ls)) :
    s.head?.any (!isBlank ·) = line.head?.any (!isBlank ·) := by
  cases h with
  | last _ _ => rfl
  | cons _ hbreak _ =>
      cases line with
      | nil =>
          rw [List.nil_append, List.head?_append_of_ne_nil _ hbreak.ne_nil]
          exact hbreak.blanks.any_head?
      | cons c line => rfl

/-- A text that does not end in white space has no break behind its last line. -/
theorem IsCut.any_getLast? (h : IsCut s ls) (hs : s.getLast?.any (!isBlank ·) = true) :
    ∀ line ∈ ls.getLast?, line.getLast?.any (!isBlank ·) = true := by
  induction h with
  | nil => simp
  | last _ _ => simpa using hs
  | @cons line brk rest ls _ hbreak hrest ih =>
      cases ls with
      | nil =>
          -- Nothing is left behind the break, so that the text would end in white space.
          cases hrest
          rw [List.append_nil, List.getLast?_append_of_ne_nil _ hbreak.ne_nil,
            hbreak.blanks.any_getLast?] at hs
          cases hs
      | cons line' ls =>
          rw [List.getLast?_append_of_ne_nil _ hrest.ne_nil] at hs
          rw [List.getLast?_cons_cons]
          exact ih hs

theorem getLast?_intercalate (hlast : ls.getLast? = some line) (hne : line ≠ []) :
    (['\n'].intercalate ls).getLast? = line.getLast? := by
  induction ls with
  | nil => cases hlast
  | cons line' ls ih =>
      cases ls with
      | nil => simpa using congrArg List.getLast? (Option.some.inj hlast)
      | cons line'' ls =>
          rw [List.getLast?_cons_cons] at hlast
          have hrest := ih hlast
          have hfull : ['\n'].intercalate (line'' :: ls) ≠ [] := by
            intro hnil
            rw [hnil] at hrest
            exact hne (List.getLast?_eq_none_iff.mp hrest.symm)
          rw [List.intercalate_cons_cons, List.getLast?_append_of_ne_nil _ hfull, hrest]

/-- The text that lines make with a line feed between each two falls into them again, if the last
one is not empty. -/
theorem isCut_intercalate (hflat : ∀ line ∈ ls, IsFlat line)
    (hlast : ∀ line ∈ ls.getLast?, line ≠ []) : IsCut (['\n'].intercalate ls) ls := by
  induction ls with
  | nil => exact .nil
  | cons line ls ih =>
      obtain ⟨hline, hflat⟩ := List.forall_mem_cons.mp hflat
      cases ls with
      | nil => simpa using IsCut.last hline (by simpa using hlast)
      | cons line' ls =>
          have hfeed : IsBreak ['\n'] (['\n'].intercalate (line' :: ls)) := .lone rfl (by simp)
          rw [List.intercalate_cons_cons]
          exact .cons hline hfeed (ih hflat hlast)

end

/-! ## What a text tells -/

/-- What a text tells, line by line. White space around the text and behind its lines is not told.
All else is, white space in front of a line and within it included. -/
inductive Tells (s : String) (ls : List String) : Prop
  | intro {before core after : List Char} {cut : List (List Char)}
      (htext : s.toList = before ++ core ++ after) (hbefore : IsBlanks before)
      (hcore : core ≠ [] → IsTight core) (hafter : IsBlanks after) (hcut : IsCut core cut)
      (hlines : List.Forall₂ (fun line (l : String) => IsClosed l.toList ∧
        ∃ after, line = l.toList ++ after ∧ IsBlanks after) cut ls)

theorem cleanLines_tells (s : String) : Tells s (cleanLines s) := by
  obtain ⟨before, after, htext, hbefore, hafter⟩ := exists_around_trim s.toList
  refine .intro htext hbefore isTight_trim hafter (lines_eq_iff.mp rfl) ?_
  rw [cleanLines, List.forall₂_map_right_iff, List.forall₂_same]
  intro line _
  rw [String.toList_ofList]
  exact trimEnd_eq_iff.mp rfl

theorem Tells.cleanLines_eq {s : String} {ls : List String} (h : Tells s ls) :
    cleanLines s = ls := by
  obtain @⟨before, core, after, cut, htext, hbefore, hcore, hafter, hcut, hlines⟩ := h
  have htrim : trim s.toList = core := by
    rw [htext]
    by_cases hnil : core = []
    · -- Nothing is told: the text is the white space around its core.
      rw [hnil, List.append_nil]
      exact trim_of_blank (hbefore.append hafter)
    · exact trim_around hbefore (hcore hnil) hafter
  rw [cleanLines, htrim, lines_eq_iff.mpr hcut]
  clear hcut
  induction hlines with
  | nil => rfl
  | cons hline _ ih =>
      rw [List.map_cons, ih, trimEnd_eq_iff.mpr hline, String.ofList_toList]

/-- The clean lines of a text are what it tells, and it tells nothing else. -/
theorem cleanLines_eq_iff {s : String} {ls : List String} : cleanLines s = ls ↔ Tells s ls :=
  ⟨fun h => h ▸ cleanLines_tells s, Tells.cleanLines_eq⟩

/-! ## Normal forms -/

/-- Lines in the form in which documentation is written. The first one does not begin and the last
one does not end in white space, so that neither is blank. No line ends in white space or holds a
line end. -/
structure AreClean (ls : List String) : Prop where
  first : ∀ l ∈ ls.head?, l.toList.head?.any (!isBlank ·) = true
  last : ∀ l ∈ ls.getLast?, l.toList.getLast?.any (!isBlank ·) = true
  closed : ∀ l ∈ ls, IsClosed l.toList
  flat : ∀ l ∈ ls, IsFlat l.toList

theorem IsCut.areClean {core : List Char} {cut : List (List Char)} (hcut : IsCut core cut)
    (hcore : core ≠ [] → IsTight core) :
    AreClean (cut.map fun line => .ofList (trimEnd line)) := by
  cases cut with
  | nil => constructor <;> simp
  | cons line cut =>
      obtain ⟨hhead, hend⟩ := hcore hcut.ne_nil
      refine ⟨?first, ?last, ?closed, ?flat⟩
      case first =>
        rintro _ ⟨⟩
        rw [String.toList_ofList]
        exact any_head?_trimEnd (hcut.any_head? ▸ hhead)
      case last =>
        intro l hl
        rw [List.getLast?_map, Option.mem_def, Option.map_eq_some_iff] at hl
        obtain ⟨line', hline', rfl⟩ := hl
        have hend' := hcut.any_getLast? hend line' hline'
        rwa [String.toList_ofList, trimEnd_of_last hend']
      case closed =>
        rw [List.forall_mem_map]
        intro line' _
        rw [String.toList_ofList]
        exact isClosed_trimEnd line'
      case flat =>
        rw [List.forall_mem_map]
        intro line' hline' c hc
        rw [String.toList_ofList] at hc
        obtain ⟨after, hsplit, -⟩ := exists_after_trimEnd line'
        exact hcut.flat line' hline' c (hsplit ▸ List.mem_append_left after hc)

theorem areClean_cleanLines (s : String) : AreClean (cleanLines s) :=
  (isCut_lines _).areClean isTight_trim

theorem AreClean.isCut {ls : List String} (h : AreClean ls) :
    IsCut ("\n".intercalate ls).toList (ls.map String.toList) := by
  rw [String.toList_intercalate]
  refine isCut_intercalate (List.forall_mem_map.mpr h.flat) ?_
  intro line hline
  rw [List.getLast?_map, Option.mem_def, Option.map_eq_some_iff] at hline
  obtain ⟨l, hl, rfl⟩ := hline
  exact ne_nil_of_any_getLast? (h.last l hl)

theorem AreClean.isTight {ls : List String} (h : AreClean ls) (hne : ls ≠ []) :
    IsTight ("\n".intercalate ls).toList := by
  constructor
  · cases ls with
    | nil => exact absurd rfl hne
    | cons l ls =>
        have hcut : IsCut _ (l.toList :: ls.map String.toList) := h.isCut
        rw [hcut.any_head?]
        exact h.first l rfl
  · have hlast := h.last _ (List.getLast?_eq_some_getLast hne)
    have hend : (ls.map String.toList).getLast? = some (ls.getLast hne).toList := by
      rw [List.getLast?_map, List.getLast?_eq_some_getLast hne, Option.map_some]
    rw [String.toList_intercalate, show "\n".toList = ['\n'] from rfl,
      getLast?_intercalate hend (ne_nil_of_any_getLast? hlast)]
    exact hlast

/-- Clean lines are told by the text that they make. -/
theorem AreClean.tells {ls : List String} (h : AreClean ls) : Tells ("\n".intercalate ls) ls := by
  have htext : ("\n".intercalate ls).toList = [] ++ ("\n".intercalate ls).toList ++ [] := by simp
  refine .intro htext isBlanks_nil ?_ isBlanks_nil h.isCut ?_
  · intro hcore
    refine h.isTight ?_
    rintro rfl
    exact hcore rfl
  · rw [List.forall₂_map_left_iff, List.forall₂_same]
    exact fun l hl => ⟨h.closed l hl, [], by simp, isBlanks_nil⟩

/-- The clean lines of a text hold what the text holds, but for white space. -/
theorem unspaced_cleanLines (s : String) :
    (cleanLines s).flatMap (fun l => unspaced l.toList) = unspaced s.toList := by
  obtain ⟨before, after, hs, hbefore, hafter⟩ := exists_around_trim s.toList
  calc (cleanLines s).flatMap (fun l => unspaced l.toList)
      = (lines (trim s.toList)).flatMap unspaced := by
        simp [cleanLines, List.flatMap_map, unspaced_trimEnd]
    _ = unspaced (trim s.toList) := (isCut_lines _).unspaced_eq
    _ = unspaced (before ++ trim s.toList ++ after) := (unspaced_around hbefore hafter).symm
    _ = unspaced s.toList := by rw [← hs]

/-- The lines of a text, which may be absent, are what the text tells. They are none exactly if the
text is absent or blank; else neither the first nor the last of them is blank. No line ends in white
space or holds a line end. Without white space, the lines hold the same as the text. The text that
they make has the same lines. -/
theorem cleanLines_normalForm (doc : Option String) :
    let text := doc.getD ""
    let ls := cleanLines text
    Tells text ls ∧
      (ls = [] ↔ doc.all blank = true) ∧
      (∀ h : ls ≠ [], blank (ls.head h) = false ∧ blank (ls.getLast h) = false) ∧
      (∀ l ∈ ls, IsClosed l.toList ∧ IsFlat l.toList) ∧
      ls.flatMap (fun l => unspaced l.toList) = unspaced text.toList ∧
      cleanLines ("\n".intercalate ls) = ls := by
  intro text ls
  have hclean : AreClean ls := areClean_cleanLines text
  refine ⟨cleanLines_eq_iff.mp rfl, ?_, fun h => ⟨?_, ?_⟩,
    fun l hl => ⟨hclean.closed l hl, hclean.flat l hl⟩, unspaced_cleanLines text,
    cleanLines_eq_iff.mpr hclean.tells⟩
  · cases doc <;> simp [ls, text, cleanLines_eq_nil, blank]
  · have hfirst := hclean.first _ (List.head?_eq_some_head h)
    exact not_blank_of_any (fun _ => List.mem_of_head?) hfirst
  · have hlast := hclean.last _ (List.getLast?_eq_some_getLast h)
    exact not_blank_of_any (fun _ => List.mem_of_getLast?) hlast

/-- A text with many kinds of white space and of breaks. -/
def ragged : String :=
  "\n \tone\x1f\r\n\r  two \u2028three\u2003four\u00a0\n\x0b "

theorem cleanLines_normalForm_ragged :
    cleanLines ragged = ["one", "", "  two", "three\u2003four"] ∧
      (∃ h : cleanLines ragged ≠ [], blank ((cleanLines ragged).head h) = false ∧
        blank ((cleanLines ragged).getLast h) = false) ∧
      ("  two" ∈ cleanLines ragged ∧ IsClosed "  two".toList ∧ IsFlat "  two".toList) ∧
      cleanLines "one\n\n  two\nthree\u2003four" = ["one", "", "  two", "three\u2003four"] := by
  have hlines : cleanLines ragged = ["one", "", "  two", "three\u2003four"] := by decide +kernel
  have hne : cleanLines ragged ≠ [] := by simp [hlines]
  have hmem : "  two" ∈ cleanLines ragged := by simp [hlines]
  obtain ⟨-, -, hends, hall, -, hagain⟩ := cleanLines_normalForm (some ragged)
  refine ⟨hlines, ⟨hne, hends hne⟩, ⟨hmem, hall _ hmem⟩, ?_⟩
  rw [Option.getD_some, hlines] at hagain
  exact hagain

end Text

end RecordGen

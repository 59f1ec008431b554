import Mathlib.Data.List.Chain
import Mathlib.Data.List.TakeWhile
import RecordGen.Json.Reader
import RecordGen.Proofs.DocLines

/-! # Comments as Java reads them

Java translates the Unicode escapes of a source before it looks for comments, so a text can end a
comment with a terminator that is not written as one. Comment blocks replace the terminators that
are written as such. Everything else in their texts reaches Java as it is, and what it does there
is told by the texts alone. -/

namespace RecordGen

open Text (blank cleanLines isBlank isBlank_of_isLineEnd lines trim trimEnd trimStart)
open Fallible

namespace Java

/-! ## Unicode escapes -/

/-- A character of a source whose escapes are translated, and whether an escape stood for it. -/
structure SourceChar where
  code : Nat
  escaped : Bool
deriving DecidableEq

/-- A character that is written as it is. -/
def SourceChar.plain (c : Char) : SourceChar :=
  ⟨c.toNat, false⟩

/-- Where the translation of a source stands: in its text, behind a backslash and the letters that
mark an escape, or among the digits of the escape, with so many to follow the next one. -/
inductive EscapeMode where
  | text
  | marked
  | digits (more : Nat) (value : Nat)

open SourceChar (plain)
open Json.Reader (hexDigit?)

/-- Translates the escapes of a source. A backslash begins an escape if it is followed by the letter
`u` and is not the second one of a pair; then four hexadecimal digits must follow. -/
def translateEscapes : EscapeMode → List Char → Option (List SourceChar)
  | .text, '\\' :: '\\' :: rest =>
    (translateEscapes .text rest).map fun ts => plain '\\' :: plain '\\' :: ts
  | .text, '\\' :: 'u' :: rest => translateEscapes .marked rest
  | .text, c :: rest => (translateEscapes .text rest).map (plain c :: ·)
  | .text, [] => some []
  | .marked, 'u' :: rest => translateEscapes .marked rest
  | .marked, c :: rest => (hexDigit? c).bind fun v => translateEscapes (.digits 2 v) rest
  | .digits (more + 1) value, c :: rest =>
    (hexDigit? c).bind fun v => translateEscapes (.digits more (value * 16 + v)) rest
  | .digits 0 value, c :: rest =>
    (hexDigit? c).bind fun v => (translateEscapes .text rest).map (⟨value * 16 + v, true⟩ :: ·)
  | _, [] => none

/-- White space plays no part in an escape or in a delimiter of a comment. -/
theorem isBlank_inert {c : Char} (h : isBlank c = true) :
    c ≠ '\\' ∧ c ≠ 'u' ∧ c ≠ '*' ∧ c ≠ '/' ∧ hexDigit? c = none := by
  have hne : ∀ d : Char, isBlank d = false → c ≠ d := by
    rintro d hd rfl
    rw [h] at hd
    cases hd
  refine ⟨hne _ (by decide), hne _ (by decide), hne _ (by decide), hne _ (by decide), ?_⟩
  have hcode : c.val.toNat = c.toNat := rfl
  simp only [isBlank, Bool.or_eq_true, Bool.and_eq_true, decide_eq_true_eq, beq_iff_eq] at h
  simp only [hexDigit?, Char.isDigit, Char.le_def, UInt32.le_iff_toNat_le, Bool.and_eq_true,
    decide_eq_true_eq, ge_iff_le, hcode]
  rw [if_neg, if_neg, if_neg]
  all_goals
    simp
    omega

/-- A character that begins neither a pair of backslashes nor an escape is kept. -/
theorem translateEscapes_text_cons {c : Char} {rest : List Char}
    (h : c = '\\' → ∀ d ∈ rest.head?, d ≠ '\\' ∧ d ≠ 'u') :
    translateEscapes .text (c :: rest) = (translateEscapes .text rest).map (plain c :: ·) := by
  refine translateEscapes.eq_3 c rest ?_ ?_
  · rintro rest' rfl rfl
    exact (h rfl '\\' rfl).1 rfl
  · rintro rest' rfl rfl
    exact (h rfl 'u' rfl).2 rfl

/-- Characters other than backslashes are kept. -/
theorem translateEscapes_plain {xs : List Char} (h : '\\' ∉ xs) (s : List Char) :
    translateEscapes .text (xs ++ s) =
      (translateEscapes .text s).map (xs.map plain ++ ·) := by
  induction xs with
  | nil => simp
  | cons x xs ih =>
      obtain ⟨hx, hxs⟩ := not_or.mp (List.mem_cons.not.mp h)
      rw [List.cons_append, translateEscapes_text_cons fun heq => absurd heq.symm hx, ih hxs]
      simp [Function.comp_def]

/-- No escape goes on behind white space: what stands before and behind it is translated apart. -/
theorem translateEscapes_append {c : Char} (hc : isBlank c = true) (ys : List Char)
    (m : EscapeMode) (xs : List Char) : translateEscapes m (xs ++ c :: ys) =
      (translateEscapes m xs).bind fun ts =>
        (translateEscapes .text ys).map fun us => ts ++ plain c :: us := by
  obtain ⟨hbackslash, hu, -, -, hdigit⟩ := isBlank_inert hc
  fun_induction translateEscapes m xs with
  | case1 rest ih =>
      simp [translateEscapes, ih, Option.map_bind, Option.bind_map, Function.comp_def]
  | case2 rest ih => simpa [translateEscapes] using ih
  | case3 d rest hd hd' ih =>
      rw [List.cons_append, translateEscapes_text_cons, ih]
      · simp [Option.map_bind, Option.bind_map, Function.comp_def]
      · rintro rfl e he
        cases rest with
        | nil =>
            obtain rfl : c = e := by simpa using he
            exact ⟨hbackslash, hu⟩
        | cons r rest =>
            obtain rfl : r = e := by simpa using he
            exact ⟨fun hr => hd rest rfl (hr ▸ rfl), fun hr => hd' rest rfl (hr ▸ rfl)⟩
  | case4 =>
      rw [List.nil_append, translateEscapes_text_cons fun h => absurd h hbackslash]
      simp
  | case5 rest ih => simpa [translateEscapes] using ih
  | case6 d rest hd ih =>
      rw [List.cons_append, translateEscapes.eq_6 _ _ hd]
      cases hexDigit? d <;> simp [ih]
  | case7 more value d rest ih =>
      rw [List.cons_append, translateEscapes]
      cases hexDigit? d <;> simp [ih]
  | case8 value d rest ih =>
      rw [List.cons_append, translateEscapes]
      cases hexDigit? d <;> simp [ih, Option.map_bind, Option.bind_map, Function.comp_def]
  | case9 m hm =>
      cases m with
      | text => exact absurd rfl hm
      | marked => simp [translateEscapes, hdigit]
      | digits more value => cases more <;> simp [translateEscapes, hdigit]

/-! ## Terminators -/

/-- Two neighbours do not end a comment. -/
def Apart (t t' : SourceChar) : Prop :=
  ¬(t.code = '*'.toNat ∧ t'.code = '/'.toNat)

/-- If two neighbours end a comment, they are written as they are. -/
def Overt (t t' : SourceChar) : Prop :=
  t.code = '*'.toNat → t'.code = '/'.toNat → t.escaped = false ∧ t'.escaped = false

instance : DecidableRel Apart := fun t t' =>
  inferInstanceAs (Decidable (¬(t.code = '*'.toNat ∧ t'.code = '/'.toNat)))

instance : DecidableRel Overt := fun t t' => inferInstanceAs (Decidable
  (t.code = '*'.toNat → t'.code = '/'.toNat → t.escaped = false ∧ t'.escaped = false))

/-- Only terminators can fall out of the relation. -/
def Lenient (R : SourceChar → SourceChar → Prop) : Prop :=
  ∀ t t', Apart t t' → R t t'

theorem lenient_apart : Lenient Apart := fun _ _ h => h

theorem lenient_overt : Lenient Overt := fun _ _ h hstar hslash => absurd ⟨hstar, hslash⟩ h

/-- The escapes of a text are well formed, and the relation holds between all its neighbours. -/
def Reads (R : SourceChar → SourceChar → Prop) (s : List Char) : Prop :=
  ∃ ts, translateEscapes .text s = some ts ∧ ts.IsChain R

instance (R : SourceChar → SourceChar → Prop) [DecidableRel R] (s : List Char) :
    Decidable (Reads R s) :=
  decidable_of_iff ((translateEscapes .text s).any (fun ts => decide (ts.IsChain R)) = true)
    (by simp [Reads, Option.any_eq_true])

/-- In a text that can stand in a comment, every escape is well formed and none of them stands for a
part of a terminator. -/
def Harmless (s : String) : Prop :=
  Reads Overt s.toList

instance (s : String) : Decidable (Harmless s) :=
  inferInstanceAs (Decidable (Reads Overt s.toList))

/-- Only a text with a backslash can do harm. -/
theorem harmless_of_not_mem {s : String} (h : '\\' ∉ s.toList) : Harmless s := by
  have htranslate := translateEscapes_plain h []
  rw [List.append_nil] at htranslate
  refine ⟨_, htranslate, ?_⟩
  show (s.toList.map plain ++ []).IsChain Overt
  rw [List.append_nil, List.isChain_map]
  exact (List.pairwise_of_forall fun _ _ _ _ => ⟨rfl, rfl⟩).isChain

section Reads

variable {R : SourceChar → SourceChar → Prop}

@[simp] theorem reads_nil (R : SourceChar → SourceChar → Prop) : Reads R [] :=
  ⟨[], rfl, .nil⟩

/-- White space written as such parts the neighbours before and behind it. -/
theorem isChain_append_blank (hR : Lenient R) {c : Char} (hc : isBlank c = true)
    (ts us : List SourceChar) :
    (ts ++ plain c :: us).IsChain R ↔ ts.IsChain R ∧ us.IsChain R := by
  obtain ⟨-, -, hstar, hslash, -⟩ := isBlank_inert hc
  have hbefore : ∀ t, R t (plain c) := fun t => hR _ _ fun h => hslash (Char.toNat_inj.mp h.2)
  have hbehind : ∀ t, R (plain c) t := fun t => hR _ _ fun h => hstar (Char.toNat_inj.mp h.1)
  rw [List.isChain_append, List.isChain_cons]
  constructor
  · rintro ⟨hts, ⟨-, hus⟩, -⟩
    exact ⟨hts, hus⟩
  · rintro ⟨hts, hus⟩
    refine ⟨hts, ⟨fun t _ => hbehind t, hus⟩, ?_⟩
    rintro t - _ ⟨⟩
    exact hbefore t

/-- White space parts a text into two that are read one after the other. -/
theorem reads_append (hR : Lenient R) {c : Char} (hc : isBlank c = true) (xs ys : List Char) :
    Reads R (xs ++ c :: ys) ↔ Reads R xs ∧ Reads R ys := by
  rw [Reads, translateEscapes_append hc]
  constructor
  · rintro ⟨_, h, hchain⟩
    obtain ⟨ts, hts, h⟩ := Option.bind_eq_some_iff.mp h
    obtain ⟨us, hus, rfl⟩ := Option.map_eq_some_iff.mp h
    obtain ⟨hfirst, hrest⟩ := (isChain_append_blank hR hc ts us).mp hchain
    exact ⟨⟨ts, hts, hfirst⟩, us, hus, hrest⟩
  · rintro ⟨⟨ts, hts, hfirst⟩, us, hus, hrest⟩
    exact ⟨ts ++ plain c :: us, by simp [hts, hus],
      (isChain_append_blank hR hc ts us).mpr ⟨hfirst, hrest⟩⟩

theorem reads_cons (hR : Lenient R) {c : Char} (hc : isBlank c = true) (s : List Char) :
    Reads R (c :: s) ↔ Reads R s := by
  simpa using reads_append hR hc [] s

/-- White space at either end of a text changes nothing. -/
theorem reads_blanks_append (hR : Lenient R) {bs : List Char} (hbs : ∀ b ∈ bs, isBlank b = true)
    (s : List Char) : Reads R (bs ++ s) ↔ Reads R s := by
  induction bs with
  | nil => rfl
  | cons b bs ih =>
      rw [List.cons_append, reads_cons hR (hbs b List.mem_cons_self)]
      exact ih fun c hc => hbs c (List.mem_cons_of_mem _ hc)

theorem reads_append_blanks (hR : Lenient R) {bs : List Char} (hbs : ∀ b ∈ bs, isBlank b = true)
    (s : List Char) : Reads R (s ++ bs) ↔ Reads R s := by
  cases bs with
  | nil => rw [List.append_nil]
  | cons b bs =>
      have hrest := reads_blanks_append hR (fun c hc => hbs c (List.mem_cons_of_mem _ hc)) []
      rw [List.append_nil] at hrest
      rw [reads_append hR (hbs b List.mem_cons_self), hrest]
      exact and_iff_left (reads_nil R)

theorem reads_trimEnd (hR : Lenient R) (s : List Char) : Reads R (trimEnd s) ↔ Reads R s := by
  have hsplit : trimEnd s ++ (s.reverse.takeWhile isBlank).reverse = s := by
    rw [trimEnd, ← List.reverse_append, List.takeWhile_append_dropWhile, List.reverse_reverse]
  have hblank : ∀ b ∈ (s.reverse.takeWhile isBlank).reverse, isBlank b = true := fun b hb =>
    List.mem_takeWhile_imp (List.mem_reverse.mp hb)
  rw [← reads_append_blanks hR hblank, hsplit]

theorem reads_trim (hR : Lenient R) (s : List Char) : Reads R (trim s) ↔ Reads R s := by
  have hblank : ∀ b ∈ s.takeWhile isBlank, isBlank b = true := fun b hb => List.mem_takeWhile_imp hb
  rw [trim, reads_trimEnd hR, ← reads_blanks_append hR hblank, trimStart,
    List.takeWhile_append_dropWhile]

/-- A text is read line by line. What stands before the text belongs to its first line. -/
theorem reads_lines (hR : Lenient R) (s : List Char) : ∀ before : List Char,
    Reads R (before ++ s) ↔
      Reads R (before ++ (lines s).headD []) ∧ ∀ l ∈ (lines s).tail, Reads R l := by
  have hempty : ∀ ls : List (List Char), (∀ l ∈ ls, Reads R l) ↔
      Reads R ([] ++ ls.headD []) ∧ ∀ l ∈ ls.tail, Reads R l := by
    rintro (_ | ⟨l, ls⟩) <;> simp
  fun_induction lines s with
  | case1 => simp
  | case2 rest ih =>
      intro before
      rw [reads_append hR (by decide), reads_cons hR (by decide), ← List.nil_append rest, ih,
        ← hempty]
      simp
  | case3 c rest _ hend ih =>
      intro before
      rw [reads_append hR (isBlank_of_isLineEnd hend), ← List.nil_append rest, ih, ← hempty]
      simp
  | case4 c rest _ _ hrest ih =>
      intro before
      have ih := ih (before ++ [c])
      rw [hrest] at ih
      simpa using ih
  | case5 c rest _ _ first others hrest ih =>
      intro before
      have ih := ih (before ++ [c])
      rw [hrest] at ih
      simpa using ih

theorem reads_cleanLines (hR : Lenient R) (s : String) :
    (∀ l ∈ cleanLines s, Reads R l.toList) ↔ Reads R s.toList := by
  have hlines := reads_lines hR (trim s.toList) []
  rw [List.nil_append, reads_trim hR] at hlines
  rw [hlines, cleanLines, List.forall_mem_map]
  simp only [String.toList_ofList, reads_trimEnd hR]
  cases lines (trim s.toList) <;> simp

theorem harmless_cleanLines (s : String) : (∀ l ∈ cleanLines s, Harmless l) ↔ Harmless s :=
  reads_cleanLines lenient_overt s

/-- Lines are read as the text that they make. -/
theorem reads_intercalate (hR : Lenient R) (ls : List String) :
    Reads R ("\n".intercalate ls).toList ↔ ∀ l ∈ ls, Reads R l.toList := by
  induction ls with
  | nil => simp
  | cons l ls ih =>
      cases ls with
      | nil => simp
      | cons m ls =>
          have hbreak : isBlank '\n' = true := by decide
          rw [String.intercalate_cons_cons, String.toList_append, String.toList_append,
            List.append_assoc, List.forall_mem_cons, ← ih]
          exact reads_append hR hbreak _ _

end Reads

/-! ## Replaced terminators -/

/-- What a text becomes when its terminators are replaced. -/
def replaceTerminators : List SourceChar → List SourceChar
  | t :: t' :: rest =>
    if t = plain '*' ∧ t' = plain '/' then
      "*&#47;".toList.map plain ++ replaceTerminators rest
    else t :: replaceTerminators (t' :: rest)
  | ts => ts

theorem head?_replaceTerminators (ts : List SourceChar) :
    (replaceTerminators ts).head? = ts.head? := by
  fun_cases replaceTerminators ts with
  | case1 t t' rest h => simp [h.1]
  | case2 t t' rest h => rfl
  | case3 ts h => rfl

/-- The replacement leaves the terminators that are not written as such. -/
theorem isChain_replaceTerminators (ts : List SourceChar) :
    (replaceTerminators ts).IsChain Apart ↔ ts.IsChain Overt := by
  fun_induction replaceTerminators ts with
  | case1 t t' rest h ih =>
      obtain ⟨rfl, rfl⟩ := h
      have hstar : Overt (plain '*') (plain '/') := fun _ _ => ⟨rfl, rfl⟩
      have hslash : ∀ u ∈ rest.head?, Overt (plain '/') u := fun u _ h => by cases h
      have hterminated : (plain '*' :: plain '/' :: rest).IsChain Overt ↔ rest.IsChain Overt := by
        rw [List.isChain_cons_cons, List.isChain_cons, and_iff_right hstar, and_iff_right hslash]
      rw [hterminated, ← ih]
      simp [List.isChain_cons, Apart, plain]
  | case2 t t' rest h ih =>
      have hpair : Apart t t' ↔ Overt t t' := by
        refine ⟨lenient_overt t t', fun hovert hboth => h ?_⟩
        obtain ⟨hescaped, hescaped'⟩ := hovert hboth.1 hboth.2
        cases t
        cases t'
        simp_all [plain]
      rw [List.isChain_cons, head?_replaceTerminators, ih, List.isChain_cons_cons, ← hpair]
      simp
  | case3 ts h =>
      match ts, h with
      | [], _ => simp
      | [t], _ => simp
      | t :: t' :: rest, h => exact absurd rfl (h t t' rest)

theorem replaceTerminators_cons {t : SourceChar} {ts : List SourceChar}
    (h : t = plain '*' → ts.head? ≠ some (plain '/')) :
    replaceTerminators (t :: ts) = t :: replaceTerminators ts := by
  cases ts with
  | nil => rfl
  | cons t' rest =>
      rw [replaceTerminators, if_neg]
      rintro ⟨hstar, rfl⟩
      exact h hstar rfl

theorem escapeTerminator_cons {c : Char} {s : List Char} (h : c = '*' → s.head? ≠ some '/') :
    Documentation.escapeTerminator (c :: s) = c :: Documentation.escapeTerminator s := by
  refine Documentation.escapeTerminator.eq_2 c s ?_
  rintro rest rfl rfl
  exact h rfl rfl

theorem head?_escapeTerminator (s : List Char) :
    (Documentation.escapeTerminator s).head? = s.head? := by
  fun_cases Documentation.escapeTerminator s <;> rfl

/-- A slash that is written as it is comes from a slash. -/
theorem head?_of_translateEscapes {m : EscapeMode} {s : List Char} {ts : List SourceChar}
    (h : translateEscapes m s = some ts) (hslash : ts.head? = some (plain '/')) :
    m = .text ∧ s.head? = some '/' := by
  fun_induction translateEscapes m s generalizing ts with
  | case1 rest ih =>
      obtain ⟨_, -, rfl⟩ := Option.map_eq_some_iff.mp h
      cases hslash
  | case2 rest ih => cases (ih h hslash).1
  | case3 c rest hc hc' ih =>
      obtain ⟨_, -, rfl⟩ := Option.map_eq_some_iff.mp h
      have hcode : c.toNat = '/'.toNat := congrArg SourceChar.code (Option.some.inj hslash)
      exact ⟨rfl, congrArg some (Char.toNat_inj.mp hcode)⟩
  | case4 =>
      obtain rfl := Option.some.inj h
      cases hslash
  | case5 rest ih => cases (ih h hslash).1
  | case6 c rest hc ih =>
      obtain ⟨v, -, h⟩ := Option.bind_eq_some_iff.mp h
      cases (ih v h hslash).1
  | case7 more value c rest ih =>
      obtain ⟨v, -, h⟩ := Option.bind_eq_some_iff.mp h
      cases (ih v h hslash).1
  | case8 value c rest ih =>
      obtain ⟨v, -, h⟩ := Option.bind_eq_some_iff.mp h
      obtain ⟨_, -, rfl⟩ := Option.map_eq_some_iff.mp h
      cases congrArg SourceChar.escaped (Option.some.inj hslash)
  | case9 => cases h

theorem map_replaceTerminators_cons {t : SourceChar} {o : Option (List SourceChar)}
    (h : t = plain '*' → ∀ ts ∈ o, ts.head? ≠ some (plain '/')) :
    (o.map (t :: ·)).map replaceTerminators = (o.map replaceTerminators).map (t :: ·) := by
  cases o with
  | none => rfl
  | some ts => exact congrArg some (replaceTerminators_cons fun ht => h ht ts rfl)

/-- The terminators of a text are replaced before or after its escapes are translated. -/
theorem translateEscapes_escapeTerminator (m : EscapeMode) (s : List Char) :
    translateEscapes m (Documentation.escapeTerminator s) =
      (translateEscapes m s).map replaceTerminators := by
  have hother : ∀ (c : Char) (rest : List Char), ∃ s,
      Documentation.escapeTerminator (c :: rest) = c :: s := fun c rest =>
    List.head?_eq_some_iff.mp (head?_escapeTerminator (c :: rest))
  have hdigit : ∀ {c : Char} {rest : List Char} {v : Nat}, hexDigit? c = some v →
      Documentation.escapeTerminator (c :: rest) = c :: Documentation.escapeTerminator rest := by
    intro c rest v hv
    refine escapeTerminator_cons ?_
    rintro rfl
    cases hv
  fun_induction translateEscapes m s with
  | case1 rest ih =>
      rw [escapeTerminator_cons (by simp), escapeTerminator_cons (by simp), translateEscapes, ih]
      cases translateEscapes .text rest with
      | none => rfl
      | some ts =>
          have hpair : replaceTerminators (plain '\\' :: plain '\\' :: ts) =
              plain '\\' :: plain '\\' :: replaceTerminators ts := by
            rw [replaceTerminators_cons (fun h => by cases h),
              replaceTerminators_cons (fun h => by cases h)]
          exact congrArg some hpair.symm
  | case2 rest ih =>
      rw [escapeTerminator_cons (by simp), escapeTerminator_cons (by simp), translateEscapes, ih]
  | case3 c rest hc hc' ih =>
      by_cases hterminator : c = '*' ∧ rest.head? = some '/'
      · obtain ⟨rfl, hslash⟩ := hterminator
        obtain ⟨rest, rfl⟩ := List.head?_eq_some_iff.mp hslash
        rw [escapeTerminator_cons (by simp), translateEscapes_text_cons (by simp),
          translateEscapes_text_cons (by simp),
          map_replaceTerminators_cons fun h => by cases h] at ih
        have ih := Option.map_injective (fun _ _ h => (List.cons.inj h).2) ih
        rw [Documentation.escapeTerminator, translateEscapes_plain (by decide), ih,
          translateEscapes_text_cons (by simp)]
        cases translateEscapes .text rest <;> rfl
      · have hhead : c = '*' → rest.head? ≠ some '/' := fun hc hslash => hterminator ⟨hc, hslash⟩
        rw [escapeTerminator_cons hhead, translateEscapes_text_cons, ih,
          map_replaceTerminators_cons]
        · intro hstar ts hts hslash
          have hcode : c.toNat = '*'.toNat := congrArg SourceChar.code hstar
          exact hhead (Char.toNat_inj.mp hcode) (head?_of_translateEscapes hts hslash).2
        · rintro rfl d hd
          rw [head?_escapeTerminator] at hd
          obtain ⟨rest, rfl⟩ := List.head?_eq_some_iff.mp hd
          exact ⟨fun h => hc rest rfl (h ▸ rfl), fun h => hc' rest rfl (h ▸ rfl)⟩
  | case4 => rfl
  | case5 rest ih => rw [escapeTerminator_cons (by simp), translateEscapes, ih]
  | case6 c rest hc ih =>
      cases hv : hexDigit? c with
      | none =>
          obtain ⟨s, hs⟩ := hother c rest
          rw [hs, translateEscapes.eq_6 _ _ hc, hv]
          rfl
      | some v =>
          rw [hdigit hv, translateEscapes.eq_6 _ _ hc, hv]
          exact ih v
  | case7 more value c rest ih =>
      cases hv : hexDigit? c with
      | none =>
          obtain ⟨s, hs⟩ := hother c rest
          rw [hs, translateEscapes, hv]
          rfl
      | some v =>
          rw [hdigit hv, translateEscapes, hv]
          exact ih v
  | case8 value c rest ih =>
      cases hv : hexDigit? c with
      | none =>
          obtain ⟨s, hs⟩ := hother c rest
          rw [hs, translateEscapes, hv]
          rfl
      | some v =>
          rw [hdigit hv, translateEscapes, hv, Option.bind_some, Option.bind_some, ih,
            map_replaceTerminators_cons fun h => by cases congrArg SourceChar.escaped h]
  | case9 m hm =>
      cases m with
      | text => exact absurd rfl hm
      | marked => rfl
      | digits more value => cases more <;> rfl

theorem reads_escapeTerminator (s : List Char) :
    Reads Apart (Documentation.escapeTerminator s) ↔ Reads Overt s := by
  rw [Reads, translateEscapes_escapeTerminator]
  constructor
  · rintro ⟨_, h, hchain⟩
    obtain ⟨ts, hts, rfl⟩ := Option.map_eq_some_iff.mp h
    exact ⟨ts, hts, (isChain_replaceTerminators ts).mp hchain⟩
  · rintro ⟨ts, hts, hchain⟩
    exact ⟨_, by rw [hts, Option.map_some], (isChain_replaceTerminators ts).mpr hchain⟩

/-! ## Comments -/

/-- A source is one comment: its escapes are well formed, it begins as a comment, and it ends with
the first terminator behind the opening. -/
def IsComment (source : String) : Prop :=
  ∃ ts inner, translateEscapes .text source.toList = some ts ∧
    ts.map SourceChar.code =
      ['/'.toNat, '*'.toNat] ++ inner ++ ['*'.toNat, '/'.toNat] ∧
    (inner ++ ['*'.toNat]).IsChain fun a b => ¬(a = '*'.toNat ∧ b = '/'.toNat)

/-- What stands between the delimiters of a comment holds no terminator. -/
theorem isComment_iff {source : String} {text : List Char}
    (h : source.toList = ['/', '*'] ++ text ++ [' ', '*', '/']) :
    IsComment source ↔ Reads Apart text := by
  have hblank : isBlank ' ' = true := by decide
  have htranslate : translateEscapes .text source.toList =
      (translateEscapes .text text).map fun ts =>
        [plain '/', plain '*'] ++ (ts ++ [plain ' ', plain '*', plain '/']) := by
    rw [h, List.append_assoc, translateEscapes_plain (by decide), translateEscapes_append hblank]
    cases translateEscapes .text text <;> rfl
  have hcodes : ∀ ts : List SourceChar,
      ([plain '/', plain '*'] ++ (ts ++ [plain ' ', plain '*', plain '/'])).map SourceChar.code =
        ['/'.toNat, '*'.toNat] ++ (ts ++ [plain ' ']).map SourceChar.code ++
          ['*'.toNat, '/'.toNat] := fun ts => by simp [plain]
  have hchain : ∀ ts : List SourceChar, ((ts ++ [plain ' ']).map SourceChar.code ++
      ['*'.toNat]).IsChain (fun a b => ¬(a = '*'.toNat ∧ b = '/'.toNat)) ↔ ts.IsChain Apart := by
    intro ts
    have hstar : (ts ++ [plain ' ']).map SourceChar.code ++ ['*'.toNat] =
        (ts ++ [plain ' ', plain '*']).map SourceChar.code := by simp [plain]
    rw [hstar, List.isChain_map]
    exact (isChain_append_blank lenient_apart hblank ts [plain '*']).trans
      (and_iff_left (.singleton _))
  rw [IsComment, htranslate]
  constructor
  · rintro ⟨_, inner, htext, hinner, hends⟩
    obtain ⟨ts, hts, rfl⟩ := Option.map_eq_some_iff.mp htext
    rw [hcodes ts] at hinner
    obtain rfl := List.append_cancel_left (List.append_cancel_right hinner)
    exact ⟨ts, hts, (hchain ts).mp hends⟩
  · rintro ⟨ts, hts, hends⟩
    exact ⟨_, _, by rw [hts, Option.map_some], hcodes ts, (hchain ts).mpr hends⟩

end Java

namespace Documentation

open Java

/-- All texts of the block are harmless, the names of its entries included. -/
structure Harmless (d : Documentation) : Prop where
  lead : Java.Harmless (d.lead.getD "")
  entries : ∀ e ∈ d.entries, Java.Harmless e.1 ∧ Java.Harmless e.2

/-- In a line of a comment a terminator can only come from an escape. -/
theorem reads_commentLine (line : String) :
    Reads Apart (commentLine line).toList ↔ Reads Overt line.toList := by
  have hmargin : Reads Apart [' ', '*'] :=
    ⟨[SourceChar.plain ' ', SourceChar.plain '*'], rfl, by decide⟩
  rw [commentLine]
  split
  · rename_i hempty
    obtain rfl : line = "" := String.isEmpty_iff.mp hempty
    exact iff_of_true hmargin (reads_nil Overt)
  · have hblank : isBlank ' ' = true := by decide
    have hsplit := reads_append lenient_apart hblank [' ', '*'] (escapeTerminator line.toList)
    rw [and_iff_right hmargin, reads_escapeTerminator] at hsplit
    have htext : (String.ofList (escapeTerminator line.toList)).toList =
        escapeTerminator line.toList := String.toList_ofList
    rw [String.toList_append, htext]
    exact hsplit

/-- The lines of an entry are harmless exactly if its name and its text are. -/
theorem harmless_entryLines {e : String × String} {ls : List String}
    (h : entryLines "    " (fun name => "@param " ++ name ++ " ") e = .ok ls) :
    (∀ l ∈ ls, Java.Harmless l) ↔ Java.Harmless e.1 ∧ Java.Harmless e.2 := by
  have hblank : isBlank ' ' = true := by decide
  have htag : Reads Overt "@param".toList := ⟨"@param".toList.map SourceChar.plain, rfl, by decide⟩
  rw [entryLines] at h
  cases hlines : cleanLines e.2 with
  | nil => simp [hlines] at h
  | cons first others =>
      rw [hlines] at h
      obtain rfl := Except.ok.inj h
      have hheading : Java.Harmless ("@param " ++ e.1 ++ " " ++ first) ↔
          Java.Harmless e.1 ∧ Java.Harmless first := by
        have htext : ("@param " ++ e.1 ++ " " ++ first).toList =
            "@param".toList ++ ' ' :: (e.1.toList ++ ' ' :: first.toList) := by simp
        rw [Java.Harmless, htext, reads_append lenient_overt hblank,
          reads_append lenient_overt hblank, and_iff_right htag]
        rfl
      have hindent : ∀ l : String, Java.Harmless (if l.isEmpty then "" else "    " ++ l) ↔
          Java.Harmless l := by
        intro l
        split
        · rename_i hempty
          obtain rfl : l = "" := String.isEmpty_iff.mp hempty
          rfl
        · have hspaces : ∀ b ∈ "    ".toList, isBlank b = true := by simp [isBlank]
          have hblanks := reads_blanks_append lenient_overt hspaces l.toList
          rwa [← String.toList_append] at hblanks
      rw [List.forall_mem_cons, hheading, List.forall_mem_map, and_assoc,
        ← harmless_cleanLines e.2, hlines, List.forall_mem_cons]
      simp only [hindent]

/-- The lines of all entries are harmless exactly if their names and texts are. -/
theorem harmless_entries {es : List (String × String)} {entries : List (List String)}
    (h : es.mapM (entryLines "    " fun name => "@param " ++ name ++ " ") = .ok entries) :
    (∀ l ∈ entries.flatten, Java.Harmless l) ↔
      ∀ e ∈ es, Java.Harmless e.1 ∧ Java.Harmless e.2 := by
  have hall := mapM_eq_ok.mp h
  clear h
  induction hall with
  | nil => simp
  | cons he _ ih =>
      rw [List.flatten_cons, List.forall_mem_append, List.forall_mem_cons]
      exact and_congr (harmless_entryLines he) ih

/-- The text of a comment block, with its delimiters apart. -/
theorem toList_intercalate_block (ls : List String) :
    ("\n".intercalate (["/**"] ++ ls ++ [" */"])).toList =
      ['/', '*'] ++ (("\n".intercalate ("*" :: ls)).toList ++ ['\n']) ++ [' ', '*', '/'] := by
  have hopening : "\n".intercalate (("/*" ++ "*") :: ls) = "/*" ++ "\n".intercalate ("*" :: ls) :=
    String.intercalate_cons_append
  have hclosing : "\n".intercalate (["/**"] ++ ls ++ [" */"]) =
      "\n".intercalate (["/**"] ++ ls) ++ "\n" ++ " */" := by
    rw [String.intercalate_append_of_ne_nil (by simp) (by simp), String.intercalate_singleton]
  have hblock : "\n".intercalate (["/**"] ++ ls ++ [" */"]) =
      "/*" ++ "\n".intercalate ("*" :: ls) ++ "\n" ++ " */" :=
    hclosing.trans (congrArg (· ++ "\n" ++ " */") hopening)
  rw [hblock]
  simp

/-- A comment block is one comment exactly if all its lines are harmless. -/
theorem isComment_block (ls : List String) :
    IsComment ("\n".intercalate (["/**"] ++ ls.map commentLine ++ [" */"])) ↔
      ∀ l ∈ ls, Java.Harmless l := by
  have hfeed : ∀ b ∈ ['\n'], isBlank b = true := by simp [isBlank]
  have hstar : Reads Apart "*".toList := ⟨[SourceChar.plain '*'], rfl, by decide⟩
  rw [isComment_iff (toList_intercalate_block _), reads_append_blanks lenient_apart hfeed,
    reads_intercalate lenient_apart, List.forall_mem_cons, and_iff_right hstar,
    List.forall_mem_map]
  exact forall₂_congr fun l _ => reads_commentLine l

/-- For blocks without blank entries, the comment is empty exactly if the block is. Otherwise Java
reads it as one comment exactly if all texts of the block are harmless: whatever else they hold,
terminators that are written as such included, stays inside. -/
theorem commentLines_isComment {d : Documentation} (h : ∀ e ∈ d.entries, blank e.2 = false) :
    ∃ ls, d.commentLines = .ok ls ∧ (d.isEmpty = true → ls = []) ∧
      (d.isEmpty = false → (IsComment ("\n".intercalate ls) ↔ d.Harmless)) := by
  cases hempty : d.isEmpty with
  | true => exact ⟨[], by simp [commentLines, hempty], fun _ => rfl, (fun h => by cases h)⟩
  | false =>
      obtain ⟨entries, hentries⟩ := mapM_total fun e he =>
        entryLines_ok "    " (fun name => "@param " ++ name ++ " ") (h e he)
      let gap := if d.leadLines.isEmpty || d.entries.isEmpty then [] else [""]
      have hlines : d.commentLines = .ok
          (["/**"] ++ (d.leadLines ++ gap ++ entries.flatten).map commentLine ++ [" */"]) := by
        simp [commentLines, hempty, hentries, gap]
      have hgap : ∀ l ∈ gap, Java.Harmless l := by
        intro l hl
        simp only [gap] at hl
        split at hl
        · cases hl
        · obtain rfl := List.mem_singleton.mp hl
          exact reads_nil Overt
      refine ⟨_, hlines, (fun h => by cases h), fun _ => ?_⟩
      rw [isComment_block, List.forall_mem_append, List.forall_mem_append, and_iff_left hgap,
        harmless_entries hentries]
      constructor
      · rintro ⟨hlead, hentries⟩
        exact ⟨(harmless_cleanLines _).mp hlead, hentries⟩
      · rintro ⟨hlead, hentries⟩
        exact ⟨(harmless_cleanLines _).mpr hlead, hentries⟩

/-- The terminator of the lead is written as such, and the second backslash of the entry begins no
escape. -/
theorem commentLines_isComment_example :
    (∀ e ∈ [("p", "\\\\u*/")], blank e.2 = false) ∧
    ∃ ls, ({ lead := some "a */ b", entries := [("p", "\\\\u*/")] } : Documentation).commentLines =
      .ok ls ∧ IsComment ("\n".intercalate ls) := by
  have hblank : ∀ e ∈ [("p", "\\\\u*/")], blank e.2 = false := by decide +kernel
  obtain ⟨ls, hlines, -, hcomment⟩ := commentLines_isComment
    (d := { lead := some "a */ b", entries := [("p", "\\\\u*/")] }) hblank
  refine ⟨hblank, ls, hlines, (hcomment (by decide +kernel)).mpr ⟨?_, ?_⟩⟩
  · decide +kernel
  · decide +kernel

/-- A lead can end the comment with an escaped terminator, or hold the beginning of an escape that
does not go on as one. -/
theorem escaped_lead_breaks :
    ({ lead := some "\\u002a/" } : Documentation).commentLines =
      .ok ["/**", " * \\u002a/", " */"] ∧
    ¬IsComment ("\n".intercalate ["/**", " * \\u002a/", " */"]) ∧
    ({ lead := some "\\users" } : Documentation).commentLines = .ok ["/**", " * \\users", " */"] ∧
    translateEscapes .text ("\n".intercalate ["/**", " * \\users", " */"]).toList = none := by
  have hblock : ["/**", " * \\u002a/", " */"] =
      ["/**"] ++ ["\\u002a/"].map commentLine ++ [" */"] := by decide +kernel
  refine ⟨eq_ok_of (by decide +kernel), ?_, eq_ok_of (by decide +kernel), by decide +kernel⟩
  rw [hblock, isComment_block]
  decide +kernel

end Documentation

end RecordGen

import RecordGen.Proofs.CleanLines
import RecordGen.Proofs.NormalForms
import RecordGen.Proofs.PythonClosure

/-! # The lines of a printed class

A decorator or the header of a class opens a class where it stands at the beginning of a line. In
the text of a class only its own do: every other line begins with a margin, or it is what a line
feed in a name or in documentation leaves of one. -/

namespace RecordGen

/-! ## Literals

Line feeds are escaped in quoted texts, and numbers have none. -/

namespace Text

theorem feed_not_mem_toDigits {base : Nat} (hbase : 1 < base) (n : Nat) :
    '\n' ∉ Nat.toDigits base n := by
  induction n using Nat.strongRecOn with
  | ind n ih =>
      rw [Nat.toDigits_eq_if hbase]
      split
      · simp
      · have hsmaller : n / base < n := Nat.div_lt_self (by omega) hbase
        simp [ih _ hsmaller]

theorem feed_not_mem_codeEscape (c : Char) : '\n' ∉ codeEscape c := by
  have hhex : ∀ width n, '\n' ∉ hex width n := by
    simp [hex, feed_not_mem_toDigits]
  rw [codeEscape]
  split
  · simp [hhex]
  · split <;> simp [hhex]

theorem feed_not_mem_escapeChar {q : Char} (hq : q ≠ '\n') (c : Char) : '\n' ∉ escapeChar q c := by
  rw [escapeChar]
  split
  · rename_i hc
    rintro hmem
    obtain rfl : '\n' = c := by simpa using hmem
    rcases hc with rfl | hc
    · exact hq rfl
    · cases hc
  · repeat' split
    · decide
    · decide
    · decide
    · simpa [eq_comm] using ‹c ≠ '\n'›
    · exact feed_not_mem_codeEscape c

theorem feed_not_mem_escaped (s : List Char) : '\n' ∉ escaped s := by
  have hq : quoteFor s ≠ '\n' := by
    rw [quoteFor]
    split <;> decide
  simp [escaped, feed_not_mem_escapeChar hq]

theorem feed_not_mem_quoted (s : String) : '\n' ∉ (quoted s).toList := by
  have hq : '\n' ≠ quoteFor s.toList := by
    rw [quoteFor]
    split <;> decide
  simp [quoted, hq, feed_not_mem_escaped]

end Text

namespace Decimal

open Text

theorem feed_not_mem_shortest (b : Binary) : '\n' ∉ b.shortest.digits := by
  rw [Binary.shortest, Digits.normalize]
  refine mt List.mem_of_mem_take ?_
  cases hfound : (List.range 17).findSome? _ with
  | none => simp
  | some d =>
      obtain ⟨_, _, hd⟩ := List.exists_of_findSome?_eq_some hfound
      obtain ⟨n, -, rfl⟩ := Option.map_eq_some_iff.mp hd
      exact feed_not_mem_toDigits (by decide) n

theorem feed_not_mem_layout {d : Digits} (h : '\n' ∉ d.digits) : '\n' ∉ d.layout := by
  have htake := fun k => mt (List.mem_of_mem_take (i := k)) h
  have hdrop := fun k => mt (List.mem_of_mem_drop (i := k)) h
  rw [Digits.layout]
  split
  · have hpower : ∀ n, '\n' ∉ Nat.toDigits 10 n := feed_not_mem_toDigits (by decide)
    have hsign : ∀ (p : Prop) [Decidable p], '\n' ≠ if p then '-' else '+' := by
      intro p _
      split <;> decide
    rcases hdigits : d.digits with _ | ⟨c, _ | ⟨c', cs⟩⟩
    all_goals
      rw [hdigits] at h
      simp_all
  · split
    · simp [h]
    · simp only
      split
      · simp [h]
      · simp [htake, hdrop]

theorem feed_not_mem_literal (x : Float) : '\n' ∉ (literal x).toList := by
  have hsign : ∀ negative : Bool, '\n' ∉ if negative = true then ['-'] else [] := by decide
  rw [literal, String.toList_ofList]
  split
  · decide
  · simp [hsign]
  · rename_i b _
    split
    · simp [hsign]
    · simp [hsign, feed_not_mem_layout (feed_not_mem_shortest b)]

end Decimal

namespace Python

theorem feed_not_mem_floatText (x : Float) : '\n' ∉ (floatText x).toList := by
  rw [floatText]
  split
  · decide
  · exact Decimal.feed_not_mem_literal x

theorem feed_not_mem_number : ∀ n : Number, '\n' ∉ n.text.toList
  | .integer n => by
      intro hmem
      exact absurd (isDigit_of_mem_toString hmem) (by decide)
  | .decimal x => feed_not_mem_floatText x
  | .imaginary x => by
      have htext := feed_not_mem_floatText x
      have htake := fun k => mt (List.mem_of_mem_take (i := k)) htext
      rw [Number.text, imaginaryText, String.toList_ofList]
      split <;> simp [htake, htext]

open Text Fallible

/-! ## Texts that open no class -/

/-- The character begins neither a decorator nor the header of a class. -/
def IsQuiet (c : Char) : Prop :=
  c ≠ '@' ∧ c ≠ 'c'

instance (c : Char) : Decidable (IsQuiet c) :=
  inferInstanceAs (Decidable (_ ∧ _))

/-- A text whose lines behind the first one open no class. -/
def Calm (s : String) : Prop :=
  s.toList.IsChain fun a b => a = '\n' → IsQuiet b

/-- A text that opens no class where it begins a line. -/
def Follows (s : String) : Prop :=
  ∀ c ∈ s.toList.head?, IsQuiet c

/-- A calm text that does not end its line. -/
structure Steady (s : String) : Prop where
  calm : Calm s
  open_ended : s.toList.getLast? ≠ some '\n'

instance (s : String) : Decidable (Follows s) :=
  decidable_of_iff (s.toList.head?.all (decide <| IsQuiet ·) = true) <| by
    simp [Follows, Option.all_eq_true]

/-- What stands between the parts of a line. -/
def IsGlue (s : String) : Prop :=
  '\n' ∉ s.toList ∧ s ≠ "" ∧ Follows s

instance (s : String) : Decidable (IsGlue s) :=
  inferInstanceAs (Decidable (_ ∧ _ ∧ _))

section

variable {s t : String}

theorem calm_append : Calm (s ++ t) ↔
    Calm s ∧ Calm t ∧ (s.toList.getLast? = some '\n' → Follows t) := by
  rw [Calm, String.toList_append, List.isChain_append]
  refine and_congr_right fun _ => and_congr_right fun _ => ?_
  constructor
  · exact fun h hlast c hc => h '\n' hlast c hc rfl
  · rintro h a ha b hb rfl
    exact h ha b hb

theorem calm_of_flat (h : '\n' ∉ s.toList) : Calm s := by
  refine (List.isChain_isInfix s.toList).imp ?_
  rintro _ b hpart rfl
  exact absurd (hpart.subset List.mem_cons_self) h

theorem open_of_flat (h : '\n' ∉ s.toList) : s.toList.getLast? ≠ some '\n' :=
  fun hlast => h (List.mem_of_getLast? hlast)

theorem follows_append (hs : Follows s) (ht : s = "" → Follows t) : Follows (s ++ t) := by
  by_cases hempty : s = ""
  · rw [hempty, String.empty_append]
    exact ht hempty
  · intro c hc
    rw [String.toList_append, List.head?_append_of_ne_nil _ (by simpa using hempty)] at hc
    exact hs c hc

theorem IsGlue.follows {glue : String} (h : IsGlue glue) (t : String) : Follows (glue ++ t) :=
  follows_append h.2.2 fun hempty => absurd hempty h.2.1

theorem Steady.of_flat (h : '\n' ∉ s.toList) : Steady s :=
  ⟨calm_of_flat h, open_of_flat h⟩

/-- Text without line feeds in front of a text changes nothing. -/
theorem Calm.behind (ht : Calm t) (h : '\n' ∉ s.toList) : Calm (s ++ t) :=
  calm_append.mpr ⟨calm_of_flat h, ht, fun hlast => absurd hlast (open_of_flat h)⟩

theorem Steady.append (hs : Steady s) (ht : Steady t) : Steady (s ++ t) where
  calm := calm_append.mpr ⟨hs.calm, ht.calm, fun hlast => absurd hlast hs.open_ended⟩
  open_ended := by
    rw [String.toList_append, List.getLast?_append]
    cases hlast : t.toList.getLast? with
    | none => exact hs.open_ended
    | some c =>
        rw [Option.some_or, ← hlast]
        exact ht.open_ended

/-- Glue at the end keeps the line open. -/
theorem Calm.close (hs : Calm s) {glue : String} (h : IsGlue glue) : Steady (s ++ glue) where
  calm := calm_append.mpr ⟨hs, calm_of_flat h.1, fun _ => h.2.2⟩
  open_ended := by
    rw [String.toList_append, List.getLast?_append_of_ne_nil _ (by simpa using h.2.1)]
    exact open_of_flat h.1

/-- Two texts with glue between them. -/
theorem Calm.join (hs : Calm s) {glue : String} (h : IsGlue glue) (ht : Calm t) :
    Calm (s ++ glue ++ t) := by
  rw [String.append_assoc]
  exact calm_append.mpr ⟨hs, ht.behind h.1, fun _ => h.follows t⟩

theorem calm_intercalate {glue : String} (h : IsGlue glue) {parts : List String}
    (hparts : ∀ part ∈ parts, Calm part) : Calm (glue.intercalate parts) := by
  induction parts with
  | nil => exact calm_of_flat (by simp)
  | cons part parts ih =>
      obtain ⟨hpart, hrest⟩ := List.forall_mem_cons.mp hparts
      cases parts with
      | nil => simpa using hpart
      | cons part' parts =>
          rw [String.intercalate_cons_cons]
          exact hpart.join h (ih hrest)

theorem follows_feed (s : String) : Follows ("\n" ++ s) :=
  follows_append (by decide) fun hempty => absurd hempty (by decide)

theorem follows_lines {line : String} (h : Follows line) (lines : List String) :
    Follows ("\n".intercalate (line :: lines)) := by
  cases lines with
  | nil => simpa using h
  | cons line' lines =>
      rw [String.intercalate_cons_cons, String.append_assoc]
      exact follows_append h fun _ => follows_feed _

/-- Calm lines are a calm text, if all but the first can follow a line feed. -/
theorem calm_lines {line : String} {lines : List String} (hline : Calm line)
    (h : ∀ l ∈ lines, Calm l ∧ Follows l) : Calm ("\n".intercalate (line :: lines)) := by
  induction lines generalizing line with
  | nil => simpa using hline
  | cons line' lines ih =>
      obtain ⟨⟨hcalm, hfollows⟩, hrest⟩ := List.forall_mem_cons.mp h
      have hfeed : Calm "\n" := List.isChain_singleton _
      rw [String.intercalate_cons_cons, String.append_assoc]
      refine calm_append.mpr ⟨hline, ?_, fun _ => follows_feed _⟩
      exact calm_append.mpr ⟨hfeed, ih hcalm hrest, fun _ => follows_lines hfollows lines⟩

end

/-! ## Expressions -/

mutual

/-- An expression whose names are calm texts. -/
def Expr.IsCalm : Expr → Prop
  | .name id => Calm id
  | .number _ => True
  | .truth _ => True
  | .text _ => True
  | .member object part => object.IsCalm ∧ Calm part
  | .call function arguments named =>
    function.IsCalm ∧ AreCalm arguments ∧ AreNamedCalm named
  | .subscript object parts => object.IsCalm ∧ AreCalm parts
  | .list items => AreCalm items

def AreCalm : List Expr → Prop
  | [] => True
  | e :: es => e.IsCalm ∧ AreCalm es

def AreNamedCalm : List (String × Expr) → Prop
  | [] => True
  | (k, e) :: rest => Calm k ∧ e.IsCalm ∧ AreNamedCalm rest

end

theorem memberPoint_isGlue (e : Expr) : IsGlue e.memberPoint := by
  have hpoints : ∀ point ∈ [".", " ."], IsGlue point := by decide
  refine hpoints _ ?_
  unfold Expr.memberPoint
  split <;> decide

/-- A call keeps its line open. -/
theorem steady_call {function : Expr} {arguments : List Expr} {named : List (String × Expr)}
    (hfunction : Calm function.print) (harguments : ∀ s ∈ Expr.prints arguments, Calm s)
    (hnamed : ∀ s ∈ Expr.printNamed named, Calm s) :
    Steady (Expr.call function arguments named).print := by
  rw [Expr.print]
  refine (hfunction.join (by decide) (calm_intercalate (by decide) ?_)).close (by decide)
  exact List.forall_mem_append.mpr ⟨harguments, hnamed⟩

mutual

theorem Expr.IsCalm.print : ∀ {e : Expr}, e.IsCalm → Calm e.print
  | .name _, h => by
      rw [Expr.print]
      exact h
  | .number n, _ => by
      rw [Expr.print]
      exact calm_of_flat (feed_not_mem_number n)
  | .truth b, _ => by
      rw [Expr.print]
      cases b <;> exact calm_of_flat (by decide)
  | .text s, _ => by
      rw [Expr.print]
      exact calm_of_flat (Text.feed_not_mem_quoted s)
  | .member object part, ⟨hobject, hpart⟩ => by
      rw [Expr.print]
      exact hobject.print.join (memberPoint_isGlue object) hpart
  | .call _ _ _, ⟨hfunction, harguments, hnamed⟩ =>
      (steady_call hfunction.print harguments.prints hnamed.prints).calm
  | .subscript object parts, ⟨hobject, hparts⟩ => by
      rw [Expr.print]
      exact ((hobject.print.join (by decide) (calm_intercalate (by decide) hparts.prints)).close
        (by decide)).calm
  | .list items, h => by
      rw [Expr.print]
      exact (((calm_intercalate (by decide) h.prints).behind (by decide)).close (by decide)).calm

theorem AreCalm.prints : ∀ {es : List Expr}, AreCalm es → ∀ s ∈ Expr.prints es, Calm s
  | [], _ => by simp [Expr.prints]
  | e :: es, ⟨he, hes⟩ => by
      rw [Expr.prints]
      exact List.forall_mem_cons.mpr ⟨he.print, hes.prints⟩

theorem AreNamedCalm.prints : ∀ {named : List (String × Expr)}, AreNamedCalm named →
    ∀ s ∈ Expr.printNamed named, Calm s
  | [], _ => by simp [Expr.printNamed]
  | (k, e) :: rest, ⟨hk, he, hrest⟩ => by
      rw [Expr.printNamed]
      exact List.forall_mem_cons.mpr ⟨hk.join (by decide) he.print, hrest.prints⟩

end

/-! ## Names

A name may end with a line feed. What naming puts behind it is plain text, which the normal form of
the name keeps. -/

theorem feed_keptInContainers : KeptInContainers fun name => '\n' ∉ name.toList where
  container m := by
    have hstem : '\n' ∉ (pascalCase m).toList := fun hmem =>
      absurd ((Plain.pascalCase m).alphanum _ hmem) (by decide)
    rw [safeTypeName]
    split
    · simpa using hstem
    · exact hstem
  numbered n hname := by
    have hdigits : '\n' ∉ (toString n).toList := fun hmem =>
      absurd (isDigit_of_mem_toString hmem) (by decide)
    simpa [hname] using hdigits

/-- A calm name that is in ASCII behind its first line feed. -/
structure Tidy (name : String) : Prop where
  calm : Calm name
  ascii : name.toList.Pairwise fun a b => a = '\n' → b.toNat < 128

namespace Tidy

variable {name t : String}

theorem of_flat (h : '\n' ∉ name.toList) : Tidy name where
  calm := calm_of_flat h
  ascii := List.pairwise_iff_forall_sublist.mpr fun hsub heq =>
    absurd (heq ▸ hsub.subset List.mem_cons_self) h

theorem append (h : Tidy name) (hflat : '\n' ∉ t.toList) (hascii : IsAscii t) (ht : Follows t) :
    Tidy (name ++ t) where
  calm := calm_append.mpr ⟨h.calm, calm_of_flat hflat, fun _ => ht⟩
  ascii := by
    rw [String.toList_append, List.pairwise_append]
    refine ⟨h.ascii, (of_flat hflat).ascii, fun _ _ c hc _ => ?_⟩
    simpa using List.all_eq_true.mp hascii c hc

theorem behind (ht : Tidy t) (h : '\n' ∉ name.toList) : Tidy (name ++ t) where
  calm := ht.calm.behind h
  ascii := by
    rw [String.toList_append, List.pairwise_append]
    refine ⟨(of_flat h).ascii, ht.ascii, ?_⟩
    rintro _ hc _ _ rfl
    exact absurd hc h

theorem of_isSchemaName (h : Text.isSchemaName name = true) : Tidy name := by
  have hword : ∀ s : List Char,
      Text.isWord Text.opensIdentifier Text.continuesIdentifier s = true → '\n' ∉ s := by
    intro s hs hmem
    cases s with
    | nil => cases hmem
    | cons c cs =>
        simp only [Text.isWord, Bool.and_eq_true, List.all_eq_true] at hs
        rcases List.mem_cons.mp hmem with rfl | hmem
        · exact absurd hs.1 (by decide)
        · exact absurd (hs.2 _ hmem) (by decide)
  rw [Text.isSchemaName, Text.dropFinalNewline] at h
  split at h
  · rename_i hlast
    have hname : name = .ofList name.toList.dropLast ++ "\n" := by
      rw [← String.toList_inj, String.toList_append, String.toList_ofList]
      exact (List.dropLast_append_getLast? _ hlast).symm
    rw [hname]
    refine behind ⟨List.isChain_singleton _, List.pairwise_singleton _ _⟩ ?_
    rw [String.toList_ofList]
    exact hword _ h
  · exact of_flat (hword _ h)

theorem safeTypeName (h : Tidy name) : Tidy (safeTypeName name) := by
  rw [RecordGen.safeTypeName]
  split
  · exact h.append (by decide) (by decide) (by decide)
  · exact h

theorem keptByNaming {g : ClassGraph} (h : g.Linked) {p : String} (hp : '\n' ∉ p.toList) :
    KeptByNaming g p Tidy where
  container m := of_flat (feed_keptInContainers.container m)
  record c hc := (of_isSchemaName (h.named c hc)).safeTypeName
  interface c hc := ((of_isSchemaName (h.named c hc)).behind hp).safeTypeName
  numbered n hname := by
    have hdigit : ∀ c ∈ (toString n).toList, c.isDigit = true := fun _ => isDigit_of_mem_toString
    have hplain : ∀ c, c.isDigit = true → c ≠ '\n' ∧ IsQuiet c := by
      rintro c hc
      refine ⟨?_, ?_, ?_⟩ <;> rintro rfl <;> cases hc
    refine hname.append (fun hmem => (hplain _ (hdigit _ hmem)).1 rfl) ?_ fun c hc =>
      (hplain c (hdigit c (List.mem_of_head? hc))).2
    exact isAscii_of_alphanum fun c hc => by rw [Char.isAlphanum, hdigit c hc, Bool.or_true]
  implementing hname := hname.append (by decide) (by decide) (by decide)

end Tidy

theorem isInfix_withoutMargins (s : List Char) : withoutMargins s <:+: s := by
  have hsuffix := List.dropWhile_suffix (l := (s.dropWhile isMargin).reverse) isMargin
  rw [← List.reverse_prefix, List.reverse_reverse] at hsuffix
  exact hsuffix.isInfix.trans (List.dropWhile_suffix _).isInfix

theorem getLast?_withoutMargins (s : List Char) : (withoutMargins s).getLast? ≠ some '\n' := by
  rw [withoutMargins, List.getLast?_reverse]
  intro hhead
  have hmargin := List.head?_dropWhile_not isMargin (s.dropWhile isMargin).reverse
  rw [hhead] at hmargin
  cases hmargin

/-- What is left of a tidy name are characters before any line feed, and calm ones in ASCII. -/
theorem Tidy.exists_split {name : String} (h : Tidy name) {s : List Char}
    (hs : s <:+: name.toList) : ∃ front rest, s = front ++ rest ∧ '\n' ∉ front ∧
      (∀ c ∈ rest, c.toNat < 128) ∧ Calm (.ofList rest) := by
  refine ⟨s.takeWhile (· ≠ '\n'), s.dropWhile (· ≠ '\n'), List.takeWhile_append_dropWhile.symm,
    fun hmem => ?_, ?_, ?_⟩
  · simpa using List.mem_takeWhile_imp hmem
  · have hascii := h.ascii.sublist ((List.dropWhile_suffix (· ≠ '\n')).isInfix.trans hs).sublist
    cases hrest : s.dropWhile (· ≠ '\n') with
    | nil => simp
    | cons c rest =>
        have hfeed := List.head?_dropWhile_not (· ≠ '\n') s
        rw [hrest] at hfeed hascii
        obtain rfl : c = '\n' := by simpa using hfeed
        exact List.forall_mem_cons.mpr
          ⟨by decide, fun d hd => List.rel_of_pairwise_cons hascii hd rfl⟩
  · rw [Calm, String.toList_ofList]
    exact h.calm.infix ((List.dropWhile_suffix _).isInfix.trans hs)

/-- A name as an expression shows it is calm, and does not end its line. -/
theorem steady_referredName {name : String} (h : Tidy name) : Steady (referredName name) := by
  obtain ⟨front, rest, hsplit, hfront, hrest, hcalm⟩ := h.exists_split (isInfix_withoutMargins _)
  obtain ⟨front', hfront', hnormal⟩ := Text.exists_normalForm
    (String.toList_ofList.trans hsplit) hfront hrest
  have heq : referredName name = .ofList front' ++ .ofList rest := by
    rw [referredName, ← String.toList_inj, hnormal]
    simp
  have hflat : '\n' ∉ (String.ofList front').toList := by rwa [String.toList_ofList]
  rw [heq]
  refine ⟨hcalm.behind hflat, ?_⟩
  rw [String.toList_append, String.toList_ofList]
  -- The end of the name is kept, and no margin is left there.
  rcases List.eq_nil_or_concat rest with rfl | ⟨init, c, rfl⟩
  · simpa using open_of_flat hflat
  · have hlast := getLast?_withoutMargins name.toList
    rw [hsplit] at hlast
    simpa using hlast

theorem reference_isCalm {name : String} (h : Tidy name) : (Expr.reference name).IsCalm := by
  rw [Expr.reference]
  cases Number.ofText? (withoutMargins name.toList) with
  | some n => trivial
  | none =>
      simp only
      split
      · trivial
      · split
        · trivial
        · exact (steady_referredName h).calm

theorem steady_reference {name : String} (h : Tidy name) : Steady (Expr.reference name).print := by
  rw [print_reference]
  cases Number.ofText? (withoutMargins name.toList) with
  | some n =>
      rw [Option.map_some, Option.getD_some]
      exact .of_flat (feed_not_mem_number n)
  | none =>
      rw [Option.map_none, Option.getD_none]
      exact steady_referredName h

/-! ## Types -/

mutual

/-- The annotation of a field is calm if the names of the classes in it are tidy. -/
theorem Ty.steady_hint : ∀ {t : Ty}, (∀ n ∈ t.outsideNames, '\n' ∉ n.toList) →
    (∀ n ∈ t.references, Tidy n) → Steady t.hint
  | .builtin name, hnames, _ => .of_flat (hnames name List.mem_cons_self)
  | .any, _, _ => .of_flat (by decide)
  | .generated name, _, hrefs => steady_reference (hrefs name List.mem_cons_self)
  | .optional inner, hnames, hrefs => by
      have hinner : Steady inner.hint := inner.steady_hint hnames hrefs
      exact hinner.calm.close (by decide)
  | .collection name arguments, hnames, hrefs => by
      obtain ⟨hname, hnames⟩ := List.forall_mem_cons.mp hnames
      have harguments : ∀ s ∈ Ty.textsWith (fun n => (Expr.reference n).print) arguments, Calm s :=
        calm_hints hnames hrefs
      have hall : Calm (name ++ "[" ++ ", ".intercalate (Ty.textsWith
          (fun n => (Expr.reference n).print) arguments)) :=
        (calm_of_flat hname).join (by decide) (calm_intercalate (by decide) harguments)
      exact hall.close (by decide)

theorem calm_hints : ∀ {tys : List Ty}, (∀ n ∈ argumentOutsideNames tys, '\n' ∉ n.toList) →
    (∀ n ∈ argumentReferences tys, Tidy n) →
      ∀ s ∈ Ty.textsWith (fun n => (Expr.reference n).print) tys, Calm s
  | [], _, _ => by simp [Ty.textsWith]
  | t :: ts, hnames, hrefs => by
      rw [argumentOutsideNames, List.forall_mem_append] at hnames
      rw [argumentReferences, List.forall_mem_append] at hrefs
      have ht : Steady t.hint := t.steady_hint hnames.1 hrefs.1
      rw [Ty.textsWith]
      exact List.forall_mem_cons.mpr ⟨ht.calm, calm_hints hnames.2 hrefs.2⟩

end

/-! ## Documentation -/

theorem feed_not_mem_cleanLines {s l : String} (h : l ∈ Text.cleanLines s) : '\n' ∉ l.toList := by
  intro hfeed
  cases (Text.areClean_cleanLines s).flat l h '\n' hfeed

/-- The lines of a documentation string are calm if the names of its entries are. -/
theorem calm_stringLines {d : Documentation} {lines : List String}
    (h : d.stringLines = .ok lines) (hnames : ∀ e ∈ d.entries, Calm e.1) :
    ∀ l ∈ lines, Calm l := by
  have hclean : ∀ {s l : String}, l ∈ Text.cleanLines s → Calm l := fun hl =>
    calm_of_flat (feed_not_mem_cleanLines hl)
  rw [Documentation.stringLines] at h
  split at h
  · obtain rfl := Except.ok.inj h
    exact fun l => hclean
  · obtain ⟨entries, hentries, h⟩ := bind_eq_ok.mp h
    obtain rfl := Except.ok.inj h
    simp only [List.forall_mem_append, List.mem_flatten]
    refine ⟨⟨⟨fun l => hclean, ?_⟩, ?_⟩, ?_⟩
    · split <;> simp [calm_of_flat]
    · simpa using calm_of_flat (s := "Attributes:") (by decide)
    · rintro l ⟨ls, hls, hl⟩
      obtain ⟨e, he, hentry⟩ := (mapM_eq_ok.mp hentries).exists_left ls hls
      rw [Documentation.entryLines] at hentry
      split at hentry
      · cases hentry
      · rename_i first others hlines
        have hall : ∀ l ∈ first :: others, '\n' ∉ l.toList := fun l hl =>
          feed_not_mem_cleanLines (hlines ▸ hl)
        obtain ⟨hfirst, hothers⟩ := List.forall_mem_cons.mp hall
        obtain rfl := Except.ok.inj hentry
        have hheading : Steady ("    " ++ e.1 ++ ": ") :=
          ((hnames e he).behind (by decide)).close (by decide)
        rcases List.mem_cons.mp hl with rfl | hl
        · exact (hheading.append (.of_flat hfirst)).calm
        · obtain ⟨l, hmem, rfl⟩ := List.mem_map.mp hl
          split
          · exact calm_of_flat (by decide)
          · exact (calm_of_flat (hothers l hmem)).behind (by decide)

theorem margin_isGlue (depth : Nat) : IsGlue (margin (depth + 1)) := by
  have hsplit : margin (depth + 1) = indent ++ margin depth := by
    rw [margin, List.replicate_succ, String.join_cons]
    rfl
  have hindent : IsGlue indent := by decide
  refine ⟨?_, ?_, ?_⟩
  · rw [margin, String.toList_join, List.mem_flatMap]
    rintro ⟨step, hstep, hmem⟩
    exact hindent.1 (List.eq_of_mem_replicate hstep ▸ hmem)
  · rw [hsplit]
    exact fun hempty => hindent.2.1 (String.append_eq_empty_iff.mp hempty).1
  · rw [hsplit]
    exact hindent.follows _

theorem calm_join {s : String} {parts : List String} (hs : Calm s)
    (h : ∀ part ∈ parts, Calm part ∧ Follows part) : Calm (s ++ .join parts) := by
  induction parts generalizing s with
  | nil => simpa using hs
  | cons part parts ih =>
      obtain ⟨⟨hcalm, hfollows⟩, hrest⟩ := List.forall_mem_cons.mp h
      rw [String.join_cons, ← String.append_assoc]
      exact ih (calm_append.mpr ⟨hs, hcalm, fun _ => hfollows⟩) hrest

/-- A documentation statement inside of a class is calm if the names of the entries are. -/
theorem docStatement_calm {config : Config} {depth : Nat} {d : Documentation}
    {statements : List Statement} (h : docStatement config (depth + 1) d = .ok statements)
    (hnames : ∀ e ∈ d.entries, Calm e.1) :
    ∀ s ∈ statements, ∃ text, s = .doc text ∧ Calm text := by
  rw [docStatement] at h
  split at h
  · obtain rfl := Except.ok.inj h
    simp
  · obtain ⟨lines, hlines, h⟩ := bind_eq_ok.mp h
    have hcalm := calm_stringLines (mapError_eq_ok.mp hlines) hnames
    split at h
    · cases h
    · obtain rfl := Except.ok.inj h
      simpa using hcalm
    · rename_i first others _
      obtain ⟨hfirst, hothers⟩ := List.forall_mem_cons.mp hcalm
      have hmargin := margin_isGlue depth
      obtain rfl := Except.ok.inj h
      simp only [List.mem_singleton, forall_eq, Statement.doc.injEq, exists_eq_left']
      have hlines : Calm (first ++ .join (others.map fun l =>
          if l.isEmpty then "\n" else "\n" ++ margin (depth + 1) ++ l)) := by
        refine calm_join hfirst (List.forall_mem_map.mpr fun l hl => ?_)
        split
        · exact ⟨List.isChain_singleton _, by decide⟩
        · have hline : Calm (margin (depth + 1) ++ l) := (hothers l hl).behind hmargin.1
          rw [String.append_assoc]
          exact ⟨calm_append.mpr ⟨List.isChain_singleton _, hline, fun _ => hmargin.follows l⟩,
            follows_feed _⟩
      have hfeed : Calm "\n" := List.isChain_singleton _
      refine calm_append.mpr ⟨calm_append.mpr ⟨hlines, hfeed, fun _ => by decide⟩,
        calm_of_flat hmargin.1, fun _ => hmargin.2.2⟩

/-! ## Literals of documentation strings -/

/-- In a documentation string a character stands as it is, or it is escaped on its line. -/
theorem docChar_cases (c : Char) :
    docChar c = [c] ∨ ∃ rest, docChar c = '\\' :: rest ∧ '\n' ∉ rest := by
  have hcode : ∃ rest, codeEscape c = '\\' :: rest := by
    rw [codeEscape]
    split
    · exact ⟨_, rfl⟩
    · split <;> exact ⟨_, rfl⟩
  rw [docChar]
  split
  · exact Or.inl rfl
  · split
    · exact Or.inr ⟨_, rfl, by decide⟩
    · split
      · exact Or.inr ⟨_, rfl, by decide⟩
      · split
        · exact Or.inl rfl
        · obtain ⟨rest, hrest⟩ := hcode
          refine Or.inr ⟨rest, hrest, fun hmem => feed_not_mem_codeEscape c ?_⟩
          exact hrest ▸ List.mem_cons_of_mem _ hmem

theorem follows_docChars {s : List Char} (h : Follows (.ofList s)) :
    Follows (.ofList (s.flatMap docChar)) := by
  cases s with
  | nil => exact h
  | cons c s =>
      have hc : IsQuiet c := h c (by simp)
      rw [List.flatMap_cons]
      intro d hd
      rcases docChar_cases c with heq | ⟨rest, heq, -⟩
      · obtain rfl : c = d := by simpa [heq] using hd
        exact hc
      · obtain rfl : '\\' = d := by simpa [heq] using hd
        decide

theorem calm_docChars {s : List Char} (h : Calm (.ofList s)) :
    Calm (.ofList (s.flatMap docChar)) := by
  induction s with
  | nil => exact h
  | cons c s ih =>
      rw [← List.singleton_append, String.ofList_append, calm_append] at h
      obtain ⟨hc, hs, hfollows⟩ := h
      rw [List.flatMap_cons, String.ofList_append]
      rcases docChar_cases c with heq | ⟨rest, heq, hrest⟩
      · rw [heq]
        exact calm_append.mpr ⟨hc, ih hs, fun hlast => follows_docChars (hfollows hlast)⟩
      · exact (ih hs).behind (by simpa [heq] using hrest)

theorem steady_docBetween {q : Char} (hq : q = '"' ∨ q = '\'') {s : List Char}
    (h : Calm (.ofList s)) : Steady (.ofList (docBetween q s)) := by
  have hquotes : IsGlue (.ofList (tripleQuote q)) ∧ IsGlue (.ofList ['\\', q]) := by
    rcases hq with rfl | rfl <;> decide
  rw [docBetween, String.ofList_append, String.ofList_append]
  refine (Calm.behind ?_ hquotes.1.1).close hquotes.1
  split
  · rename_i hlast
    rw [← List.dropLast_append_getLast? _ hlast, String.ofList_append, calm_append] at h
    rw [String.ofList_append]
    exact (h.1.close hquotes.2).calm
  · exact h

theorem steady_docLiteral {text : String} (h : Calm text) : Steady (docLiteral text) := by
  have hcalm : Calm (.ofList (text.toList.flatMap docChar)) :=
    calm_docChars (by rwa [String.ofList_toList])
  have hquote : quoteFor text.toList = '"' ∨ quoteFor text.toList = '\'' := by
    rw [quoteFor]
    split <;> simp
  have hescaped := feed_not_mem_escaped text.toList
  -- Between triple quotes line feeds stand as they are; in the quoted form they are escaped.
  simp only [docLiteral]
  split
  · exact steady_docBetween (Or.inl rfl) hcalm
  · split
    · exact steady_docBetween (Or.inr rfl) hcalm
    · refine .of_flat ?_
      rcases hquote with heq | heq <;> simpa [heq, tripleQuote] using hescaped

/-! ## Statements -/

theorem Parameter.print_isCalm {p : Parameter} (hname : Calm p.name)
    (htype : ∀ t, p.type = some t → t.IsCalm) : Calm p.print := by
  rw [Parameter.print]
  split
  · exact hname
  · rename_i t ht
    exact hname.join (by decide) (htype t ht).print

/-- The header of a class at a depth. -/
def classHeader (depth : Nat) (name : String) (bases : List Expr) : String :=
  margin depth ++ "class " ++ name ++
    (if bases.isEmpty then "" else "(" ++ ", ".intercalate (bases.map Expr.print) ++ ")") ++ ":"

/-- The header of a function at a depth. -/
def functionHeader (depth : Nat) (name : String) (parameters : List Parameter) (result : Expr) :
    String :=
  margin depth ++ "def " ++ name ++ "(" ++ ", ".intercalate (parameters.map Parameter.print) ++
    ") -> " ++ result.print ++ ":"

theorem feed_not_mem_margin (depth : Nat) : '\n' ∉ (margin depth).toList := by
  cases depth with
  | zero => decide
  | succ depth => exact (margin_isGlue depth).1

theorem steady_classHeader (depth : Nat) {name : String} {bases : List Expr} (hname : Calm name)
    (hbases : ∀ b ∈ bases, b.IsCalm) : Steady (classHeader depth name bases) := by
  have hclass : Calm (margin depth ++ "class " ++ name) := by
    rw [String.append_assoc]
    exact (hname.behind (by decide)).behind (feed_not_mem_margin depth)
  rw [classHeader]
  split
  · rw [String.append_empty]
    exact hclass.close (by decide)
  · have hall : Calm (", ".intercalate (bases.map Expr.print)) :=
      calm_intercalate (by decide) (List.forall_mem_map.mpr fun b hb => (hbases b hb).print)
    rw [← String.append_assoc, ← String.append_assoc]
    exact ((hclass.join (by decide) hall).close (by decide)).calm.close (by decide)

theorem steady_functionHeader (depth : Nat) {name : String} {parameters : List Parameter}
    {result : Expr} (hname : Calm name) (hparameters : ∀ p ∈ parameters, Calm p.print)
    (hresult : result.IsCalm) : Steady (functionHeader depth name parameters result) := by
  have hfunction : Calm (margin depth ++ "def " ++ name) := by
    rw [String.append_assoc]
    exact (hname.behind (by decide)).behind (feed_not_mem_margin depth)
  have hall : Calm (", ".intercalate (parameters.map Parameter.print)) :=
    calm_intercalate (by decide) (List.forall_mem_map.mpr hparameters)
  exact ((hfunction.join (by decide) hall).join (by decide) hresult.print).close (by decide)

mutual

/-- A statement whose names and documentation are calm, and which does not end its line where it
ends. -/
def Statement.IsCalm : Statement → Prop
  | .doc text => Calm text
  | .field name type => Calm name ∧ Steady type.hint
  | .assign name value => Calm name ∧ Steady value.print
  | .evaluate e => Steady e.print
  | .give e => Steady e.print
  | .pass => True
  | .function decorators name parameters result body =>
    (∀ d ∈ decorators, Steady d.print) ∧ Calm name ∧ (∀ p ∈ parameters, Calm p.print) ∧
      result.IsCalm ∧ BodyIsCalm body
  | .classDefinition decorators name bases body =>
    (∀ d ∈ decorators, Steady d.print) ∧ Calm name ∧ (∀ b ∈ bases, b.IsCalm) ∧ BodyIsCalm body

def BodyIsCalm : List Statement → Prop
  | [] => True
  | s :: ss => s.IsCalm ∧ BodyIsCalm ss

end

/-- A line that opens no class, and does not end before its end. -/
structure IsLine (line : String) : Prop where
  steady : Steady line
  follows : Follows line

theorem isLine_empty : IsLine "" :=
  ⟨.of_flat (by decide), by decide⟩

theorem Steady.isLine {s : String} (h : Steady s) (depth : Nat) :
    IsLine (margin (depth + 1) ++ s) :=
  ⟨.append (.of_flat (feed_not_mem_margin _)) h, (margin_isGlue depth).follows s⟩

theorem isLine_decorators {decorators : List Expr} (h : ∀ d ∈ decorators, Steady d.print)
    (depth : Nat) : ∀ l ∈ decoratorLines (depth + 1) decorators, IsLine l := by
  refine List.forall_mem_map.mpr fun d hd => ?_
  have hline : Steady ("@" ++ d.print) := .append (.of_flat (by decide)) (h d hd)
  rw [String.append_assoc]
  exact hline.isLine depth

mutual

/-- Below the top level, no line of a statement opens a class. -/
theorem Statement.IsCalm.isLine : ∀ {s : Statement} {depth : Nat}, s.IsCalm →
    ∀ l ∈ s.lines (depth + 1), IsLine l
  | .doc text, depth, h => by
      rw [Statement.lines]
      exact List.forall_mem_singleton.mpr ((steady_docLiteral h).isLine depth)
  | .field name type, depth, ⟨hname, htype⟩ => by
      have hline : Steady (name ++ ": " ++ type.hint) := (hname.close (by decide)).append htype
      rw [Statement.lines, List.forall_mem_singleton]
      simpa only [String.append_assoc] using hline.isLine depth
  | .assign name value, depth, ⟨hname, hvalue⟩ => by
      have hline : Steady (name ++ " = " ++ value.print) := (hname.close (by decide)).append hvalue
      rw [Statement.lines, List.forall_mem_singleton]
      simpa only [String.append_assoc] using hline.isLine depth
  | .evaluate e, depth, h => by
      have hline : Steady e.print := h
      rw [Statement.lines]
      exact List.forall_mem_singleton.mpr (hline.isLine depth)
  | .give e, depth, h => by
      have hline : Steady ("return " ++ e.print) := .append (.of_flat (by decide)) h
      rw [Statement.lines, String.append_assoc]
      exact List.forall_mem_singleton.mpr (hline.isLine depth)
  | .pass, depth, _ => by
      have hline : Steady "pass" := .of_flat (by decide)
      rw [Statement.lines]
      exact List.forall_mem_singleton.mpr (hline.isLine depth)
  | .function decorators name parameters result body, depth,
      ⟨hdecorators, hname, hparameters, hresult, hbody⟩ => by
      have hheader : IsLine (functionHeader (depth + 1) name parameters result) :=
        ⟨steady_functionHeader _ hname hparameters hresult, by
          simp only [functionHeader, String.append_assoc]
          exact (margin_isGlue depth).follows _⟩
      rw [Statement.lines, List.cons_append, List.cons_append, List.append_assoc]
      refine List.forall_mem_cons.mpr ⟨isLine_empty, ?_⟩
      simp only [List.forall_mem_append]
      exact ⟨isLine_decorators hdecorators depth, List.forall_mem_singleton.mpr hheader,
        hbody.isLine⟩
  | .classDefinition decorators name bases body, depth, ⟨hdecorators, hname, hbases, hbody⟩ => by
      have hheader : IsLine (classHeader (depth + 1) name bases) :=
        ⟨steady_classHeader _ hname hbases, by
          simp only [classHeader, String.append_assoc]
          exact (margin_isGlue depth).follows _⟩
      rw [Statement.lines, List.cons_append, List.cons_append, List.append_assoc]
      refine List.forall_mem_cons.mpr ⟨isLine_empty, ?_⟩
      simp only [List.forall_mem_append]
      exact ⟨isLine_decorators hdecorators depth, List.forall_mem_singleton.mpr hheader,
        hbody.isLine⟩

theorem BodyIsCalm.isLine : ∀ {body : List Statement} {depth : Nat}, BodyIsCalm body →
    ∀ l ∈ Statement.bodyLines (depth + 1) body, IsLine l
  | [], _, _ => by simp [Statement.bodyLines]
  | s :: ss, depth, ⟨hs, hss⟩ => by
      rw [Statement.bodyLines]
      exact List.forall_mem_append.mpr ⟨hs.isLine, hss.isLine⟩

end

/-! ## Last lines -/

/-- The last line holds something. -/
def Closes (lines : List String) : Prop :=
  ∀ l ∈ lines.getLast?, l ≠ ""

theorem closes_singleton {l : String} (h : l ≠ "") : Closes [l] := by
  rintro _ ⟨⟩
  exact h

theorem closes_append {lines lines' : List String} (h : Closes lines) (h' : Closes lines') :
    Closes (lines ++ lines') := by
  intro l hl
  rw [List.getLast?_append, Option.mem_def, Option.or_eq_some_iff] at hl
  rcases hl with hl | ⟨-, hl⟩
  · exact h' l hl
  · exact h l hl

theorem closes_definition {decorators body : List String} {header : String} (h : header ≠ "")
    (hbody : Closes body) : Closes ("" :: decorators ++ [header] ++ body) := by
  refine closes_append ?_ hbody
  rw [Closes, List.getLast?_append]
  exact closes_singleton h

mutual

/-- Below the top level, statements do not end with an empty line. -/
theorem Statement.closes_lines : ∀ (s : Statement) (depth : Nat), Closes (s.lines (depth + 1))
  | .doc _, depth | .field _ _, depth | .assign _ _, depth | .evaluate _, depth | .give _, depth
  | .pass, depth => by
      rw [Statement.lines]
      exact closes_singleton (by simp [(margin_isGlue depth).2.1])
  | .function _ _ _ _ body, depth | .classDefinition _ _ _ body, depth => by
      rw [Statement.lines]
      exact closes_definition (by simp) (closes_bodyLines body (depth + 1))

theorem closes_bodyLines : ∀ (body : List Statement) (depth : Nat),
    Closes (Statement.bodyLines (depth + 1) body)
  | [], _ => by simp [Statement.bodyLines, Closes]
  | s :: ss, depth => by
      rw [Statement.bodyLines]
      exact closes_append (s.closes_lines depth) (closes_bodyLines ss depth)

end

/-- Lines that open no class, below one that is steady itself. -/
theorem steady_lines {line : String} {lines : List String} (hline : Steady line)
    (h : ∀ l ∈ lines, IsLine l) (hcloses : Closes lines) :
    Steady ("\n".intercalate (line :: lines)) where
  calm := calm_lines hline.calm fun l hl => ⟨(h l hl).steady.calm, (h l hl).follows⟩
  open_ended := by
    rcases List.eq_nil_or_concat lines with rfl | ⟨init, l, rfl⟩
    · simpa using hline.open_ended
    · have hne : l ≠ "" := hcloses l (by simp)
      rw [List.concat_eq_append, ← List.cons_append,
        String.intercalate_append_of_ne_nil (List.cons_ne_nil _ _) (List.cons_ne_nil _ _),
        String.intercalate_singleton, String.toList_append,
        List.getLast?_append_of_ne_nil _ (by simpa using hne)]
      exact (h l (by simp)).steady.open_ended

end RecordGen.Python

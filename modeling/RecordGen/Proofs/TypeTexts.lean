import RecordGen.Proofs.Loading

/-! # Texts of types

A type can be written in many ways, with white space around every name, bracket, comma and question
mark. All of them are read as that type, and one of them is its text. -/

namespace RecordGen

open Text Fallible

/-! ## White space -/

namespace Text

/-- A text of white space. -/
def IsBlanks (s : List Char) : Prop :=
  ∀ c ∈ s, isBlank c = true

theorem isBlanks_nil : IsBlanks [] := by simp [IsBlanks]

theorem IsBlanks.append {s s' : List Char} (h : IsBlanks s) (h' : IsBlanks s') :
    IsBlanks (s ++ s') :=
  fun c hc => (List.mem_append.mp hc).elim (h c) (h' c)

theorem IsBlanks.plain {s : List Char} (h : IsBlanks s) :
    ∀ c ∈ s, c ≠ '<' ∧ c ≠ '>' ∧ c ≠ ',' := by
  refine fun c hc => ⟨?_, ?_, ?_⟩ <;>
  · rintro rfl
    exact absurd (h _ hc) (by decide)

/-- A text that neither begins nor ends with white space, and is not empty. -/
def IsTight (s : List Char) : Prop :=
  s.head?.any (!isBlank ·) = true ∧ s.getLast?.any (!isBlank ·) = true

instance (s : List Char) : Decidable (IsTight s) := inferInstanceAs (Decidable (_ ∧ _))

theorem IsTight.ne_nil {s : List Char} (h : IsTight s) : s ≠ [] := by
  rintro rfl
  cases h.1

/-- What follows may be anything that ends in a character other than white space. -/
theorem IsTight.concat {s : List Char} (h : IsTight s) (rest : List Char) {c : Char}
    (hc : isBlank c = false) : IsTight (s ++ rest ++ [c]) := by
  refine ⟨?_, ?_⟩
  · rw [List.append_assoc, List.head?_append_of_ne_nil _ h.ne_nil]
    exact h.1
  · rw [List.getLast?_concat, Option.any_some, hc]
    rfl

theorem trimStart_of_head {s : List Char} (h : s.head?.any (!isBlank ·) = true) :
    trimStart s = s := by
  cases s with
  | nil => rfl
  | cons c s => exact List.dropWhile_cons_of_neg (by simpa using h)

theorem trimEnd_of_last {s : List Char} (h : s.getLast?.any (!isBlank ·) = true) :
    trimEnd s = s := by
  have hhead : s.reverse.head?.any (!isBlank ·) = true := by rwa [List.head?_reverse]
  have hdrop : s.reverse.dropWhile isBlank = s.reverse := trimStart_of_head hhead
  rw [trimEnd, hdrop, List.reverse_reverse]

theorem trimStart_blanks {b : List Char} (hb : IsBlanks b) (s : List Char) :
    trimStart (b ++ s) = trimStart s :=
  List.dropWhile_append_of_pos hb

theorem trimEnd_blanks {b : List Char} (hb : IsBlanks b) (s : List Char) :
    trimEnd (s ++ b) = trimEnd s := by
  rw [trimEnd, List.reverse_append, List.dropWhile_append_of_pos (by simpa [IsBlanks] using hb),
    trimEnd]

/-- Trimming takes the white space around a text and nothing else. -/
theorem trim_around {before s after : List Char} (hbefore : IsBlanks before) (hs : IsTight s)
    (hafter : IsBlanks after) : trim (before ++ s ++ after) = s := by
  have hhead : (s ++ after).head?.any (!isBlank ·) = true := by
    rw [List.head?_append_of_ne_nil _ hs.ne_nil]
    exact hs.1
  rw [trim, List.append_assoc, trimStart_blanks hbefore, trimStart_of_head hhead,
    trimEnd_blanks hafter, trimEnd_of_last hs.2]

theorem head_dropWhile {p : Char → Bool} {s : List Char} (h : s.dropWhile p ≠ []) :
    (s.dropWhile p).head?.any (!p ·) = true := by
  have hhead := List.head_dropWhile_not p h
  rw [List.head?_eq_some_head h, Option.any_some, hhead]
  rfl

theorem isTight_trim {s : List Char} (h : trim s ≠ []) : IsTight (trim s) := by
  have hend : (trimStart s).reverse.dropWhile isBlank ≠ [] := by simpa [trim, trimEnd] using h
  have hstart : trimStart s ≠ [] := by
    intro hnil
    rw [hnil] at hend
    exact hend rfl
  have hprefix : trim s <+: trimStart s := by
    have hsuffix :=
      List.reverse_prefix.mpr (List.dropWhile_suffix (l := (trimStart s).reverse) isBlank)
    rwa [List.reverse_reverse] at hsuffix
  obtain ⟨rest, hrest⟩ := hprefix
  refine ⟨?_, ?_⟩
  · have hhead := head_dropWhile hstart
    rwa [show s.dropWhile isBlank = trimStart s from rfl, ← hrest,
      List.head?_append_of_ne_nil _ h] at hhead
  · have hlast := head_dropWhile hend
    rwa [trim, trimEnd, List.getLast?_reverse]

end Text

namespace PropertyType

/-! ## Names -/

/-- A name that stands by itself: no white space around it, no bracket or comma in it, and no
question mark at its end. -/
structure IsPlainName (name : String) : Prop where
  tight : IsTight name.toList
  plain : ∀ c ∈ name.toList, c ≠ '<' ∧ c ≠ '>' ∧ c ≠ ','
  last : name.toList.getLast? ≠ some '?'

theorem IsPlainName.opening {name : String} (h : IsPlainName name) : '<' ∉ name.toList :=
  fun hc => (h.plain _ hc).1 rfl

/-- A plain name that can be that of a class. -/
structure IsReferenceName (name : String) : Prop extends IsPlainName name where
  not_primitive : name ∉ primitiveNames

theorem primitive_plain {name : String} (h : name ∈ primitiveNames) : IsPlainName name := by
  rcases eq_of_mem_primitiveNames h with rfl | rfl | rfl | rfl | rfl | rfl <;>
    exact ⟨by decide, by simp, by decide⟩

theorem collection_plain {name : String} {arity : Nat} (h : collectionArity? name = some arity) :
    IsPlainName name := by
  rcases eq_of_collectionArity? h with rfl | rfl | rfl <;>
    exact ⟨by decide, by simp, by decide⟩

/-! ## Spellings -/

/-- The ways to write a type. Whatever stands around the parts of a type is white space. -/
inductive Spelling : PropertyType → List Char → Prop where
  | primitive {name : String} {before after : List Char} : name ∈ primitiveNames →
      IsBlanks before → IsBlanks after →
      Spelling (.primitive name) (before ++ name.toList ++ after)
  | reference {name : String} {before after : List Char} : IsReferenceName name →
      IsBlanks before → IsBlanks after →
      Spelling (.reference name none) (before ++ name.toList ++ after)
  | optional {inner : PropertyType} {s after : List Char} : Spelling inner s → IsBlanks after →
      Spelling (.optional inner) (s ++ ['?'] ++ after)
  | collection {name : String} {parts : List (PropertyType × List Char)}
      {before between after : List Char} : collectionArity? name = some parts.length →
      (∀ part ∈ parts, Spelling part.1 part.2) →
      IsBlanks before → IsBlanks between → IsBlanks after →
      Spelling (.collection name (parts.map (·.1))) (before ++
        (name.toList ++ between ++ '<' :: [','].intercalate (parts.map (·.2)) ++ ['>']) ++ after)

namespace Spelling

variable {t : PropertyType} {s : List Char}

/-- What is written begins and ends somewhere. -/
theorem exists_core (h : Spelling t s) :
    ∃ before core after, s = before ++ core ++ after ∧ IsBlanks before ∧ IsTight core ∧
      IsBlanks after := by
  induction h with
  | primitive hname hbefore hafter =>
      exact ⟨_, _, _, rfl, hbefore, (primitive_plain hname).tight, hafter⟩
  | reference hname hbefore hafter => exact ⟨_, _, _, rfl, hbefore, hname.tight, hafter⟩
  | @optional _ _ blanks _ hblanks ih =>
      obtain ⟨before, core, after, rfl, hbefore, hcore, -⟩ := ih
      exact ⟨before, core ++ after ++ ['?'], blanks, by simp, hbefore, hcore.concat after rfl,
        hblanks⟩
  | @collection _ _ _ between _ harity _ hbefore _ hafter =>
      refine ⟨_, _, _, rfl, hbefore, ?_, hafter⟩
      rw [List.append_assoc _ between]
      exact (collection_plain harity).tight.concat _ rfl

/-- White space may always be put in front. -/
theorem blanks_left (h : Spelling t s) {blanks : List Char} (hblanks : IsBlanks blanks) :
    Spelling t (blanks ++ s) := by
  induction h with
  | primitive hname hbefore hafter =>
      rw [← List.append_assoc, ← List.append_assoc]
      exact .primitive hname (hblanks.append hbefore) hafter
  | reference hname hbefore hafter =>
      rw [← List.append_assoc, ← List.append_assoc]
      exact .reference hname (hblanks.append hbefore) hafter
  | optional _ hafter ih =>
      rw [← List.append_assoc, ← List.append_assoc]
      exact .optional ih hafter
  | collection harity hparts hbefore hbetween hafter _ =>
      rw [← List.append_assoc, ← List.append_assoc]
      exact .collection harity hparts (hblanks.append hbefore) hbetween hafter

end Spelling

/-! ## Splitting arguments -/

/-- A text whose brackets match and whose commas lie inside of them: it is passed over whatever
brackets are open around it. -/
def IsLevel (s : List Char) : Prop :=
  ∀ depth current rest, splitArguments depth current (s ++ rest) =
    splitArguments depth (s.reverse ++ current) rest

theorem isLevel_nil : IsLevel [] := fun _ _ _ => rfl

theorem IsLevel.append {s s' : List Char} (h : IsLevel s) (h' : IsLevel s') :
    IsLevel (s ++ s') := by
  intro depth current rest
  rw [List.append_assoc, h, h', List.reverse_append, List.append_assoc]

theorem isLevel_of_plain {s : List Char} (h : ∀ c ∈ s, c ≠ '<' ∧ c ≠ '>' ∧ c ≠ ',') :
    IsLevel s := by
  induction s with
  | nil => exact isLevel_nil
  | cons c s ih =>
      intro depth current rest
      obtain ⟨⟨hopen, hclose, hcomma⟩, hs⟩ := List.forall_mem_cons.mp h
      rw [List.cons_append, splitArguments, if_neg hopen, if_neg hclose,
        if_neg fun hc => hcomma hc.1, ih hs, List.reverse_cons, List.append_assoc,
        List.singleton_append]

theorem isLevel_of_blanks {s : List Char} (h : IsBlanks s) : IsLevel s :=
  isLevel_of_plain h.plain

/-- Inside brackets commas separate nothing. -/
theorem isLevel_brackets {parts : List (List Char)} (h : ∀ part ∈ parts, IsLevel part) :
    IsLevel ('<' :: [','].intercalate parts ++ ['>']) := by
  have hinside : ∀ depth current rest,
      splitArguments (depth + 1) current ([','].intercalate parts ++ rest) =
        splitArguments (depth + 1) (([','].intercalate parts).reverse ++ current) rest := by
    intro depth current rest
    induction parts generalizing current with
    | nil => rfl
    | cons part parts ih =>
        obtain ⟨hpart, hparts⟩ := List.forall_mem_cons.mp h
        cases parts with
        | nil => simpa using hpart (depth + 1) current rest
        | cons part' parts =>
            rw [List.intercalate_cons_cons, List.append_assoc, List.append_assoc, hpart,
              List.singleton_append, splitArguments, if_neg (by decide), if_neg (by decide),
              if_neg (by simp), ih hparts]
            simp
  intro depth current rest
  rw [List.cons_append, List.cons_append, splitArguments, if_pos rfl, List.append_assoc, hinside,
    List.singleton_append, splitArguments, if_neg (by decide), if_pos rfl,
    if_neg (Nat.succ_ne_zero depth), Nat.add_sub_cancel]
  simp

theorem Spelling.isLevel {t : PropertyType} {s : List Char} (h : Spelling t s) : IsLevel s := by
  induction h with
  | primitive hname hbefore hafter =>
      have hcore := isLevel_of_plain (primitive_plain hname).plain
      exact ((isLevel_of_blanks hbefore).append hcore).append (isLevel_of_blanks hafter)
  | reference hname hbefore hafter =>
      have hcore := isLevel_of_plain hname.plain
      exact ((isLevel_of_blanks hbefore).append hcore).append (isLevel_of_blanks hafter)
  | optional _ hafter ih =>
      have hmark : IsLevel ['?'] := isLevel_of_plain (by simp)
      exact (ih.append hmark).append (isLevel_of_blanks hafter)
  | @collection name parts _ _ _ harity _ hbefore hbetween hafter ih =>
      have hname := isLevel_of_plain (collection_plain harity).plain
      have hparts : ∀ part ∈ parts.map (·.2), IsLevel part := by
        intro part hpart
        obtain ⟨pair, hpair, rfl⟩ := List.mem_map.mp hpart
        exact ih pair hpair
      rw [List.append_assoc (name.toList ++ _)]
      exact ((isLevel_of_blanks hbefore).append ((hname.append (isLevel_of_blanks hbetween)).append
        (isLevel_brackets hparts))).append (isLevel_of_blanks hafter)

theorem length_le_intercalate {part : List Char} {parts : List (List Char)} (h : part ∈ parts) :
    part.length ≤ ([','].intercalate parts).length := by
  induction parts with
  | nil => cases h
  | cons part' parts ih =>
      cases parts with
      | nil => simp [List.mem_singleton.mp h]
      | cons part'' parts =>
          rw [List.intercalate_cons_cons, List.length_append, List.length_append]
          rcases List.mem_cons.mp h with rfl | h
          · omega
          · have := ih h
            omega

/-- Outside brackets commas separate the arguments. -/
theorem splitArguments_intercalate {parts : List (List Char)} (hne : parts ≠ [])
    (h : ∀ part ∈ parts, IsLevel part) :
    splitArguments 0 [] ([','].intercalate parts) = .ok parts := by
  induction parts with
  | nil => exact absurd rfl hne
  | cons part parts ih =>
      obtain ⟨hpart, hparts⟩ := List.forall_mem_cons.mp h
      cases parts with
      | nil =>
          have hlevel := hpart 0 [] []
          rw [List.append_nil, List.append_nil] at hlevel
          rw [List.intercalate_singleton, hlevel, splitArguments, if_pos rfl, List.reverse_reverse]
      | cons part' parts =>
          rw [List.intercalate_cons_cons, List.append_assoc, hpart, List.singleton_append,
            splitArguments, if_neg (by decide), if_neg (by decide), if_pos ⟨rfl, rfl⟩,
            ih (by simp) hparts, map_ok, List.append_nil, List.reverse_reverse]

/-! ## Reading -/

section

variable {owner : String} {steps : Nat}

/-- White space around a text makes no difference. -/
theorem parseWithin_congr {s s' : List Char} (h : trim s = trim s') :
    parseWithin owner steps s = parseWithin owner steps s' := by
  cases steps with
  | zero => rfl
  | succ steps => rw [parseWithin, parseWithin, h]

theorem parseWithin_name {name : String} (htight : IsTight name.toList)
    (hbracket : '<' ∉ name.toList) (hlast : name.toList.getLast? ≠ some '?') {s : List Char}
    (hs : trim s = name.toList) : parseWithin owner (steps + 1) s =
      if name ∈ primitiveNames then .ok (primitive name) else .ok (reference name none) := by
  have hempty : name.toList.isEmpty = false := by simpa using htight.ne_nil
  rw [parseWithin, hs]
  simp only [hempty, hlast, hbracket, if_false, Bool.false_eq_true, String.ofList_toList]

theorem parseWithin_optional {s front : List Char} (hs : trim s = front ++ ['?']) :
    parseWithin owner (steps + 1) s = optional <$> parseWithin owner steps front := by
  rw [parseWithin, hs]
  simp

/-- A question mark behind what is written, with white space on both sides of it. -/
theorem parseWithin_mark {s before core after blanks : List Char} (hs : s = before ++ core ++ after)
    (hbefore : IsBlanks before) (hcore : IsTight core) (hafter : IsBlanks after)
    (hblanks : IsBlanks blanks) :
    parseWithin owner (steps + 1) (s ++ ['?'] ++ blanks) =
      optional <$> parseWithin owner steps s := by
  subst hs
  have hwhole : trim (before ++ core ++ after ++ ['?'] ++ blanks) = core ++ after ++ ['?'] := by
    have hmark := trim_around hbefore (hcore.concat after (c := '?') rfl) hblanks
    simpa using hmark
  have hfront : trim (core ++ after) = trim (before ++ core ++ after) := by
    rw [trim_around hbefore hcore hafter]
    exact trim_around isBlanks_nil hcore hafter
  rw [parseWithin_optional hwhole, parseWithin_congr hfront]

theorem parseWithin_collection {name : String} {between inner s : List Char}
    {parts : List (List Char)} {arguments : List PropertyType}
    (harity : collectionArity? name = some arguments.length) (hbetween : IsBlanks between)
    (hs : trim s = name.toList ++ between ++ '<' :: inner ++ ['>'])
    (hparts : splitArguments 0 [] inner = .ok parts)
    (harguments : parts.mapM (parseWithin owner steps) = .ok arguments) :
    parseWithin owner (steps + 1) s = .ok (collection name arguments) := by
  have hplain := collection_plain harity
  have hfront : ∀ c ∈ name.toList ++ between, c ≠ '<' := by
    intro c hc
    rcases List.mem_append.mp hc with hc | hc
    · exact (hplain.plain c hc).1
    · rintro rfl
      exact absurd (hbetween _ hc) (by decide)
  have hsplit : splitName (name.toList ++ between ++ '<' :: inner) =
      (name.toList ++ between, inner) := by
    rw [splitName, List.takeWhile_append_of_pos (by simpa using hfront),
      List.dropWhile_append_of_pos (by simpa using hfront)]
    simp
  have htrim : trim (name.toList ++ between) = name.toList :=
    trim_around isBlanks_nil hplain.tight hbetween
  have hlast : (name.toList ++ between ++ '<' :: inner ++ ['>']).getLast? = some '>' :=
    List.getLast?_concat
  rw [parseWithin, hs]
  simp only [hlast, List.dropLast_concat, hsplit, htrim, String.ofList_toList, harity, hparts,
    harguments, ok_bind, if_true]
  simp

end

/-- However a type is written, it is what is read. -/
theorem parseWithin_spelling {owner : String} {t : PropertyType} {s : List Char}
    (h : Spelling t s) : ∀ {steps : Nat}, s.length < steps →
      parseWithin owner steps s = .ok t := by
  induction h with
  | @primitive name before after hname hbefore hafter =>
      intro steps hsteps
      obtain ⟨steps, rfl⟩ := Nat.exists_eq_add_one_of_ne_zero (Nat.ne_zero_of_lt hsteps)
      have hplain := primitive_plain hname
      rw [parseWithin_name hplain.tight hplain.opening hplain.last
        (trim_around hbefore hplain.tight hafter), if_pos hname]
  | @reference name before after hname hbefore hafter =>
      intro steps hsteps
      obtain ⟨steps, rfl⟩ := Nat.exists_eq_add_one_of_ne_zero (Nat.ne_zero_of_lt hsteps)
      rw [parseWithin_name hname.tight hname.opening hname.last
        (trim_around hbefore hname.tight hafter), if_neg hname.not_primitive]
  | @optional inner s blanks hinner hblanks ih =>
      intro steps hsteps
      obtain ⟨steps, rfl⟩ := Nat.exists_eq_add_one_of_ne_zero (Nat.ne_zero_of_lt hsteps)
      obtain ⟨before, core, after, hs, hbefore, hcore, hafter⟩ := hinner.exists_core
      have hlength : s.length < steps := by
        simp only [List.length_append, List.length_singleton] at hsteps
        omega
      rw [parseWithin_mark hs hbefore hcore hafter hblanks, ih hlength, map_ok]
  | @collection name parts before between after harity hparts hbefore hbetween hafter ih =>
      intro steps hsteps
      obtain ⟨steps, rfl⟩ := Nat.exists_eq_add_one_of_ne_zero (Nat.ne_zero_of_lt hsteps)
      have hne : parts ≠ [] := by
        rintro rfl
        rcases eq_of_collectionArity? harity with rfl | rfl | rfl <;> cases harity
      have hlevel : ∀ part ∈ parts.map (·.2), IsLevel part := by
        intro part hpart
        obtain ⟨pair, hpair, rfl⟩ := List.mem_map.mp hpart
        exact (hparts pair hpair).isLevel
      have harguments : (parts.map (·.2)).mapM (parseWithin owner steps) =
          .ok (parts.map (·.1)) := by
        rw [mapM_eq_ok, List.forall₂_map_left_iff, List.forall₂_map_right_iff, List.forall₂_same]
        intro part hpart
        have hlength := length_le_intercalate (List.mem_map_of_mem (f := (·.2)) hpart)
        refine ih part hpart ?_
        simp only [List.length_append, List.length_cons] at hsteps
        omega
      refine parseWithin_collection (by rwa [List.length_map]) hbetween ?_
        (splitArguments_intercalate (by simpa using hne) hlevel) harguments
      refine trim_around hbefore ?_ hafter
      rw [List.append_assoc _ between]
      exact (collection_plain harity).tight.concat _ rfl

theorem parse_spelling {owner text : String} {t : PropertyType} (h : Spelling t text.toList) :
    parse owner text = .ok t :=
  parseWithin_spelling h (Nat.lt_succ_self _)

/-! ## The text of a type -/

/-- A reference that can be written and is not linked. -/
def Written (name : String) (target : Option ClassId) : Prop :=
  IsReferenceName name ∧ target = none

theorem texts_eq (ts : List PropertyType) : texts ts = ts.map text := by
  induction ts with
  | nil => rfl
  | cons t ts ih => rw [texts, ih, List.map_cons]

/-- Parts after a comma and a blank are parts after a comma that begin with a blank. -/
theorem intercalate_blank (part : List Char) (parts : List (List Char)) :
    [',', ' '].intercalate (part :: parts) = [','].intercalate (part :: parts.map (' ' :: ·)) := by
  induction parts generalizing part with
  | nil => rfl
  | cons part' parts ih =>
      have hfirst : ∀ rest : List (List Char), [','].intercalate ((' ' :: part') :: rest) =
          ' ' :: [','].intercalate (part' :: rest) := by
        intro rest
        cases rest <;> simp [List.intercalate_cons_cons]
      rw [List.map_cons, List.intercalate_cons_cons, List.intercalate_cons_cons, ih, hfirst]
      simp

/-- The text of a type is a way to write it. -/
theorem text_spelling {t : PropertyType} (h : t.Formed Written) : Spelling t t.text.toList := by
  induction h with
  | @primitive name hname =>
      have h := Spelling.primitive hname isBlanks_nil isBlanks_nil
      rwa [List.nil_append, List.append_nil] at h
  | @reference name target hname =>
      obtain ⟨hname, rfl⟩ := hname
      have h := Spelling.reference hname isBlanks_nil isBlanks_nil
      rwa [List.nil_append, List.append_nil] at h
  | @collection name arguments harity _ ih =>
      obtain ⟨first, rest, rfl⟩ : ∃ first rest, arguments = first :: rest := by
        refine List.exists_cons_of_ne_nil ?_
        rintro rfl
        rcases eq_of_collectionArity? harity with rfl | rfl | rfl <;> cases harity
      -- Every argument but the first one is written with the blank after its comma.
      let parts := (first, first.text.toList) :: rest.map fun t => (t, ' ' :: t.text.toList)
      have hblank : IsBlanks [' '] := by simp [IsBlanks]; decide
      have hparts : ∀ part ∈ parts, Spelling part.1 part.2 := by
        refine List.forall_mem_cons.mpr ⟨ih first (by simp), fun part hpart => ?_⟩
        obtain ⟨t, ht, rfl⟩ := List.mem_map.mp hpart
        exact (ih t (by simp [ht])).blanks_left hblank
      have hlength : collectionArity? name = some parts.length := by simpa [parts] using harity
      have h := Spelling.collection hlength hparts isBlanks_nil isBlanks_nil isBlanks_nil
      have htexts : [','].intercalate (parts.map (·.2)) =
          (", ".intercalate (texts (first :: rest))).toList := by
        have hcomma : ", ".toList = [',', ' '] := rfl
        rw [String.toList_intercalate, hcomma, texts_eq, List.map_cons, List.map_cons,
          List.map_cons, intercalate_blank]
        simp [Function.comp_def]
      have htypes : parts.map (·.1) = first :: rest := by simp [parts, Function.comp_def]
      have hwhole : (node .collection name (first :: rest) none).text.toList = [] ++ (name.toList ++
          [] ++ '<' :: (", ".intercalate (texts (first :: rest))).toList ++ ['>']) ++ [] := by
        simp [text]
      rw [htexts, htypes] at h
      rw [hwhole]
      exact h
  | @optional inner _ ih =>
      have h := Spelling.optional ih isBlanks_nil
      rw [List.append_nil] at h
      rw [text, String.toList_append]
      exact h

theorem parse_text {owner : String} {t : PropertyType} (h : t.Formed Written) :
    parse owner t.text = .ok t :=
  parse_spelling (text_spelling h)

end PropertyType

end RecordGen

import Mathlib.Data.List.TakeWhile
import RecordGen.Proofs.TypeTexts

/-! # Every text that is read as a type

What is read as a type is a way to write it, but for names outside of collections: these may hold
commas and closing brackets. So a text that is read differs from the text of its type by white space
only, and both are read alike. -/

namespace RecordGen

open Text Fallible

namespace Text

/-! ## Texts without white space -/

/-- A text without any of its white space. -/
def unspaced (s : List Char) : List Char :=
  s.filter (!isBlank ·)

@[simp] theorem unspaced_append (s s' : List Char) :
    unspaced (s ++ s') = unspaced s ++ unspaced s' :=
  List.filter_append ..

theorem unspaced_blanks {s : List Char} (h : IsBlanks s) : unspaced s = [] := by
  simpa [unspaced, List.filter_eq_nil_iff, IsBlanks] using h

theorem unspaced_around {before s after : List Char} (hbefore : IsBlanks before)
    (hafter : IsBlanks after) : unspaced (before ++ s ++ after) = unspaced s := by
  simp [unspaced_blanks hbefore, unspaced_blanks hafter]

theorem unspaced_intercalate (sep : List Char) (parts : List (List Char)) :
    unspaced (sep.intercalate parts) = (unspaced sep).intercalate (parts.map unspaced) := by
  induction parts with
  | nil => rfl
  | cons part parts ih =>
      cases parts with
      | nil => simp
      | cons part' parts =>
          rw [List.intercalate_cons_cons, List.map_cons, List.map_cons,
            List.intercalate_cons_cons, ← List.map_cons, ← ih]
          simp

theorem exists_after_trimEnd (s : List Char) :
    ∃ after, s = trimEnd s ++ after ∧ IsBlanks after := by
  refine ⟨(s.reverse.takeWhile isBlank).reverse, ?_, fun c hc =>
    List.mem_takeWhile_imp (List.mem_reverse.mp hc)⟩
  rw [trimEnd, ← List.reverse_append, List.takeWhile_append_dropWhile, List.reverse_reverse]

/-- What trimming takes away is white space on both sides. -/
theorem exists_around_trim (s : List Char) :
    ∃ before after, s = before ++ trim s ++ after ∧ IsBlanks before ∧ IsBlanks after := by
  obtain ⟨after, hend, hafter⟩ := exists_after_trimEnd (trimStart s)
  refine ⟨s.takeWhile isBlank, after, ?_, fun c hc => List.mem_takeWhile_imp hc, hafter⟩
  rw [trim, List.append_assoc, ← hend]
  exact List.takeWhile_append_dropWhile.symm

/-- At the beginning of a text that begins with no white space, trimming takes white space at the
end only. -/
theorem exists_after_trim {s rest : List Char} (h : IsTight (s ++ rest)) :
    ∃ after, s = trim s ++ after ∧ IsBlanks after := by
  obtain ⟨before, after, hs, hbefore, hafter⟩ := exists_around_trim s
  cases before with
  | nil => exact ⟨after, hs, hafter⟩
  | cons c before =>
      have hblank := hbefore c List.mem_cons_self
      have hhead := h.1
      rw [hs] at hhead
      simp [hblank] at hhead

end Text

namespace PropertyType

/-! ## Brackets and commas -/

/-- Whether a text closes the brackets that are open before it, and its own, and has no comma
outside of all brackets. -/
def closes : Nat → List Char → Bool
  | depth, [] => depth == 0
  | depth, c :: s =>
    if c = '<' then closes (depth + 1) s
    else if c = '>' then depth != 0 && closes (depth - 1) s
    else !(c == ',' && depth == 0) && closes depth s

section

variable {depth : Nat} {c : Char} {s s' : List Char}

theorem closes_cons_plain (h : c ≠ '<' ∧ c ≠ '>' ∧ c ≠ ',') :
    closes depth (c :: s) = closes depth s := by
  obtain ⟨hopen, hclose, hcomma⟩ := h
  simp [closes, hopen, hclose, hcomma]

theorem closes_append_left (h : ∀ c ∈ s, c ≠ '<' ∧ c ≠ '>' ∧ c ≠ ',') :
    closes depth (s ++ s') = closes depth s' := by
  induction s with
  | nil => rfl
  | cons c s ih =>
      obtain ⟨hc, hs⟩ := List.forall_mem_cons.mp h
      rw [List.cons_append, closes_cons_plain hc, ih hs]

theorem closes_append_right (h : ∀ c ∈ s', c ≠ '<' ∧ c ≠ '>' ∧ c ≠ ',') :
    closes depth (s ++ s') = closes depth s := by
  induction s generalizing depth with
  | nil => rw [List.nil_append, ← List.append_nil s', closes_append_left h]
  | cons c s ih => simp only [List.cons_append, closes, ih]

/-- In a text that closes what it opens, a name without an opening bracket is plain. -/
theorem plain_of_closes (h : closes 0 s = true) (hopening : '<' ∉ s) :
    ∀ c ∈ s, c ≠ '<' ∧ c ≠ '>' ∧ c ≠ ',' := by
  induction s with
  | nil => simp
  | cons c s ih =>
      obtain ⟨hc, hs⟩ := not_or.mp (List.mem_cons.not.mp hopening)
      have hopen : c ≠ '<' := Ne.symm hc
      have hclose : c ≠ '>' := by
        rintro rfl
        simp [closes] at h
      simp only [closes, hopen, hclose, if_false, Bool.and_eq_true, Bool.not_eq_true',
        Bool.and_eq_false_iff, beq_eq_false_iff_ne, BEq.rfl, Bool.true_eq_false, or_false] at h
      exact List.forall_mem_cons.mpr ⟨⟨hopen, hclose, h.1⟩, ih h.2 hs⟩

/-- What is split is the parts with a comma between any two. The first part closes the brackets that
are open, every other one its own only. -/
theorem splitArguments_eq_ok {current : List Char} {parts : List (List Char)}
    (h : splitArguments depth current s = .ok parts) :
    ∃ first rest, parts = (current.reverse ++ first) :: rest ∧
      s = [','].intercalate (first :: rest) ∧ closes depth first = true ∧
      ∀ part ∈ rest, closes 0 part = true := by
  induction s generalizing depth current parts with
  | nil =>
      rw [splitArguments] at h
      split at h
      · obtain rfl := Except.ok.inj h
        subst depth
        exact ⟨[], [], by simp, rfl, rfl, by simp⟩
      · cases h
  | cons c s ih =>
      -- A character that separates nothing here joins the first part of what follows it.
      have hjoin : ∀ {depth' : Nat}, splitArguments depth' (c :: current) s = .ok parts →
          (∀ first, closes depth' first = true → closes depth (c :: first) = true) →
          ∃ first rest, parts = (current.reverse ++ first) :: rest ∧
            c :: s = [','].intercalate (first :: rest) ∧ closes depth first = true ∧
            ∀ part ∈ rest, closes 0 part = true := by
        intro depth' hsplit hcloses
        obtain ⟨first, rest, hparts, hs, hfirst, hrest⟩ := ih hsplit
        refine ⟨c :: first, rest, by simpa using hparts, ?_, hcloses first hfirst, hrest⟩
        rw [hs]
        cases rest <;> simp
      rw [splitArguments] at h
      split at h
      · rename_i hopen
        exact hjoin h fun first hfirst => by simpa [closes, hopen] using hfirst
      rename_i hopen
      split at h
      · rename_i hclose
        split at h
        · cases h
        · rename_i hdepth
          exact hjoin h fun first hfirst => by simpa [closes, hclose, hdepth] using hfirst
      rename_i hclose
      split at h
      · rename_i hcomma
        obtain ⟨rfl, rfl⟩ := hcomma
        obtain ⟨others, hothers, rfl⟩ := map_eq_ok.mp h
        obtain ⟨first, rest, rfl, rfl, hfirst, hrest⟩ := ih hothers
        refine ⟨[], first :: rest, by simp, by simp, rfl, ?_⟩
        exact List.forall_mem_cons.mpr ⟨hfirst, hrest⟩
      · rename_i hcomma
        refine hjoin h fun first hfirst => ?_
        simpa [closes, hopen, hclose, hfirst, imp_iff_not_or] using hcomma

end

/-! ## What is read -/

theorem splitName_eq {s : List Char} (h : '<' ∈ s) :
    s = (splitName s).1 ++ '<' :: (splitName s).2 := by
  induction s with
  | nil => cases h
  | cons c s ih =>
      by_cases hc : c = '<'
      · simp [splitName, hc]
      · have hs := ih ((List.mem_cons.mp h).resolve_left (Ne.symm hc))
        simpa [splitName, hc] using hs

/-- How a trimmed text is read from the texts inside of it. -/
inductive Shape (owner : String) (steps : Nat) : List Char → PropertyType → Prop where
  | optional {front : List Char} {inner : PropertyType} :
      parseWithin owner steps front = .ok inner →
      Shape owner steps (front ++ ['?']) (optional inner)
  | collection {name : String} {between inner : List Char} {parts : List (List Char)}
      {arguments : List PropertyType} : collectionArity? name = some arguments.length →
      IsBlanks between → splitArguments 0 [] inner = .ok parts →
      List.Forall₂ (fun part t => parseWithin owner steps part = .ok t) parts arguments →
      Shape owner steps (name.toList ++ between ++ '<' :: inner ++ ['>'])
        (collection name arguments)
  | name {name : String} : '<' ∉ name.toList → name.toList.getLast? ≠ some '?' →
      Shape owner steps name.toList
        (if name ∈ primitiveNames then primitive name else reference name none)

/-- A text in brackets is a collection of what its pieces are read as. -/
theorem Shape.of_brackets {owner : String} {steps : Nat} {s : List Char} {parts : List (List Char)}
    {arguments : List PropertyType} (htight : IsTight s) (hopening : '<' ∈ s)
    (hclosing : s.getLast? = some '>')
    (harity : collectionArity? (.ofList (trim (splitName s.dropLast).1)) = some arguments.length)
    (hparts : splitArguments 0 [] (splitName s.dropLast).2 = .ok parts)
    (harguments : parts.mapM (parseWithin owner steps) = .ok arguments) :
    Shape owner steps s (.collection (.ofList (trim (splitName s.dropLast).1)) arguments) := by
  have hcore : s.dropLast ++ ['>'] = s := List.dropLast_append_getLast? _ hclosing
  have hmem : '<' ∈ s.dropLast := by
    rw [← hcore] at hopening
    simpa using hopening
  have hpieces := splitName_eq hmem
  generalize splitName s.dropLast = pieces at harity hparts hpieces ⊢
  obtain ⟨front, inner⟩ := pieces
  rw [hpieces, List.append_assoc] at hcore
  obtain ⟨between, hfront, hbetween⟩ := exists_after_trim (hcore ▸ htight)
  have hname : front = (String.ofList (trim front)).toList ++ between := by
    rwa [String.toList_ofList]
  have hshape := Shape.collection harity hbetween hparts (mapM_eq_ok.mp harguments)
  rw [← hname, List.append_assoc] at hshape
  exact hcore ▸ hshape

theorem parseWithin_shape {owner : String} {steps : Nat} {s : List Char} {t : PropertyType}
    (h : parseWithin owner (steps + 1) s = .ok t) :
    IsTight (trim s) ∧ Shape owner steps (trim s) t := by
  rw [parseWithin] at h
  simp only at h
  split at h
  · cases h
  rename_i hfull
  have htight : IsTight (trim s) := isTight_trim (by simpa using hfull)
  refine ⟨htight, ?_⟩
  split at h
  · rename_i hmark
    obtain ⟨inner, hinner, rfl⟩ := map_eq_ok.mp h
    have hcore : (trim s).dropLast ++ ['?'] = trim s :=
      List.dropLast_append_getLast? _ hmark
    rw [← hcore]
    exact .optional hinner
  rename_i hmark
  split at h
  · rename_i hopening
    split at h
    · cases h
    rename_i hclosing
    split at h
    · cases h
    rename_i arity harity
    split at h
    · cases h
    · cases h
    rename_i parts hparts
    obtain ⟨arguments, harguments, h⟩ := bind_eq_ok.mp h
    split at h
    · rename_i hlength
      obtain rfl := Except.ok.inj h
      exact .of_brackets htight hopening (not_not.mp hclosing) (by rw [harity, hlength]) hparts
        harguments
    · cases h
  · rename_i hopening
    have hname := @Shape.name owner steps (.ofList (trim s))
    rw [String.toList_ofList] at hname
    specialize hname hopening hmark
    split at h <;> rename_i hprimitive <;>
    · obtain rfl := Except.ok.inj h
      simpa only [hprimitive, if_true, if_false] using hname

/-- A name outside of collections: it may hold commas and closing brackets. -/
structure IsLooseName (name : String) : Prop where
  tight : IsTight name.toList
  opening : '<' ∉ name.toList
  last : name.toList.getLast? ≠ some '?'
  not_primitive : name ∉ primitiveNames

/-- The texts that are read as a type: its spellings, and loose names with their question marks. -/
inductive Reading : PropertyType → List Char → Prop where
  | spelling {t : PropertyType} {s : List Char} : Spelling t s → Reading t s
  | loose {name : String} {before after : List Char} : IsLooseName name → IsBlanks before →
      IsBlanks after → Reading (.reference name none) (before ++ name.toList ++ after)
  | optional {inner : PropertyType} {s after : List Char} : Reading inner s → IsBlanks after →
      Reading (.optional inner) (s ++ ['?'] ++ after)

theorem Spelling.formed {t : PropertyType} {s : List Char} (h : Spelling t s) :
    t.Formed Written := by
  induction h with
  | primitive hname _ _ => exact .primitive hname
  | reference hname _ _ => exact .reference ⟨hname, rfl⟩
  | optional _ _ ih => exact .optional ih
  | collection harity _ _ _ _ ih =>
      refine .collection (by rwa [List.length_map]) fun t ht => ?_
      obtain ⟨part, hpart, rfl⟩ := List.mem_map.mp ht
      exact ih part hpart

theorem Reading.blanks_left {t : PropertyType} {s blanks : List Char} (h : Reading t s)
    (hblanks : IsBlanks blanks) : Reading t (blanks ++ s) := by
  induction h with
  | spelling h => exact .spelling (h.blanks_left hblanks)
  | loose hname hbefore hafter =>
      rw [← List.append_assoc, ← List.append_assoc]
      exact .loose hname (hblanks.append hbefore) hafter
  | optional _ hafter ih =>
      rw [← List.append_assoc, ← List.append_assoc]
      exact .optional ih hafter

/-- Arguments that are spelled between the brackets of a collection. -/
theorem collection_spelling {name : String} {before between inner after : List Char}
    {parts : List (List Char)} {arguments : List PropertyType}
    (harity : collectionArity? name = some arguments.length) (hbetween : IsBlanks between)
    (hparts : splitArguments 0 [] inner = .ok parts)
    (harguments :
      List.Forall₂ (fun part t => closes 0 part = true → Spelling t part) parts arguments)
    (hbefore : IsBlanks before) (hafter : IsBlanks after) :
    Spelling (collection name arguments)
      (before ++ (name.toList ++ between ++ '<' :: inner ++ ['>']) ++ after) := by
  obtain ⟨first, rest, hcons, hinner, hfirst, hrest⟩ := splitArguments_eq_ok hparts
  obtain rfl : parts = first :: rest := hcons
  have hcloses : ∀ part ∈ first :: rest, closes 0 part = true :=
    List.forall_mem_cons.mpr ⟨hfirst, hrest⟩
  have hlength := harguments.length_eq
  have htypes : (arguments.zip (first :: rest)).map (·.1) = arguments :=
    List.map_fst_zip hlength.ge
  have htexts : (arguments.zip (first :: rest)).map (·.2) = first :: rest :=
    List.map_snd_zip hlength.le
  have h := @Spelling.collection name (arguments.zip (first :: rest)) before between after
    (by simpa [hlength] using harity) ?_ hbefore hbetween hafter
  · rwa [htypes, htexts, ← hinner] at h
  · rintro ⟨t, part⟩ hpair
    have hspelling := List.forall₂_zip harguments.flip hpair
    exact hspelling (hcloses part (List.of_mem_zip hpair).2)

/-- A text that is read is one of the readings of its type, and a spelling if it closes what it
opens: then it can be an argument. -/
theorem parseWithin_reading {owner : String} {steps : Nat} {s : List Char} {t : PropertyType}
    (h : parseWithin owner steps s = .ok t) :
    Reading t s ∧ (closes 0 s = true → Spelling t s) := by
  induction steps generalizing s t with
  | zero => cases h
  | succ steps ih =>
      obtain ⟨before, after, hs, hbefore, hafter⟩ := exists_around_trim s
      obtain ⟨htight, hshape⟩ := parseWithin_shape h
      generalize trim s = core at hs htight hshape
      subst hs
      rw [closes_append_right hafter.plain, closes_append_left hbefore.plain]
      cases hshape with
      | @optional front inner hinner =>
          obtain ⟨hreading, hspelling⟩ := ih hinner
          have hmark : ∀ c ∈ ['?'], c ≠ '<' ∧ c ≠ '>' ∧ c ≠ ',' := by simp
          rw [← List.append_assoc, closes_append_right hmark]
          exact ⟨.optional (hreading.blanks_left hbefore) hafter, fun hcloses =>
            .optional ((hspelling hcloses).blanks_left hbefore) hafter⟩
      | @collection name between inner parts arguments harity hbetween hparts harguments =>
          have h := collection_spelling harity hbetween hparts (harguments.imp fun part t hpart =>
            (ih hpart).2) hbefore hafter
          exact ⟨.spelling h, fun _ => h⟩
      | @name name hopening hlast =>
          split
          · rename_i hprimitive
            have h := Spelling.primitive hprimitive hbefore hafter
            exact ⟨.spelling h, fun _ => h⟩
          · rename_i hnew
            exact ⟨.loose ⟨htight, hopening, hlast, hnew⟩ hbefore hafter, fun hcloses =>
              .reference ⟨⟨htight, plain_of_closes hcloses hopening, hlast⟩, hnew⟩ hbefore hafter⟩

/-! ## What is read from a reading -/

theorem Reading.exists_core {t : PropertyType} {s : List Char} (h : Reading t s) :
    ∃ before core after, s = before ++ core ++ after ∧ IsBlanks before ∧ IsTight core ∧
      IsBlanks after := by
  induction h with
  | spelling h => exact h.exists_core
  | loose hname hbefore hafter => exact ⟨_, _, _, rfl, hbefore, hname.tight, hafter⟩
  | @optional _ _ blanks _ hblanks ih =>
      obtain ⟨before, core, after, rfl, hbefore, hcore, -⟩ := ih
      exact ⟨before, core ++ after ++ ['?'], blanks, by simp, hbefore, hcore.concat after rfl,
        hblanks⟩

theorem Reading.parseWithin {owner : String} {t : PropertyType} {s : List Char}
    (h : Reading t s) : ∀ {steps : Nat}, s.length < steps →
      parseWithin owner steps s = .ok t := by
  induction h with
  | spelling h => exact parseWithin_spelling h
  | @loose name before after hname hbefore hafter =>
      intro steps hsteps
      obtain ⟨steps, rfl⟩ := Nat.exists_eq_add_one_of_ne_zero (Nat.ne_zero_of_lt hsteps)
      rw [parseWithin_name hname.tight hname.opening hname.last
        (trim_around hbefore hname.tight hafter), if_neg hname.not_primitive]
  | @optional inner s blanks hinner hblanks ih =>
      intro steps hsteps
      obtain ⟨steps, rfl⟩ := Nat.exists_eq_add_one_of_ne_zero (Nat.ne_zero_of_lt hsteps)
      obtain ⟨before, core, after, hs, hbefore, hcore, hafter⟩ := hinner.exists_core
      have hlength : s.length < steps := by
        simp only [List.length_append, List.length_singleton] at hsteps
        omega
      rw [parseWithin_mark hs hbefore hcore hafter hblanks, ih hlength, map_ok]

/-- A text is read as a type exactly if it is a reading of it. -/
theorem parse_eq_ok {owner text : String} {t : PropertyType} :
    parse owner text = .ok t ↔ Reading t text.toList :=
  ⟨fun h => (parseWithin_reading h).1, fun h => h.parseWithin (Nat.lt_succ_self _)⟩

/-! ## The text of a type that was read -/

theorem toList_text_optional (inner : PropertyType) :
    (optional inner).text.toList = inner.text.toList ++ ['?'] := by
  rw [optional, text, String.toList_append]
  rfl

theorem toList_text_collection (name : String) (arguments : List PropertyType) :
    (collection name arguments).text.toList =
      name.toList ++ '<' :: [',', ' '].intercalate (arguments.map (·.text.toList)) ++ ['>'] := by
  have hcomma : ", ".toList = [',', ' '] := rfl
  have hopening : "<".toList = ['<'] := rfl
  have hclosing : ">".toList = ['>'] := rfl
  simp [collection, text, texts_eq, String.toList_intercalate, hcomma, hopening, hclosing,
    Function.comp_def]

theorem unspaced_mark {s s' after : List Char} (h : unspaced s = unspaced s')
    (hafter : IsBlanks after) : unspaced (s ++ ['?'] ++ after) = unspaced (s' ++ ['?']) := by
  rw [unspaced_append, unspaced_append, unspaced_append, unspaced_blanks hafter, List.append_nil, h]

/-- A type is spelled with the characters of its text, and white space. -/
theorem Spelling.unspaced_eq {t : PropertyType} {s : List Char} (h : Spelling t s) :
    unspaced s = unspaced t.text.toList := by
  induction h with
  | primitive _ hbefore hafter => exact unspaced_around hbefore hafter
  | reference _ hbefore hafter => exact unspaced_around hbefore hafter
  | @optional inner _ _ _ hafter ih =>
      rw [toList_text_optional]
      exact unspaced_mark ih hafter
  | @collection name parts before between after _ _ hbefore hbetween hafter ih =>
      have hparts : (parts.map (·.2)).map unspaced =
          ((parts.map (·.1)).map (·.text.toList)).map unspaced := by
        simpa using ih
      have hcomma : unspaced [','] = unspaced [',', ' '] := by decide
      have hinner : unspaced ([','].intercalate (parts.map (·.2))) = unspaced
          ([',', ' '].intercalate ((parts.map (·.1)).map (·.text.toList))) := by
        rw [unspaced_intercalate, unspaced_intercalate, hparts, hcomma]
      have hopening : ∀ inner, unspaced ('<' :: inner) = '<' :: unspaced inner :=
        fun _ => List.filter_cons_of_pos (by decide)
      rw [unspaced_around hbefore hafter, toList_text_collection]
      simp only [unspaced_append, unspaced_blanks hbetween, hopening, hinner, List.append_nil]

theorem Reading.unspaced_eq {t : PropertyType} {s : List Char} (h : Reading t s) :
    unspaced s = unspaced t.text.toList := by
  induction h with
  | spelling h => exact h.unspaced_eq
  | loose _ hbefore hafter => exact unspaced_around hbefore hafter
  | @optional inner _ _ _ hafter ih =>
      rw [toList_text_optional]
      exact unspaced_mark ih hafter

/-- The text of a type that was read is a reading of it, too. -/
theorem Reading.text {t : PropertyType} {s : List Char} (h : Reading t s) :
    Reading t t.text.toList := by
  induction h with
  | spelling h => exact .spelling (text_spelling h.formed)
  | @loose name _ _ hname _ _ =>
      have h := Reading.loose hname isBlanks_nil isBlanks_nil
      rwa [List.nil_append, List.append_nil] at h
  | @optional inner _ _ _ _ ih =>
      have h := Reading.optional ih isBlanks_nil
      rw [List.append_nil] at h
      rw [toList_text_optional]
      exact h

/-! ## Reading inverts writing -/

mutual

/-- The type with none of its references linked. -/
def unlink : PropertyType → PropertyType
  | node kind name arguments _ => node kind name (unlinkAll arguments) none

def unlinkAll : List PropertyType → List PropertyType
  | [] => []
  | t :: ts => unlink t :: unlinkAll ts

end

theorem unlinkAll_eq (ts : List PropertyType) : unlinkAll ts = ts.map unlink := by
  induction ts with
  | nil => rfl
  | cons t ts ih => rw [unlinkAll, ih, List.map_cons]

mutual

/-- The text of a type does not show what its references are linked to. -/
theorem text_unlink : ∀ t : PropertyType, t.unlink.text = t.text
  | node .primitive _ _ _ => rfl
  | node .reference _ _ _ => rfl
  | node .collection name arguments _ => by rw [unlink, text, text, texts_unlinkAll arguments]
  | node .optional _ [] _ => rfl
  | node .optional _ (inner :: _) _ => by rw [unlink, unlinkAll, text, text, text_unlink inner]

theorem texts_unlinkAll : ∀ ts : List PropertyType, texts (unlinkAll ts) = texts ts
  | [] => rfl
  | t :: ts => by rw [unlinkAll, texts, texts, text_unlink t, texts_unlinkAll ts]

end

/-- A reference under a name that can be written, linked or not. -/
def Writable (name : String) (_ : Option ClassId) : Prop :=
  IsReferenceName name

theorem Formed.unlink {t : PropertyType} (h : t.Formed Writable) : t.unlink.Formed Written := by
  induction h with
  | primitive hname => exact .primitive hname
  | reference hname => exact .reference ⟨hname, rfl⟩
  | @collection name arguments harity _ ih =>
      rw [PropertyType.unlink, unlinkAll_eq]
      refine .collection (by rwa [List.length_map]) fun t ht => ?_
      obtain ⟨t', ht', rfl⟩ := List.mem_map.mp ht
      exact ih t' ht'
  | @optional inner _ ih => exact .optional ih

/-- However a type is written, with white space around any of its parts, it is what is read. A text
that is read differs from the text of its type by white space only, and that is read alike. -/
theorem parse_inverts (owner : String) :
    (∀ t : PropertyType, t.Formed Writable → Spelling t.unlink t.text.toList ∧
      ∀ text : String, Spelling t.unlink text.toList → parse owner text = .ok t.unlink) ∧
    ∀ (text : String) (t : PropertyType), parse owner text = .ok t →
      unspaced text.toList = unspaced t.text.toList ∧ parse owner t.text = .ok t := by
  refine ⟨fun t ht => ⟨?_, fun text h => parse_spelling h⟩, fun text t h => ?_⟩
  · have hspelling := text_spelling ht.unlink
    rwa [text_unlink] at hspelling
  · have hreading := parse_eq_ok.mp h
    exact ⟨hreading.unspaced_eq, parse_eq_ok.mpr hreading.text⟩

/-- A linked type with all kinds of parts. -/
def legs : PropertyType :=
  optional (collection "Map"
    [primitive "String", optional (collection "List" [reference "zoo.Leg" (some 3)])])

theorem parse_inverts_legs :
    legs.Formed Writable ∧ Spelling legs.unlink "\tMap <String , List<zoo.Leg >? \n> ? ".toList ∧
      parse "m" "\tMap <String , List<zoo.Leg >? \n> ? " = .ok legs.unlink ∧
      parse "m" " to, fro> ? " = .ok (optional (reference "to, fro>" none)) ∧
      unspaced " to, fro> ? ".toList = "to,fro>?".toList ∧
      parse "m" "to, fro>?" = .ok (optional (reference "to, fro>" none)) := by
  obtain ⟨hwritten, hread⟩ := parse_inverts "m"
  have hname : IsReferenceName "zoo.Leg" :=
    ⟨⟨by decide, by simp, by decide⟩, by decide⟩
  have hformed : legs.Formed Writable := by
    refine .optional (.collection rfl ?_)
    simp only [List.forall_mem_cons]
    refine ⟨.primitive (by decide), .optional (.collection rfl ?_), by simp⟩
    simpa using .reference hname
  have hloose : parse "m" " to, fro> ? " = .ok (optional (reference "to, fro>" none)) := by rfl
  obtain ⟨hspaces, hagain⟩ := hread _ _ hloose
  have hlegs : parseWithin "m" 50 "\tMap <String , List<zoo.Leg >? \n> ? ".toList =
      .ok legs.unlink := by rfl
  have hspelling := (parseWithin_reading hlegs).2 (by decide)
  exact ⟨hformed, hspelling, (hwritten legs hformed).2 _ hspelling, hloose, hspaces, hagain⟩

end PropertyType

end RecordGen

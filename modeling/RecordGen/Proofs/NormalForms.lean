import RecordGen.Text.NormalForm

/-! # Line feeds in normal forms

Naming puts ASCII characters behind a line feed and nothing else. Such an end is kept as it is by
the normal form, and the normal form holds no line feed that the name does not hold. -/

namespace RecordGen.Text

/-! ## Characters -/

theorem ofNat_ne_feed {n : Nat} (h : n ≠ 10) : Char.ofNat n ≠ '\n' := by
  intro heq
  rw [Char.ofNat] at heq
  by_cases hvalid : n.isValidChar
  · rw [dif_pos hvalid] at heq
    exact h (congrArg Char.toNat heq)
  · rw [dif_neg hvalid] at heq
    exact absurd heq (by decide)

theorem mem_of_lookup {β : Type} {entries : List (Nat × β)} {n : Nat} {b : β}
    (h : entries.lookup n = some b) : (n, b) ∈ entries := by
  obtain ⟨before, after, rfl, -⟩ := List.lookup_eq_some_iff.mp h
  simp

/-- No mark is an ASCII character, and none of these is made of others. -/
theorem beyond_ascii : (∀ entry ∈ markedLetters, 128 ≤ entry.1 ∧ ∀ pair ∈ entry.2, 128 ≤ pair.2) ∧
    (∀ r ∈ combiningRanges, 128 ≤ r.1) ∧ (∀ r ∈ replacementRanges, 128 ≤ r.1) ∧
    (∀ r ∈ replacementRows, 128 ≤ r.1) ∧ ∀ r ∈ replacementTexts, 128 ≤ r.1 := by
  decide +kernel

theorem lookup_eq_none {β : Type} {entries : List (Nat × β)} {n : Nat}
    (h : ∀ e ∈ entries, n ≠ e.1) : entries.lookup n = none := by
  rw [List.lookup_eq_none_iff]
  simpa using h

theorem combiningClass_ascii {c : Char} (h : c.toNat < 128) : combiningClass c = 0 := by
  have hnone : (combiningRanges.find? fun r => r.1 ≤ c.toNat && c.toNat ≤ r.2.1) = none := by
    rw [List.find?_eq_none]
    intro r hr
    have hbeyond := beyond_ascii.2.1 r hr
    simp only [Bool.and_eq_true, decide_eq_true_eq]
    omega
  rw [combiningClass, hnone]

/-- Nothing composes with an ASCII character after it. -/
theorem composite?_ascii (a : Nat) {b : Nat} (h : b < 128) : composite? a b = none := by
  have hsyllable : syllable? a b = none := by
    unfold syllable? firstVowel beforeTrailing
    rw [if_neg (by omega), if_neg (by omega)]
  have hmark : markedLetters.lookup b = none := lookup_eq_none fun e he => by
    have hbeyond := (beyond_ascii.1 e he).1
    omega
  rw [composite?, hsyllable, hmark]
  rfl

theorem compositeParts?_ascii {n : Nat} (h : n < 128) : compositeParts? n = none := by
  have hsyllable : syllableParts? n = none := by
    unfold syllableParts? firstSyllable
    rw [if_neg (by omega)]
  rw [compositeParts?, hsyllable]
  simp only [List.findSome?_eq_none_iff, Option.map_eq_none_iff, List.find?_eq_none, beq_iff_eq]
  intro entry hentry pair hpair
  have hbeyond := (beyond_ascii.1 entry hentry).2 pair hpair
  omega

theorem replacement?_ascii {n : Nat} (h : n < 128) : replacement? n = none := by
  obtain ⟨-, -, hranges, hrows, htexts⟩ := beyond_ascii
  have hrange : (replacementRanges.find? fun r => r.1 ≤ n && n ≤ r.2.1) = none := by
    rw [List.find?_eq_none]
    intro r hr
    have hbeyond := hranges r hr
    simp only [Bool.and_eq_true, decide_eq_true_eq]
    omega
  have hrow : (replacementRows.find? fun r => r.1 ≤ n && n < r.1 + r.2.length) = none := by
    rw [List.find?_eq_none]
    intro r hr
    have hbeyond := hrows r hr
    simp only [Bool.and_eq_true, decide_eq_true_eq]
    omega
  rw [replacement?, hrange, hrow]
  exact lookup_eq_none fun e he => by
    have hbeyond := htexts e he
    omega

theorem decomposed_ascii {c : Char} (h : c.toNat < 128) : decomposed compositeDepth c = [c] := by
  rw [compositeDepth, decomposed, compositeParts?_ascii h, replacement?_ascii h]

/-! ## Line feeds in the tables -/

theorem feed_not_in_letters : ∀ entry ∈ markedLetters, entry.1 ≠ 10 ∧
    ∀ pair ∈ entry.2, pair.1 ≠ 10 ∧ pair.2 ≠ 10 := by
  decide +kernel

theorem composite?_ne_feed {a b d : Nat} (h : composite? a b = some d) : d ≠ 10 := by
  rw [composite?] at h
  split at h
  · rename_i c hsyllable
    obtain rfl := Option.some.inj h
    unfold syllable? firstSyllable at hsyllable
    split at hsyllable
    · obtain rfl := Option.some.inj hsyllable
      omega
    · split at hsyllable
      · obtain rfl := Option.some.inj hsyllable
        omega
      · cases hsyllable
  · obtain ⟨letters, hletters, hd⟩ := Option.bind_eq_some_iff.mp h
    exact ((feed_not_in_letters _ (mem_of_lookup hletters)).2 _ (mem_of_lookup hd)).2

theorem compositeParts?_ne_feed {c a b : Nat} (h : compositeParts? c = some (a, b)) :
    a ≠ 10 ∧ b ≠ 10 := by
  rw [compositeParts?] at h
  split at h
  · rename_i parts hparts
    obtain rfl := Option.some.inj h
    unfold syllableParts? firstLeading firstVowel firstSyllable beforeTrailing leadingCount
      vowelCount trailingCount at hparts
    split at hparts
    case isFalse => cases hparts
    extract_lets n at hparts
    split at hparts <;> obtain ⟨rfl, rfl⟩ := Prod.mk.inj (Option.some.inj hparts)
    · omega
    · omega
  · obtain ⟨entry, hentry, h⟩ := List.exists_of_findSome?_eq_some h
    obtain ⟨pair, hpair, heq⟩ := Option.map_eq_some_iff.mp h
    obtain ⟨hb, hpairs⟩ := feed_not_in_letters entry hentry
    obtain ⟨rfl, rfl⟩ := Prod.mk.inj heq
    exact ⟨(hpairs pair (List.mem_of_find?_eq_some hpair)).1, hb⟩

theorem replacement?_ne_feed {c : Nat} {cs : List Nat} (h : replacement? c = some cs) :
    10 ∉ cs := by
  have hranges : ∀ r ∈ replacementRanges, 10 < r.2.2 := by decide +kernel
  have hrows : ∀ r ∈ replacementRows, 10 ∉ r.2 := by decide +kernel
  have htexts : ∀ r ∈ replacementTexts, 10 ∉ r.2 := by decide +kernel
  rw [replacement?] at h
  split at h
  · rename_i r hr
    obtain rfl := Option.some.inj h
    have := hranges r (List.mem_of_find?_eq_some hr)
    simp
    omega
  · split at h
    · rename_i r hr
      obtain ⟨x, hx, rfl⟩ := Option.map_eq_some_iff.mp h
      rintro hfeed
      obtain rfl := List.mem_singleton.mp hfeed
      exact hrows r (List.mem_of_find?_eq_some hr) (List.mem_of_getElem? hx)
    · exact htexts _ (mem_of_lookup h)

/-! ## Names -/

theorem feed_not_mem_decomposed (steps : Nat) {c : Char} (h : c ≠ '\n') :
    '\n' ∉ decomposed steps c := by
  induction steps generalizing c with
  | zero => simpa [decomposed] using h.symm
  | succ steps ih =>
      rw [decomposed]
      split
      · rename_i a b hparts
        obtain ⟨ha, hb⟩ := compositeParts?_ne_feed hparts
        rw [List.mem_append, not_or]
        exact ⟨ih (ofNat_ne_feed ha), ih (ofNat_ne_feed hb)⟩
      · split
        · rename_i cs hcs
          intro hmem
          obtain ⟨n, hn, heq⟩ := List.mem_map.mp hmem
          exact ofNat_ne_feed (fun h10 => replacement?_ne_feed hcs (h10 ▸ hn)) heq
        · simpa using h.symm

theorem feed_not_mem_composeAfter {base : Char} {between s : List Char} (hbase : base ≠ '\n')
    (hbetween : '\n' ∉ between) (hs : '\n' ∉ s) : '\n' ∉ composeAfter base between s := by
  induction s generalizing base between with
  | nil => simp [composeAfter, hbase.symm, hbetween]
  | cons c rest ih =>
      obtain ⟨hc, hrest⟩ := not_or.mp (mt List.mem_cons.mpr hs)
      rw [composeAfter]
      split
      · rename_i d hd
        have hcomposite : composite? base.toNat c.toNat = some d := by
          split at hd
          · cases hd
          · exact hd
        exact ih (ofNat_ne_feed (composite?_ne_feed hcomposite)) hbetween hrest
      · split
        · rw [List.mem_append, not_or]
          exact ⟨by simp [hbase.symm, hbetween], ih (Ne.symm hc) (by simp) hrest⟩
        · exact ih hbase (by simp [hc, hbetween]) hrest

theorem feed_not_mem_normalized {s : List Char} (h : '\n' ∉ s) : '\n' ∉ normalized s := by
  have hordered : '\n' ∉ orderMarks (s.flatMap (decomposed compositeDepth)) := by
    rw [(orderMarks_perm _).mem_iff, List.mem_flatMap]
    rintro ⟨c, hc, hmem⟩
    exact feed_not_mem_decomposed _ (fun heq => h (heq ▸ hc)) hmem
  rw [normalized]
  cases horder : orderMarks (s.flatMap (decomposed compositeDepth)) with
  | nil => simp [compose]
  | cons c rest =>
      rw [horder, List.mem_cons, not_or] at hordered
      exact feed_not_mem_composeAfter (Ne.symm hordered.1) (by simp) hordered.2

/-! ## Ends of names -/

/-- Marks stay in front of a character that is none. -/
theorem orderMarks_append {s t : List Char} (h : ∀ c ∈ t.head?, combiningClass c = 0)
    (ht : orderMarks t = t) : orderMarks (s ++ t) = orderMarks s ++ t := by
  have hinsert : ∀ (c : Char) (s : List Char), insertMark c (s ++ t) = insertMark c s ++ t := by
    intro c s
    induction s with
    | nil =>
        cases t with
        | nil => rfl
        | cons d t =>
            have hd : combiningClass d = 0 := h d rfl
            simp [insertMark, hd]
    | cons d s ih =>
        rw [List.cons_append, insertMark, insertMark, ih]
        split <;> rfl
  induction s with
  | nil => simpa [orderMarks] using ht
  | cons c s ih => rw [List.cons_append, orderMarks, ih, hinsert, orderMarks]

theorem orderMarks_ascii {s : List Char} (h : ∀ c ∈ s, c.toNat < 128) : orderMarks s = s := by
  induction s with
  | nil => rfl
  | cons c s ih =>
      obtain ⟨-, hs⟩ := List.forall_mem_cons.mp h
      rw [orderMarks, ih hs]
      cases s with
      | nil => rfl
      | cons d s =>
          have hd := combiningClass_ascii (hs d List.mem_cons_self)
          simp [insertMark, hd]

/-- Composition goes on behind an ASCII character as if the text began there. -/
theorem composeAfter_append {base : Char} {between s t : List Char}
    (h : ∀ c ∈ t, c.toNat < 128) : composeAfter base between (s ++ t) =
      composeAfter base between s ++ t := by
  have hstop : ∀ {base between} {c : Char} {t : List Char}, c.toNat < 128 →
      composeAfter base between (c :: t) = base :: between.reverse ++ composeAfter c [] t := by
    intro base between c t hc
    have hnone : (if isBlocked between c then none else composite? base.toNat c.toNat) = none := by
      rw [composite?_ascii _ hc, ite_self]
    rw [composeAfter, hnone]
    simp [combiningClass_ascii hc]
  have hends : ∀ {base between} {t : List Char}, (∀ c ∈ t, c.toNat < 128) →
      composeAfter base between t = composeAfter base between [] ++ t := by
    intro base between t ht
    induction t generalizing base between with
    | nil => simp
    | cons c t ih =>
        obtain ⟨hc, ht⟩ := List.forall_mem_cons.mp ht
        rw [hstop hc, ih ht]
        simp [composeAfter]
  induction s generalizing base between with
  | nil => exact hends h
  | cons c s ih =>
      rw [List.cons_append, composeAfter, composeAfter]
      split
      · exact ih
      · split
        · rw [ih, List.append_assoc]
        · exact ih

theorem normalized_append {s t : List Char} (h : ∀ c ∈ t, c.toNat < 128) :
    normalized (s ++ t) = normalized s ++ t := by
  have hself : t.flatMap (decomposed compositeDepth) = t := by
    induction t with
    | nil => rfl
    | cons c t ih =>
        obtain ⟨hc, ht⟩ := List.forall_mem_cons.mp h
        rw [List.flatMap_cons, decomposed_ascii hc, ih ht]
        rfl
  rw [normalized, normalized, List.flatMap_append, hself, orderMarks_append _ (orderMarks_ascii h)]
  · cases orderMarks (s.flatMap (decomposed compositeDepth)) with
    | nil =>
        cases t with
        | nil => rfl
        | cons c t => exact composeAfter_append (s := []) (List.forall_mem_cons.mp h).2
    | cons c rest => exact composeAfter_append h
  · exact fun c hc => combiningClass_ascii (h c (List.mem_of_head? hc))

/-- The normal form of a name keeps the end of the name, and puts no line feed in front of it. -/
theorem exists_normalForm {name : String} {front rest : List Char}
    (hname : name.toList = front ++ rest) (hfront : '\n' ∉ front)
    (hrest : ∀ c ∈ rest, c.toNat < 128) :
    ∃ front', '\n' ∉ front' ∧ (normalForm name).toList = front' ++ rest := by
  rw [normalForm]
  split
  · exact ⟨front, hfront, hname⟩
  · refine ⟨normalized front, feed_not_mem_normalized hfront, ?_⟩
    rw [String.toList_ofList, hname, normalized_append hrest]

end RecordGen.Text

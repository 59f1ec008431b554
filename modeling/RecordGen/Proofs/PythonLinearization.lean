import Mathlib.Data.List.Chain
import Mathlib.Data.List.Infix
import Mathlib.Data.List.Nodup
import RecordGen.Proofs.Fallible

/-! # Merging linearizations

A Python class is linearized by merging the linearizations of its bases and the list of the bases
itself: again and again the first head that stands behind no other element is taken, and the merge
fails where there is none. Lists that are all in one order, and that together fix this order, merge
to it. -/

namespace RecordGen.Python

/-! ## Lists in one order -/

section

variable {α : Type}

/-- Lists that are all in the order of one list, which has no elements but theirs and no two
neighbours that are not in the order of one of them. -/
structure Ordered (lists : List (List α)) (order : List α) : Prop where
  nodup : order.Nodup
  sublist : ∀ l ∈ lists, l.Sublist order
  covered : ∀ x ∈ order, ∃ l ∈ lists, x ∈ l
  neighbours : order.IsChain fun x y => ∃ l ∈ lists, [x, y].Sublist l

namespace Ordered

variable {lists : List (List α)} {c : α} {order : List α}

theorem isChain_of_mem {l : List α} (hl : l ∈ lists) :
    l.IsChain fun x y => ∃ l ∈ lists, [x, y].Sublist l :=
  (List.isChain_isInfix l).imp fun _ _ h => ⟨l, hl, h.sublist⟩

/-- An order that is one of the lists itself. -/
theorem of_mem (hn : order.Nodup) (hmem : order ∈ lists) (hsub : ∀ l ∈ lists, l.Sublist order) :
    Ordered lists order :=
  ⟨hn, hsub, fun _ hx => ⟨order, hmem, hx⟩, isChain_of_mem hmem⟩

/-- An order that two of the lists give together, one up to an element and the other one from it. -/
theorem of_overlap {before after : List α} (hn : (before ++ c :: after).Nodup)
    (hbefore : before ++ [c] ∈ lists) (hafter : c :: after ∈ lists)
    (hsub : ∀ l ∈ lists, l.Sublist (before ++ c :: after)) :
    Ordered lists (before ++ c :: after) := by
  refine ⟨hn, hsub, fun x hx => ?_, ?_⟩
  · rcases List.mem_append.mp hx with hx | hx
    · exact ⟨_, hbefore, List.mem_append_left _ hx⟩
    · exact ⟨_, hafter, hx⟩
  · exact List.isChain_split.mpr ⟨isChain_of_mem hbefore, isChain_of_mem hafter⟩

/-- The first element of the order may be taken. -/
theorem not_mem_tail (h : Ordered lists (c :: order)) {l : List α} (hl : l ∈ lists) :
    c ∉ l.tail := by
  have hc := (List.nodup_cons.mp h.nodup).1
  cases h.sublist l hl with
  | cons _ hs => exact fun hmem => hc (hs.subset (List.mem_of_mem_tail hmem))
  | cons_cons _ hs => exact fun hmem => hc (hs.subset hmem)

/-- Any other element stands behind its neighbour in one of the lists. -/
theorem exists_mem_tail (h : Ordered lists (c :: order)) {x : α} (hx : x ∈ order) :
    ∃ l ∈ lists, x ∈ l.tail := by
  have hpair : ∀ {order : List α} {c : α},
      (c :: order).IsChain (fun x y => ∃ l ∈ lists, [x, y].Sublist l) → x ∈ order →
        ∃ y, ∃ l ∈ lists, [y, x].Sublist l := by
    intro order
    induction order with
    | nil => simp
    | cons y ys ih =>
        intro c hchain hx
        rw [List.isChain_cons_cons] at hchain
        rcases List.mem_cons.mp hx with rfl | hx
        · exact ⟨c, hchain.1⟩
        · exact ih hchain.2 hx
  obtain ⟨y, l, hl, hyx⟩ := hpair h.neighbours hx
  refine ⟨l, hl, ?_⟩
  cases hyx with
  | cons _ hs => exact hs.subset (by simp)
  | cons_cons _ hs => exact hs.subset (by simp)

end Ordered

end

variable {α : Type} [DecidableEq α]

/-! ## The merge -/

/-- The first head of a list that no list has behind its own head. -/
def candidate? (lists : List (List α)) : Option α :=
  (lists.filterMap List.head?).find? fun c => lists.all fun l => c ∉ l.tail

/-- A list without an element at its head. -/
def dropHead (c : α) (l : List α) : List α :=
  if l.head? = some c then l.tail else l

/-- Merges lists in a number of rounds. -/
def mergeWithin : Nat → List (List α) → Option (List α)
  | 0, _ => none
  | steps + 1, lists =>
    if lists.all List.isEmpty then some []
    else match candidate? lists with
      | none => none
      | some c => (c :: ·) <$> mergeWithin steps (lists.map (dropHead c))

/-- Merges lists. Every round but the last takes an element away, so there are at most as many
rounds as elements and one more. -/
def merge? (lists : List (List α)) : Option (List α) :=
  mergeWithin (lists.flatten.length + 1) lists

theorem length_map_dropHead_le (c : α) (lists : List (List α)) :
    (lists.map (dropHead c)).flatten.length ≤ lists.flatten.length := by
  induction lists with
  | nil => exact Nat.le_refl _
  | cons l ls ih =>
      have hl : (dropHead c l).length ≤ l.length := by
        rw [dropHead]
        split <;> simp
      simp only [List.map_cons, List.flatten_cons, List.length_append]
      omega

theorem length_map_dropHead_lt {c : α} {lists : List (List α)} (h : candidate? lists = some c) :
    (lists.map (dropHead c)).flatten.length < lists.flatten.length := by
  obtain ⟨l, hl, hhead⟩ := List.mem_filterMap.mp (List.mem_of_find?_eq_some h)
  obtain ⟨before, after, rfl⟩ := List.append_of_mem hl
  have hbefore := length_map_dropHead_le c before
  have hafter := length_map_dropHead_le c after
  have hstrict : (dropHead c l).length < l.length := by
    rw [dropHead, if_pos hhead, List.length_tail]
    exact Nat.sub_lt (List.length_pos_of_mem (List.mem_of_head? hhead)) Nat.one_pos
  simp only [List.map_append, List.map_cons, List.flatten_append, List.flatten_cons,
    List.length_append]
  omega

/-- With more rounds than elements, the number of rounds does not matter. -/
theorem mergeWithin_congr : ∀ {n m : Nat} {lists : List (List α)}, lists.flatten.length < n →
    lists.flatten.length < m → mergeWithin n lists = mergeWithin m lists := by
  intro n
  induction n with
  | zero =>
      intro m lists h
      exact absurd h (Nat.not_lt_zero _)
  | succ n ih =>
      intro m lists h h'
      obtain ⟨m, rfl⟩ := Nat.exists_eq_add_of_lt (Nat.lt_of_le_of_lt (Nat.zero_le _) h')
      rw [Nat.zero_add] at h' ⊢
      rw [mergeWithin, mergeWithin]
      cases hc : candidate? lists with
      | none => rfl
      | some c =>
          have hlt := length_map_dropHead_lt hc
          simp only [ih (m := m) (Nat.lt_of_lt_of_le hlt (Nat.le_of_lt_succ h))
            (Nat.lt_of_lt_of_le hlt (Nat.le_of_lt_succ h'))]

/-- The merge of lists, round by round. -/
theorem merge?_eq_step (lists : List (List α)) : merge? lists =
    if lists.all List.isEmpty then some []
    else match candidate? lists with
      | none => none
      | some c => (c :: ·) <$> merge? (lists.map (dropHead c)) := by
  rw [merge?, mergeWithin]
  cases hc : candidate? lists with
  | none => rfl
  | some c =>
      simp only [merge?, mergeWithin_congr (length_map_dropHead_lt hc) (Nat.lt_succ_self _)]

/-! ## What lists in one order merge to -/

theorem dropHead_sublist {c : α} {l order : List α} (hc : c ∉ order)
    (h : l.Sublist (c :: order)) : (dropHead c l).Sublist order := by
  cases h with
  | cons _ h =>
      cases l with
      | nil => exact h
      | cons x xs =>
          have hne : x ≠ c := fun heq => hc (heq ▸ h.subset List.mem_cons_self)
          simpa [dropHead, hne] using h
  | cons_cons _ h => simpa [dropHead] using h

theorem mem_dropHead {c x : α} {l : List α} (hne : x ≠ c) (hx : x ∈ l) : x ∈ dropHead c l := by
  cases l with
  | nil => exact hx
  | cons y ys =>
      rw [dropHead]
      split
      · rename_i hhead
        obtain rfl : y = c := by simpa using hhead
        exact (List.mem_cons.mp hx).resolve_left hne
      · exact hx

theorem pair_sublist_dropHead {c x y : α} {l : List α} (hne : x ≠ c) (h : [x, y].Sublist l) :
    [x, y].Sublist (dropHead c l) := by
  cases l with
  | nil => exact h
  | cons z zs =>
      rw [dropHead]
      split
      · rename_i hhead
        obtain rfl : z = c := by simpa using hhead
        cases h with
        | cons _ h => exact h
        | cons_cons => exact absurd rfl hne
      · exact h

namespace Ordered

variable {lists : List (List α)} {c : α} {order : List α}

/-- The first element of the order is the candidate. -/
theorem candidate?_eq (h : Ordered lists (c :: order)) : candidate? lists = some c := by
  obtain ⟨l, hl, hc⟩ := h.covered c List.mem_cons_self
  have hhead : c ∈ lists.filterMap List.head? := by
    refine List.mem_filterMap.mpr ⟨l, hl, ?_⟩
    cases l with
    | nil => simp at hc
    | cons x xs =>
        have hnot : c ∉ xs := h.not_mem_tail hl
        rw [List.head?_cons, (List.mem_cons.mp hc).resolve_right hnot]
  have hsome : (candidate? lists).isSome := by
    rw [candidate?, List.find?_isSome]
    refine ⟨c, hhead, ?_⟩
    rw [List.all_eq_true]
    exact fun l hl => by simpa using h.not_mem_tail hl
  obtain ⟨x, hx⟩ := Option.isSome_iff_exists.mp hsome
  have hfree : ∀ l ∈ lists, x ∉ l.tail := by
    have hall := List.find?_some hx
    rw [List.all_eq_true] at hall
    exact fun l hl => by simpa using hall l hl
  obtain ⟨l', hl', hxl⟩ := List.mem_filterMap.mp (List.mem_of_find?_eq_some hx)
  have hmem : x ∈ c :: order := (h.sublist l' hl').subset (List.mem_of_head? hxl)
  rcases List.mem_cons.mp hmem with rfl | hmem
  · exact hx
  · obtain ⟨l, hl, htail⟩ := h.exists_mem_tail hmem
    exact absurd htail (hfree l hl)

/-- What is left after a round is in the order that is left. -/
theorem step (h : Ordered lists (c :: order)) : Ordered (lists.map (dropHead c)) order := by
  obtain ⟨hc, hn⟩ := List.nodup_cons.mp h.nodup
  refine ⟨hn, fun rest hrest => ?_, fun x hx => ?_, ?_⟩
  · obtain ⟨l, hl, rfl⟩ := List.mem_map.mp hrest
    exact dropHead_sublist hc (h.sublist l hl)
  · obtain ⟨l, hl, hxl⟩ := h.covered x (List.mem_cons_of_mem _ hx)
    exact ⟨_, List.mem_map_of_mem hl, mem_dropHead (fun heq => hc (heq ▸ hx)) hxl⟩
  · refine List.IsChain.imp_of_mem_imp ?_ h.neighbours.tail
    rintro x y hx - ⟨l, hl, hxy⟩
    exact ⟨_, List.mem_map_of_mem hl, pair_sublist_dropHead (fun heq => hc (heq ▸ hx)) hxy⟩

/-- Lists in one order merge to it. -/
theorem merge?_eq : ∀ {order : List α} {lists : List (List α)}, Ordered lists order →
    merge? lists = some order := by
  intro order
  induction order with
  | nil =>
      intro lists h
      have hempty : lists.all List.isEmpty = true := by
        rw [List.all_eq_true]
        exact fun l hl => by simpa using List.sublist_nil.mp (h.sublist l hl)
      rw [merge?_eq_step, if_pos hempty]
  | cons c order ih =>
      intro lists h
      have hnonempty : lists.all List.isEmpty = false := by
        obtain ⟨l, hl, hcl⟩ := h.covered c List.mem_cons_self
        rw [List.all_eq_false]
        exact ⟨l, hl, by simpa using List.ne_nil_of_mem hcl⟩
      rw [merge?_eq_step, hnonempty, if_neg Bool.false_ne_true, h.candidate?_eq]
      simp only [ih h.step]
      rfl

end Ordered

end RecordGen.Python

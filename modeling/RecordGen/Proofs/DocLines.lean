import Mathlib.Data.List.TakeWhile
import RecordGen.Documentation
import RecordGen.Proofs.Fallible

/-! # Documentation that can be written

Blank texts are dropped before documentation is written. Every other text has a first line. -/

namespace RecordGen

open Fallible

namespace Text

theorem isBlank_of_isLineEnd {c : Char} (h : isLineEnd c = true) : isBlank c = true := by
  simp only [isLineEnd, isBlank, Bool.or_eq_true, Bool.and_eq_true, decide_eq_true_eq,
    beq_iff_eq] at h ⊢
  omega

theorem mem_dropWhile {α : Type} {p : α → Bool} {s : List α} {x : α} (hx : x ∈ s)
    (hp : p x = false) : x ∈ s.dropWhile p := by
  induction s with
  | nil => simp at hx
  | cons y ys ih =>
      rw [List.dropWhile_cons]
      split
      · rename_i hy
        rcases List.mem_cons.mp hx with rfl | hx'
        · simp [hp] at hy
        · exact ih hx'
      · exact hx

/-- Trimming keeps every character that is not blank. -/
theorem mem_trim {s : List Char} {c : Char} (hc : c ∈ s) (hb : isBlank c = false) : c ∈ trim s := by
  have hstart : c ∈ trimStart s := mem_dropWhile hc hb
  rw [trim, trimEnd, List.mem_reverse]
  exact mem_dropWhile (List.mem_reverse.mpr hstart) hb

theorem lines_ne_nil {s : List Char} (h : s ≠ []) : lines s ≠ [] := by
  fun_cases lines s
  all_goals simp_all

theorem exists_of_not_blank {s : String} (h : blank s = false) :
    ∃ c ∈ s.toList, isBlank c = false := by
  simpa [blank] using h

theorem strip_not_blank {s : String} (h : blank s = false) : blank (strip s) = false := by
  obtain ⟨c, hc, hb⟩ := exists_of_not_blank h
  have hmem : c ∈ (strip s).toList := by simpa [strip] using mem_trim hc hb
  simpa [blank] using ⟨c, hmem, hb⟩

/-- A text that is not blank has lines. -/
theorem cleanLines_ne_nil {s : String} (h : blank s = false) : cleanLines s ≠ [] := by
  obtain ⟨c, hc, hb⟩ := exists_of_not_blank h
  have hne : trim s.toList ≠ [] := List.ne_nil_of_mem (mem_trim hc hb)
  simpa [cleanLines] using lines_ne_nil hne

theorem trim_of_blank {s : List Char} (h : ∀ c ∈ s, isBlank c = true) : trim s = [] := by
  have hstart : trimStart s = [] := List.dropWhile_eq_nil_iff.mpr h
  rw [trim, hstart]
  rfl

theorem cleanLines_of_blank {s : String} (h : blank s = true) : cleanLines s = [] := by
  rw [cleanLines, trim_of_blank (by simpa [blank] using h)]
  rfl

theorem cleanLines_eq_nil {s : String} : cleanLines s = [] ↔ blank s = true := by
  refine ⟨fun h => ?_, cleanLines_of_blank⟩
  cases hs : blank s with
  | true => rfl
  | false => exact absurd h (cleanLines_ne_nil hs)

end Text

namespace Documentation

open Text

/-- No text of the block is blank. -/
structure Solid (d : Documentation) : Prop where
  lead : ∀ s, d.lead = some s → blank s = false
  entries : ∀ e ∈ d.entries, blank e.2 = false

theorem cleaned_not_blank {doc : Option String} {s : String} (h : cleaned doc = some s) :
    blank s = false := by
  obtain ⟨text, -, h⟩ := Option.bind_eq_some_iff.mp h
  split at h
  · cases h
  · rename_i htext
    obtain rfl := Option.some.inj h
    exact strip_not_blank (by simpa using htext)

theorem ofClass_solid (doc : Option String) (properties : List (String × Option String)) :
    (ofClass doc properties).Solid where
  lead _ hs := cleaned_not_blank hs
  entries e he := by
    obtain ⟨p, -, hp⟩ := List.mem_filterMap.mp he
    obtain ⟨s, hs, rfl⟩ := Option.map_eq_some_iff.mp hp
    exact cleaned_not_blank hs

theorem entryLines_ok (indent : String) (heading : String → String) {e : String × String}
    (h : blank e.2 = false) : ∃ lines, entryLines indent heading e = .ok lines := by
  rw [entryLines]
  cases hlines : cleanLines e.2 with
  | nil => exact absurd hlines (cleanLines_ne_nil h)
  | cons first others => exact ⟨_, rfl⟩

/-- A block without blank entries can be written as a comment. -/
theorem commentLines_ok {d : Documentation} (h : ∀ e ∈ d.entries, blank e.2 = false) :
    ∃ lines, d.commentLines = .ok lines := by
  rw [commentLines]
  split
  · exact ⟨_, rfl⟩
  · obtain ⟨entries, hentries⟩ := mapM_total fun e he =>
      entryLines_ok "    " (fun name => "@param " ++ name ++ " ") (h e he)
    simp [hentries]

/-- A block that holds something, and nothing blank, can be written as a documentation string. -/
theorem stringLines_ok {d : Documentation} (h : d.Solid) (hne : d.isEmpty = false) :
    ∃ first others, d.stringLines = .ok (first :: others) := by
  rw [stringLines]
  split
  · rename_i hentries
    have hlead : (d.lead.getD "").isEmpty = false := by
      simpa [isEmpty, hentries] using hne
    cases hd : d.lead with
    | none => simp [hd] at hlead
    | some s =>
        cases hlines : cleanLines s with
        | nil => exact absurd hlines (cleanLines_ne_nil (h.lead s hd))
        | cons first others => exact ⟨first, others, by simp [leadLines, hd, hlines]⟩
  · obtain ⟨entries, hentries⟩ := mapM_total fun e he =>
      entryLines_ok "        " (fun name => "    " ++ name ++ ": ") (h.entries e he)
    simp only [hentries, ok_bind, pure_eq, Except.ok.injEq]
    cases d.leadLines with
    | nil => exact ⟨_, _, rfl⟩
    | cons first others => exact ⟨_, _, rfl⟩

end Documentation

end RecordGen

import Mathlib.Algebra.Ring.Nat
import RecordGen.Proofs.EmittedDocs
import RecordGen.Proofs.JavaCopies

/-! # Blank documentation

A text of white space says as much as no text: it is left out of every block and every
documentation string. Comments of Java accessors are the exception. A text that is blank but not
empty makes a comment there, with nothing between its delimiters.

Such comments are all that blank texts can be seen by. Two documents that differ in blank texts
alone give the same files, unless an accessor has an empty comment in one of them. -/

namespace RecordGen

open Text Fallible

/-! ## Blank texts -/

/-- A text of white space that is not empty. -/
def isHollow (doc : Option String) : Bool :=
  doc.any fun s => !s.isEmpty && blank s

/-- The text if it is not blank. Of blank texts it is kept that they are not empty. -/
def hollowed (doc : Option String) : Option String :=
  if isHollow doc then some " " else dropBlank doc

theorem hollowed_eq_dropBlank {doc : Option String} (h : isHollow doc = false) :
    hollowed doc = dropBlank doc := by
  rw [hollowed, h]
  rfl

/-- A text is absent or empty, or it is blank otherwise, or it is not blank. -/
theorem text_cases (doc : Option String) : (doc.getD "" = "" ∧ isHollow doc = false ∧
      dropBlank doc = none) ∨
    (∃ s, doc = some s ∧ s ≠ "" ∧ blank s = true) ∨ ∃ s, doc = some s ∧ blank s = false := by
  cases doc with
  | none => exact Or.inl ⟨rfl, rfl, rfl⟩
  | some s =>
      cases hblank : blank s with
      | false => exact Or.inr (Or.inr ⟨s, rfl, hblank⟩)
      | true =>
          by_cases hs : s = ""
          · subst hs
            exact Or.inl ⟨rfl, rfl, rfl⟩
          · exact Or.inr (Or.inl ⟨s, rfl, hs, hblank⟩)

theorem cleaned_dropBlank (doc : Option String) :
    Documentation.cleaned (dropBlank doc) = Documentation.cleaned doc := by
  cases doc with
  | none => rfl
  | some s => cases hblank : blank s <;> simp [dropBlank, Documentation.cleaned, hblank]

theorem dropBlank_dropBlank (doc : Option String) : dropBlank (dropBlank doc) = dropBlank doc := by
  cases doc with
  | none => rfl
  | some s => cases hblank : blank s <;> simp [dropBlank, hblank]

/-! ## Types

Which accessors have hollow texts is told by the class alone. -/

/-- Which texts of accessors are hollow. -/
def GeneratedType.hollowMarks : GeneratedType → List Bool
  | .interface d => d.accessors.map (isHollow ·.doc)
  | .record _ => []

/-- Which texts of a class's properties are hollow. -/
def ClassGraph.hollowMarks (g : ClassGraph) (c : ClassId) : List Bool :=
  (g.decl c).properties.map (isHollow ·.doc)

/-- The marks of a type, read off the graph. -/
def GeneratedType.marksIn (g : ClassGraph) : GeneratedType → List Bool
  | .interface d => g.hollowMarks d.source
  | .record _ => []

/-- Puts white space where it is marked. -/
def GeneratedType.refill (marks : List Bool) : GeneratedType → GeneratedType
  | .interface d => .interface { d with
      accessors := List.zipWith (fun m b => if b then { m with doc := some " " } else m)
        d.accessors marks }
  | .record d => .record d

namespace GeneratedType

theorem marksIn_mapDocs (g : ClassGraph) (d : GeneratedType) {h f : Option String → Option String} :
    (d.mapDocs h f).marksIn g = d.marksIn g := by
  cases d <;> rfl

/-- Hollow texts are all that is lost when blank texts are dropped. -/
theorem refill_mapDocs (d : GeneratedType) :
    (d.mapDocs dropBlank dropBlank).refill d.hollowMarks = d.mapDocs hollowed dropBlank := by
  cases d with
  | record d => rfl
  | interface d =>
      have haccessor : ∀ m : Accessor, (if isHollow m.doc = true then
          { m.mapDoc dropBlank with doc := some " " } else m.mapDoc dropBlank) =
            m.mapDoc hollowed := by
        intro m
        rw [Accessor.mapDoc, Accessor.mapDoc, hollowed]
        split <;> rfl
      simp only [mapDocs, refill, hollowMarks, GeneratedInterface.mapDocs, List.zipWith_map,
        List.zipWith_self, haccessor]

end GeneratedType

namespace Analysis

variable {config : Config} {g : ClassGraph} {a : Analysis}

theorem mapDocs_hollowed (a : Analysis) : (a.mapDocs hollowed dropBlank).types =
    List.zipWith GeneratedType.refill (a.types.map GeneratedType.hollowMarks)
      (a.mapDocs dropBlank dropBlank).types := by
  simp only [mapDocs, List.zipWith_map, List.zipWith_self, GeneratedType.refill_mapDocs]

theorem Describes.hollowMarks_eq (h : a.Describes config g) {d : GeneratedType}
    (hd : d ∈ a.types) : d.hollowMarks = d.marksIn g := by
  obtain ⟨r, -, ⟨t, -, rfl⟩ | ⟨t, -, rfl⟩⟩ := h.mem_types.mp hd
  · simp only [GeneratedType.hollowMarks, interfaceOf, List.map_map]
    rfl
  · rfl

theorem Describes.allowsSubclasses (h : a.Describes config g) {d : GeneratedInterface}
    (hd : .interface d ∈ a.types) :
    d.source ∈ g.classes ∧ (g.decl d.source).kind.allowsSubclasses = true := by
  obtain ⟨r, hr, ⟨t, ht, hdt⟩ | ⟨t, -, hdt⟩⟩ := h.mem_types.mp hd
  · obtain rfl := GeneratedType.interface.inj hdt
    refine ⟨h.resolved.listed hr, ?_⟩
    show (g.decl r.source).kind.allowsSubclasses = true
    rw [← h.resolved.interface_isSome h.linked.nameable hr, ht]
    rfl
  · cases hdt

end Analysis

/-! ## Graphs -/

namespace ClassGraph

/-- The classes with interfaces have hollow texts at the same properties. -/
def HollowAlike (g g' : ClassGraph) : Prop :=
  ∀ c ∈ g.classes, (g.decl c).kind.allowsSubclasses = true → g'.hollowMarks c = g.hollowMarks c

/-- No class with an interface has a property with a hollow text. -/
def NoneHollow (g : ClassGraph) : Prop :=
  ∀ c ∈ g.classes, (g.decl c).kind.allowsSubclasses = true → true ∉ g.hollowMarks c

end ClassGraph

namespace Analysis

variable {config : Config} {g g' : ClassGraph} {a a' : Analysis}

/-- Results that differ in blank texts alone agree also where hollow texts are told from others, if
their graphs have them at the same properties. -/
theorem mapDocs_hollowed_eq (h : a.Describes config g) (h' : a'.Describes config g')
    (hsame : a'.mapDocs dropBlank dropBlank = a.mapDocs dropBlank dropBlank)
    (halike : g.HollowAlike g') : a'.mapDocs hollowed dropBlank = a.mapDocs hollowed dropBlank := by
  have hread : ∀ {g} {a : Analysis}, a.Describes config g →
      a.types.map GeneratedType.hollowMarks =
        (a.mapDocs dropBlank dropBlank).types.map (GeneratedType.marksIn g) := by
    intro g a h
    rw [mapDocs, List.map_map]
    refine List.map_congr_left fun d hd => ?_
    rw [h.hollowMarks_eq hd, Function.comp_apply, GeneratedType.marksIn_mapDocs]
  have hmarks : a'.types.map GeneratedType.hollowMarks = a.types.map GeneratedType.hollowMarks := by
    rw [hread h, hread h', hsame]
    refine List.map_congr_left fun _ hmem => ?_
    obtain ⟨d, hd, rfl⟩ := List.mem_map.mp hmem
    rw [GeneratedType.marksIn_mapDocs, GeneratedType.marksIn_mapDocs]
    cases d with
    | record d => rfl
    | interface d =>
        obtain ⟨hlisted, hallowed⟩ := h.allowsSubclasses hd
        exact halike d.source hlisted hallowed
  have htypes : (a'.mapDocs hollowed dropBlank).types = (a.mapDocs hollowed dropBlank).types := by
    rw [mapDocs_hollowed, mapDocs_hollowed, hmarks, hsame]
  obtain ⟨-, hcontract, hresolutions⟩ := Analysis.mk.inj hsame
  rw [Analysis.mk.injEq]
  exact ⟨htypes, hcontract, hresolutions⟩

/-- Without hollow texts nothing is told apart. -/
theorem mapDocs_noneHollow (h : a.Describes config g) (hnone : g.NoneHollow) :
    a.mapDocs hollowed dropBlank = a.mapDocs dropBlank dropBlank := by
  have htypes : a.types.map (GeneratedType.mapDocs hollowed dropBlank) =
      a.types.map (GeneratedType.mapDocs dropBlank dropBlank) := by
    refine List.map_congr_left fun d hd => ?_
    cases d with
    | record d => rfl
    | interface d =>
        obtain ⟨hlisted, hallowed⟩ := h.allowsSubclasses hd
        have hmarks : d.accessors.map (isHollow ·.doc) = g.hollowMarks d.source :=
          h.hollowMarks_eq hd
        have hnotHollow : ∀ m ∈ d.accessors, isHollow m.doc = false := by
          intro m hm
          by_contra hhollow
          refine hnone d.source hlisted hallowed (hmarks ▸ List.mem_map.mpr ⟨m, hm, ?_⟩)
          simpa using hhollow
        have haccessors : d.accessors.map (Accessor.mapDoc hollowed) =
            d.accessors.map (Accessor.mapDoc dropBlank) := by
          refine List.map_congr_left fun m hm => ?_
          rw [Accessor.mapDoc, hollowed_eq_dropBlank (hnotHollow m hm)]
          rfl
        rw [GeneratedType.mapDocs, GeneratedType.mapDocs, GeneratedInterface.mapDocs, haccessors]
        rfl
  rw [mapDocs, htypes]
  rfl

end Analysis

/-! ## Comments of accessors -/

namespace Java

/-- The comment of an accessor with a hollow text. -/
def emptyComment : List String := ["/**", " */"]

/-- Takes an empty comment away. -/
def thin (lines : List String) : List String :=
  if lines = emptyComment then [] else lines

/-- The comment of an accessor. -/
def comment (config : Config) (doc : Option String) : List String :=
  if config.docs && !(doc.getD "").isEmpty then
    "/**" :: ((cleanLines (doc.getD "")).map Documentation.commentLine ++ [" */"])
  else []

variable {config : Config}

theorem javadoc_lead (config : Config) (doc : Option String) :
    javadoc config { lead := doc } = .ok (comment config doc) := by
  cases hdocs : config.docs with
  | false => simp [javadoc, comment, hdocs]
  | true =>
      cases hempty : (doc.getD "").isEmpty <;>
        simp [javadoc, comment, hdocs, hempty, Documentation.commentLines, Documentation.isEmpty,
          Documentation.leadLines]

theorem comment_of_isEmpty {doc : Option String} (h : doc.getD "" = "") :
    comment config doc = [] := by
  simp [comment, h]

theorem comment_of_blank (hdocs : config.docs = true) {s : String} (hne : s ≠ "")
    (hblank : blank s = true) : comment config (some s) = emptyComment := by
  simp [comment, hdocs, hne, cleanLines_of_blank hblank, emptyComment]

theorem thin_comment_of_not_blank {s : String} (hblank : blank s = false) :
    thin (comment config (some s)) = comment config (some s) := by
  have hlines := cleanLines_ne_nil hblank
  refine if_neg fun h => ?_
  cases hcleaned : cleanLines s with
  | nil => exact hlines hcleaned
  | cons first others =>
      rw [comment] at h
      split at h
      · simp [emptyComment, hcleaned] at h
      · cases h

/-- Comments tell no more of a blank text than that it is not empty. -/
theorem comment_hollowed (doc : Option String) :
    comment config (hollowed doc) = comment config doc := by
  rcases text_cases doc with ⟨hempty, hhollow, hdrop⟩ | ⟨s, rfl, hne, hblank⟩ | ⟨s, rfl, hblank⟩
  · rw [hollowed_eq_dropBlank hhollow, hdrop, comment_of_isEmpty hempty]
    exact comment_of_isEmpty rfl
  · cases hdocs : config.docs with
    | false => simp [comment, hdocs]
    | true =>
        have hhollow : hollowed (some s) = some " " := by simp [hollowed, isHollow, hne, hblank]
        rw [hhollow, comment_of_blank hdocs hne hblank]
        exact comment_of_blank hdocs (by decide) (by decide)
  · simp [hollowed, isHollow, dropBlank, hblank]

/-- Without blank texts the empty comments are gone. -/
theorem comment_dropBlank (doc : Option String) :
    comment config (dropBlank doc) = thin (comment config doc) := by
  rcases text_cases doc with ⟨hempty, -, hdrop⟩ | ⟨s, rfl, hne, hblank⟩ | ⟨s, rfl, hblank⟩
  · rw [hdrop, comment_of_isEmpty hempty]
    exact comment_of_isEmpty rfl
  · have hdrop : dropBlank (some s) = none := by simp [dropBlank, hblank]
    rw [hdrop, comment_of_isEmpty rfl]
    cases hdocs : config.docs with
    | false => simp [comment, hdocs, thin, emptyComment]
    | true => rw [comment_of_blank hdocs hne hblank, thin, if_pos rfl]
  · have hdrop : dropBlank (some s) = some s := by simp [dropBlank, hblank]
    rw [hdrop, thin_comment_of_not_blank hblank]

theorem isHollow_eq_false (hdocs : config.docs = true) {doc : Option String}
    (h : thin (comment config doc) = comment config doc) : isHollow doc = false := by
  rcases text_cases doc with ⟨-, hhollow, -⟩ | ⟨s, rfl, hne, hblank⟩ | ⟨s, rfl, hblank⟩
  · exact hhollow
  · rw [comment_of_blank hdocs hne hblank] at h
    cases h
  · simp [isHollow, hblank]

/-! ## Sizes of texts

An empty comment has characters, so a text without it is shorter. -/

/-- A change leaves something as it is, or makes it smaller. -/
def Shrinks {α : Type} (size : α → Nat) (change : α → α) (x : α) : Prop :=
  change x = x ∨ size (change x) < size x

theorem Shrinks.map {α : Type} {size : α → Nat} {change : α → α} {xs : List α}
    (h : ∀ x ∈ xs, Shrinks size change x) :
    Shrinks (fun xs => (xs.map size).sum) (List.map change) xs := by
  induction xs with
  | nil => exact Or.inl rfl
  | cons x xs ih =>
      have hx := h x (List.mem_cons_self ..)
      have hxs := ih fun y hy => h y (List.mem_cons_of_mem _ hy)
      simp only [Shrinks, List.map_cons, List.sum_cons, List.cons.injEq] at hx hxs ⊢
      rcases hx with hx | hx <;> rcases hxs with hxs | hxs
      · exact Or.inl ⟨hx, hxs⟩
      · exact Or.inr (by rw [hx]; omega)
      · exact Or.inr (by rw [hxs]; omega)
      · exact Or.inr (by omega)

/-- The characters of lines, their ends included. -/
def textSize (lines : List String) : Nat :=
  (lines.map fun line => line.length + 1).sum

theorem textSize_append (ls ls' : List String) :
    textSize (ls ++ ls') = textSize ls + textSize ls' := by
  rw [textSize, List.map_append, List.sum_append]
  rfl

theorem textSize_intercalate {ls : List String} (h : ls ≠ []) :
    ("\n".intercalate ls).length + 1 = textSize ls := by
  induction ls with
  | nil => exact absurd rfl h
  | cons l ls ih =>
      cases ls with
      | nil => simp [textSize]
      | cons l' ls =>
          have ih := ih (by simp)
          simp only [textSize, List.map_cons, List.sum_cons] at ih ⊢
          rw [String.intercalate_cons_cons, String.length_append, String.length_append]
          have hnewline : "\n".length = 1 := rfl
          omega

namespace Layout

variable (l : Layout)

theorem textSize_separate (bs : List (List String)) :
    textSize (separate bs) = (bs.map textSize).sum + (bs.length - 1) := by
  fun_induction separate bs with
  | case1 => rfl
  | case2 b => simp
  | case3 b bs hbs ih =>
      have hlength : 0 < bs.length := List.length_pos_of_ne_nil hbs
      simp only [textSize_append, List.map_cons, List.sum_cons, List.length_cons]
      rw [show textSize ("" :: separate bs) = 1 + textSize (separate bs) by simp [textSize], ih]
      omega

theorem blocks_eq (depth : Nat) (ds : List Declaration) :
    l.blocks depth ds = ds.map (l.declarationLines depth) := by
  induction ds with
  | nil => rfl
  | cons d ds ih => rw [blocks, ih, List.map_cons]

theorem methodLines_shrinks (depth : Nat) (m : Method) :
    Shrinks (fun m => textSize (l.methodLines depth m)) (Method.mapDoc thin) m := by
  by_cases h : m.javadoc = emptyComment
  · refine Or.inr ?_
    have hthin : (m.mapDoc thin).javadoc = [] := if_pos h
    simp only [methodLines, hthin, h, textSize_append, List.map_nil]
    simp only [Method.mapDoc, emptyComment, textSize, List.map_cons, List.map_nil, List.sum_cons,
      List.sum_nil]
    omega
  · refine Or.inl ?_
    rw [Method.mapDoc, thin, if_neg h]

/-- Methods and nested types add their sizes to a declaration, whatever they are, and lines between
them that depend on how many they are. -/
theorem exists_textSize_declarationLines (depth : Nat) (head : Head) (shape : Shape) :
    ∃ frame : Nat → Nat, ∀ (methods : List Method) (nested : List Declaration),
      textSize (l.declarationLines depth (.mk { head with methods } shape nested)) =
        frame (methods.length + nested.length) +
          ((methods.map fun m => textSize (l.methodLines (depth + 1) m)).sum +
            (nested.map fun d => textSize (l.declarationLines (depth + 1) d)).sum) := by
  refine ⟨fun count => textSize (head.javadoc.map (l.margin depth ++ ·)) +
    textSize (head.annotations.map fun a => l.margin depth ++ a.text) +
    textSize (l.headerLines depth head shape) +
    ((l.ownBlocks (depth + 1) shape).map textSize).sum +
    ((l.ownBlocks (depth + 1) shape).length + count - 1) + textSize [l.margin depth ++ "\x7d"],
    fun methods nested => ?_⟩
  have hheader : l.headerLines depth { head with methods } shape =
      l.headerLines depth head shape := by
    cases shape <;> rfl
  simp only [declarationLines, hheader, textSize_append, textSize_separate, blocks_eq,
    List.map_append, List.sum_append, List.length_append, List.length_map, List.map_map,
    Function.comp_def]
  omega

mutual

theorem declarationLines_shrinks : ∀ (d : Declaration) (depth : Nat),
    Shrinks (fun d => textSize (l.declarationLines depth d)) (Declaration.mapMethodDocs thin) d
  | .mk head shape nested, depth => by
      have hmethods := Shrinks.map fun m (_ : m ∈ head.methods) =>
        l.methodLines_shrinks (depth + 1) m
      have hnested := Shrinks.map (nested_shrinks nested (depth + 1))
      obtain ⟨frame, hframe⟩ := l.exists_textSize_declarationLines depth head shape
      have hbefore : textSize (l.declarationLines depth (.mk head shape nested)) = _ :=
        hframe head.methods nested
      have hafter := hframe (head.methods.map (Method.mapDoc thin))
        (nested.map (Declaration.mapMethodDocs thin))
      rw [List.length_map, List.length_map] at hafter
      rw [Shrinks, Declaration.mapMethodDocs, mapNestedDocs_eq]
      simp only [Shrinks] at hmethods hnested
      rcases hmethods with hmethods | hmethods <;> rcases hnested with hnested | hnested
      · exact Or.inl (by rw [hmethods, hnested])
      · exact Or.inr (by rw [hmethods] at hafter ⊢; omega)
      · exact Or.inr (by rw [hnested] at hafter ⊢; omega)
      · exact Or.inr (by omega)

theorem nested_shrinks : ∀ (ds : List Declaration) (depth : Nat), ∀ d ∈ ds,
    Shrinks (fun d => textSize (l.declarationLines depth d)) (Declaration.mapMethodDocs thin) d
  | [], _, _, hx => absurd hx List.not_mem_nil
  | d :: ds, depth, x, hx => by
      rcases List.mem_cons.mp hx with hx | hx
      · exact hx ▸ declarationLines_shrinks d depth
      · exact nested_shrinks ds depth x hx

end

end Layout

/-- Of the types of a unit its size has their sizes. -/
theorem exists_length_print (u : CompilationUnit) (indent : String) :
    ∃ front, ∀ whole, ({ u with types := [whole] }.print indent).length =
      front + textSize (Layout.declarationLines ⟨indent, u.container⟩ 0 whole) := by
  let front := (if u.comment.isEmpty then [] else [u.comment, ""]) ++
    (if u.package.isEmpty then [] else ["package " ++ u.package ++ ";", ""]) ++
    let sorted := u.imports.mergeSort fun a b => decide (a ≤ b)
    if sorted.isEmpty then [] else sorted.map (fun i => "import " ++ i ++ ";") ++ [""]
  refine ⟨textSize front, fun whole => ?_⟩
  have hne : front ++ Layout.declarationLines ⟨indent, u.container⟩ 0 whole ≠ [] := by
    cases whole
    simp [Layout.declarationLines]
  rw [← textSize_append, ← textSize_intercalate hne]
  exact String.length_append ..

/-- A unit whose text stays as it is without empty comments has none. -/
theorem mapMethodDocs_of_print_eq {u : CompilationUnit} {whole : Declaration} {indent : String}
    (htypes : u.types = [whole])
    (h : (u.mapMethodDocs thin).print indent = u.print indent) :
    whole.mapMethodDocs thin = whole := by
  obtain ⟨front, hfront⟩ := exists_length_print u indent
  have hbefore : (u.print indent).length = _ := htypes ▸ hfront whole
  have hafter := hfront (whole.mapMethodDocs thin)
  have hunit : u.mapMethodDocs thin = { u with types := [whole.mapMethodDocs thin] } := by
    rw [CompilationUnit.mapMethodDocs, htypes, List.map_singleton]
  rw [← hunit, h, hbefore] at hafter
  refine (Layout.declarationLines_shrinks ⟨indent, u.container⟩ whole 0).resolve_right ?_
  show ¬textSize _ < textSize _
  omega

/-! ## Results -/

variable {g : ClassGraph} {a : Analysis}

theorem contractDeclaration_thin (contract : CopyContract) :
    (contractDeclaration contract).mapMethodDocs thin = contractDeclaration contract := rfl

/-- Without blank texts, the units are those of before without empty comments. -/
theorem units_dropBlank (config : Config) (a : Analysis) (comment : String) :
    units config (a.mapDocs dropBlank dropBlank) comment =
      List.map (fun e => (e.1, e.2.mapMethodDocs thin)) <$> units config a comment := by
  refine units_mapDocs (fun doc => ?_) rfl contractDeclaration_thin comment
  rw [javadoc_lead, javadoc_lead, comment_dropBlank, map_ok]

theorem generate_hollowed (config : Config) (a : Analysis) (comment : String) :
    generate config (a.mapDocs hollowed dropBlank) comment = generate config a comment := by
  refine generate_mapDocs a config (fun doc => ?_) comment
  rw [javadoc_lead, javadoc_lead, comment_hollowed]

theorem generate_dropBlank_of_docs (hdocs : config.docs = false) (a : Analysis) (text : String) :
    generate config (a.mapDocs dropBlank dropBlank) text = generate config a text := by
  refine generate_mapDocs a config (fun doc => ?_) text
  simp [javadoc, hdocs]

/-- A declaration without empty comments has none in its methods or around nested types. -/
theorem methods_thin {whole written : Declaration} (h : whole.mapMethodDocs thin = whole)
    (hmem : written = whole ∨ written ∈ whole.nested) :
    ∀ m ∈ written.head.methods, thin m.javadoc = m.javadoc := by
  have hwritten : written.mapMethodDocs thin = written := by
    rcases hmem with rfl | hmem
    · exact h
    · obtain ⟨head, shape, nested⟩ := whole
      rw [Declaration.mapMethodDocs, mapNestedDocs_eq, Declaration.mk.injEq] at h
      exact List.map_inj_left.mp (h.2.2.trans (List.map_id nested).symm) written hmem
  obtain ⟨head, shape, nested⟩ := written
  rw [Declaration.mapMethodDocs, Declaration.mk.injEq] at hwritten
  have hmethods : head.methods.map (Method.mapDoc thin) = head.methods.map id := by
    rw [List.map_id]
    exact congrArg Head.methods hwritten.1
  exact fun m hm => congrArg Method.javadoc (List.map_inj_left.mp hmethods m hm)

/-- Every accessor is declared, so an empty comment in its place would be seen. -/
theorem noneHollow_of_thin (h : a.Describes config g) (hdocs : config.docs = true) {text : String}
    {us : List (String × CompilationUnit)} (hus : units config a text = .ok us)
    (hthin : ∀ e ∈ us, ∀ whole, e.2.types = [whole] → whole.mapMethodDocs thin = whole) :
    g.NoneHollow := by
  intro c hc hallowed hmem
  obtain ⟨r, hr, rfl⟩ := h.resolved.complete c hc
  rw [← h.resolved.interface_isSome h.linked.nameable hr] at hallowed
  obtain ⟨t, ht⟩ := Option.isSome_iff_exists.mp hallowed
  have hd : .interface (Analysis.interfaceOf g r t) ∈ a.types :=
    h.mem_types.mpr ⟨r, hr, Or.inl ⟨t, ht, rfl⟩⟩
  obtain ⟨p, hp, hhollow⟩ := List.mem_map.mp hmem
  obtain ⟨_, declared, others, hdeclared, rfl, -, e, he, whole, htypes, hwhole⟩ :=
    exists_stands h hus hd
  obtain ⟨members, methods, doc, -, hmethods, rfl⟩ := interfaceDeclaration_spec hdeclared
  obtain ⟨method, hmethod, hok⟩ := (mapM_eq_ok.mp hmethods).exists_right
    ⟨p.name, p.type, p.nullable, p.doc⟩ (List.mem_map.mpr ⟨p, hp, rfl⟩)
  have hcomment : method.javadoc = comment config p.doc := by
    obtain ⟨name, -, hok⟩ := bind_eq_ok.mp hok
    obtain ⟨type, -, hok⟩ := bind_eq_ok.mp hok
    obtain ⟨lines, hlines, hok⟩ := bind_eq_ok.mp hok
    obtain rfl := Except.ok.inj hok
    exact Except.ok.inj (hlines.symm.trans (javadoc_lead config p.doc))
  have hfixed := methods_thin (hthin e he whole htypes) hwhole method hmethod
  rw [hcomment] at hfixed
  rw [isHollow_eq_false hdocs hfixed] at hhollow
  cases hhollow

/-- With documentation, blank texts make no difference exactly if no accessor has a hollow one. -/
theorem generate_dropBlank_iff (h : a.Describes config g) (hdocs : config.docs = true)
    (text : String) :
    generate config (a.mapDocs dropBlank dropBlank) text = generate config a text ↔
      g.NoneHollow := by
  constructor
  · intro hsame
    obtain ⟨us, hus⟩ := units_ok h text
    rw [generate, generate, units_dropBlank, hus] at hsame
    have hprint := Except.ok.inj hsame
    rw [List.map_map, List.map_inj_left] at hprint
    exact noneHollow_of_thin h hdocs hus fun e he whole htypes =>
      mapMethodDocs_of_print_eq htypes (congrArg Prod.snd (hprint e he))
  · intro hnone
    rw [← Analysis.mapDocs_noneHollow h hnone, generate_hollowed]

end Java

theorem Python.generate_dropBlank (config : Config) (a : Analysis) (text : String) :
    Python.generate config (a.mapDocs dropBlank dropBlank) text =
      Python.generate config a text :=
  Python.generate_mapDocs a config dropBlank_dropBlank text

/-! ## Runs -/

section

variable {config : Config} {language : Language} {g g' : ClassGraph} {a a' : Analysis}

/-- Without blank texts a result is written the same, but for empty comments in Java. -/
theorem emit_dropBlank_iff (h : a.Describes config g) (text : String) :
    emit config language (a.mapDocs dropBlank dropBlank) text = emit config language a text ↔
      language = .python ∨ config.docs = false ∨ g.NoneHollow := by
  cases language with
  | python => exact iff_of_true (Python.generate_dropBlank config a text) (Or.inl rfl)
  | java =>
      cases hdocs : config.docs with
      | false =>
          exact iff_of_true (Java.generate_dropBlank_of_docs hdocs a text) (Or.inr (Or.inl rfl))
      | true =>
          rw [or_iff_right (by decide), or_iff_right (by decide)]
          exact Java.generate_dropBlank_iff h hdocs text

/-- Results that differ in blank texts alone are written the same if their empty comments are at the
same places. -/
theorem emit_alike (h : a.Describes config g) (h' : a'.Describes config g')
    (hsame : a'.mapDocs dropBlank dropBlank = a.mapDocs dropBlank dropBlank)
    (hcase : language = .python ∨ config.docs = false ∨ g.HollowAlike g') (text : String) :
    emit config language a' text = emit config language a text := by
  -- Where no comment is seen, all blank texts may go on both sides; else the hollow ones stay.
  have hdrop : language = .python ∨ config.docs = false →
      emit config language a' text = emit config language a text := by
    intro hunseen
    have hcase := hunseen.imp_right (Or.inl (b := g.NoneHollow))
    have hcase' := hunseen.imp_right (Or.inl (b := g'.NoneHollow))
    rw [← (emit_dropBlank_iff h' text).mpr hcase', hsame, (emit_dropBlank_iff h text).mpr hcase]
  rcases hcase with hpython | hoff | halike
  · exact hdrop (Or.inl hpython)
  · exact hdrop (Or.inr hoff)
  · cases language with
    | python => exact hdrop (Or.inl rfl)
    | java =>
        rw [emit, emit, ← Java.generate_hollowed config a',
          Analysis.mapDocs_hollowed_eq h h' hsame halike, Java.generate_hollowed]

/-- A result is written if one is that differs in blank texts alone. -/
theorem exists_emit (h' : a'.Describes config g')
    (hpython : ∀ text, Python.generate config a' text = Python.generate config a text)
    {text : String} {files : Files} (hemit : emit config language a text = .ok files) :
    ∃ files', emit config language a' text = .ok files' := by
  cases language with
  | java => exact Java.generate_ok h' text
  | python => exact ⟨files, (hpython text).trans hemit⟩

end

/-- Documents that differ in blank texts alone are accepted alike. They give the same files in
Python, in Java without documentation, and in Java if hollow texts stand at the same places. If all
blank texts are taken out, Java files with documentation stay the same only where there is no hollow
text for an accessor. -/
theorem generate_blankDocs {r : Run} {doc doc' : Json} {files : Files}
    (hrecords : r.config.records = true)
    (hdocs : Document.mapDocs dropBlank doc' = Document.mapDocs dropBlank doc)
    (h : r.generate (.document doc) = .ok files) :
    ∃ language g g' files' without, r.validate = .ok language ∧ Document.load doc = .ok g ∧
      Document.load doc' = .ok g' ∧ r.generate (.document doc') = .ok files' ∧
      (language = .python ∨ r.config.docs = false ∨ g.HollowAlike g' → files' = files) ∧
      r.generate (.document (Document.mapDocs dropBlank doc)) = .ok without ∧
      (without = files ↔ language = .python ∨ r.config.docs = false ∨ g.NoneHollow) := by
  obtain ⟨language, g, a, hvalidate, hload, ha, hemit⟩ := Run.generate_ok hrecords h
  obtain ⟨g', hload', hgraphs⟩ := Document.load_alike rfl hdocs hload
  obtain ⟨a', ha', hsame⟩ := Analysis.analyze_alike rfl cleaned_dropBlank hgraphs ha
  have hloadWithout : Document.load (Document.mapDocs dropBlank doc) =
      .ok (g.mapDocs dropBlank) := by
    rw [Document.load_mapDocs rfl, hload, map_ok]
  have haWithout : analyze r.config r.workers (g.mapDocs dropBlank) =
      .ok (a.mapDocs dropBlank dropBlank) := by
    rw [Analysis.analyze_mapDocs rfl cleaned_dropBlank, ha, map_ok]
  have hd := analyze_describes (Document.load_linked hload) ha
  have hd' := analyze_describes (Document.load_linked hload') ha'
  have hdWithout := analyze_describes (Document.load_linked hloadWithout) haWithout
  have hpython : ∀ text, Python.generate r.config a' text = Python.generate r.config a text := by
    intro text
    rw [← Python.generate_dropBlank, hsame, Python.generate_dropBlank]
  obtain ⟨files', hfiles'⟩ := exists_emit hd' hpython hemit
  obtain ⟨without, hwithout⟩ :=
    exists_emit hdWithout (Python.generate_dropBlank r.config a) hemit
  refine ⟨language, g, g', files', without, hvalidate, hload, hload', ?_, fun hcase => ?_, ?_, ?_⟩
  · rw [Run.generate_eq_emit hrecords hvalidate hload' ha', hfiles', mapError_ok]
  · rw [emit_alike hd hd' hsame hcase, hemit] at hfiles'
    exact (Except.ok.inj hfiles').symm
  · rw [Run.generate_eq_emit hrecords hvalidate hloadWithout haWithout, hwithout, mapError_ok]
  · rw [← emit_dropBlank_iff hd (r.banner language), hwithout, hemit, Except.ok.injEq]

/-- A module and its only class, with a property. All three have the same text. -/
def Document.documented (doc : Json) : Json :=
  .object [("modules", .list [
    .object [("name", .text "m"), ("doc", doc), ("classes", .list [
      .object [("name", .text "A"), ("kind", .text "abstract"), ("doc", doc), ("properties", .list [
        .object [("name", .text "p"), ("type", .text "String"), ("doc", doc)]])]])]])]

/-- A run in Java without the line that says what generated a file. -/
def plain : Run where
  config := { banner := false }

theorem generate_blankDocs_documented : plain.config.records = true ∧
    Document.mapDocs dropBlank (Document.documented .null) =
      Document.mapDocs dropBlank (Document.documented (.text " ")) ∧
    ∃ files, plain.generate (.document (Document.documented (.text " "))) = .ok files ∧
    ∃ language g g' files' without, plain.validate = .ok language ∧
      Document.load (Document.documented (.text " ")) = .ok g ∧
      Document.load (Document.documented .null) = .ok g' ∧
      plain.generate (.document (Document.documented .null)) = .ok files' ∧
      (language = .python ∨ plain.config.docs = false ∨ g.HollowAlike g' → files' = files) ∧
      plain.generate (.document
        (Document.mapDocs dropBlank (Document.documented (.text " ")))) = .ok without ∧
      (without = files ↔ language = .python ∨ plain.config.docs = false ∨ g.NoneHollow) := by
  have hdocs : Document.mapDocs dropBlank (Document.documented .null) =
      Document.mapDocs dropBlank (Document.documented (.text " ")) := by rfl
  have hok : (plain.generate (.document (Document.documented (.text " ")))).isOk = true := by
    decide +kernel
  obtain ⟨files, h⟩ := exists_ok hok
  exact ⟨rfl, hdocs, files, h, generate_blankDocs rfl hdocs h⟩

/-- The texts of the module and its class are left out. That of the property makes a comment. -/
theorem documented_commented :
    plain.generate (.document (Document.documented (.text " "))) = .ok [("M.java",
      "public record M() \x7b\n  public interface IA \x7b\n    /**\n     */\n    String p();\n" ++
        "  \x7d\n\x7d\n")] ∧
    plain.generate (.document (Document.documented .null)) = .ok [("M.java",
      "public record M() \x7b\n  public interface IA \x7b\n    String p();\n  \x7d\n\x7d\n")] := by
  exact ⟨eq_ok_of (by decide +kernel), eq_ok_of (by decide +kernel)⟩

end RecordGen

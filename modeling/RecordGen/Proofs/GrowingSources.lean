import RecordGen.Proofs.GrowingResults
import RecordGen.Proofs.Outcomes

/-! # Sources of a document that grows

What is written for a type depends on the results of the classes it mentions, and these are found
first in a longer result too. So a document with a module appended gets the files it had in Java,
and in Python the classes it had come first in the module. -/

namespace RecordGen

open Fallible

/-! ## Look-ups in a longer result -/

namespace Analysis.GrowsTo

variable {a a' : Analysis}

theorem resolution?_of_some (h : a.GrowsTo a') {c : ClassId} {r : Resolution}
    (hr : a.resolution? c = some r) : a'.resolution? c = some r := by
  obtain ⟨more, hmore⟩ := h.resolutions
  rw [resolution?] at hr ⊢
  rw [← hmore, List.find?_append, hr, Option.some_or]

theorem counterpart_persists (h : a.GrowsTo a') (name : String) (target : Option ClassId) :
    Persists (a.counterpart name target) (a'.counterpart name target) := by
  intro t ht
  rw [counterpart] at ht ⊢
  split at ht
  · rename_i u hu
    obtain ⟨r, hr, hcounterpart⟩ := Option.bind_eq_some_iff.mp hu
    obtain ⟨c, rfl, hc⟩ := Option.bind_eq_some_iff.mp hr
    simp only [Option.bind_some, h.resolution?_of_some hc, hcounterpart]
    exact ht
  · cases ht

theorem memberTable_persists (h : a.GrowsTo a') (escape : String → String) (head : TypeHead) :
    Persists (a.memberTable escape head) (a'.memberTable escape head) := by
  intro members hmembers
  rw [memberTable] at hmembers ⊢
  split at hmembers
  · rename_i r hr
    rwa [h.resolution?_of_some hr]
  · cases hmembers

end Analysis.GrowsTo

/-! ## Java -/

namespace Java

variable {config : Config} {a a' : Analysis}

mutual

theorem translate_persists (h : a.GrowsTo a') : ∀ (t : PropertyType) (nullable : Bool),
    Persists (translate a t nullable) (translate a' t nullable)
  | .node .optional _ [] _, _ => .refl _
  | .node .optional _ (inner :: _) _, _ => translate_persists h inner true
  | .node .primitive _ _ _, _ => .refl _
  | .node .collection name arguments _, _ => by
      rw [translate, translate]
      cases collection? name with
      | none => exact .refl _
      | some qualified => exact (translateArguments_persists h arguments).map _
  | .node .reference name _ target, _ => (h.counterpart_persists name target).map _

theorem translateArguments_persists (h : a.GrowsTo a') : ∀ ts : List PropertyType,
    Persists (translateArguments a ts) (translateArguments a' ts)
  | [] => .refl _
  | t :: ts => .bind (translate_persists h t true) fun _ _ =>
      .bind (translateArguments_persists h ts) fun _ _ => .refl _

end

theorem interfaceDeclaration_persists (h : a.GrowsTo a') (d : GeneratedInterface) :
    Persists (interfaceDeclaration config a d) (interfaceDeclaration config a' d) := by
  refine .bind (h.memberTable_persists _ _) fun members _ => .bind (.mapM fun m _ => ?_)
    fun _ _ => .refl _
  exact .bind (.refl _) fun _ _ => .bind (translate_persists h _ _) fun _ _ => .refl _

theorem recordDeclaration_persists (h : a.GrowsTo a') (d : GeneratedRecord) :
    Persists (recordDeclaration config a d) (recordDeclaration config a' d) := by
  refine .bind (h.memberTable_persists _ _) fun members _ => .bind (.mapM fun c _ => ?_)
    fun _ _ => .refl _
  exact .bind (.refl _) fun _ _ => .bind (translate_persists h _ _) fun _ _ => .refl _

theorem declaration_persists (h : a.GrowsTo a') :
    ∀ d, Persists (declaration config a d) (declaration config a' d)
  | .interface d => interfaceDeclaration_persists h d
  | .record d => recordDeclaration_persists h d

theorem containerUnit_persists (h : a.GrowsTo a') (comment : String)
    (group : String × List GeneratedType) :
    Persists (containerUnit config a comment group) (containerUnit config a' comment group) := by
  rw [containerUnit, containerUnit]
  split
  · exact .refl _
  · refine .bind (declaration_persists h _) ?_
    rintro ⟨_, _, _⟩ -
    exact .bind (.mapM fun d _ => declaration_persists h d) fun _ _ => .refl _

/-- The old containers keep their types, and come first. -/
theorem groups_grows (h : a.GrowsTo a') : groups a <+: groups a' := by
  obtain ⟨more, hmore, hapart⟩ := h.types
  have hgroup : ∀ k ∈ (a.types.map (·.head.container)).eraseDups,
      a'.types.filter (·.head.container == k) = a.types.filter (·.head.container == k) := by
    intro k hk
    obtain ⟨d, hd, rfl⟩ := List.mem_map.mp (List.mem_eraseDups.mp hk)
    have hnone : more.filter (·.head.container == d.head.container) = [] :=
      List.filter_eq_nil_iff.mpr fun d' hd' => by simp [(hapart d hd d' hd').symm]
    rw [hmore, List.filter_append, hnone, List.append_nil]
  rw [groups, groups, List.map_congr_left fun k hk => by rw [← hgroup k hk], hmore,
    List.map_append, List.eraseDups_append, List.map_append]
  exact List.prefix_append _ _

/-- The units of the old containers come first, and the contract is the same. -/
theorem units_sublist (h : a.GrowsTo a') {comment : String}
    {us us' : List (String × CompilationUnit)}
    (hus : units config a comment = .ok us) (hus' : units config a' comment = .ok us') :
    us.Sublist us' := by
  obtain ⟨modules, hmodules, hus⟩ := bind_eq_ok.mp hus
  obtain ⟨modules', hmodules', hus'⟩ := bind_eq_ok.mp hus'
  obtain ⟨more, hmore⟩ := groups_grows h
  rw [← hmore] at hmodules'
  have hprefix := Persists.mapM_append
    (fun group _ => .bind (containerUnit_persists h comment group) fun unit _ =>
      .refl (pure (filePath config group.1, unit))) hmodules hmodules'
  obtain rfl := Except.ok.inj hus
  obtain rfl := Except.ok.inj hus'
  rw [h.contract]
  exact hprefix.sublist.append_right _

/-- The files of a result are among those of a longer one, in the same order. -/
theorem generate_sublist (h : a.GrowsTo a') {comment : String} {files files' : Files}
    (hfiles : generate config a comment = .ok files)
    (hfiles' : generate config a' comment = .ok files') : files.Sublist files' := by
  obtain ⟨us, hus, hfiles⟩ := bind_eq_ok.mp hfiles
  obtain ⟨us', hus', hfiles'⟩ := bind_eq_ok.mp hfiles'
  obtain rfl := Except.ok.inj hfiles
  obtain rfl := Except.ok.inj hfiles'
  exact (units_sublist h hus hus').map _

end Java

/-! ## Python -/

namespace Python

variable {config : Config} {a a' : Analysis} {names names' : Table TypePath String}

/-- Types are named one after the other. -/
theorem flatNames_append (us : List TypePath) {ts : List TypePath} : ∀ {taken : List String}
    {names middle : Table TypePath String}, flatNames taken names ts = .ok middle →
      ∃ taken', flatNames taken names (ts ++ us) = flatNames taken' middle us := by
  induction ts with
  | nil =>
      intro taken names middle h
      obtain rfl := Except.ok.inj h
      exact ⟨taken, rfl⟩
  | cons t ts ih =>
      intro taken names middle h
      rw [flatNames] at h
      rw [List.cons_append, flatNames]
      split at h
      · rename_i hfree
        rw [if_pos hfree]
        exact ih h
      · rename_i htaken
        rw [if_neg htaken]
        split at h
        · rename_i hfree
          rw [if_pos hfree]
          exact ih h
        · cases h

/-- The class names of a longer result extend those of the shorter one. -/
theorem classNameOf_persists (h : a.GrowsTo a') (hnames : classNames a = .ok names)
    (hnames' : classNames a' = .ok names') (t : TypePath) :
    Persists (classNameOf names t) (classNameOf names' t) := by
  intro n hn
  rw [classNameOf_eq_ok] at hn ⊢
  obtain ⟨more, hmore, hapart⟩ := h.types
  have hmem : t ∈ a.types.map (·.head.path) := by
    by_contra hnot
    rw [flatNames_find?_of_not_mem hnot hnames] at hn
    simp at hn
  have hnew : t ∉ more.map (·.head.path) := by
    intro hnew
    obtain ⟨d, hd, rfl⟩ := List.mem_map.mp hmem
    obtain ⟨d', hd', hpath⟩ := List.mem_map.mp hnew
    exact hapart d hd d' hd' (congrArg TypePath.container hpath).symm
  rw [classNames, h.contract, hmore, List.map_append] at hnames'
  obtain ⟨taken', htaken'⟩ := flatNames_append (more.map (·.head.path)) hnames
  rw [htaken'] at hnames'
  rw [flatNames_find?_of_not_mem hnew hnames', hn]

mutual

theorem translateInner_persists (h : a.GrowsTo a')
    (hnames : ∀ t, Persists (classNameOf names t) (classNameOf names' t)) :
    ∀ t : PropertyType, Persists (translateInner a names t) (translateInner a' names' t)
  | .node .optional _ [] _ => .refl _
  | .node .optional _ (inner :: _) _ => (translateInner_persists h hnames inner).map _
  | .node .primitive _ _ _ => .refl _
  | .node .collection _ arguments _ =>
      .bind (translateArguments_persists h hnames arguments) fun _ _ => .refl _
  | .node .reference name _ target => .bind (h.counterpart_persists name target) fun t _ =>
      .bind (hnames t) fun _ _ => .refl _

theorem translateArguments_persists (h : a.GrowsTo a')
    (hnames : ∀ t, Persists (classNameOf names t) (classNameOf names' t)) :
    ∀ ts : List PropertyType,
      Persists (translateArguments a names ts) (translateArguments a' names' ts)
  | [] => .refl _
  | t :: ts => .bind (translateInner_persists h hnames t) fun _ _ =>
      .bind (translateArguments_persists h hnames ts) fun _ _ => .refl _

end

theorem translate_persists (h : a.GrowsTo a')
    (hnames : ∀ t, Persists (classNameOf names t) (classNameOf names' t)) (t : PropertyType)
    (nullable : Bool) : Persists (translate a names t nullable) (translate a' names' t nullable) :=
  .bind (translateInner_persists h hnames t) fun _ _ => .refl _

theorem interfaceClass_persists (h : a.GrowsTo a')
    (hnames : ∀ t, Persists (classNameOf names t) (classNameOf names' t))
    (d : GeneratedInterface) :
    Persists (interfaceClass config a names d) (interfaceClass config a' names' d) := by
  refine .bind (.mapM fun t _ => hnames t) fun _ _ => .bind (h.memberTable_persists _ _)
    fun members _ => .bind (.refl _) fun _ _ => .bind (.refl _) fun _ _ => .bind ?_
    fun _ _ => .bind (hnames _) fun _ _ => .refl _
  exact .mapM fun m _ => .bind (.refl _) fun _ _ => .bind (translate_persists h hnames _ _)
    fun _ _ => .refl _

theorem recordClass_persists (h : a.GrowsTo a')
    (hnames : ∀ t, Persists (classNameOf names t) (classNameOf names' t)) (d : GeneratedRecord) :
    Persists (recordClass config a names d) (recordClass config a' names' d) := by
  refine .bind (hnames _) fun _ _ => .bind (.mapM fun t _ => hnames t) fun _ _ =>
    .bind (.refl _) fun _ _ => .bind (h.memberTable_persists _ _) fun members _ =>
    .bind ?_ fun _ _ => .refl _
  exact .mapM fun c _ => .bind (.refl _) fun _ _ => .bind (translate_persists h hnames _ _)
    fun _ _ => .refl _

/-- The classes of a result come first among those of a longer one. -/
theorem classes_grows (h : a.GrowsTo a') {body body' : List Statement}
    (hbody : classes config a = .ok body) (hbody' : classes config a' = .ok body') :
    body <+: body' := by
  obtain ⟨names, hnames, hbody⟩ := bind_eq_ok.mp hbody
  obtain ⟨names', hnames', hbody'⟩ := bind_eq_ok.mp hbody'
  have hpersists := classNameOf_persists h hnames hnames'
  have hclass : ∀ d ∈ a.types,
      Persists (classDefinition config a names d) (classDefinition config a' names' d) := by
    intro d _
    cases d with
    | interface d => exact interfaceClass_persists h hpersists d
    | record d => exact recordClass_persists h hpersists d
  obtain ⟨more, hmore, -⟩ := h.types
  rw [hmore] at hbody'
  exact Persists.mapM_append hclass hbody hbody'

end Python

/-! ## Whole runs -/

/-- The files of a run continue those it gives for another document: the classes of that document
keep their places, and their results and types come first. In Java the files are among the new ones,
in the same order and with the same text. In Python the classes come first in the module. -/
def Run.Continues (r : Run) (doc doc' : Json) (files files' : Files) : Prop :=
  ∃ language g g' a a', r.validate = .ok language ∧
    Document.load doc = .ok g ∧ Document.load doc' = .ok g' ∧ g.decls <+: g'.decls ∧
    RecordGen.analyze r.config r.workers g = .ok a ∧
    RecordGen.analyze r.config r.workers g' = .ok a' ∧
    a.resolutions <+: a'.resolutions ∧ a.types <+: a'.types ∧
    match language with
    | .java => files.Sublist files'
    | .python => ∃ body more, Python.classes r.config a = .ok body ∧
        Python.classes r.config a' = .ok (body ++ more) ∧
        files = Python.fileOf a (r.banner .python) body ∧
        files' = Python.fileOf a' (r.banner .python) (body ++ more)

/-- A module that is appended to a document disturbs nothing, if both documents are accepted. -/
theorem generate_withModule {r : Run} {v doc : Json} {files files' : Files}
    (hrecords : r.config.records = true) (h : r.generate (.document doc) = .ok files)
    (h' : r.generate (.document (Document.withModule v doc)) = .ok files') :
    r.Continues doc (Document.withModule v doc) files files' := by
  obtain ⟨language, g, a, hvalidate, hload, ha, hfiles⟩ := Run.generate_ok hrecords h
  obtain ⟨language', g', a', hvalidate', hload', ha', hfiles'⟩ := Run.generate_ok hrecords h'
  obtain rfl := Except.ok.inj (hvalidate.symm.trans hvalidate')
  have hgrows := Document.load_growsTo hload hload'
  have hresult := analyze_growsTo hgrows (Document.load_linked hload)
    (Document.load_linked hload') ha ha'
  obtain ⟨more, hmore, -⟩ := hresult.types
  refine ⟨language, g, g', a, a', hvalidate, hload, hload', hgrows.decls, ha, ha',
    hresult.resolutions, ⟨more, hmore.symm⟩, ?_⟩
  cases language with
  | java => exact Java.generate_sublist hresult hfiles hfiles'
  | python =>
      obtain ⟨body, hbody, rfl⟩ := Python.generate_eq_ok hfiles
      obtain ⟨body', hbody', rfl⟩ := Python.generate_eq_ok hfiles'
      obtain ⟨new, rfl⟩ := Python.classes_grows hresult hbody hbody'
      exact ⟨body, new, hbody, hbody', rfl, rfl⟩

/-- A module whose container would be called like that of `plane`. Its class is called like one of
`plane` and extends one of `base`. -/
def Document.secondPlane : Json :=
  .object [("name", .text "Plane"), ("classes", .list [
    .object [("name", .text "Circle"), ("extends", .text "base.Shape"), ("properties", .list [
      .object [("name", .text "flat"), ("type", .text "plane.Circle")]])]])]

theorem generate_withModule_shapes : ∃ files files',
    ({ config := { withers := true }, language := "python" } : Run).generate
      (.document Document.shapes) = .ok files ∧
    ({ config := { withers := true }, language := "python" } : Run).generate
      (.document (Document.withModule Document.secondPlane Document.shapes)) = .ok files' ∧
    ({ config := { withers := true }, language := "python" } : Run).Continues Document.shapes
      (Document.withModule Document.secondPlane Document.shapes) files files' := by
  have hok : (({ config := { withers := true }, language := "python" } : Run).generate
      (.document Document.shapes)).isOk = true := by
    decide +kernel
  have hok' : (({ config := { withers := true }, language := "python" } : Run).generate
      (.document (Document.withModule Document.secondPlane Document.shapes))).isOk = true := by
    decide +kernel
  obtain ⟨files, h⟩ := exists_ok hok
  obtain ⟨files', h'⟩ := exists_ok hok'
  exact ⟨files, files', h, h', generate_withModule rfl h h'⟩

end RecordGen

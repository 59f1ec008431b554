import RecordGen.Generation
import RecordGen.Proofs.JavaUnits
import RecordGen.Proofs.LongNumerals
import RecordGen.Proofs.ShownValues

/-! # How runs end

A run over a document ends with files or with one of few faults. Each look-up between loading and
writing finds what an earlier stage has put there. -/

namespace RecordGen

open Fallible ClassGraph

/-! ## Loaded graphs that do not resolve -/

/-- The faults that a loaded graph can still have: its classes are linked, but their ancestry or the
properties along it contradict each other. -/
inductive SchemaFault.OfAncestry : SchemaFault → Prop where
  | cyclicAncestry (path : List String) : OfAncestry (.cyclicAncestry path)
  | mixedExtension (isModule : Bool) (name superclass : String) :
      OfAncestry (.mixedExtension isModule name superclass)
  | finalSuperclass (name superclass : String) : OfAncestry (.finalSuperclass name superclass)
  | conflictingProperty (owner property ancestor : String) :
      OfAncestry (.conflictingProperty owner property ancestor)

theorem SchemaFault.OfAncestry.isReported {e : SchemaFault} (h : e.OfAncestry) :
    e.isReported = true := by
  cases h <;> rfl

namespace ClassGraph.Linked

variable {g : ClassGraph} {e : SchemaFault}

theorem checkExtension_error (h : g.Linked) {c : ClassId} (hc : c ∈ g.classes)
    (he : g.checkExtension c = .error e) : e.OfAncestry := by
  rw [checkExtension] at he
  split at he
  · cases he
  · rename_i s hs
    have hlisted : s ∈ g.classes := h.superclasses c hc s hs
    simp only [hlisted, not_true_eq_false, if_false] at he
    split at he
    · exact Except.error.inj he ▸ .mixedExtension _ _ _
    · split at he
      · exact Except.error.inj he ▸ .finalSuperclass _ _
      · cases he

theorem ancestryOrder_error (h : g.Linked) (he : g.ancestryOrder = .error e) : e.OfAncestry := by
  rcases ClassGraph.ancestryOrder_error he with ⟨cycle, -, rfl⟩ | ⟨c, hc, he | he⟩
  · exact .cyclicAncestry _
  · rw [h.checkEnclosing c hc] at he
    cases he
  · exact h.checkExtension_error hc he

/-- Every class of a loaded graph has a container, and all its references are linked. What can fail
is its ancestry. -/
theorem resolve_error (h : g.Linked) {p : String} {workers : Option Int}
    (he : g.resolve p workers = .error e) : e.OfAncestry := by
  rcases ClassGraph.resolve_error he with he | he | ⟨order, horder, c, hc, he⟩
  · exact h.ancestryOrder_error he
  · rw [h.checkReferences] at he
    cases he
  · obtain ⟨hfirst, -⟩ := ancestryOrder_ok horder
    obtain ⟨l, hl, -⟩ := hfirst.above c hc
    obtain ⟨x, -, ⟨⟩⟩ := flatten_error hl (hfirst.flatten_of_error hc he)
    exact .conflictingProperty _ _ _

theorem analyze_error (h : g.Linked) {config : Config} {workers : Option Int}
    (he : analyze config workers g = .error e) : e.OfAncestry := by
  rw [analyze_eq h.nameable.names_nodup h.nameable.modulesApart] at he
  exact h.resolve_error (map_eq_error.mp he)

end ClassGraph.Linked

/-! ## Stages of a run -/

namespace Run

variable {r : Run} {doc : Json}

/-- A run with records that ends with files resolved a loaded graph and wrote its result. -/
theorem generate_ok {files : Files} (hrecords : r.config.records = true)
    (h : r.generate (.document doc) = .ok files) :
    ∃ language g a, r.validate = .ok language ∧ Document.load doc = .ok g ∧
      RecordGen.analyze r.config r.workers g = .ok a ∧
      emit r.config language a (r.banner language) = .ok files := by
  obtain ⟨language, hvalidate, h⟩ := bind_eq_ok.mp h
  obtain ⟨g, hload, h⟩ := bind_eq_ok.mp h
  rw [hrecords] at h
  obtain ⟨a, hanalyze, h⟩ := bind_eq_ok.mp h
  exact ⟨language, g, a, mapError_eq_ok.mp hvalidate, mapError_eq_ok.mp hload,
    mapError_eq_ok.mp hanalyze, mapError_eq_ok.mp h⟩

/-- A run with records writes the result of its document. -/
theorem generate_eq_emit {language : Language} {g : ClassGraph} {a : Analysis}
    (hrecords : r.config.records = true) (hvalidate : r.validate = .ok language)
    (hload : Document.load doc = .ok g) (ha : RecordGen.analyze r.config r.workers g = .ok a) :
    r.generate (.document doc) =
      (emit r.config language a (r.banner language)).mapError .target := by
  simp only [generate, hvalidate, Source.load, hload, hrecords, ha, mapError_ok, ok_bind]

/-- The document is refused with a message: by the loader, or for the ancestry of its classes. -/
def RefusesDocument (r : Run) (doc : Json) : Prop :=
  ∃ e, r.generate (.document doc) = .error (.schema e) ∧ e.isReported = true ∧
    (Document.load doc = .error e ∨ e.OfAncestry)

/-- The loader refuses the document and cannot say why: the message would show a long integer. -/
def FailsToTell (r : Run) (doc : Json) : Prop :=
  r.generate (.document doc) = .error (.schema .longInteger) ∧
    Document.load doc = .error .longInteger ∧ doc.HoldsUnshown

/-- A run with records whose document is not refused writes the result of a loaded graph. -/
theorem refuses_or_emits {language : Language} (hrecords : r.config.records = true)
    (hvalidate : r.validate = .ok language) : r.RefusesDocument doc ∨ r.FailsToTell doc ∨
      ∃ g a, Document.load doc = .ok g ∧ RecordGen.analyze r.config r.workers g = .ok a ∧
        r.generate (.document doc) =
          (emit r.config language a (r.banner language)).mapError .target := by
  have hgenerate : r.generate (.document doc) = ((Document.load doc).mapError .schema >>= fun g =>
      (RecordGen.analyze r.config r.workers g).mapError .schema >>= fun a =>
        (emit r.config language a (r.banner language)).mapError .target) := by
    simp only [generate, hvalidate, hrecords, mapError_ok, ok_bind]
    rfl
  rw [RefusesDocument, FailsToTell, hgenerate]
  cases hload : Document.load doc with
  | error e =>
      by_cases he : e = .longInteger
      · subst he
        exact Or.inr (Or.inl ⟨by simp, rfl, Document.load_tells doc hload⟩)
      · exact Or.inl ⟨e, by simp, SchemaFault.isReported_eq_true.mpr he, Or.inl rfl⟩
  | ok g =>
      have hlinked := Document.load_linked hload
      simp only [mapError_ok, ok_bind]
      cases hanalyze : RecordGen.analyze r.config r.workers g with
      | error e =>
          have he := hlinked.analyze_error hanalyze
          exact Or.inl ⟨e, by simp, he.isReported, Or.inr he⟩
      | ok a => exact Or.inr (Or.inr ⟨g, a, rfl, hanalyze, by simp⟩)

theorem validate_fallback {language : Language} (hrecords : r.config.records = false)
    (hvalidate : r.validate = .ok language) : ∃ fallback, r.fallback = some fallback := by
  obtain ⟨_, _, h⟩ := bind_eq_ok.mp hvalidate
  cases hfallback : r.fallback with
  | some fallback => exact ⟨fallback, rfl⟩
  | none =>
      split at h
      · cases h
      · simp [hrecords, hfallback] at h

end Run

/-! ## Python -/

namespace Python

variable {config : Config} {g : ClassGraph} {a : Analysis}

/-- The result of a loaded graph is written in Python, unless two types would share a name, a text
in a class cannot be read or a reference would be a long integer. -/
theorem generate_eq (h : a.Describes config g) (comment : String) :
    (∃ t ∈ a.types.map (·.head.path), classNames a = .error (.ambiguous t.dotted) ∧
      generate config a comment = .error (.ambiguous t.dotted)) ∨
    ∃ names, classNames a = .ok names ∧
      (((∃ d ∈ a.types, ¬Readable a names d) ∧ generate config a comment = .error .unreadable) ∨
        (∀ d ∈ a.types, Readable a names d) ∧
          ((RefersToLongNumeral config g a names ∧
              generate config a comment = .error .longInteger) ∨
            ¬RefersToLongNumeral config g a names ∧
              ∃ files, generate config a comment = .ok files)) := by
  cases hnames : classNames a with
  | error e =>
      obtain ⟨t, ht, rfl⟩ := flatNames_error hnames
      exact Or.inl ⟨t, ht, rfl, by simp only [generate, classes, hnames, error_bind]⟩
  | ok names =>
      refine Or.inr ⟨names, rfl, ?_⟩
      rcases classes_cases h hnames with ⟨hreadable, body, hbody, hall⟩ | ⟨hunreadable, hfault⟩
      · have hlong := classes_anyLongInteger h hnames hall
        refine Or.inr ⟨hreadable, ?_⟩
        by_cases hrefers : RefersToLongNumeral config g a names
        · refine Or.inl ⟨hrefers, ?_⟩
          simp only [generate, hbody, ok_bind, if_pos (hlong.mpr hrefers), throw_eq, error_bind]
        · refine Or.inr ⟨hrefers, ?_⟩
          exact ⟨_, by simp only [generate, hbody, ok_bind, if_neg (mt hlong.mp hrefers)]; rfl⟩
      · exact Or.inl ⟨hunreadable, by simp only [generate, hfault, error_bind]⟩

end Python

/-! ## Whole runs -/

/-- How a run over a document ends. Refused options come first, whatever the source is. With records
the document may be refused, or the loader cannot show what is wrong with it; a run in Java ends
with files otherwise. A run in Python also fails where two types would share a flat name, where a
text in a class cannot be read, and where a reference to a class would be written as an integer that
is too long. -/
theorem generate_outcome (r : Run) (doc : Json) :
    match r.validate, r.config.records with
    | .error e, _ => ∀ s, r.generate s = .error (.config e)
    | .ok _, false => ∃ fallback, r.fallback = some fallback ∧
        r.generate (.document doc) =
          (fallback · r.config) <$> (Document.load doc).mapError .schema
    | .ok .java, true => r.RefusesDocument doc ∨ r.FailsToTell doc ∨
        ∃ files, r.generate (.document doc) = .ok files
    | .ok .python, true => r.RefusesDocument doc ∨ r.FailsToTell doc ∨
        ∃ g a, Document.load doc = .ok g ∧ analyze r.config r.workers g = .ok a ∧
          ((∃ t ∈ a.types.map (·.head.path), Python.classNames a = .error (.ambiguous t.dotted) ∧
            r.generate (.document doc) = .error (.target (.ambiguous t.dotted))) ∨
          ∃ names, Python.classNames a = .ok names ∧
            (((∃ d ∈ a.types, ¬Python.Readable a names d) ∧
              r.generate (.document doc) = .error (.target .unreadable)) ∨
            (∀ d ∈ a.types, Python.Readable a names d) ∧
              ((Python.RefersToLongNumeral r.config g a names ∧
                r.generate (.document doc) = .error (.target .longInteger)) ∨
              ¬Python.RefersToLongNumeral r.config g a names ∧
                ∃ files, r.generate (.document doc) = .ok files))) := by
  cases hvalidate : r.validate with
  | error e =>
      intro s
      simp only [Run.generate, hvalidate, mapError_error, error_bind]
  | ok language =>
      cases hrecords : r.config.records with
      | false =>
          obtain ⟨fallback, hfallback⟩ := Run.validate_fallback hrecords hvalidate
          have hgenerate : r.generate (.document doc) =
              (fallback · r.config) <$> (Document.load doc).mapError .schema := by
            simp only [Run.generate, hvalidate, hrecords, hfallback, mapError_ok, ok_bind]
            rfl
          cases language <;> exact ⟨fallback, hfallback, hgenerate⟩
      | true =>
          cases language with
          | java =>
              refine (Run.refuses_or_emits hrecords hvalidate).imp_right (Or.imp_right ?_)
              rintro ⟨g, a, hload, hanalyze, hgenerate⟩
              have hd := analyze_describes (Document.load_linked hload) hanalyze
              obtain ⟨files, hfiles⟩ := Java.generate_ok hd (r.banner .java)
              exact ⟨files, by rw [hgenerate, emit, hfiles, mapError_ok]⟩
          | python =>
              refine (Run.refuses_or_emits hrecords hvalidate).imp_right (Or.imp_right ?_)
              rintro ⟨g, a, hload, hanalyze, hgenerate⟩
              have hd := analyze_describes (Document.load_linked hload) hanalyze
              refine ⟨g, a, hload, hanalyze, ?_⟩
              rw [hgenerate, emit]
              rcases Python.generate_eq hd (r.banner .python) with
                ⟨t, ht, hnames, hfault⟩ | ⟨names, hnames, ⟨hunreadable, hfault⟩ | ⟨hreadable, hend⟩⟩
              · exact Or.inl ⟨t, ht, hnames, by rw [hfault, mapError_error]⟩
              · exact Or.inr ⟨names, hnames, Or.inl ⟨hunreadable, by rw [hfault, mapError_error]⟩⟩
              · refine Or.inr ⟨names, hnames, Or.inr ⟨hreadable, hend.imp ?_ ?_⟩⟩
                · exact fun ⟨hrefers, hfault⟩ => ⟨hrefers, by rw [hfault, mapError_error]⟩
                · exact fun ⟨hrefers, files, hfiles⟩ =>
                    ⟨hrefers, files, by rw [hfiles, mapError_ok]⟩

end RecordGen

import RecordGen.CommandLine.Invocation
import RecordGen.Proofs.Banners
import RecordGen.Proofs.JavaLayout

/-! # Command lines

A command line writes everything that its run generates, or nothing, unless one of the files cannot
be written: then those before it stay. What a run writes is stated as the tree of files that it
leaves: no two generated files get in each other's way, so in an empty folder there is nothing but
them, and around it nothing changes. -/

namespace RecordGen

open Fallible

namespace CommandLine

/-! ## Trees of files -/

namespace FileTree

/-- Writes a file at the end of a path. Folders on the way are made, and nothing is done where a
file stands in their place. -/
def put (text : String) : List String → FileTree → FileTree
  | [], _ => file text
  | name :: rest, folder entries =>
    folder (Table.insertEntry name (put text rest ((entries.lookup name).getD (folder []))) entries)
  | _ :: _, file content => file content

/-- Writes files in order. -/
def putAll (files : List (List String × String)) (t : FileTree) : FileTree :=
  files.foldl (fun t file => t.put file.2 file.1) t

/-- The part of a tree that a path leads to. -/
def at? : FileTree → List String → Option FileTree
  | t, [] => some t
  | folder entries, name :: rest =>
    if isLongName name then none else (entries.lookup name).bind (at? · rest)
  | file _, _ :: _ => none

theorem at?_cons {entries : List (String × FileTree)} {name : String} {rest : List String}
    {s : FileTree} (h : (folder entries).at? (name :: rest) = some s) :
    isLongName name = false ∧
      ∃ child, entries.lookup name = some child ∧ child.at? rest = some s := by
  rw [at?] at h
  split at h
  · cases h
  · rename_i hname
    exact ⟨Bool.not_eq_true _ ▸ hname, Option.bind_eq_some_iff.mp h⟩

theorem lookup_insertEntry (name other : String) (t : FileTree)
    (entries : List (String × FileTree)) :
    (Table.insertEntry name t entries).lookup other =
      if name = other then some t else entries.lookup other := by
  have hbeq : ∀ key : String, (other == key) = decide (key = other) := fun key => by
    rw [beq_eq_decide, decide_eq_decide, eq_comm]
  induction entries with
  | nil =>
      rw [Table.insertEntry, List.lookup_cons, hbeq]
      by_cases h : name = other <;> simp [h]
  | cons e es ih =>
      obtain ⟨key, value⟩ := e
      rw [Table.insertEntry]
      by_cases hkey : key = name
      · rw [if_pos hkey, List.lookup_cons, List.lookup_cons, hbeq, hbeq, hkey]
        by_cases h : name = other <;> simp [h]
      · rw [if_neg hkey, List.lookup_cons, List.lookup_cons, hbeq, ih]
        by_cases h : key = other
        · simp [h, show ¬name = other from fun hname => hkey (h.trans hname.symm)]
        · simp [h]

/-- Nothing is found in an empty folder. -/
theorem walk_empty (path : List String) (text : String) : (folder []).walk path ≠ .file text := by
  cases path with
  | nil => simp [walk]
  | cons name rest =>
      rw [walk]
      split <;> simp

theorem walk_of_at? {t s : FileTree} {out : List String} (h : t.at? out = some s)
    (path : List String) :
    t.walk (out ++ path) = s.walk path := by
  induction out generalizing t with
  | nil =>
      obtain rfl := Option.some.inj h
      rfl
  | cons name out ih =>
      cases t with
      | file content => cases h
      | folder entries =>
          obtain ⟨hname, child, hchild, h⟩ := at?_cons h
          rw [List.cons_append, walk, hname, hchild]
          exact ih h

/-- Writing below a folder writes in the tree of that folder. -/
theorem at?_put {t s : FileTree} {out : List String} (h : t.at? out = some s) (text : String)
    (path : List String) : (t.put text (out ++ path)).at? out = some (s.put text path) := by
  induction out generalizing t with
  | nil =>
      obtain rfl := Option.some.inj h
      rfl
  | cons name out ih =>
      cases t with
      | file content => cases h
      | folder entries =>
          obtain ⟨hname, child, hchild, h⟩ := at?_cons h
          rw [List.cons_append, put, hchild, at?, hname, lookup_insertEntry, if_pos rfl]
          exact ih h

/-- Writing below a folder changes nothing anywhere else. -/
theorem walk_put_elsewhere {t s : FileTree} {out : List String} (h : t.at? out = some s)
    (text : String) (path : List String) {other : List String} (hother : ¬ out <+: other) :
    (t.put text (out ++ path)).walk other = t.walk other := by
  induction out generalizing t other with
  | nil => exact absurd (List.nil_prefix) hother
  | cons name out ih =>
      cases t with
      | file content => cases h
      | folder entries =>
          obtain ⟨-, child, hchild, h⟩ := at?_cons h
          rw [List.cons_append, put, hchild]
          cases other with
          | nil => rfl
          | cons name' other =>
              rw [walk, walk, lookup_insertEntry]
              by_cases hname : name = name'
              · rw [hname, List.cons_prefix_cons] at hother
                rw [if_pos hname, ← hname, hchild]
                simp only [Option.getD_some, ih h fun hout => hother ⟨rfl, hout⟩]
              · rw [if_neg hname]

/-- A file that is written stands at its path, unless another one is in its way. -/
theorem walk_put_self {path : List String} (hshort : ∀ name ∈ path, isLongName name = false)
    {t : FileTree} (hfree : ∀ front, front <+: path → front ≠ path →
      ∀ text, t.walk front ≠ .file text) (text : String) :
    (t.put text path).walk path = .file text := by
  induction path generalizing t with
  | nil => rfl
  | cons name path ih =>
      obtain ⟨hname, hshort⟩ := List.forall_mem_cons.mp hshort
      cases t with
      | file content => exact absurd rfl (hfree [] List.nil_prefix (by simp) content)
      | folder entries =>
          rw [put, walk, hname, lookup_insertEntry, if_pos rfl]
          refine ih hshort fun front hfront hne content => ?_
          have hchild := hfree (name :: front) (List.cons_prefix_cons.mpr ⟨rfl, hfront⟩)
            (by simpa using hne) content
          rw [walk, hname] at hchild
          cases hlookup : entries.lookup name with
          | none => exact walk_empty front content
          | some child => simpa [hlookup] using hchild

/-- Other files stay. -/
theorem walk_put_other {path other : List String} (hne : ¬ path <+: other) (t : FileTree)
    (text content : String) :
    (t.put text path).walk other = .file content ↔ t.walk other = .file content := by
  induction path generalizing t other with
  | nil => exact absurd List.nil_prefix hne
  | cons name path ih =>
      cases t with
      | file _ => rfl
      | folder entries =>
          cases other with
          | nil => simp [put, walk]
          | cons name' other =>
              rw [put, walk, walk, lookup_insertEntry]
              by_cases hname : name = name'
              · subst hname
                have hrest : ¬ path <+: other := fun h => hne (List.cons_prefix_cons.mpr ⟨rfl, h⟩)
                rw [if_pos rfl]
                split
                · rfl
                · cases hlookup : entries.lookup name with
                  | none => simp [ih hrest, walk_empty]
                  | some child => exact ih hrest child
              · rw [if_neg hname]

theorem walk_append_of_file {t : FileTree} {path rest : List String} {text : String}
    (h : t.walk path = .file text) (hrest : rest ≠ []) : t.walk (path ++ rest) = .blocked := by
  induction path generalizing t with
  | nil =>
      cases t with
      | file _ =>
          obtain ⟨name, rest, rfl⟩ := List.exists_cons_of_ne_nil hrest
          rfl
      | folder _ => cases h
  | cons name path ih =>
      cases t with
      | file _ => cases h
      | folder entries =>
          rw [List.cons_append, walk]
          rw [walk] at h
          split at h
          · cases h
          · rename_i hname
            rw [if_neg hname]
            cases hlookup : entries.lookup name with
            | none => simp [hlookup] at h
            | some child =>
                rw [hlookup] at h
                exact ih h

/-- Paths none of which leads through another one. -/
def Apart (path other : List String) : Prop :=
  ¬ path <+: other ∧ ¬ other <+: path

/-- Files written to an empty folder are there, and no others. -/
theorem walk_putAll {files : List (List String × String)}
    (happart : files.Pairwise fun file other => Apart file.1 other.1)
    (hshort : ∀ file ∈ files, ∀ name ∈ file.1, isLongName name = false) (path : List String)
    (text : String) : ((folder []).putAll files).walk path = .file text ↔ (path, text) ∈ files := by
  induction files using List.reverseRecOn generalizing path text with
  | nil => simp [putAll, walk_empty]
  | append_singleton files file ih =>
      rw [List.pairwise_append] at happart
      obtain ⟨happart, -, hlast⟩ := happart
      have ih := ih happart fun file hfile => hshort file (List.mem_append_left _ hfile)
      have hlast : ∀ other ∈ files, Apart other.1 file.1 := fun other hother =>
        hlast other hother file (List.mem_singleton_self _)
      have hself := walk_put_self (hshort file (by simp)) (t := (folder []).putAll files)
        (fun front hfront _ content hwalk => (hlast _ ((ih front content).mp hwalk)).1 hfront)
        file.2
      have hput : (folder []).putAll (files ++ [file]) =
          ((folder []).putAll files).put file.2 file.1 := by
        rw [putAll, List.foldl_append]
        rfl
      rw [hput, List.mem_append, List.mem_singleton]
      by_cases hthrough : file.1 <+: path
      · -- Nothing but the file itself stands on the ways that lead through it.
        have hold : (path, text) ∉ files := fun hmem => (hlast _ hmem).2 hthrough
        obtain ⟨rest, rfl⟩ := hthrough
        by_cases hrest : rest = []
        · subst hrest
          rw [List.append_nil] at hold ⊢
          rw [hself, or_iff_right hold, Standing.file.injEq, Prod.ext_iff]
          simp [eq_comm]
        · rw [walk_append_of_file hself hrest, or_iff_right hold]
          simp [Prod.ext_iff, hrest]
      · have hne : (path, text) ≠ file := by
          rintro rfl
          exact hthrough List.prefix_rfl
        rw [walk_put_other hthrough, ih, or_iff_left hne]

theorem at?_putAll {t s : FileTree} {out : List String} (h : t.at? out = some s)
    (files : List (List String × String)) :
    (t.putAll (files.map fun file => (out ++ file.1, file.2))).at? out = some (s.putAll files) := by
  induction files generalizing t s with
  | nil => exact h
  | cons file files ih => exact ih (at?_put h file.2 file.1)

theorem walk_putAll_elsewhere {t s : FileTree} {out : List String} (h : t.at? out = some s)
    (files : List (List String × String)) {other : List String} (hother : ¬ out <+: other) :
    (t.putAll (files.map fun file => (out ++ file.1, file.2))).walk other = t.walk other := by
  induction files generalizing t s with
  | nil => rfl
  | cons file files ih =>
      exact (ih (at?_put h file.2 file.1)).trans (walk_put_elsewhere h file.2 file.1 hother)

end FileTree

theorem components_injective : Function.Injective components := by
  intro path other h
  have hjoined := congrArg (fun ls : List String => ['/'].intercalate (ls.map String.toList)) h
  simpa [components, Function.comp_def, String.toList_inj] using hjoined

/-- Where a file can be written, each name on its way is short enough to be looked up. -/
theorem Entry.fits {output : Entry} {path : String} (h : output.refusal? path = none) :
    ∀ name ∈ components path, isLongName name = false := by
  rw [Entry.refusal?] at h
  split at h
  · cases h
  · split at h
    · cases h
    · split at h
      · cases h
      · rename_i hlong
        simp only [Bool.or_eq_true, List.any_append, not_or, Bool.not_eq_true,
          List.any_eq_false] at hlong
        exact hlong.1.2

end CommandLine

/-! ## Generated files -/

/-- No two generated files are in each other's way. -/
theorem Run.generate_apart {r : Run} {doc : Json} {files : Files} (hnone : r.fallback = none)
    (h : r.generate (.document doc) = .ok files) :
    files.Pairwise fun file other =>
      CommandLine.FileTree.Apart (CommandLine.components file.1)
        (CommandLine.components other.1) := by
  obtain ⟨language, -, hvalidate, -⟩ := Run.generate_underBanner hnone h
  have hrecords := Run.records_of_validate hnone hvalidate
  obtain ⟨language, g, a, hvalidate, hload, ha, hemit⟩ := Run.generate_ok hrecords h
  obtain ⟨_, hconfig, -⟩ := bind_eq_ok.mp hvalidate
  cases language with
  | python =>
      obtain ⟨body, -, hemit⟩ := bind_eq_ok.mp hemit
      obtain ⟨-, hfiles⟩ := guard_eq_ok.mp hemit
      rw [← Except.ok.inj hfiles]
      exact List.pairwise_singleton _ _
  | java =>
      obtain ⟨us, hus, hfiles⟩ := bind_eq_ok.mp hemit
      have hdescribes := analyze_describes (Document.load_linked hload) ha
      have hlayout := Java.units_layout hdescribes hconfig hus
      have hlength : ∀ e ∈ us, (CommandLine.components e.1).length =
          (Java.packageFolders r.config).length + 1 := by
        intro e he
        obtain ⟨top, -, hsteps, -⟩ := hlayout.paths e he
        have hsteps : CommandLine.components e.1 = _ := hsteps
        rw [hsteps, List.length_append, List.length_singleton]
      rw [← Except.ok.inj hfiles, List.pairwise_map]
      refine (List.pairwise_map.mp hlayout.apart).imp_of_mem fun {e e'} he he' hne => ?_
      have hsame := (hlength e he).trans (hlength e' he').symm
      exact ⟨fun hfront => hne (CommandLine.components_injective (hfront.eq_of_length hsame)),
        fun hfront => hne (CommandLine.components_injective (hfront.eq_of_length hsame.symm)).symm⟩

namespace CommandLine

/-! ## What a run leaves -/

namespace Workplace

/-- Writes files below a folder. -/
def write (w : Workplace) (folder : String) (files : Files) : FileTree :=
  w.root.putAll (files.map fun file => ((w.look folder).path ++ components file.1, file.2))

/-- The tree of files after a run. -/
def after (w : Workplace) : Outcome → FileTree
  | .written folder files => w.write folder files
  | .stopped folder files _ => w.write folder files
  | .help | .usage | .failed _ | .crashed _ => w.root

/-- Files stand below a folder, with no others among them, and around it nothing has changed. -/
structure Holds (w : Workplace) (t : FileTree) (folder : String) (files : Files) : Prop where
  below : ∀ path text, t.walk ((w.look folder).path ++ path) = .file text ↔
    ∃ file ∈ files, components file.1 = path ∧ file.2 = text
  around : ∀ path, ¬ (w.look folder).path <+: path → t.walk path = w.root.walk path

/-- Files that fit below an empty folder are all that is written. -/
theorem write_holds (w : Workplace) {folder : String} {files : Files}
    (hempty : w.root.at? (w.look folder).path = some (.folder []))
    (happart : files.Pairwise fun file other =>
      FileTree.Apart (components file.1) (components other.1))
    (hfits : ∀ file ∈ files, (w.look folder).refusal? file.1 = none) :
    w.Holds (w.write folder files) folder files := by
  have hwrite : w.write folder files = w.root.putAll ((files.map fun file =>
      (components file.1, file.2)).map fun file => ((w.look folder).path ++ file.1, file.2)) := by
    rw [write, List.map_map]
    rfl
  refine ⟨fun path text => ?_, fun path hpath => ?_⟩
  · have hshort : ∀ file ∈ files.map fun file => (components file.1, file.2),
        ∀ name ∈ file.1, isLongName name = false := by
      intro file hfile
      obtain ⟨file, hmem, rfl⟩ := List.mem_map.mp hfile
      exact Entry.fits (hfits file hmem)
    rw [hwrite, FileTree.walk_of_at? (FileTree.at?_putAll hempty _),
      FileTree.walk_putAll (List.pairwise_map.mpr happart) hshort, List.mem_map]
    simp only [Prod.mk.injEq]
  · rw [hwrite, FileTree.walk_putAll_elsewhere hempty _ hpath]

end Workplace

/-! ## Refusals

Whatever keeps a run from its files, it ends with an outcome that writes nothing. -/

/-- Nothing is written. -/
def Outcome.isSilent : Outcome → Bool
  | .help | .usage | .failed _ | .crashed _ => true
  | .written .. | .stopped .. => false

/-- A run that ends well has shown its command line or written files. -/
theorem Outcome.exitCode_eq_zero {outcome : Outcome} (h : outcome.exitCode = 0) :
    outcome = .help ∨ ∃ folder files, outcome = .written folder files := by
  cases outcome with
  | help => exact Or.inl rfl
  | written folder files => exact Or.inr ⟨folder, files, rfl⟩
  | usage => exact absurd h (by simp [exitCode])
  | failed _ => exact absurd h (by simp [exitCode])
  | crashed _ => exact absurd h (by simp [exitCode])
  | stopped _ _ _ => exact absurd h (by simp [exitCode])

theorem Workplace.after_of_isSilent (w : Workplace) {outcome : Outcome}
    (h : outcome.isSilent = true) : w.after outcome = w.root := by
  cases outcome with
  | help | usage | failed _ | crashed _ => rfl
  | written _ _ | stopped _ _ _ => cases h

theorem Outcome.isSilent_ofFault (e : Fault) : (Outcome.ofFault e).isSilent = true := by
  cases e with
  | config e => rfl
  | schema e =>
      rw [ofFault]
      split <;> rfl
  | target e =>
      rw [ofFault]
      split <;> rfl

/-- Where a step fails, nothing is written. -/
def FailsSilently {α : Type} (x : Except Outcome α) : Prop :=
  ∀ outcome, x = .error outcome → outcome.isSilent = true

namespace FailsSilently

variable {α β : Type}

theorem ok (a : α) : FailsSilently (.ok a) := fun _ h => by cases h

theorem error {outcome : Outcome} (h : outcome.isSilent = true) :
    FailsSilently (.error outcome : Except Outcome α) := fun _ he => Except.error.inj he ▸ h

theorem bind {x : Except Outcome α} {f : α → Except Outcome β} (hx : FailsSilently x)
    (hf : ∀ a, FailsSilently (f a)) : FailsSilently (x >>= f) := by
  intro outcome h
  rcases bind_eq_error.mp h with h | ⟨a, -, h⟩
  · exact hx outcome h
  · exact hf a outcome h

theorem ite {p : Prop} [Decidable p] {x y : Except Outcome α} (hx : FailsSilently x)
    (hy : FailsSilently y) : FailsSilently (if p then x else y) := by
  split
  · exact hx
  · exact hy

theorem forM {f : α → Except Outcome Unit} (hf : ∀ a, FailsSilently (f a)) (xs : List α) :
    FailsSilently (xs.forM f) := by
  intro outcome h
  obtain ⟨a, -, h⟩ := forM_eq_error h
  exact hf a outcome h

end FailsSilently

section

variable (look : Surroundings)

theorem checkInput_silent (path : String) : FailsSilently (checkInput look path) :=
  .ite (.error rfl) (.ite (.ok _) (.error rfl))

theorem checkOutput_silent (path : String) : FailsSilently (checkOutput look path) :=
  .ite (.error rfl) (.ite (.error rfl) (.ok _))

theorem Words.checkOption_silent (o : Words) (key : Key) :
    FailsSilently (o.checkOption look key) := by
  rw [Words.checkOption.eq_def]
  split
  · exact .forM (checkInput_silent look) _
  · exact .ite (.ok _) (.error rfl)
  · exact .ok _

theorem Invocation.ofWords_silent (o : Words) : FailsSilently (Invocation.ofWords look o) := by
  refine .bind (.forM (fun _ => o.checkOption_silent look _) _) fun _ => ?_
  split
  · refine .bind (checkInput_silent look _) fun _ => ?_
    split
    · exact .error rfl
    · refine .bind (checkOutput_silent look _) fun _ => ?_
      exact .ite (.error rfl) (.ok _)
  · exact .error rfl

theorem Invocation.readJson_silent (path : String) :
    FailsSilently (Invocation.readJson look path) := by
  rw [Invocation.readJson]
  split
  · split
    · exact .ok _
    · exact .error rfl
    · exact .error rfl
    · exact .error rfl
  · exact .error rfl

theorem Invocation.prepare_silent (i : Invocation) : FailsSilently (i.prepare look) := by
  refine .bind (readJson_silent look _) fun schema => .bind ?_ fun config => .ok _
  rw [readConfig]
  split
  · exact .ok _
  · refine .bind (readJson_silent look _) fun v => ?_
    split
    · exact .ok _
    · exact .error rfl
    · exact .error rfl

end

/-! ## Reading a command line -/

/-- What a command line asks for: its options, a language, the schema, the configuration of a file
and the folder to write to. -/
structure Request where
  options : Words
  language : Language
  schema : Json
  config : Config
  output : String

namespace Request

/-- Options put over the configuration of the file. Flags can only switch on, and values that are
given replace those configured. -/
def merged (q : Request) : Config :=
  { q.config with
    withers := q.config.withers || q.options.has .withers
    builder := q.config.builder || q.options.has .builderMark
    nullabilityMarker := q.options.value? .nullabilityMarker <|> q.config.nullabilityMarker
    javaPackage := (q.options.value? .package).getD q.config.javaPackage }

/-- The run asked for, under a command line that its banner shows. -/
def toRun (q : Request) (commandLine : String) : Run :=
  { config := q.merged, language := q.language.text, commandLine }

theorem language_eq {q : Request} {commandLine : String} {language : Language}
    (h : (q.toRun commandLine).validate = .ok language) : language = q.language := by
  have hread : Language.ofText? q.language.text = some q.language := by
    cases q.language <;> rfl
  obtain ⟨_, -, h⟩ := bind_eq_ok.mp h
  simp only [toRun, hread] at h
  exact (Except.ok.inj (guard_eq_ok.mp h).2).symm

/-- The files of a request, which differ in their banner from one command line to another. -/
theorem generate_underBanner {q : Request} {commandLine : String} {doc : Json} {files : Files}
    (h : (q.toRun commandLine).generate (.document doc) = .ok files) : ∃ bodies : Files,
      files = bodies.underBanner ((q.toRun commandLine).banner q.language) ∧
      ∀ other, (q.toRun other).generate (.document doc) =
        .ok (bodies.underBanner ((q.toRun other).banner q.language)) := by
  obtain ⟨language, bodies, hvalidate, hfiles, hothers⟩ := Run.generate_underBanner rfl h
  obtain rfl := language_eq hvalidate
  exact ⟨bodies, hfiles, hothers⟩

/-- The words are the options, and what they name reads as the rest. -/
structure IsOf (q : Request) (look : Surroundings) (words : List String) : Prop where
  options : Words.read {} .nothing words = some q.options
  language : q.options.language? = some q.language
  schema : ∃ input text, q.options.arguments = [input, q.output] ∧
    (look input).standing = .file text ∧ Json.read text = .ok q.schema
  config : (q.options.value? .config = none ∧ q.config = {}) ∨
    ∃ path text v, q.options.value? .config = some path ∧ (look path).standing = .file text ∧
      Json.read text = .ok v ∧ Config.ofJson v = .ok q.config

end Request

/-! ## Running -/

/-- Words completed by a language and two arguments. -/
def Words.toInvocation (o : Words) (language : Language) (path output : String) : Invocation :=
  { language, path, output
    config := o.value? .config
    withers := o.has .withers
    builder := o.has .builderMark
    marker := o.value? .nullabilityMarker
    package := o.value? .package
    verbose := o.has .verbose }

theorem Invocation.ofWords_ok {look : Surroundings} {o : Words} {i : Invocation}
    (h : Invocation.ofWords look o = .ok i) : ∃ language input output,
      o.language? = some language ∧ o.arguments = [input, output] ∧
      i = o.toInvocation language input output := by
  obtain ⟨⟨⟩, -, h⟩ := bind_eq_ok.mp h
  split at h
  · rename_i language path others hlanguage harguments
    obtain ⟨⟨⟩, -, h⟩ := bind_eq_ok.mp h
    split at h
    · cases h
    · rename_i output more _
      obtain ⟨⟨⟩, -, h⟩ := bind_eq_ok.mp h
      obtain ⟨hmore, h⟩ := guard_eq_ok.mp h
      obtain rfl : more = [] := by simpa using hmore
      exact ⟨language, path, output, hlanguage, harguments, (Except.ok.inj h).symm⟩
  · cases h

theorem Invocation.readJson_ok {look : Surroundings} {path : String} {v : Json}
    (h : Invocation.readJson look path = .ok v) :
    ∃ text, (look path).standing = .file text ∧ Json.read text = .ok v := by
  rw [readJson] at h
  split at h
  · rename_i text htext
    split at h
    · rename_i v' hread
      obtain rfl := Except.ok.inj h
      exact ⟨text, htext, hread⟩
    · cases h
    · cases h
    · cases h
  · cases h

theorem Invocation.prepare_ok {look : Surroundings} {i : Invocation} {r : Run} {schema : Json}
    (h : i.prepare look = .ok (r, schema)) : ∃ c,
      (∃ text, (look i.path).standing = .file text ∧ Json.read text = .ok schema) ∧
      ((i.config = none ∧ c = {}) ∨ ∃ path text v, i.config = some path ∧
        (look path).standing = .file text ∧ Json.read text = .ok v ∧ Config.ofJson v = .ok c) ∧
      r = { config := i.override c
            language := i.language.text
            commandLine := i.standardForm look } := by
  obtain ⟨schema', hschema, h⟩ := bind_eq_ok.mp h
  obtain ⟨c, hconfig, h⟩ := bind_eq_ok.mp h
  obtain ⟨rfl, rfl⟩ := Prod.mk.inj (Except.ok.inj h)
  refine ⟨c, readJson_ok hschema, ?_, rfl⟩
  rw [readConfig] at hconfig
  split at hconfig
  · rename_i hnone
    exact Or.inl ⟨hnone, (Except.ok.inj hconfig).symm⟩
  · rename_i path hsome
    obtain ⟨v, hv, hconfig⟩ := bind_eq_ok.mp hconfig
    obtain ⟨text, htext, hread⟩ := readJson_ok hv
    split at hconfig
    · rename_i c' hc
      obtain rfl := Except.ok.inj hconfig
      exact Or.inr ⟨path, text, v, hsome, htext, hread, hc⟩
    · cases hconfig
    · cases hconfig

/-- A command line writes nothing, or it asks for a run that generates files and goes on to write
these. -/
theorem run_cases (look : Surroundings) (words : List String) :
    (run look words).isSilent = true ∨ ∃ q : Request, q.IsOf look words ∧ ∃ commandLine files,
      (q.toRun commandLine).generate (.document q.schema) = .ok files ∧
      run look words = .ofFiles look q.output files := by
  rw [run]
  cases hread : Words.read {} .nothing words with
  | none => exact Or.inl rfl
  | some o =>
      simp only
      split
      · exact Or.inl rfl
      · cases hwords : Invocation.ofWords look o with
        | error outcome => exact Or.inl (Invocation.ofWords_silent look o outcome hwords)
        | ok i =>
            simp only [Invocation.run]
            cases hprepare : i.prepare look with
            | error outcome => exact Or.inl (i.prepare_silent look outcome hprepare)
            | ok prepared =>
                obtain ⟨r, schema⟩ := prepared
                obtain ⟨language, input, output, hlanguage, harguments, rfl⟩ :=
                  Invocation.ofWords_ok hwords
                obtain ⟨c, ⟨text, htext, hschema⟩, hconfig, rfl⟩ := Invocation.prepare_ok hprepare
                simp only
                split
                · split
                  · exact Or.inl rfl
                  · exact Or.inl (Outcome.isSilent_ofFault _)
                · split
                  · rename_i files hfiles
                    let q : Request := ⟨o, language, schema, c, output⟩
                    exact Or.inr ⟨q, ⟨hread, hlanguage, ⟨input, text, harguments, htext, hschema⟩,
                      hconfig⟩, _, files, hfiles, rfl⟩
                  · exact Or.inl (Outcome.isSilent_ofFault _)

/-! ## Writing one file after the other -/

/-- The file fits below the folder and has an encoding. -/
def Entry.Takes (output : Entry) (file : String × String) : Prop :=
  output.refusal? file.1 = none ∧ Text.isEncodable file.2 = true

/-- How far files are written below a folder: all of them, or those before one that does not fit, or
those before one without an encoding, which is left empty. -/
inductive Entry.Writes (output : Entry) : Files → Files → Option Crash → Prop where
  | all {files : Files} (h : ∀ file ∈ files, output.Takes file) : output.Writes files files none
  | unfit {before rest : Files} {file : String × String} {c : Crash}
      (h : ∀ file ∈ before, output.Takes file) (hrefused : output.refusal? file.1 = some c) :
      output.Writes (before ++ file :: rest) before (some c)
  | unencodable {before rest : Files} {file : String × String}
      (h : ∀ file ∈ before, output.Takes file) (hfits : output.refusal? file.1 = none)
      (hlone : Text.isEncodable file.2 = false) :
      output.Writes (before ++ file :: rest) (before ++ [(file.1, "")]) (some .unencodable)

/-- A file that is written comes before whatever else is. -/
theorem Entry.Writes.cons {output : Entry} {files shown : Files} {c : Option Crash}
    {file : String × String} (hfile : output.Takes file) (h : output.Writes files shown c) :
    output.Writes (file :: files) (file :: shown) c := by
  cases h with
  | all h => exact .all (List.forall_mem_cons.mpr ⟨hfile, h⟩)
  | unfit h hrefused => exact .unfit (List.forall_mem_cons.mpr ⟨hfile, h⟩) hrefused
  | unencodable h hfits hlone =>
      exact .unencodable (List.forall_mem_cons.mpr ⟨hfile, h⟩) hfits hlone

theorem Entry.writeThrough_writes (output : Entry) (files : Files) :
    output.Writes files (output.writeThrough files).1 (output.writeThrough files).2 := by
  induction files with
  | nil => exact .all (by simp)
  | cons file files ih =>
      rw [writeThrough]
      cases hrefused : output.refusal? file.1 with
      | some c => exact .unfit (List.forall_mem_nil _) hrefused
      | none =>
          cases hlone : Text.isEncodable file.2 with
          | false => exact .unencodable (List.forall_mem_nil _) hrefused hlone
          | true => exact ih.cons ⟨hrefused, hlone⟩

/-- Files are written to the last, or up to one that does not fit or has no encoding. -/
theorem Outcome.ofFiles_cases (look : Surroundings) (folder : String) (files : Files) :
    (Outcome.ofFiles look folder files = .written folder files ∧
      ∀ file ∈ files, (look folder).Takes file) ∨
    ∃ shown c, Outcome.ofFiles look folder files = .stopped folder shown c ∧
      (look folder).Writes files shown (some c) := by
  have hwrites := (look folder).writeThrough_writes files
  rw [Outcome.ofFiles]
  cases h : (look folder).writeThrough files with
  | mk shown c =>
      rw [h] at hwrites
      cases c with
      | some c => exact Or.inr ⟨shown, c, rfl, hwrites⟩
      | none =>
          cases hwrites with
          | all htakes => exact Or.inl ⟨rfl, htakes⟩

/-- Nothing but the schema or the configuration can keep a request from its files: no word is lost
at a null character or too long to be looked up, and no file stands in place of the output. -/
structure Request.InReach (q : Request) (look : Surroundings) : Prop where
  plain : ∀ path ∈ q.options.arguments ++ (q.options.value? .config).toList, holdsNull path = false
  short : ∀ word ∈ q.options.lookedUp, (look word).isTooLong = false
  output : (look q.output).isFile = false

section

variable {look : Surroundings} {words : List String} {q : Request}

theorem checkInput_ok {path text : String} (hplain : holdsNull path = false)
    (h : (look path).standing = .file text) : checkInput look path = .ok () := by
  simp [checkInput, hplain, Entry.stands, h]

theorem Request.InReach.checkOptions_ok (hreach : q.InReach look) (hq : q.IsOf look words) :
    q.options.checkOptions look = .ok () := by
  refine forM_eq_ok.mpr fun o _ => ?_
  rw [Words.checkOption.eq_def]
  split
  · refine forM_eq_ok.mpr fun path hpath => ?_
    have hsome := Option.mem_toList.mp hpath
    rcases hq.config with ⟨hnone, -⟩ | ⟨path', text, -, hpath', htext, -⟩
    · cases hnone.symm.trans hsome
    · obtain rfl := Option.some.inj (hpath'.symm.trans hsome)
      exact checkInput_ok (hreach.plain path' (List.mem_append_right _ hpath)) htext
  · rw [hq.language]
    rfl
  · rfl

/-- A request within reach is made into an invocation and read. -/
theorem Request.InReach.prepared (hreach : q.InReach look) (hq : q.IsOf look words) :
    ∃ i : Invocation, Invocation.ofWords look q.options = .ok i ∧ i.output = q.output ∧
      i.hasLongWord look = false ∧
      i.prepare look = .ok (q.toRun (i.standardForm look), q.schema) := by
  obtain ⟨input, text, harguments, htext, hschema⟩ := hq.schema
  have hplain : holdsNull input = false ∧ holdsNull q.output = false :=
    ⟨hreach.plain _ (by simp [harguments]), hreach.plain _ (by simp [harguments])⟩
  have hreadJson : ∀ {path text v}, (look path).standing = .file text → Json.read text = .ok v →
      Invocation.readJson look path = .ok v := by
    intro path text v htext hread
    rw [Invocation.readJson, htext]
    simp only [hread]
  refine ⟨q.options.toInvocation q.language input q.output, ?_, rfl, ?_, ?_⟩
  · rw [Invocation.ofWords, hreach.checkOptions_ok hq, ok_bind, hq.language, harguments]
    simp only [checkInput_ok hplain.1 htext, checkOutput, hplain.2, hreach.output, ok_bind,
      Bool.false_eq_true, if_false, List.isEmpty_nil, Bool.not_true]
    rfl
  · have hshort := hreach.short
    rw [Words.lookedUp, harguments] at hshort
    exact List.any_eq_false.mpr fun word hword => by simp [hshort word hword]
  · have hconfig : (q.options.toInvocation q.language input q.output).readConfig look =
        .ok q.config := by
      rcases hq.config with ⟨hnone, hdefault⟩ | ⟨path, text, v, hsome, htext, hread, hc⟩
      · simp only [Invocation.readConfig, Words.toInvocation, hnone, hdefault]
      · simp only [Invocation.readConfig, Words.toInvocation, hsome, hreadJson htext hread, ok_bind,
          hc]
        rfl
    have hread : Invocation.readJson look input = .ok q.schema := hreadJson htext hschema
    rw [Invocation.prepare, show (q.options.toInvocation q.language input q.output).path = input
      from rfl, hread, ok_bind, hconfig, ok_bind]
    rfl

/-- A request within reach whose files fit is carried out exactly if they all have encodings. -/
theorem Request.InReach.exitCode_eq_zero_iff (hreach : q.InReach look) (hq : q.IsOf look words)
    (hhelp : run look words ≠ .help) {commandLine : String} {files : Files}
    (h : (q.toRun commandLine).generate (.document q.schema) = .ok files)
    (hfits : ∀ file ∈ files, (look q.output).refusal? file.1 = none) :
    ∃ shown files', (q.toRun shown).generate (.document q.schema) = .ok files' ∧
      ((run look words).exitCode = 0 ↔ ∀ file ∈ files', Text.isEncodable file.2 = true) := by
  obtain ⟨i, hwords, houtput, hshort, hprepare⟩ := hreach.prepared hq
  obtain ⟨bodies, rfl, hothers⟩ := q.generate_underBanner h
  have hshown : q.options.has .help = false := by
    by_contra hshown
    refine hhelp ?_
    rw [run, hq.options]
    simp only [Bool.not_eq_false] at hshown
    simp only [hshown, if_true]
  let shown := i.standardForm look
  have hrun : run look words = .ofFiles look q.output
      (bodies.underBanner ((q.toRun shown).banner q.language)) := by
    rw [run, hq.options]
    simp only [hshown, Bool.false_eq_true, if_false, hwords, Invocation.run, hprepare, hshort,
      Bool.and_false, hothers, houtput, shown]
  refine ⟨shown, _, hothers shown, ?_⟩
  rw [hrun]
  rcases Outcome.ofFiles_cases look q.output
      (bodies.underBanner ((q.toRun shown).banner q.language)) with
    ⟨hwritten, htakes⟩ | ⟨files, c, hstopped, hwrites⟩
  · rw [hwritten]
    exact iff_of_true rfl fun file hfile => (htakes file hfile).2
  · rw [hstopped]
    refine iff_of_false (by simp [Outcome.exitCode]) fun hall => ?_
    -- Whether a file fits is told by its path, which no banner changes.
    have hfitting : ∀ file ∈ bodies.underBanner ((q.toRun shown).banner q.language),
        (look q.output).refusal? file.1 = none := by
      intro file hfile
      obtain ⟨body, hbody, rfl⟩ := List.mem_map.mp hfile
      have hfit := hfits _ (List.mem_map_of_mem hbody)
      exact hfit
    generalize bodies.underBanner ((q.toRun shown).banner q.language) = written at *
    cases hwrites with
    | unfit _ hrefused => cases (hfitting _ (by simp)).symm.trans hrefused
    | unencodable _ _ hlone => cases (hall _ (by simp)).symm.trans hlone

end

/-- A schema, an empty folder, and a configuration with a marker that is none. -/
def Workplace.mended : Workplace where
  root := .folder [("work", .folder [
    ("schema.json", .file "\x7b\"modules\": [\x7b\"name\": \"m\"\x7d]\x7d"),
    ("config.json", .file "\x7b\"nullability_marker\": \"x\"\x7d"),
    ("out", .folder [])])]
  here := ["work"]

/-- A schema of two modules, the second with a lone surrogate in its text, and an empty folder. -/
def Workplace.lone : Workplace where
  root := .folder [("work", .folder [
    ("schema.json", .file ("\x7b\"modules\": [\x7b\"name\": \"a\"\x7d, " ++
      "\x7b\"name\": \"b\", \"doc\": \"\\ud800\"\x7d]\x7d")),
    ("config.json", .file "\x7b\"add_generation_comment\": false\x7d"),
    ("out", .folder [])])]
  here := ["work"]

end CommandLine

end RecordGen

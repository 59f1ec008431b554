import RecordGen.Proofs.Backends
import RecordGen.Proofs.Memos

/-! # What a session remembers does not show

The objects of a session answer like new ones. Whatever was done before, with steps that failed
among it, every memo entry is what would be computed anew, and a step uses nothing else of what was
left behind. -/

namespace RecordGen

open Fallible ClassGraph

namespace Session

variable {graphs : List ClassGraph} {s : Session} {l : Loaded}

/-! ## Sound sessions -/

/-- Everything remembered is what it would be computed to be; `graphs` holds the graph of every
load. -/
structure Sound (graphs : List ClassGraph) (s : Session) : Prop where
  loaded : ∀ name l, s.graphs.find? name = some l → graphs[l.id]? = some l.graph
  loads : s.loads = graphs.length
  current : ∀ m, s.current = some m → ∃ g, graphs[m.id]? = some g ∧
    m.names = Naming.ofGraph s.config.interfacePrefix g ∧
    ∀ c r, m.resolved.find? c = some r → g.resolveClass m.names c = .ok r
  flattened : SoundFlattenings graphs s.flattened

/-- The session with new objects: what was loaded and the last result stay, all else that was
computed is forgotten. -/
def fresh (s : Session) : Session :=
  { s with current := none, flattened := ∅, java := {}, python := {} }

theorem Sound.fresh (h : s.Sound graphs) : s.fresh.Sound graphs where
  loaded := h.loaded
  loads := h.loads
  current := by simp [Session.fresh]
  flattened := by simp [Session.fresh, SoundFlattenings]

theorem sound_new (config : Config) (workers : Option Int) :
    ({ config, workers } : Session).Sound [] where
  loaded := by
    intro name l h
    cases h
  loads := rfl
  current := by simp
  flattened := by
    intro id c ps h
    cases h

/-- A function of a session gives an answer that does not depend on what is remembered, and what it
leaves differs from a known session in nothing but what it remembers. -/
structure Computes {α : Type} (graphs : List ClassGraph) (result : α × Session) (answer : α)
    (after : Session) : Prop where
  answer : result.1 = answer
  rest : result.2.fresh = after.fresh
  sound : result.2.Sound graphs

/-! ## Resolving -/

theorem memory_eq (s : Session) (l : Loaded) :
    (∃ m, s.current = some m ∧ m.id = l.id ∧ s.memory l = m) ∨
      s.memory l = { id := l.id, names := Naming.ofGraph s.config.interfacePrefix l.graph } := by
  rw [Session.memory]
  split
  · rename_i m hm
    by_cases hid : m.id = l.id
    · exact Or.inl ⟨m, hm, hid, if_pos hid⟩
    · exact Or.inr (if_neg hid)
  · exact Or.inr rfl

/-- What is remembered of a graph belongs to it. -/
theorem Sound.memory (h : s.Sound graphs) (hl : graphs[l.id]? = some l.graph) :
    (s.memory l).id = l.id ∧
      (s.memory l).names = Naming.ofGraph s.config.interfacePrefix l.graph ∧
      Memos.Sound graphs l (s.memory l).names ⟨(s.memory l).resolved, s.flattened⟩ := by
  rcases s.memory_eq l with ⟨m, hcurrent, hid, hmemory⟩ | hmemory <;> rw [hmemory]
  · obtain ⟨g, hg, hnames, hresolved⟩ := h.current m hcurrent
    rw [hid, hl] at hg
    obtain rfl := Option.some.inj hg
    exact ⟨hid, hnames, hresolved, h.flattened⟩
  · exact ⟨rfl, rfl, by simp, h.flattened⟩

theorem resolve_computes (hs : s.Sound graphs) (hl : graphs[l.id]? = some l.graph)
    (workers : Option Int) (schedule : Schedule) :
    Computes graphs (s.resolve l workers schedule)
      (l.graph.resolve s.config.interfacePrefix workers) s := by
  rw [Session.resolve]
  cases horder : l.graph.ancestryOrder with
  | error e => exact ⟨by simp [ClassGraph.resolve, horder], rfl, hs⟩
  | ok order =>
      cases hrefs : l.graph.checkReferences with
      | error e => exact ⟨by simp [ClassGraph.resolve, horder, hrefs], rfl, hs⟩
      | ok _ =>
          obtain ⟨hid, hnames, hm⟩ := hs.memory hl
          obtain ⟨hfirst, -⟩ := ancestryOrder_ok horder
          have hwalk := resolve_walk hl hm hfirst workers schedule
          simp only [ok_bind, pure_eq]
          generalize (if workers.any (1 < ·) then resolveTrees l (s.memory l).names
            (schedule.take (l.graph.trees order)) (l.graph.trees order)
              ⟨(s.memory l).resolved, s.flattened⟩
            else resolveList l (s.memory l).names order ⟨(s.memory l).resolved, s.flattened⟩) =
              result at hwalk ⊢
          obtain ⟨outcome, after⟩ := result
          simp only
          refine ⟨?_, rfl, hs.loaded, hs.loads, ?_, hwalk.sound.flattened⟩
          · exact (hnames ▸ hwalk).resolve_eq horder hrefs
          · rintro m hm
            obtain rfl := Option.some.inj hm
            exact ⟨l.graph, hid ▸ hl, hnames, hwalk.sound.resolved⟩

/-! ## The other functions -/

theorem analyze_computes (hs : s.Sound graphs) (hl : graphs[l.id]? = some l.graph)
    (schedule : Schedule) :
    Computes graphs (s.analyze l schedule) (RecordGen.analyze s.config s.workers l.graph)
      { s with last := (RecordGen.analyze s.config s.workers l.graph).toOption.or s.last } := by
  have hresolve := resolve_computes hs hl s.workers schedule
  rw [Session.analyze]
  generalize s.resolve l s.workers schedule = result at hresolve ⊢
  obtain ⟨resolved, s'⟩ := result
  obtain ⟨rfl, hrest, hsound⟩ := hresolve
  have hconfig : s'.config = s.config := congrArg (·.config) hrest
  have hanalyze : (l.graph.resolve s.config.interfacePrefix s.workers).bind
      (Analysis.describe s'.config l.graph) = RecordGen.analyze s.config s.workers l.graph := by
    rw [hconfig]
    rfl
  simp only [hanalyze]
  cases RecordGen.analyze s.config s.workers l.graph with
  | error e => exact ⟨rfl, hrest, hsound⟩
  | ok a => exact ⟨rfl, congrArg (fun t : Session => { t with last := some a }) hrest,
      hsound.loaded, hsound.loads, hsound.current, hsound.flattened⟩

theorem flatten_computes (hs : s.Sound graphs) (hl : graphs[l.id]? = some l.graph) {c : ClassId}
    {above : List ClassId} (habove : l.graph.Above c above) :
    Computes graphs (s.flatten l c) (l.graph.flatten c) s := by
  obtain ⟨hanswer, hflattened⟩ := flattenClass_spec hl habove hs.flattened
  exact ⟨hanswer, rfl, hs.loaded, hs.loads, hs.current, hflattened⟩

theorem recordComponents_computes (hs : s.Sound graphs) (hl : graphs[l.id]? = some l.graph)
    (c : ClassId) : Computes graphs (s.recordComponents l c) (do
      let rs ← l.graph.resolve s.config.interfacePrefix none
      match (rs.find? (·.source == c)).bind (·.record) with
      | none => .error (.noRecord (l.graph.fullName c))
      | some _ => l.graph.flatten c) s := by
  have hresolve := resolve_computes hs hl none .inOrder
  rw [Session.recordComponents]
  generalize s.resolve l none = result at hresolve ⊢
  obtain ⟨resolved, s'⟩ := result
  obtain ⟨rfl, hrest, hsound⟩ := hresolve
  cases hrs : l.graph.resolve s.config.interfacePrefix none with
  | error e => exact ⟨rfl, hrest, hsound⟩
  | ok rs =>
      simp only [ok_bind]
      cases hfind : rs.find? (·.source == c) with
      | none => exact ⟨rfl, hrest, hsound⟩
      | some r =>
          simp only [Option.bind_some]
          cases r.record with
          | none => exact ⟨rfl, hrest, hsound⟩
          | some _ =>
              have hsource : r.source = c := by simpa using List.find?_some hfind
              obtain ⟨chain, hchain, -⟩ :=
                (resolve_resolved hrs).described r (List.mem_of_find?_eq_some hfind)
              have hflat := flatten_computes hsound hl (hsource ▸ hchain)
              exact ⟨hflat.answer, hflat.rest.trans hrest, hflat.sound⟩

theorem write_computes (hs : s.Sound graphs) (language : Language) (a : Analysis)
    (comment : String) : Computes graphs (s.write language a comment)
      (((RecordGen.emit s.config language a comment).map .files).mapError
        fun e => .run (.target e)) s := by
  cases language with
  | java =>
      refine ⟨?_, rfl, hs.loaded, hs.loads, hs.current, hs.flattened⟩
      simp only [Session.write, Session.emit, RecordGen.emit, Java.Backend.generate_eq]
  | python =>
      refine ⟨?_, rfl, hs.loaded, hs.loads, hs.current, hs.flattened⟩
      simp only [Session.write, Session.emit, RecordGen.emit, Python.Backend.generate_eq]

/-! ## Uses -/

/-- A used session does what the same session with new objects does: it answers alike, and then the
two differ in nothing but what they remember. -/
structure Alike {α : Type} (graphs : List ClassGraph) (used new : α × Session) : Prop where
  answer : used.1 = new.1
  rest : used.2.fresh = new.2.fresh
  sound : used.2.Sound graphs

theorem Computes.alike {α : Type} {used new : α × Session} {answer : α} {after after' : Session}
    (h : Computes graphs used answer after) (h' : Computes graphs new answer after')
    (hafter : after.fresh = after'.fresh) : Alike graphs used new :=
  ⟨h.answer.trans h'.answer.symm, h.rest.trans (hafter.trans h'.rest.symm), h.sound⟩

theorem Alike.map {α β : Type} {used new : α × Session} (h : Alike graphs used new) (f : α → β) :
    Alike graphs (f used.1, used.2) (f new.1, new.2) :=
  ⟨congrArg f h.answer, h.rest, h.sound⟩

theorem Sound.onGraph (hs : s.Sound graphs) {name : String}
    {f f' : Loaded → Except SchemaFault Answer × Session}
    (h : ∀ l, s.graphs.find? name = some l → graphs[l.id]? = some l.graph →
      Alike graphs (f l) (f' l)) :
    Alike graphs (s.onGraph name f) (s.fresh.onGraph name f') := by
  have hgraphs : s.fresh.graphs = s.graphs := rfl
  rw [Session.onGraph, Session.onGraph, hgraphs]
  cases hfind : s.graphs.find? name with
  | none => exact ⟨rfl, rfl, hs⟩
  | some l => exact (h l hfind (hs.loaded name l hfind)).map _

/-- A function that leaves the session alone. -/
theorem Sound.alike_self {α : Type} (hs : s.Sound graphs) (answer : α) :
    Alike graphs (answer, s) (answer, s.fresh) :=
  ⟨rfl, rfl, hs⟩

/-- A use of the objects of a session: one of its steps, with workers that take the trees in some
order, or the writing of a result. -/
inductive Use where
  | step (x : Step) (schedule : Schedule)
  | write (language : Language) (a : Analysis) (comment : String)

def use (s : Session) : Use → Except StepFault Answer × Session
  | .step x schedule => s.step x schedule
  | .write language a comment => s.write language a comment

/-- The answers of uses one after the other. -/
def uses (s : Session) : List Use → List (Except StepFault Answer)
  | [] => []
  | u :: us => (s.use u).1 :: (s.use u).2.uses us

/-- The answers of uses each of which has objects of its own. -/
def freshUses (s : Session) : List Use → List (Except StepFault Answer)
  | [] => []
  | u :: us => (s.fresh.use u).1 :: (s.fresh.use u).2.freshUses us

/-- No graph is changed, and a class that is flattened has a chain. -/
def Admits (s : Session) : Use → Prop
  | .step (.change _ _ _) _ => False
  | .step (.addClass _ _) _ => False
  | .step (.ask name c .flattening) _ =>
    ∀ l, s.graphs.find? name = some l → ∃ above, l.graph.Above c above
  | _ => True

def AdmitsAll (s : Session) : List Use → Prop
  | [] => True
  | u :: us => s.Admits u ∧ (s.use u).2.AdmitsAll us

/-- Asking about a class. -/
theorem Sound.answer_alike (hs : s.Sound graphs) (hl : graphs[l.id]? = some l.graph) {c : ClassId}
    {question : Question}
    (hq : question = .flattening → ∃ above, l.graph.Above c above) :
    Alike graphs (s.answer l c question) (s.fresh.answer l c question) := by
  cases question with
  | flattening =>
      obtain ⟨above, habove⟩ := hq rfl
      exact ((flatten_computes hs hl habove).alike
        (flatten_computes hs.fresh hl habove) rfl).map (Except.map (Answer.properties l.graph))
  | recordComponents =>
      exact ((recordComponents_computes hs hl c).alike
        (recordComponents_computes hs.fresh hl c) rfl).map
          (Except.map fun ps => Answer.propertyNames (ps.map (·.property.name)))
  | declaration => exact hs.alike_self _
  | membersOf => exact hs.alike_self _
  | moduleOf => exact hs.alike_self _
  | ancestors => exact hs.alike_self _
  | lineage => exact hs.alike_self _
  | references => exact hs.alike_self _

theorem Sound.keep (hs : s.Sound graphs) (name : String) (g : ClassGraph) :
    (s.keep name g).Sound (graphs ++ [g]) := by
  have happend : ∀ {id : Nat} {g' : ClassGraph}, graphs[id]? = some g' →
      (graphs ++ [g])[id]? = some g' := fun h => by
    rw [List.getElem?_append_left (List.getElem?_eq_some_iff.mp h).1, h]
  refine ⟨?_, ?_, ?_, ?_⟩
  · intro name' l hl
    rw [Session.keep, Table.find?_insert] at hl
    split at hl
    · obtain rfl := Option.some.inj hl
      simp [hs.loads]
    · exact happend (hs.loaded name' l hl)
  · simp [Session.keep, hs.loads]
  · intro m hm
    obtain ⟨g', hg', h⟩ := hs.current m hm
    exact ⟨g', happend hg', h⟩
  · intro id c ps hfind
    obtain ⟨g', hg', h⟩ := hs.flattened id c ps hfind
    exact ⟨g', happend hg', h⟩

/-- What a session does in a step that changes no graph, it does like one with new objects. -/
theorem Sound.step_alike (hs : s.Sound graphs) {x : Step} {schedule : Schedule}
    (hx : s.Admits (.step x schedule)) :
    ∃ graphs', Alike graphs' (s.step x schedule) (s.fresh.step x schedule) := by
  cases x with
  | load name source =>
      simp only [Session.step]
      cases source.load with
      | error e => exact ⟨graphs, rfl, rfl, hs⟩
      | ok g => exact ⟨graphs ++ [g], rfl, rfl, hs.keep name g⟩
  | resolve name workers =>
      simp only [Session.step]
      refine ⟨graphs, hs.onGraph fun l _ hl => ?_⟩
      exact ((resolve_computes hs hl workers schedule).alike
        (resolve_computes hs.fresh hl workers schedule) rfl).map
          (Except.map (Answer.resolutions l.graph))
  | order name => exact ⟨graphs, hs.onGraph fun _ _ _ => hs.alike_self _⟩
  | analyze name =>
      simp only [Session.step]
      refine ⟨graphs, hs.onGraph fun l _ hl => ?_⟩
      exact ((analyze_computes hs hl schedule).alike
        (analyze_computes hs.fresh hl schedule) rfl).map (Except.map Answer.analysis)
  | names name => exact ⟨graphs, hs.onGraph fun _ _ _ => hs.alike_self _⟩
  | generate language comment =>
      have hlast : s.fresh.last = s.last := rfl
      simp only [Session.step, hlast]
      cases s.last with
      | none => exact ⟨graphs, hs.alike_self _⟩
      | some a => exact ⟨graphs, (write_computes hs language a comment).alike
          (write_computes hs.fresh language a comment) rfl⟩
  | ask name c question =>
      refine ⟨graphs, hs.onGraph fun l hfind hl => hs.answer_alike hl ?_⟩
      rintro rfl
      exact hx l hfind
  | change name c change => exact hx.elim
  | addClass name d => exact hx.elim

theorem Sound.use_alike (hs : s.Sound graphs) {u : Use} (hu : s.Admits u) :
    ∃ graphs', Alike graphs' (s.use u) (s.fresh.use u) := by
  cases u with
  | step x schedule => exact hs.step_alike hu
  | write language a comment => exact ⟨graphs, (write_computes hs language a comment).alike
      (write_computes hs.fresh language a comment) rfl⟩

theorem freshUses_congr {s' : Session} (h : s.fresh = s'.fresh) (us : List Use) :
    s.freshUses us = s'.freshUses us := by
  cases us with
  | nil => rfl
  | cons u us => rw [freshUses, freshUses, h]

theorem Sound.uses_eq_freshUses {us : List Use} (hs : s.Sound graphs) (hus : s.AdmitsAll us) :
    s.uses us = s.freshUses us := by
  induction us generalizing s graphs with
  | nil => rfl
  | cons u us ih =>
      obtain ⟨hu, hrest⟩ := hus
      obtain ⟨graphs', hanswer, hfresh, hsound⟩ := hs.use_alike hu
      rw [uses, freshUses, hanswer, ih hsound hrest, freshUses_congr hfresh]

/-- Memory is transparent: a new session, however it is used on graphs that do not change, gives
every time the answer that new objects would give. -/
theorem memory_transparent (config : Config) (workers : Option Int) {us : List Use}
    (hus : ({ config, workers } : Session).AdmitsAll us) :
    ({ config, workers } : Session).uses us = ({ config, workers } : Session).freshUses us :=
  (sound_new config workers).uses_eq_freshUses hus

end Session

namespace ClassGraph

/-- Two trees whose classes are listed in turn. -/
def woods : ClassGraph where
  decls := [
    { name := "m", isModule := true, moduleName := "m" },
    { name := "Beast", kind := .extensible, moduleName := "m"
      properties := [⟨"name", .primitive "String", false, none⟩] },
    { name := "Stone", kind := .abstract, moduleName := "m"
      properties := [⟨"owners", .collection "List" [.reference "Beast" (some 1)], false, none⟩] },
    { name := "Cat", superclass := some 1, moduleName := "m"
      properties := [⟨"lives", .primitive "Any", true, none⟩] },
    { name := "Gem", superclass := some 2, moduleName := "m" }]
  modules := [0]
  classes := [1, 2, 3, 4, 0]

/-- A class that repeats a property of its superclass. -/
def torn : ClassGraph where
  decls := [
    { name := "m", isModule := true, moduleName := "m" },
    { name := "Leaf", kind := .extensible, moduleName := "m"
      properties := [⟨"size", .primitive "Int", false, none⟩] },
    { name := "Oak", superclass := some 1, moduleName := "m"
      properties := [⟨"size", .primitive "Float", false, none⟩] }]
  modules := [0]
  classes := [0, 1, 2]

end ClassGraph

namespace Session

/-- Uses that switch between graphs, with workers that take the last tree first and with failures
after which the memos are filled in part. -/
def alternating : List Use := [
  .step (.load "woods" (.graph woods)) .inOrder,
  .step (.resolve "woods" (some 2)) ⟨List.reverse, List.reverse_perm⟩,
  .step (.ask "woods" 3 .flattening) .inOrder,
  .step (.load "torn" (.graph torn)) .inOrder,
  .step (.resolve "torn" (some 2)) .inOrder,
  .step (.ask "torn" 2 .flattening) .inOrder,
  .step (.analyze "woods") .inOrder,
  .step (.generate .python "") .inOrder,
  .step (.resolve "torn" none) .inOrder,
  .step (.generate .java "") .inOrder]

theorem memory_transparent_alternating :
    ({} : Session).AdmitsAll alternating ∧
      (({} : Session).uses alternating).map (·.isOk) =
        [true, true, true, true, false, false, true, true, false, true] ∧
      ({} : Session).uses alternating = ({} : Session).freshUses alternating := by
  have hadmits : ({} : Session).AdmitsAll alternating := by
    refine ⟨trivial, trivial, ?_, trivial, trivial, ?_, trivial, trivial, trivial, trivial,
      trivial⟩
    · intro l hl
      obtain rfl : (⟨0, woods⟩ : Loaded) = l := Option.some.inj hl
      exact ⟨[1], .step (s := 1) rfl (.root rfl)⟩
    · intro l hl
      obtain rfl : (⟨1, torn⟩ : Loaded) = l := Option.some.inj hl
      exact ⟨[1], .step (s := 1) rfl (.root rfl)⟩
  exact ⟨hadmits, by decide +kernel, memory_transparent {} none hadmits⟩

end Session

end RecordGen

import RecordGen.Proofs.Loading
import RecordGen.Proofs.Resolving

/-! # Substitution

The interfaces of a class are those of the classes it descends from, and no other class shares them.
So a record can stand where a property asks for a class exactly if its class descends from it. -/

namespace RecordGen

open ClassGraph Fallible

/-- The interfaces that are met by following what each one extends, the first one included. -/
inductive Extending (rs : List Resolution) : TypePath → List TypePath → Prop where
  | last {r : Resolution} {t : TypePath} : r ∈ rs → r.interface = some t → r.parent = none →
      Extending rs t [t]
  | next {r : Resolution} {t u : TypePath} {ts : List TypePath} : r ∈ rs →
      r.interface = some t → r.parent = some u → Extending rs u ts → Extending rs t (t :: ts)

/-- A class is the other one or descends from it. -/
def ClassGraph.DescendsFrom (g : ClassGraph) (c a : ClassId) : Prop :=
  Relation.ReflTransGen g.Extends c a

theorem ClassGraph.Above.descendsFrom_iff {g : ClassGraph} {c a : ClassId} {l : List ClassId}
    (h : g.Above c l) : g.DescendsFrom c a ↔ a ∈ c :: l := by
  rw [DescendsFrom, Relation.reflTransGen_iff_eq_or_transGen, List.mem_cons, h.mem_iff]

namespace ClassGraph.Resolved

variable {g : ClassGraph} {p : String} {rs : List Resolution}

/-! ## The types of a class -/

theorem typeOf_eq (hn : g.Nameable) (h : g.Resolved p rs) {r : Resolution} (hr : r ∈ rs)
    (s : Slot) :
    typeOf g (Naming.ofGraph p g) s r.source = ((Naming.ofGraph p g).at s).find? r.source := by
  rw [typeOf]
  split
  · rfl
  · rename_i hfills
    cases hfind : ((Naming.ofGraph p g).at s).find? r.source with
    | none => rfl
    | some t =>
        exact absurd (Naming.fills_of_ofGraph_find? hn (h.listed hr) (h.checkEnclosing hr) hfind)
          hfills

theorem typeOf_isSome (hn : g.Nameable) (h : g.Resolved p rs) {r : Resolution} (hr : r ∈ rs)
    (s : Slot) : (typeOf g (Naming.ofGraph p g) s r.source).isSome =
      (g.decl r.source).kind.fills s := by
  rw [typeOf]
  split
  · rename_i hfills
    obtain ⟨_, -, hnamed⟩ := Naming.exists_ofGraph_find? (p := p) hn (h.listed hr)
      (h.checkEnclosing hr)
    obtain ⟨t, ht, -⟩ := hnamed s hfills
    rw [ht, hfills]
    rfl
  · rename_i hfills
    simpa using hfills

theorem interface_eq (h : g.Resolved p rs) {r : Resolution} (hr : r ∈ rs) :
    r.interface = typeOf g (Naming.ofGraph p g) .interface r.source := by
  obtain ⟨l, _, hd⟩ := h.described r hr
  exact hd.interface

theorem record_eq (h : g.Resolved p rs) {r : Resolution} (hr : r ∈ rs) :
    r.record = typeOf g (Naming.ofGraph p g) .record r.source := by
  obtain ⟨l, _, hd⟩ := h.described r hr
  exact hd.record

theorem interface_isSome (hn : g.Nameable) (h : g.Resolved p rs) {r : Resolution} (hr : r ∈ rs) :
    r.interface.isSome = (g.decl r.source).kind.allowsSubclasses := by
  rw [h.interface_eq hr]
  exact h.typeOf_isSome hn hr .interface

theorem record_isSome (hn : g.Nameable) (h : g.Resolved p rs) {r : Resolution} (hr : r ∈ rs) :
    r.record.isSome = (g.decl r.source).kind.allowsInstances := by
  rw [h.record_eq hr]
  exact h.typeOf_isSome hn hr .record

/-- An interface belongs to one class. -/
theorem eq_of_interface (h : g.Resolved p rs) {r r' : Resolution} (hr : r ∈ rs)
    (hr' : r' ∈ rs) {t : TypePath} (ht : r.interface = some t) (ht' : r'.interface = some t) :
    r = r' := by
  rw [h.interface_eq hr] at ht
  rw [h.interface_eq hr'] at ht'
  exact h.eq_of_source hr hr'
    (Naming.ofGraph_injective (typeOf_eq_some.mp ht).2 (typeOf_eq_some.mp ht').2).2

/-- A record belongs to one class. -/
theorem eq_of_record (h : g.Resolved p rs) {r r' : Resolution} (hr : r ∈ rs)
    (hr' : r' ∈ rs) {t : TypePath} (ht : r.record = some t) (ht' : r'.record = some t) :
    r = r' := by
  rw [h.record_eq hr] at ht
  rw [h.record_eq hr'] at ht'
  exact h.eq_of_source hr hr'
    (Naming.ofGraph_injective (typeOf_eq_some.mp ht).2 (typeOf_eq_some.mp ht').2).2

/-- No type is both an interface and a record. -/
theorem record_ne_interface (h : g.Resolved p rs) {r r' : Resolution}
    (hr : r ∈ rs) (hr' : r' ∈ rs) {t : TypePath} (ht : r.interface = some t) :
    r'.record ≠ some t := by
  intro ht'
  rw [h.interface_eq hr] at ht
  rw [h.record_eq hr'] at ht'
  have hslot :=
    (Naming.ofGraph_injective (typeOf_eq_some.mp ht).2 (typeOf_eq_some.mp ht').2).1
  cases hslot

/-! ## Contracts -/

/-- The contracts of a class are the interfaces of the classes it descends from. -/
theorem mem_contracts (h : g.Resolved p rs) {r : Resolution} (hr : r ∈ rs) {t : TypePath} :
    t ∈ r.contracts ↔ ∃ a ∈ rs, g.DescendsFrom r.source a.source ∧ a.interface = some t := by
  obtain ⟨l, hl, hd⟩ := h.described r hr
  rw [hd.contracts, List.mem_filterMap]
  constructor
  · rintro ⟨x, hx, ht⟩
    obtain ⟨a, ha, rfl⟩ := h.exists_of_mem_chain hr hl hx
    exact ⟨a, ha, hl.descendsFrom_iff.mpr hx, (h.interface_eq ha).trans ht⟩
  · rintro ⟨a, ha, hra, ht⟩
    exact ⟨a.source, hl.descendsFrom_iff.mp hra, (h.interface_eq ha).symm.trans ht⟩

theorem contracts_nodup (h : g.Resolved p rs) {r : Resolution} (hr : r ∈ rs) :
    r.contracts.Nodup := by
  obtain ⟨l, hl, hd⟩ := h.described r hr
  rw [hd.contracts, List.Nodup, List.pairwise_filterMap]
  refine hl.nodup.imp ?_
  rintro x y hne t ht t' ht' rfl
  exact hne (Naming.ofGraph_injective (typeOf_eq_some.mp ht).2 (typeOf_eq_some.mp ht').2).2

/-- The contracts of a class end with those of every class it descends from. -/
theorem contracts_suffix (h : g.Resolved p rs) {r a : Resolution} (hr : r ∈ rs) (ha : a ∈ rs)
    (hdescends : g.DescendsFrom r.source a.source) : a.contracts <:+ r.contracts := by
  obtain ⟨l, hl, hd⟩ := h.described r hr
  obtain ⟨above, habove, hd'⟩ := h.described a ha
  rw [hd.contracts, hd'.contracts]
  rcases List.mem_cons.mp (hl.descendsFrom_iff.mp hdescends) with heq | hmem
  · obtain rfl := h.eq_of_source hr ha heq.symm
    obtain rfl := hl.unique habove
    exact List.suffix_rfl
  · obtain ⟨nearer, above', rfl, habove'⟩ := hl.drop hmem
    obtain rfl := habove.unique habove'
    exact ((List.suffix_append nearer _).trans (List.suffix_cons _ _)).filterMap _

/-! ## What interfaces extend -/

/-- From the interface of a class, what each interface extends leads through the contracts. -/
theorem extending_contracts (hn : g.Nameable) (h : g.Resolved p rs) {r : Resolution} (hr : r ∈ rs)
    {t : TypePath} (ht : r.interface = some t) : Extending rs t r.contracts := by
  obtain ⟨l, hl, hd⟩ := h.described r hr
  generalize hc : r.source = c at hl hd
  induction hl generalizing r t with
  | root hroot =>
      have hcontracts : r.contracts = [t] := by
        rw [hd.contracts, List.filterMap_cons_some (hd.interface ▸ ht), List.filterMap_nil]
      have hparent : r.parent = none := by simp [hd.parent]
      exact hcontracts ▸ .last hr ht hparent
  | @step c s l hs hl ih =>
      have habove : g.Above r.source (s :: l) := by
        rw [hc]
        exact .step hs hl
      obtain ⟨r', hr', rfl⟩ := h.exists_of_mem_chain (a := s) hr habove (by simp)
      obtain ⟨l', hl', hd'⟩ := h.described r' hr'
      obtain rfl := hl.unique hl'
      have hsome : r'.interface.isSome := by
        rw [h.interface_isSome hn hr']
        exact allowsSubclasses_of_extends
          (h.ordered.checks c (hc ▸ List.mem_map_of_mem hr)).2 hs
      obtain ⟨u, hu⟩ := Option.isSome_iff_exists.mp hsome
      have hcontracts : r.contracts = t :: r'.contracts := by
        rw [hd.contracts, List.filterMap_cons_some (hd.interface ▸ ht), hd'.contracts]
      have hparent : r.parent = some u := by
        simpa [hd.parent, ht, hd'.interface] using hu
      exact hcontracts ▸ .next hr ht hparent (ih hr' hu rfl hd')

theorem extending_unique (h : g.Resolved p rs) {t : TypePath}
    {ts ts' : List TypePath} (hts : Extending rs t ts) (hts' : Extending rs t ts') : ts = ts' := by
  induction hts generalizing ts' with
  | last hr ht hnone =>
      cases hts' with
      | last => rfl
      | next hr' ht' hsome =>
          obtain rfl := h.eq_of_interface hr hr' ht ht'
          simp [hnone] at hsome
  | next hr ht hu _ ih =>
      cases hts' with
      | last hr' ht' hnone =>
          obtain rfl := h.eq_of_interface hr hr' ht ht'
          simp [hnone] at hu
      | next hr' ht' hu' hrest =>
          obtain rfl := h.eq_of_interface hr hr' ht ht'
          obtain rfl := Option.some.inj (hu.symm.trans hu')
          rw [ih hrest]

/-! ## What a record can stand for -/

/-- A class without an interface is extended by no other class. -/
theorem eq_of_descendsFrom (hn : g.Nameable) (h : g.Resolved p rs) {r a : Resolution}
    (hr : r ∈ rs) (ha : a ∈ rs) (hdescends : g.DescendsFrom r.source a.source)
    (hnone : a.interface = none) : r = a := by
  rcases Relation.ReflTransGen.cases_tail hdescends with heq | ⟨c, hrc, hca⟩
  · exact h.eq_of_source hr ha heq.symm
  · obtain ⟨l, hl, -⟩ := h.described r hr
    obtain ⟨r', hr', rfl⟩ := h.exists_of_mem_chain hr hl (hl.descendsFrom_iff.mp hrc)
    have hallowed := allowsSubclasses_of_extends
      (h.ordered.checks _ (List.mem_map_of_mem hr')).2 hca
    rw [← h.interface_isSome hn ha, hnone] at hallowed
    cases hallowed

/-- The record of a class is the type of a property, or implements it, exactly if the class descends
from the class of the property. -/
theorem substitutable_iff (hn : g.Nameable) (h : g.Resolved p rs) {r a : Resolution} (hr : r ∈ rs)
    (ha : a ∈ rs) {t : TypePath} (ht : a.counterpart? = some t) :
    (r.record = some t ∨ t ∈ r.implements) ↔
      (g.decl r.source).kind.allowsInstances = true ∧ g.DescendsFrom r.source a.source := by
  rw [← h.record_isSome hn hr, Resolution.implements]
  cases hi : a.interface with
  | some u =>
      obtain rfl : u = t := by simpa [Resolution.counterpart?, hi] using ht
      have hrecord : r.record ≠ some u := h.record_ne_interface ha hr hi
      have hcontract : u ∈ r.contracts ↔ g.DescendsFrom r.source a.source := by
        rw [h.mem_contracts hr]
        constructor
        · rintro ⟨a', ha', hdescends, hi'⟩
          exact h.eq_of_interface ha ha' hi hi' ▸ hdescends
        · exact fun hdescends => ⟨a, ha, hdescends, hi⟩
      cases hsome : r.record.isSome <;> simp [hrecord, hcontract]
  | none =>
      have hrecord : a.record = some t := by simpa [Resolution.counterpart?, hi] using ht
      have hcontract : t ∉ r.contracts := by
        intro hmem
        obtain ⟨a', ha', -, hi'⟩ := (h.mem_contracts hr).mp hmem
        exact h.record_ne_interface ha' ha hi' hrecord
      have himplements : t ∉ if r.record.isSome then r.contracts else [] := by
        split
        · exact hcontract
        · simp
      constructor
      · rintro (hown | hmem)
        · obtain rfl := h.eq_of_record hr ha hown hrecord
          exact ⟨by simp [hown], Relation.ReflTransGen.refl⟩
        · exact absurd hmem himplements
      · rintro ⟨-, hdescends⟩
        obtain rfl := h.eq_of_descendsFrom hn hr ha hdescends hi
        exact Or.inl hrecord

/-- Every class becomes a type. -/
theorem exists_counterpart (hn : g.Nameable) (h : g.Resolved p rs) {r : Resolution} (hr : r ∈ rs) :
    ∃ t, r.counterpart? = some t := by
  have hi := h.interface_isSome hn hr
  have hrecord := h.record_isSome hn hr
  rw [← Option.isSome_iff_exists]
  cases hkind : (g.decl r.source).kind <;>
    simp_all [Resolution.counterpart?, Extensibility.allowsSubclasses,
      Extensibility.allowsInstances]

end ClassGraph.Resolved

/-! ## Loaded graphs -/

/-- The results of a graph say exactly which classes stand for which. -/
structure Resolution.SubstitutesExactly (g : ClassGraph) (names : Naming) (rs : List Resolution)
    (c : Resolution) : Prop where
  /-- The contracts are the allocated interfaces of the class and its ancestors. -/
  contract_iff : ∀ a ∈ rs, (∃ t, names.interfaces.find? a.source = some t ∧ t ∈ c.contracts) ↔
    (g.decl a.source).kind.allowsSubclasses = true ∧ g.DescendsFrom c.source a.source
  /-- They are listed from the class itself up to the root of its chain. -/
  nearest_first : ∃ l, g.Above c.source l ∧
    c.contracts = (c.source :: l).filterMap names.interfaces.find?
  nodup : c.contracts.Nodup
  implements : c.implements =
    if (g.decl c.source).kind.allowsInstances then c.contracts else []
  /-- What the interfaces extend leads through the contracts in the same order. -/
  extending_iff : ∀ t, names.interfaces.find? c.source = some t →
    ∀ ts, Extending rs t ts ↔ ts = c.contracts
  /-- The record of the class is the type of a property, or implements it, exactly if the class
  descends from the property's class. -/
  substitutable : ∀ a ∈ rs, ∃ t, a.counterpart? = some t ∧
    ((c.record = some t ∨ t ∈ c.implements) ↔
      (g.decl c.source).kind.allowsInstances = true ∧ g.DescendsFrom c.source a.source)

/-- In a loaded graph that resolves, every class has one result, and the results say exactly which
classes stand for which. -/
theorem load_resolve_substitution {doc : Json} {g : ClassGraph} {p : String}
    {workers : Option Int} {rs : List Resolution} (hload : Document.load doc = .ok g)
    (hresolve : g.resolve p workers = .ok rs) :
    (rs.map (·.source)).Perm g.classes ∧
      ∀ c ∈ rs, c.SubstitutesExactly g (Naming.ofGraph p g) rs := by
  have hn : g.Nameable := (Document.load_linked hload).nameable
  have h : g.Resolved p rs := resolve_resolved hresolve
  have hinterface : ∀ r ∈ rs,
      (Naming.ofGraph p g).interfaces.find? r.source = r.interface := fun r hr => by
    rw [h.interface_eq hr, h.typeOf_eq hn hr .interface]
    rfl
  constructor
  · rw [List.perm_ext_iff_of_nodup h.sources_nodup hn.classes_nodup]
    intro c
    constructor
    · exact h.ordered.listed c
    · intro hc
      obtain ⟨r, hr, hsource⟩ := h.complete c hc
      exact List.mem_map.mpr ⟨r, hr, hsource⟩
  · intro c hc
    obtain ⟨l, hl, hd⟩ := h.described c hc
    refine
      { contract_iff := fun a ha => ?_
        nearest_first := ⟨l, hl, ?_⟩
        nodup := h.contracts_nodup hc
        implements := ?_
        extending_iff := fun t ht ts => ?_
        substitutable := fun a ha => ?_ }
    · rw [← h.interface_isSome hn ha, hinterface a ha]
      constructor
      · rintro ⟨t, ht, hmem⟩
        obtain ⟨a', ha', hdescends, ht'⟩ := (h.mem_contracts hc).mp hmem
        exact ⟨by simp [ht], h.eq_of_interface ha ha' ht ht' ▸ hdescends⟩
      · rintro ⟨hsome, hdescends⟩
        obtain ⟨t, ht⟩ := Option.isSome_iff_exists.mp hsome
        exact ⟨t, ht, (h.mem_contracts hc).mpr ⟨a, ha, hdescends, ht⟩⟩
    · rw [hd.contracts]
      refine List.filterMap_congr fun x hx => ?_
      obtain ⟨a, ha, rfl⟩ := h.exists_of_mem_chain hc hl hx
      exact h.typeOf_eq hn ha .interface
    · rw [← h.record_isSome hn hc]
      rfl
    · rw [hinterface c hc] at ht
      constructor
      · exact fun hts => h.extending_unique hts (h.extending_contracts hn hc ht)
      · exact fun hts => hts ▸ h.extending_contracts hn hc ht
    · obtain ⟨t, ht⟩ := h.exists_counterpart hn ha
      exact ⟨t, ht, h.substitutable_iff hn hc ha ht⟩

theorem load_resolve_substitution_example : ∃ g rs,
    Document.load Document.shapes = .ok g ∧ g.resolve "I" none = .ok rs ∧
      (rs.map (·.source)).Perm g.classes ∧
        ∀ c ∈ rs, c.SubstitutesExactly g (Naming.ofGraph "I" g) rs := by
  have hok : (Document.load Document.shapes >>= (·.resolve "I" none)).isOk = true := by
    decide +kernel
  obtain ⟨rs, h⟩ := exists_ok hok
  obtain ⟨g, hload, hresolve⟩ := bind_eq_ok.mp h
  exact ⟨g, rs, hload, hresolve, load_resolve_substitution hload hresolve⟩

end RecordGen

import Mathlib.Data.List.Perm.Subperm
import Mathlib.Data.List.Nodup
import RecordGen.Naming

/-! # Claimed names are new

Every name that is claimed in a container differs from all names claimed there before. -/

namespace RecordGen

/-- Among more different candidates than taken names, one is free. -/
theorem exists_not_mem_of_length_lt {α : Type} [DecidableEq α] {candidates taken : List α}
    (hn : candidates.Nodup) (hl : taken.length < candidates.length) :
    ∃ c ∈ candidates, c ∉ taken := by
  by_contra h
  push Not at h
  have hsub : candidates.length ≤ taken.length := (hn.subperm h).length_le
  omega

/-- Lists without common members have one owner for each member. -/
theorem eq_of_mem_of_nodup_flatMap {α β : Type} {f : α → List β} {xs : List α}
    (h : (xs.flatMap f).Nodup) {x y : α} (hx : x ∈ xs) (hy : y ∈ xs) {b : β} (hb : b ∈ f x)
    (hb' : b ∈ f y) : x = y := by
  induction xs with
  | nil => simp at hx
  | cons z zs ih =>
      obtain ⟨-, hrest, hdisjoint⟩ := List.nodup_append.mp (List.flatMap_cons ▸ h)
      have hfirst : ∀ w ∈ zs, b ∈ f w → b ∉ f z := fun w hw hbw hbz =>
        hdisjoint b hbz b (List.mem_flatMap.mpr ⟨w, hw, hbw⟩) rfl
      rcases List.mem_cons.mp hx with rfl | hx'
      · rcases List.mem_cons.mp hy with rfl | hy'
        · rfl
        · exact absurd hb (hfirst y hy' hb')
      · rcases List.mem_cons.mp hy with rfl | hy'
        · exact absurd hb' (hfirst x hx' hb)
        · exact ih hrest hx' hy'

theorem nodup_eraseDups {α : Type} [BEq α] [LawfulBEq α] : ∀ xs : List α, xs.eraseDups.Nodup
  | [] => by simp
  | x :: xs => by
      rw [List.eraseDups_cons, List.nodup_cons]
      refine ⟨?_, nodup_eraseDups _⟩
      rw [List.mem_eraseDups]
      simp
termination_by xs => xs.length
decreasing_by exact Nat.lt_succ_of_le (List.length_filter_le _ _)

theorem eraseDups_of_nodup {α : Type} [BEq α] [LawfulBEq α] {xs : List α} (h : xs.Nodup) :
    xs.eraseDups = xs := by
  induction xs with
  | nil => rfl
  | cons x xs ih =>
      obtain ⟨hx, hxs⟩ := List.nodup_cons.mp h
      have hkept : xs.filter (fun y => !y == x) = xs := by
        refine List.filter_eq_self.mpr fun y hy => ?_
        simpa using fun heq : y = x => hx (heq ▸ hy)
      rw [List.eraseDups_cons, hkept, ih hxs]

/-! ## Numbered names -/

theorem toString_nat_injective : Function.Injective (toString : Nat → String) := by
  intro i j h
  have hd : Nat.toDigits 10 i = Nat.toDigits 10 j := by
    rw [Nat.toString_eq_ofList_toDigits, Nat.toString_eq_ofList_toDigits] at h
    exact String.ofList_inj.mp h
  simpa using congrArg (Nat.ofDigitChars 10 · 0) hd

theorem numbered_injective (name : String) :
    Function.Injective fun k : Nat => name ++ toString (k + 2) := by
  intro i j h
  have ht : toString (i + 2) = toString (j + 2) := by
    have hl := congrArg String.toList h
    simp only [String.toList_append] at hl
    exact String.toList_inj.mp (List.append_cancel_left hl)
  have := toString_nat_injective ht
  omega

theorem uniqueName_of_not_mem {taken : List String} {name : String} (h : name ∉ taken) :
    uniqueName taken name = name := by
  simp [uniqueName, h]

/-- A taken name gets the smallest number that makes it free. -/
theorem uniqueName_of_mem {taken : List String} {name : String} (h : name ∈ taken) :
    ∃ k, uniqueName taken name = name ++ toString (k + 2) ∧ uniqueName taken name ∉ taken ∧
      ∀ j < k, name ++ toString (j + 2) ∈ taken := by
  let numbered := fun k : Nat => name ++ toString (k + 2)
  let candidates := (List.range (taken.length + 1)).map numbered
  have hn : candidates.Nodup := List.nodup_range.map (numbered_injective name)
  obtain ⟨c, hc, hfree⟩ :=
    exists_not_mem_of_length_lt hn (show taken.length < candidates.length by simp [candidates])
  have hsome : (candidates.find? (· ∉ taken)).isSome := by
    rw [List.find?_isSome]
    exact ⟨c, hc, by simpa using hfree⟩
  obtain ⟨n, hfind⟩ := Option.isSome_iff_exists.mp hsome
  have hname : uniqueName taken name = n := by
    unfold uniqueName
    rw [if_pos h]
    change (candidates.find? (· ∉ taken)).getD name = n
    rw [hfind, Option.getD_some]
  rw [List.find?_map, Option.map_eq_some_iff] at hfind
  obtain ⟨k, hk, rfl⟩ := hfind
  obtain ⟨hnew, -, hbefore⟩ := List.find?_range_eq_some.mp hk
  rw [hname]
  exact ⟨k, rfl, by simpa using hnew, fun j hj => by simpa [numbered] using hbefore j hj⟩

theorem uniqueName_not_mem (taken : List String) (name : String) :
    uniqueName taken name ∉ taken := by
  by_cases h : name ∈ taken
  · obtain ⟨_, _, hfree, -⟩ := uniqueName_of_mem h
    exact hfree
  · rwa [uniqueName_of_not_mem h]

/-! ## Containers -/

@[simp] theorem containerNames_length (taken ms : List String) :
    (containerNames taken ms).length = ms.length := by
  induction ms generalizing taken with
  | nil => rfl
  | cons m ms ih => simp [containerNames, ih]

/-- Containers differ from each other and from the names taken before. -/
theorem containerNames_fresh (taken ms : List String) :
    (containerNames taken ms).Nodup ∧ ∀ c ∈ containerNames taken ms, c ∉ taken := by
  induction ms generalizing taken with
  | nil => simp [containerNames]
  | cons m ms ih =>
      let c := uniqueName taken (safeTypeName (Text.pascalCase m))
      obtain ⟨hn, hfree⟩ := ih (c :: taken)
      have hc : c ∉ taken := uniqueName_not_mem _ _
      refine ⟨List.nodup_cons.mpr ⟨fun h => hfree c h (by simp), hn⟩, ?_⟩
      intro d hd
      rcases List.mem_cons.mp hd with rfl | hd
      · exact hc
      · exact fun h => hfree d hd (by simp [h])

/-! ## The names of one module's types -/

namespace ClassNames

/-- The names a class has, its interface's first. -/
def toList (n : ClassNames) : List String :=
  n.interface.toList ++ n.record.toList

end ClassNames

/-- The name that a class asks for its interface. -/
def wantedInterface (p name : String) (kind : Extensibility) : Option String :=
  (if kind.allowsSubclasses then some (p ++ name) else none).map safeTypeName

/-- The name that a class asks for its record. -/
def wantedRecord (name : String) (kind : Extensibility) : Option String :=
  (if kind.allowsInstances then some name else none).map safeTypeName

@[simp] theorem wantedInterface_isSome (p name : String) (kind : Extensibility) :
    (wantedInterface p name kind).isSome = kind.allowsSubclasses := by
  cases kind <;> rfl

@[simp] theorem wantedRecord_isSome (name : String) (kind : Extensibility) :
    (wantedRecord name kind).isSome = kind.allowsInstances := by
  cases kind <;> rfl

/-- A claim adds the claimed name, which is new, to the taken ones. -/
theorem claim_spec {taken after : List String} {wanted claimed : Option String}
    (h : claim taken wanted = (claimed, after)) :
    after = claimed.toList ++ taken ∧ (∀ n ∈ claimed.toList, n ∉ taken) ∧
      claimed.isSome = wanted.isSome := by
  cases wanted with
  | none =>
      obtain ⟨rfl, rfl⟩ := Prod.mk.inj h
      simp
  | some name =>
      obtain ⟨rfl, rfl⟩ := Prod.mk.inj h
      simp [uniqueName_not_mem]

/-- The names of the first class of a module, and those of the others after them. -/
theorem classNames_cons (p name : String) (kind : Extensibility) (taken : List String)
    (rest : List (String × Extensibility)) :
    ∃ n : ClassNames, classNames p taken ((name, kind) :: rest) =
        n :: classNames p (n.record.toList ++ (n.interface.toList ++ taken)) rest ∧
      n.toList.Nodup ∧ (∀ x ∈ n.toList, x ∉ taken) ∧
      n.interface.isSome = kind.allowsSubclasses ∧ n.record.isSome = kind.allowsInstances := by
  obtain ⟨i, takenByInterface, hi⟩ : ∃ i t, claim taken (wantedInterface p name kind) = (i, t) :=
    ⟨_, _, rfl⟩
  obtain ⟨r, takenByRecord, hr⟩ : ∃ r t, claim takenByInterface (wantedRecord name kind) = (r, t) :=
    ⟨_, _, rfl⟩
  have hcons : classNames p taken ((name, kind) :: rest) =
      ⟨i, r⟩ :: classNames p takenByRecord rest := by
    simp only [wantedInterface, wantedRecord] at hi hr
    simp only [classNames, hi, hr]
  obtain ⟨rfl, hifree, hisome⟩ := claim_spec hi
  obtain ⟨rfl, hrfree, hrsome⟩ := claim_spec hr
  refine ⟨⟨i, r⟩, hcons, ?_, ?_, by simpa using hisome, by simpa using hrsome⟩
  · rw [ClassNames.toList, List.nodup_append]
    refine ⟨by cases i <;> simp, by cases r <;> simp, ?_⟩
    rintro x hx y hy rfl
    exact hrfree x hy (List.mem_append_left _ hx)
  · intro x hx
    rcases List.mem_append.mp hx with hx | hx
    · exact hifree x hx
    · exact fun h => hrfree x hx (List.mem_append_right _ h)

/-- The names of the classes of a module differ from each other and from the names taken before. -/
theorem classNames_fresh (p : String) (taken : List String) (cs : List (String × Extensibility)) :
    ((classNames p taken cs).flatMap ClassNames.toList).Nodup ∧
      ∀ n ∈ classNames p taken cs, ∀ x ∈ n.toList, x ∉ taken := by
  induction cs generalizing taken with
  | nil => simp [classNames]
  | cons c cs ih =>
      obtain ⟨name, kind⟩ := c
      obtain ⟨n, hcons, hnodup, hfree, -, -⟩ := classNames_cons p name kind taken cs
      obtain ⟨hn, hrest⟩ := ih (n.record.toList ++ (n.interface.toList ++ taken))
      rw [hcons]
      constructor
      · rw [List.flatMap_cons, List.nodup_append]
        refine ⟨hnodup, hn, ?_⟩
        rintro x hx y hy rfl
        obtain ⟨m, hm, hxm⟩ := List.mem_flatMap.mp hy
        apply hrest m hm x hxm
        rcases List.mem_append.mp hx with hx | hx <;> simp [hx]
      · intro m hm x hx
        rcases List.mem_cons.mp hm with rfl | hm
        · exact hfree x hx
        · exact fun h => hrest m hm x hx (by simp [h])

/-- Each class of a module gets the names its kind asks for. -/
theorem classNames_forall₂ (p : String) (taken : List String)
    (cs : List (String × Extensibility)) :
    List.Forall₂ (fun c n => n.interface.isSome = c.2.allowsSubclasses ∧
      n.record.isSome = c.2.allowsInstances) cs (classNames p taken cs) := by
  induction cs generalizing taken with
  | nil => exact .nil
  | cons c cs ih =>
      obtain ⟨name, kind⟩ := c
      obtain ⟨n, hcons, -, -, hi, hr⟩ := classNames_cons p name kind taken cs
      rw [hcons]
      exact .cons ⟨hi, hr⟩ (ih _)

/-- A module's own types have different names, among them the container's. All of them are taken
afterwards, and so are the names of the copy-with protocol. -/
theorem moduleNames_spec (container : String) (kind : Extensibility)
    (h : container ∉ protocolTypes) :
    (moduleNames container kind).1.toList.Nodup ∧
      container ∈ (moduleNames container kind).1.toList ∧
      (∀ x ∈ (moduleNames container kind).1.toList, x ∈ (moduleNames container kind).2) ∧
      (∀ x ∈ (moduleNames container kind).1.toList, x ∉ protocolTypes) ∧
      (∀ x ∈ protocolTypes, x ∈ (moduleNames container kind).2) ∧
      (moduleNames container kind).1.interface.isSome = kind.allowsSubclasses ∧
      (moduleNames container kind).1.record.isSome = kind.allowsInstances := by
  cases kind with
  | final => simp +contextual [moduleNames, ClassNames.toList, Extensibility.allowsSubclasses,
      Extensibility.allowsInstances, h]
  | abstract => simp +contextual [moduleNames, ClassNames.toList, Extensibility.allowsSubclasses,
      Extensibility.allowsInstances, h]
  | extensible =>
      have hfree := uniqueName_not_mem (container :: protocolTypes) (container ++ "Impl")
      rw [List.mem_cons, not_or] at hfree
      simp +contextual [moduleNames, ClassNames.toList, claim, Extensibility.allowsSubclasses,
        Extensibility.allowsInstances, h, hfree.2, Ne.symm hfree.1]

end RecordGen

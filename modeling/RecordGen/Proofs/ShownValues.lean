import RecordGen.Proofs.Members
import RecordGen.Schema.Document

/-! # Values that messages show

The loader's messages show what stands in place of a name, a kind or a type. They cannot show an
integer with more digits than are written, and nothing else keeps the loader from saying what is
wrong with a document. -/

namespace RecordGen

open Fallible

/-! ## Literals -/

namespace Json

/-- A value is another one or holds it inside. -/
inductive Holds : Json → Json → Prop where
  | self (v : Json) : Holds v v
  | item {items : List Json} {v w : Json} : v ∈ items → Holds v w → Holds (.list items) w
  | field {fields : List (String × Json)} {f : String × Json} {w : Json} : f ∈ fields →
      Holds f.2 w → Holds (.object fields) w

/-- An integer in the value has more digits than are written. -/
def HoldsLong (v : Json) : Prop :=
  ∃ n, v.Holds (.integer n) ∧ Decimal.isLong n.natAbs = true

theorem holdsLong_integer {n : Int} :
    (integer n).HoldsLong ↔ Decimal.isLong n.natAbs = true := by
  constructor
  · rintro ⟨m, hm, hlong⟩
    cases hm
    exact hlong
  · exact fun hlong => ⟨n, .self _, hlong⟩

theorem holdsLong_list {items : List Json} :
    (list items).HoldsLong ↔ ∃ v ∈ items, v.HoldsLong := by
  constructor
  · rintro ⟨n, hn, hlong⟩
    cases hn with
    | item hv hn => exact ⟨_, hv, n, hn, hlong⟩
  · rintro ⟨v, hv, n, hn, hlong⟩
    exact ⟨n, .item hv hn, hlong⟩

theorem holdsLong_object {fields : List (String × Json)} :
    (object fields).HoldsLong ↔ ∃ f ∈ fields, f.2.HoldsLong := by
  constructor
  · rintro ⟨n, hn, hlong⟩
    cases hn with
    | field hf hn => exact ⟨_, hf, n, hn, hlong⟩
  · rintro ⟨f, hf, n, hn, hlong⟩
    exact ⟨n, .field hf hn, hlong⟩

/-- A value has a literal unless it holds a long integer. -/
theorem literal?_eq_none (v : Json) : v.literal? = none ↔ v.HoldsLong := by
  refine literal?.induct (fun v => v.literal? = none ↔ v.HoldsLong)
    (fun fields => fieldLiterals? fields = none ↔ ∃ f ∈ fields, f.2.HoldsLong)
    (fun items => literals? items = none ↔ ∃ v ∈ items, v.HoldsLong)
    ?null ?bool ?long ?short ?decimal ?text ?list ?object ?noItem ?item ?noField ?field v
  case long => exact fun n hlong => by simp [literal?, holdsLong_integer, hlong]
  case short => exact fun n hshort => by simp [literal?, holdsLong_integer, hshort]
  case list =>
    intro items ih
    rw [holdsLong_list, ← ih, literal?]
    cases literals? items <;> simp
  case object =>
    intro fields ih
    rw [holdsLong_object, ← ih, literal?]
    cases fieldLiterals? fields <;> simp
  case noItem => simp [literals?]
  case item =>
    intro v items hv hitems
    rw [List.exists_mem_cons_iff, ← hv, ← hitems, literals?]
    cases v.literal? <;> cases literals? items <;> simp
  case noField => simp [fieldLiterals?]
  case field =>
    intro k v fields hv hfields
    rw [List.exists_mem_cons_iff, ← hv, ← hfields, fieldLiterals?]
    cases v.literal? <;> cases fieldLiterals? fields <;> simp
  all_goals
    intros
    simp only [literal?, reduceCtorEq, false_iff]
    rintro ⟨n, hn, -⟩
    cases hn

/-- Somewhere in the value an object has a name, a kind or a type that holds a long integer. -/
def HoldsUnshown (v : Json) : Prop :=
  ∃ fields, v.Holds (.object fields) ∧ ∃ key ∈ ["name", "kind", "type"],
    (Json.field fields key).HoldsLong

namespace HoldsUnshown

variable {fields : List (String × Json)} {items : List Json} {v : Json}

theorem own {key : String} (hkey : key ∈ ["name", "kind", "type"])
    (h : (Json.field fields key).HoldsLong) : (object fields).HoldsUnshown :=
  ⟨fields, .self _, key, hkey, h⟩

theorem item (hv : v ∈ items) (h : v.HoldsUnshown) : (list items).HoldsUnshown := by
  obtain ⟨inner, hinner, hkey⟩ := h
  exact ⟨inner, .item hv hinner, hkey⟩

theorem field (key : String) (hv : Table.findEntry key fields = some v) (h : v.HoldsUnshown) :
    (object fields).HoldsUnshown := by
  obtain ⟨inner, hinner, hkey⟩ := h
  exact ⟨inner, .field (Table.mem_of_findEntry hv) hinner, hkey⟩

end HoldsUnshown

end Json

/-! ## Faults without a message -/

theorem SchemaFault.isReported_eq_true {e : SchemaFault} :
    e.isReported = true ↔ e ≠ .longInteger := by
  cases e <;> simp [isReported]

/-- Where the step fails without a message, `p` holds. -/
def Tells {α : Type} (p : Prop) (x : Except SchemaFault α) : Prop :=
  x = .error .longInteger → p

namespace Tells

variable {α β : Type} {p q : Prop}

theorem ok (a : α) : Tells p (.ok a) := nofun

theorem error {e : SchemaFault} (h : e = .longInteger → p) :
    Tells p (.error e : Except SchemaFault α) := fun he => h (Except.error.inj he)

theorem bind {x : Except SchemaFault α} {f : α → Except SchemaFault β} (hx : Tells p x)
    (hf : ∀ a, x = .ok a → Tells p (f a)) : Tells p (x >>= f) := by
  intro h
  rcases bind_eq_error.mp h with h | ⟨a, ha, h⟩
  · exact hx h
  · exact hf a ha h

theorem map {x : Except SchemaFault α} {f : α → β} (hx : Tells p x) : Tells p (f <$> x) :=
  fun h => hx (map_eq_error.mp h)

theorem mapM {f : α → Except SchemaFault β} {xs : List α} (hf : ∀ a ∈ xs, Tells p (f a)) :
    Tells p (xs.mapM f) := by
  intro h
  obtain ⟨a, ha, h⟩ := mapM_eq_error h
  exact hf a ha h

theorem imp {x : Except SchemaFault α} (h : Tells p x) (hpq : p → q) : Tells q x :=
  fun hx => hpq (h hx)

end Tells

theorem PropertyType.parse_tells (owner text : String) : Tells False (parse owner text) := by
  have hwithin : ∀ steps s, Tells False (parseWithin owner steps s) := by
    intro steps
    induction steps with
    | zero => exact fun s => .error nofun
    | succ steps ih =>
        intro s
        rw [parseWithin]
        split
        · exact .error nofun
        · split
          · exact .map (ih _)
          · split
            · split
              · exact .error nofun
              · simp only
                split
                · exact .error nofun
                · split
                  · exact .error nofun
                  · exact .error nofun
                  · refine .bind (.mapM fun part _ => ih part) fun arguments _ => ?_
                    split
                    · exact .ok _
                    · exact .error nofun
            · simp only
              split
              · exact .ok _
              · exact .ok _
  exact hwithin _ _

namespace Draft

theorem showing_eq_longInteger {v : Json} {fault : String → SchemaFault}
    (hfault : ∀ shown, fault shown ≠ .longInteger) (h : showing v fault = .longInteger) :
    v.HoldsLong := by
  rw [← Json.literal?_eq_none]
  cases hv : v.literal? with
  | none => rfl
  | some shown =>
      rw [showing, hv] at h
      exact absurd h (hfault shown)

theorem optionalText_tells (fields : List (String × Json)) (key owner : String) :
    Tells False (optionalText fields key owner) := by
  rw [optionalText]
  split
  · exact .ok _
  · exact .ok _
  · exact .error nofun

theorem optionalList_tells (fields : List (String × Json)) (key owner : String) :
    Tells False (optionalList fields key owner) := by
  rw [optionalList]
  split
  · exact .ok _
  · exact .ok _
  · exact .error nofun

/-- A value that is refused holds a long integer, or the message shows it. -/
theorem showing_tells {α : Type} {fields : List (String × Json)} (key : String) {v : Json}
    {fault : String → SchemaFault} (hkey : key ∈ ["name", "kind", "type"])
    (hv : Json.field fields key = v) (hfault : ∀ shown, fault shown ≠ .longInteger) :
    Tells (Json.object fields).HoldsUnshown
      (.error (showing v fault) : Except SchemaFault α) := by
  subst hv
  exact .error fun h => .own hkey (showing_eq_longInteger hfault h)

theorem readProperty_tells (owner : String) (v : Json) :
    Tells v.HoldsUnshown (readProperty owner v) := by
  cases v with
  | object fields =>
      rw [readProperty]
      split
      · rename_i name hname
        split
        · split
          · simp only [pure_eq, ok_bind]
            refine .bind ((PropertyType.parse_tells _ _).imp False.elim) fun type _ => ?_
            exact .bind ((optionalText_tells _ _ _).imp False.elim) fun doc _ => .ok _
          · exact showing_tells "type" (by simp) rfl fun _ h => nomatch h
        · exact showing_tells "name" (by simp) hname fun _ h => nomatch h
      · exact showing_tells "name" (by simp) rfl fun _ h => nomatch h
  | _ => exact .error fun h => nomatch h

theorem readProperties_tells (owner : String) {vs : List Json} : ∀ known : List String,
    Tells (∃ v ∈ vs, v.HoldsUnshown) (readProperties owner known vs) := by
  induction vs with
  | nil => exact fun known => .ok _
  | cons v vs ih =>
      intro known
      rw [readProperties, List.exists_mem_cons_iff]
      refine .bind ((readProperty_tells owner v).imp .inl) fun p _ => ?_
      split
      · exact .error nofun
      · exact .bind ((ih _).imp .inr) fun ps _ => .ok _

theorem readKind_tells (name : String) (fields : List (String × Json)) :
    Tells (Json.object fields).HoldsUnshown (readKind name fields) := by
  rw [readKind]
  split
  · exact .ok _
  · split
    · exact .ok _
    · exact .error nofun
  · rename_i v _ hv
    have hkind : Json.field fields "kind" = v := by
      rw [Json.field, hv]
      rfl
    exact showing_tells "kind" (by simp) hkind fun _ h => nomatch h

/-- What a list field holds, the object holds. -/
theorem HoldsUnshown.of_list {fields : List (String × Json)} {key owner : String}
    {values : List Json} (hvalues : optionalList fields key owner = .ok values)
    (h : ∃ v ∈ values, v.HoldsUnshown) : (Json.object fields).HoldsUnshown := by
  obtain ⟨v, hv, h⟩ := h
  rw [optionalList] at hvalues
  split at hvalues
  · cases hvalues
    cases hv
  · rename_i hlist
    cases hvalues
    exact .field _ hlist (.item hv h)
  · cases hvalues

theorem read_tells (place : Place) (v : Json) : Tells v.HoldsUnshown (read place v) := by
  cases v with
  | object fields =>
      rw [read]
      split
      · rename_i name hname
        split
        · simp only [pure_eq, ok_bind]
          refine .bind (readKind_tells _ _) fun kind _ => ?_
          refine .bind ((optionalText_tells _ _ _).imp False.elim) fun doc _ => ?_
          refine .bind ((optionalText_tells _ _ _).imp False.elim) fun superclassName _ => ?_
          refine .bind ((optionalList_tells _ _ _).imp False.elim) fun values hvalues => ?_
          refine .bind ((readProperties_tells _ _).imp (HoldsUnshown.of_list hvalues)) ?_
          exact fun properties _ => .ok _
        · exact showing_tells "name" (by simp) hname fun _ h => nomatch h
      · exact showing_tells "name" (by simp) rfl fun _ h => nomatch h
  | _ => exact .error fun h => nomatch h

end Draft

namespace Document

theorem readClasses_tells (moduleName : String) {vs : List Json} : ∀ ds : List Draft,
    Tells (∃ v ∈ vs, v.HoldsUnshown) (readClasses moduleName ds vs) := by
  induction vs with
  | nil => exact fun ds => .ok _
  | cons v vs ih =>
      intro ds
      rw [readClasses, List.exists_mem_cons_iff]
      refine .bind ((Draft.read_tells _ v).imp .inl) fun d _ => ?_
      split
      · exact .error fun h => nomatch h
      · exact (ih _).imp .inr

theorem readModules_tells {vs : List Json} : ∀ ds : List Draft,
    Tells (∃ v ∈ vs, v.HoldsUnshown) (readModules ds vs) := by
  induction vs with
  | nil => exact fun ds => .ok _
  | cons v vs ih =>
      intro ds
      rw [readModules, List.exists_mem_cons_iff]
      refine .bind ((Draft.read_tells _ v).imp .inl) fun d hd => ?_
      cases v with
      | object fields =>
          simp only
          split
          · exact .error fun h => nomatch h
          · refine .bind ((Draft.optionalList_tells _ _ _).imp False.elim) fun values hvalues => ?_
            refine .bind ((readClasses_tells _ _).imp fun h => ?_) fun ds _ => (ih ds).imp .inr
            exact Or.inl (Draft.HoldsUnshown.of_list hvalues h)
      | _ => simp [Draft.read] at hd

theorem drafts_tells (doc : Json) : Tells doc.HoldsUnshown (drafts doc) := by
  cases doc with
  | object fields =>
      rw [drafts]
      split
      · rename_i values hvalues
        refine (readModules_tells []).imp ?_
        rintro ⟨v, hv, h⟩
        refine .field "modules" ?_ (.item hv h)
        rw [Json.field] at hvalues
        cases hfound : Table.findEntry "modules" fields with
        | none => simp [hfound] at hvalues
        | some value => simpa [hfound] using hvalues
      · exact .error (by simp)
  | _ => exact .error (by simp)

theorem linkInside_tells (g : ClassGraph) (d : ClassDecl) (property : String) (t : PropertyType) :
    Tells False (linkInside g d property t) := by
  refine linkInside.induct g d (fun t => Tells False (linkInside g d property t))
    (fun ts => Tells False (linkAllInside g d property ts))
    ?declared ?undeclared ?primitive ?collection ?optional ?none ?more t
  case declared =>
    intro name arguments target c hc ih
    rw [linkInside, hc]
    exact .map ih
  case undeclared =>
    intro name arguments target hc
    rw [linkInside, hc]
    exact .error fun h => nomatch h
  case none => exact .ok _
  case more =>
    intro t ts ht hts
    rw [linkAllInside]
    exact .bind ht fun t _ => .bind hts fun ts _ => .ok _
  all_goals
    intro name arguments target ih
    rw [linkInside]
    exact .map ih

theorem link_tells (g : ClassGraph) (d : Draft) : Tells False (link g d) := by
  refine .bind ?_ fun superclass _ => .bind (.mapM fun p _ => ?_) fun properties _ => .ok _
  · rw [linkSuperclass]
    split
    · exact .ok _
    · split
      · exact .ok _
      · split
        · exact .ok _
        · exact .error fun h => nomatch h
  · exact .bind (linkInside_tells _ _ _ _) fun type _ => .ok _

/-- A document whose fault cannot be told holds a long integer in a name, a kind or a type. -/
theorem load_tells (doc : Json) : Tells doc.HoldsUnshown (load doc) := by
  refine .bind (drafts_tells doc) fun ds _ => ?_
  exact .bind (.mapM fun d _ => (link_tells _ d).imp False.elim) fun decls _ => .ok _

end Document

end RecordGen

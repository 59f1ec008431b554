import Mathlib.Data.List.Forall2
import Mathlib.Data.List.Nodup

/-! # When fallible steps succeed

A sequence of steps succeeds exactly when each step does. The laws read a sequence as the results of
its steps, so that no proof about a fallible function opens the error monad again. -/

namespace List.Forall₂

variable {α β γ : Type} {R : α → β → Prop} {xs : List α} {ys : List β}

/-- Every element on the left has a partner on the right. -/
theorem exists_right (h : Forall₂ R xs ys) : ∀ x ∈ xs, ∃ y ∈ ys, R x y := by
  induction h with
  | nil => simp
  | cons hxy _ ih =>
      intro x hx
      rcases List.mem_cons.mp hx with rfl | hx
      · exact ⟨_, by simp, hxy⟩
      · obtain ⟨y, hy, hr⟩ := ih x hx
        exact ⟨y, by simp [hy], hr⟩

/-- Every element on the right has a partner on the left. -/
theorem exists_left (h : Forall₂ R xs ys) : ∀ y ∈ ys, ∃ x ∈ xs, R x y :=
  fun y hy => h.flip.exists_right y hy

/-- A property that partners share holds on one side if it holds on the other. -/
theorem exists_mem_iff (h : Forall₂ R xs ys) {P : α → Prop} {Q : β → Prop}
    (hPQ : ∀ x ∈ xs, ∀ y, R x y → (P x ↔ Q y)) : (∃ x ∈ xs, P x) ↔ ∃ y ∈ ys, Q y := by
  constructor
  · rintro ⟨x, hx, hp⟩
    obtain ⟨y, hy, hxy⟩ := h.exists_right x hx
    exact ⟨y, hy, (hPQ x hx y hxy).mp hp⟩
  · rintro ⟨y, hy, hq⟩
    obtain ⟨x, hx, hxy⟩ := h.exists_left y hy
    exact ⟨x, hx, (hPQ x hx y hxy).mpr hq⟩

/-- Where every element has a partner, the list has a list of partners. -/
theorem exists_of_forall (h : ∀ x ∈ xs, ∃ y, R x y) : ∃ ys, Forall₂ R xs ys := by
  induction xs with
  | nil => exact ⟨[], .nil⟩
  | cons x xs ih =>
      obtain ⟨y, hy⟩ := h x List.mem_cons_self
      obtain ⟨ys, hys⟩ := ih fun x hx => h x (List.mem_cons_of_mem _ hx)
      exact ⟨y :: ys, .cons hy hys⟩

/-- Every element on the left is paired with its partner. -/
theorem exists_zip (h : Forall₂ R xs ys) : ∀ x ∈ xs, ∃ y, (x, y) ∈ xs.zip ys ∧ R x y := by
  induction h with
  | nil => simp
  | @cons x y xs ys hxy _ ih =>
      intro z hz
      rcases List.mem_cons.mp hz with rfl | hz
      · exact ⟨y, by simp, hxy⟩
      · obtain ⟨w, hw, hr⟩ := ih z hz
        exact ⟨w, by simp [hw], hr⟩

/-- What holds between the elements on the left holds between their partners. -/
theorem pairwise (h : Forall₂ R xs ys) {P : α → α → Prop} {Q : β → β → Prop}
    (himp : ∀ {x x' y y'}, R x y → R x' y' → P x x' → Q y y') (hxs : xs.Pairwise P) :
    ys.Pairwise Q := by
  induction h with
  | nil => exact .nil
  | cons hxy hrest ih =>
      obtain ⟨hx, hxs⟩ := List.pairwise_cons.mp hxs
      refine List.pairwise_cons.mpr ⟨fun y' hy' => ?_, ih hxs⟩
      obtain ⟨x', hx', hxy'⟩ := hrest.exists_left y' hy'
      exact himp hxy hxy' (hx x' hx')

/-- Partners that each have a further partner have a list of those. -/
theorem exists_third (h : Forall₂ R xs ys) {P : β → γ → Prop} {Q : α → γ → Prop}
    (hthird : ∀ x ∈ xs, ∀ y, R x y → ∃ z, P y z ∧ Q x z) :
    ∃ zs, Forall₂ P ys zs ∧ Forall₂ Q xs zs := by
  induction h with
  | nil => exact ⟨[], .nil, .nil⟩
  | cons hxy _ ih =>
      obtain ⟨z, hp, hq⟩ := hthird _ List.mem_cons_self _ hxy
      obtain ⟨zs, hps, hqs⟩ := ih fun x hx => hthird x (List.mem_cons_of_mem _ hx)
      exact ⟨z :: zs, .cons hp hps, .cons hq hqs⟩

end List.Forall₂

namespace RecordGen.Fallible

variable {ε ε' α β γ : Type}

/-! ## Single steps -/

@[simp] theorem pure_eq (a : α) : (pure a : Except ε α) = .ok a := rfl

@[simp] theorem throw_eq (e : ε) : (throw e : Except ε α) = .error e := rfl

@[simp] theorem ok_bind (a : α) (f : α → Except ε β) : (Except.ok a >>= f) = f a := rfl

@[simp] theorem bind_ok (x : Except ε α) : (x >>= Except.ok) = x := by
  cases x <;> rfl

@[simp] theorem error_bind (e : ε) (f : α → Except ε β) : (Except.error e >>= f) = .error e := rfl

@[simp] theorem map_ok (f : α → β) (a : α) : f <$> (Except.ok a : Except ε α) = .ok (f a) := rfl

@[simp] theorem map_error (f : α → β) (e : ε) :
    f <$> (Except.error e : Except ε α) = .error e := rfl

@[simp] theorem mapError_ok (f : ε → ε') (a : α) :
    (Except.ok a : Except ε α).mapError f = .ok a := rfl

@[simp] theorem mapError_error (f : ε → ε') (e : ε) :
    (Except.error e : Except ε α).mapError f = .error (f e) := rfl

theorem bind_eq_ok {x : Except ε α} {f : α → Except ε β} {b : β} :
    (x >>= f) = .ok b ↔ ∃ a, x = .ok a ∧ f a = .ok b := by
  cases x <;> simp

/-- A sequence fails where its first failing step fails. -/
theorem bind_eq_error {x : Except ε α} {f : α → Except ε β} {e : ε} :
    (x >>= f) = .error e ↔ x = .error e ∨ ∃ a, x = .ok a ∧ f a = .error e := by
  cases x <;> simp

theorem map_eq_ok {x : Except ε α} {f : α → β} {b : β} :
    f <$> x = .ok b ↔ ∃ a, x = .ok a ∧ f a = b := by
  cases x <;> simp

theorem map_eq_error {x : Except ε α} {f : α → β} {e : ε} :
    f <$> x = .error e ↔ x = .error e := by
  cases x <;> simp

theorem mapError_eq_ok {x : Except ε α} {f : ε → ε'} {a : α} :
    x.mapError f = .ok a ↔ x = .ok a := by
  cases x <;> simp

theorem map_mapError (f : α → β) (k : ε → ε') (x : Except ε α) :
    f <$> x.mapError k = (f <$> x).mapError k := by
  cases x <;> rfl

/-- First steps that agree on what matters, and further steps that look at nothing else. -/
theorem map_bind_congr {κ : Type} {x x' : Except ε α} {k : α → κ} {f f' : α → Except ε β}
    {h : β → γ} (hx : k <$> x' = k <$> x)
    (hf : ∀ a a', x = .ok a → x' = .ok a' → k a' = k a → h <$> f' a' = h <$> f a) :
    h <$> (x' >>= f') = h <$> (x >>= f) := by
  cases x with
  | error e =>
      rw [map_error, map_eq_error] at hx
      rw [hx, error_bind, error_bind]
  | ok a =>
      obtain ⟨a', rfl, hk⟩ := map_eq_ok.mp hx
      exact hf a a' rfl rfl hk

theorem exists_error_iff {x : Except ε α} : (∃ e, x = .error e) ↔ ∀ a, x ≠ .ok a := by
  cases x <;> simp

theorem exists_ok {x : Except ε α} (h : x.isOk = true) : ∃ a, x = .ok a := by
  cases x with
  | ok a => exact ⟨a, rfl⟩
  | error _ => cases h

theorem exists_ok_and {x : Except ε α} {P : α → Prop} [DecidablePred P]
    (h : x.toOption.any (fun a => decide (P a)) = true) : ∃ a, x = .ok a ∧ P a := by
  cases x with
  | ok a => exact ⟨a, rfl, by simpa [Except.toOption] using h⟩
  | error _ => cases h

theorem eq_ok_of {x : Except ε α} {a : α} (h : x.toOption = some a) : x = .ok a := by
  cases x with
  | ok _ => exact congrArg Except.ok (Option.some.inj h)
  | error _ => cases h

theorem eq_error_of {x : Except ε α} [DecidableEq ε] {e : ε}
    (h : (match x with | .ok _ => false | .error e' => decide (e' = e)) = true) :
    x = .error e := by
  cases x with
  | ok _ => cases h
  | error e' => rw [of_decide_eq_true h]

/-- A check that precedes other steps. -/
theorem guard_eq_ok {p : Prop} [Decidable p] {e : ε} {x : Except ε α} {a : α} :
    (if p then .error e else x) = .ok a ↔ ¬p ∧ x = .ok a := by
  by_cases hp : p <;> simp [hp]

/-! ## Lists of steps -/

/-- A traversal succeeds with the results of its steps, in order. -/
theorem mapM_eq_ok {f : α → Except ε β} {xs : List α} {ys : List β} :
    xs.mapM f = .ok ys ↔ List.Forall₂ (fun x y => f x = .ok y) xs ys := by
  induction xs generalizing ys with
  | nil => simp [eq_comm]
  | cons x xs ih =>
      simp only [List.mapM_cons, bind_eq_ok, pure_eq, Except.ok.injEq, ih,
        List.forall₂_cons_left_iff]
      constructor
      · rintro ⟨y, hy, ys', hys, rfl⟩
        exact ⟨y, ys', hy, hys, rfl⟩
      · rintro ⟨y, ys', hy, hys, rfl⟩
        exact ⟨y, hy, ys', hys, rfl⟩

/-- The same for steps that give no reason when they fail. -/
theorem mapM_eq_some {f : α → Option β} {xs : List α} {ys : List β} :
    xs.mapM f = some ys ↔ List.Forall₂ (fun x y => f x = some y) xs ys := by
  induction xs generalizing ys with
  | nil => simp [eq_comm]
  | cons x xs ih =>
      simp only [List.mapM_cons, Option.bind_eq_bind, Option.bind_eq_some_iff, Option.pure_def,
        Option.some.injEq, ih, List.forall₂_cons_left_iff]
      constructor
      · rintro ⟨y, hy, ys', hys, rfl⟩
        exact ⟨y, ys', hy, hys, rfl⟩
      · rintro ⟨y, ys', hy, hys, rfl⟩
        exact ⟨y, hy, ys', hys, rfl⟩

/-- A traversal all of whose steps succeed succeeds. -/
theorem mapM_total {f : α → Except ε β} {xs : List α} (h : ∀ x ∈ xs, ∃ y, f x = .ok y) :
    ∃ ys, xs.mapM f = .ok ys := by
  obtain ⟨ys, hys⟩ := List.Forall₂.exists_of_forall h
  exact ⟨ys, mapM_eq_ok.mpr hys⟩

/-- A traversal whose steps all have their results or the same fault. -/
theorem mapM_checked {f : α → Except ε β} {e : ε} {p : γ → Bool} {g : γ → β} {xs : List α}
    {zs : List γ}
    (h : List.Forall₂ (fun x z => f x = if p z then .ok (g z) else .error e) xs zs) :
    xs.mapM f = if zs.all p then .ok (zs.map g) else .error e := by
  induction h with
  | nil => rfl
  | @cons x z xs zs hx _ ih =>
      rw [List.mapM_cons, hx, ih, List.all_cons, List.map_cons]
      cases p z with
      | false => rfl
      | true => cases zs.all p <;> rfl

/-- Traversals agree if their steps do on the elements that there are. -/
theorem mapM_congr {f k : α → Except ε β} {xs : List α} (h : ∀ x ∈ xs, f x = k x) :
    xs.mapM f = xs.mapM k := by
  induction xs with
  | nil => rfl
  | cons x xs ih =>
      rw [List.forall_mem_cons] at h
      rw [List.mapM_cons, List.mapM_cons, h.1, ih h.2]

/-- What a traversal has among its results it had among its elements. -/
theorem exists_mem_mapM {f : α → Except ε β} {xs : List α} {ys : List β} {P : α → Prop}
    {Q : β → Prop} (h : xs.mapM f = .ok ys) (hPQ : ∀ x y, f x = .ok y → (P x ↔ Q y)) :
    (∃ x ∈ xs, P x) ↔ ∃ y ∈ ys, Q y :=
  (mapM_eq_ok.mp h).exists_mem_iff fun x _ y => hPQ x y

/-- The results of a traversal can be changed on the way or at the end. -/
theorem mapM_map (f : α → Except ε β) (k : β → γ) (xs : List α) :
    xs.mapM (fun x => k <$> f x) = List.map k <$> xs.mapM f := by
  induction xs with
  | nil => rfl
  | cons x xs ih =>
      rw [List.mapM_cons, List.mapM_cons, ih]
      cases f x <;> cases xs.mapM f <;> rfl

theorem mapM_append_eq_ok {f : α → Except ε β} {xs ys : List α} {zs : List β} :
    (xs ++ ys).mapM f = .ok zs ↔
      ∃ us vs, xs.mapM f = .ok us ∧ ys.mapM f = .ok vs ∧ zs = us ++ vs := by
  simp only [List.mapM_append, bind_eq_ok, pure_eq, Except.ok.injEq]
  constructor
  · rintro ⟨us, hus, vs, hvs, rfl⟩
    exact ⟨us, vs, hus, hvs, rfl⟩
  · rintro ⟨us, vs, hus, hvs, rfl⟩
    exact ⟨us, hus, vs, hvs, rfl⟩

/-- A traversal that fails does so in one of its steps. -/
theorem mapM_eq_error {f : α → Except ε β} {xs : List α} {e : ε} (h : xs.mapM f = .error e) :
    ∃ x ∈ xs, f x = .error e := by
  induction xs with
  | nil => simp at h
  | cons x xs ih =>
      simp only [List.mapM_cons, bind_eq_error] at h
      rcases h with h | ⟨y, hy, h | ⟨ys, hys, h⟩⟩
      · exact ⟨x, by simp, h⟩
      · obtain ⟨x', hx', he⟩ := ih h
        exact ⟨x', by simp [hx'], he⟩
      · simp at h

/-- A traversal of lists of elements that fails does so in one step of one list, after all lists and
all elements before it. -/
theorem mapM_flatten_eq_error {f : α → Except ε β} {xss : List (List α)} {e : ε}
    (h : xss.flatten.mapM f = .error e) :
    ∃ before pre x post after, xss = before ++ (pre ++ x :: post) :: after ∧
      (∀ y ∈ before.flatten ++ pre, ∃ z, f y = .ok z) ∧ f x = .error e := by
  have hlist : ∀ {xs : List α}, xs.mapM f = .error e → ∃ pre x post, xs = pre ++ x :: post ∧
      (∀ y ∈ pre, ∃ z, f y = .ok z) ∧ f x = .error e := by
    intro xs
    induction xs with
    | nil => simp
    | cons x xs ih =>
        rw [List.mapM_cons, bind_eq_error]
        rintro (h | ⟨y, hy, h⟩)
        · exact ⟨[], x, xs, rfl, by simp, h⟩
        · obtain ⟨pre, x', post, rfl, hpre, h⟩ := ih (by simpa [bind_eq_error] using h)
          refine ⟨x :: pre, x', post, rfl, ?_, h⟩
          rw [List.forall_mem_cons]
          exact ⟨⟨y, hy⟩, hpre⟩
  induction xss with
  | nil => simp at h
  | cons xs xss ih =>
      rw [List.flatten_cons, List.mapM_append, bind_eq_error] at h
      rcases h with h | ⟨ys, hys, h⟩
      · obtain ⟨pre, x, post, rfl, hpre, h⟩ := hlist h
        exact ⟨[], pre, x, post, xss, rfl, by simpa using hpre, h⟩
      · obtain ⟨before, pre, x, post, after, rfl, hbefore, h⟩ :=
          ih (by simpa [bind_eq_error] using h)
        refine ⟨xs :: before, pre, x, post, after, rfl, fun y hy => ?_, h⟩
        rw [List.flatten_cons, List.append_assoc] at hy
        rcases List.mem_append.mp hy with hy | hy
        · obtain ⟨z, -, hz⟩ := (mapM_eq_ok.mp hys).exists_right y hy
          exact ⟨z, hz⟩
        · exact hbefore y hy

theorem forM_eq_ok {f : α → Except ε Unit} {xs : List α} :
    xs.forM f = .ok () ↔ ∀ x ∈ xs, f x = .ok () := by
  rw [List.forM_eq_forM]
  induction xs with
  | nil => simp
  | cons x xs ih =>
      rw [List.forM_cons, bind_eq_ok, List.forall_mem_cons, ih]
      constructor
      · rintro ⟨⟨⟩, hx, hs⟩
        exact ⟨hx, hs⟩
      · rintro ⟨hx, hs⟩
        exact ⟨(), hx, hs⟩

theorem forM_eq_error {f : α → Except ε Unit} {xs : List α} {e : ε} (h : xs.forM f = .error e) :
    ∃ x ∈ xs, f x = .error e := by
  rw [List.forM_eq_forM] at h
  induction xs with
  | nil => simp at h
  | cons x xs ih =>
      rw [List.forM_cons, bind_eq_error] at h
      rcases h with h | ⟨⟨⟩, _, h⟩
      · exact ⟨x, by simp, h⟩
      · obtain ⟨x', hx', he⟩ := ih h
        exact ⟨x', by simp [hx'], he⟩

theorem forM_congr {f f' : α → Except ε Unit} {xs : List α} (h : ∀ x ∈ xs, f x = f' x) :
    xs.forM f = xs.forM f' := by
  simp only [List.forM_eq_forM]
  induction xs with
  | nil => rfl
  | cons x xs ih =>
      rw [List.forM_cons, List.forM_cons, h x (by simp), ih fun y hy => h y (by simp [hy])]

/-! ## Computations with the same result -/

/-- Wherever the first computation succeeds, the second one has the same result. -/
def Persists (x y : Except ε α) : Prop :=
  ∀ a, x = .ok a → y = .ok a

namespace Persists

theorem refl (x : Except ε α) : Persists x x :=
  fun _ h => h

theorem bind {x y : Except ε α} {f k : α → Except ε β} (hxy : Persists x y)
    (hfk : ∀ a, x = .ok a → Persists (f a) (k a)) : Persists (x >>= f) (y >>= k) := by
  intro b h
  obtain ⟨a, hx, hf⟩ := bind_eq_ok.mp h
  exact bind_eq_ok.mpr ⟨a, hxy a hx, hfk a hx b hf⟩

theorem map {x y : Except ε α} (h : Persists x y) (f : α → β) : Persists (f <$> x) (f <$> y) := by
  intro b hb
  obtain ⟨a, hx, rfl⟩ := map_eq_ok.mp hb
  rw [h a hx, map_ok]

theorem mapM {f k : α → Except ε β} {xs : List α} (h : ∀ x ∈ xs, Persists (f x) (k x)) :
    Persists (xs.mapM f) (xs.mapM k) := by
  intro ys hys
  have hall := (List.forall₂_and_left _ _).mpr ⟨h, mapM_eq_ok.mp hys⟩
  exact mapM_eq_ok.mpr (hall.imp fun x y hxy => hxy.1 y hxy.2)

/-- What the elements of a list gave stays in front when further elements follow them. -/
theorem mapM_append {f k : α → Except ε β} {xs more : List α}
    (h : ∀ x ∈ xs, Persists (f x) (k x)) {ys zs : List β} (hys : xs.mapM f = .ok ys)
    (hzs : (xs ++ more).mapM k = .ok zs) : ys <+: zs := by
  obtain ⟨us, new, hus, -, rfl⟩ := mapM_append_eq_ok.mp hzs
  obtain rfl := Except.ok.inj ((mapM h ys hys).symm.trans hus)
  exact List.prefix_append _ _

end Persists

/-! ## Searches by a key -/

/-- With different keys, the first element that has a key is the only one. -/
theorem find?_key_eq_some {κ : Type} [DecidableEq κ] {key : α → κ} {xs : List α}
    (hn : (xs.map key).Nodup) {k : κ} {x : α} :
    xs.find? (fun y => key y == k) = some x ↔ x ∈ xs ∧ key x = k := by
  constructor
  · intro h
    exact ⟨List.mem_of_find?_eq_some h, by simpa using List.find?_some h⟩
  · rintro ⟨hx, rfl⟩
    have hsome : (xs.find? (fun y => key y == key x)).isSome := by
      rw [List.find?_isSome]
      exact ⟨x, hx, by simp⟩
    obtain ⟨y, hfind⟩ := Option.isSome_iff_exists.mp hsome
    have hkey : key y = key x := by simpa using List.find?_some hfind
    rw [hfind, List.inj_on_of_nodup_map hn (List.mem_of_find?_eq_some hfind) hx hkey]

/-- With different keys, an element is alone with its key. -/
theorem filter_key_eq {κ : Type} [DecidableEq κ] {key : α → κ} {xs : List α}
    (hn : (xs.map key).Nodup) {x : α} (hx : x ∈ xs) :
    xs.filter (fun y => key y == key x) = [x] := by
  induction xs with
  | nil => simp at hx
  | cons y ys ih =>
      rw [List.map_cons, List.nodup_cons] at hn
      rcases List.mem_cons.mp hx with rfl | hx'
      · have hothers : ys.filter (fun y => key y == key x) = [] := by
          refine List.filter_eq_nil_iff.mpr fun z hz heq => ?_
          exact hn.1 (List.mem_map.mpr ⟨z, hz, by simpa using heq⟩)
        simp [hothers]
      · have hne : key y ≠ key x := fun heq => hn.1 (heq ▸ List.mem_map_of_mem hx')
        rw [List.filter_cons_of_neg (by simpa using hne)]
        exact ih hn.2 hx'

end RecordGen.Fallible

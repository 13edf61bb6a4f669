import Mathlib.Data.List.Basic

/-!
# Walks that end at the first error

A list is often walked with a function that may fail, and the walk ends where it fails first. What
the walk as a whole answers can then be said without the walk:

* it fails with `e` exactly when `e` is the error of the first element that has one
  (`PipelineConfig.errorOf?_mapM`);
* it succeeds exactly when every element does, and then the results stand in the order of the
  elements (`PipelineConfig.mapM_eq_ok_iff`).

A walk over walks is one walk over all inner elements, as far as its error is concerned: that is
`PipelineConfig.findSome?_flatMap`, a fact about searching lists and nothing else.
-/

namespace PipelineConfig

variable {ε α β γ : Type}

/-! ### Errors of results -/

/-- The error of a result that is one. -/
def errorOf? : Except ε α → Option ε
  | .error e => some e
  | .ok _ => none

@[simp] theorem errorOf?_error (e : ε) : errorOf? (.error e : Except ε α) = some e := rfl

@[simp] theorem errorOf?_ok (a : α) : errorOf? (.ok a : Except ε α) = none := rfl

theorem errorOf?_eq_some_iff {x : Except ε α} {e : ε} : errorOf? x = some e ↔ x = .error e := by
  cases x <;> simp

@[simp] theorem errorOf?_map (f : α → β) (x : Except ε α) : errorOf? (x.map f) = errorOf? x := by
  cases x <;> rfl

theorem map_eq_ok_iff {f : α → β} {x : Except ε α} {b : β} :
    x.map f = .ok b ↔ ∃ a, x = .ok a ∧ f a = b := by
  cases x <;> simp [Except.map]

theorem bind_eq_ok_iff {f : α → Except ε β} {x : Except ε α} {b : β} :
    x >>= f = .ok b ↔ ∃ a, x = .ok a ∧ f a = .ok b := by
  cases x <;> simp [bind, Except.bind]

/-! ### Searching -/

/-- To search the parts of each element in turn is to search all parts. -/
theorem findSome?_flatMap (f : β → Option γ) (g : α → List β) (xs : List α) :
    (xs.flatMap g).findSome? f = xs.findSome? (fun x => (g x).findSome? f) := by
  induction xs with
  | nil => rfl
  | cons x xs ih =>
    rw [List.flatMap_cons, List.findSome?_append, ih, List.findSome?_cons]
    cases (g x).findSome? f <;> simp

theorem findSome?_congr {f g : α → Option β} {xs : List α} (h : ∀ x ∈ xs, f x = g x) :
    xs.findSome? f = xs.findSome? g := by
  induction xs with
  | nil => rfl
  | cons x xs ih =>
    rw [List.findSome?_cons, List.findSome?_cons, h x List.mem_cons_self,
      ih fun y hy => h y (List.mem_cons_of_mem x hy)]

/-! ### Walks -/

/-- **A walk fails with the first error**, and with nothing else. -/
theorem errorOf?_mapM (f : α → Except ε β) (xs : List α) :
    errorOf? (xs.mapM f) = xs.findSome? (fun x => errorOf? (f x)) := by
  induction xs with
  | nil => rfl
  | cons x xs ih =>
    rw [List.mapM_cons, List.findSome?_cons, ← ih]
    cases f x with
    | error e => rfl
    | ok y => cases xs.mapM f <;> rfl

/-- **A walk succeeds when every element does**: then the results are the answers, in order. -/
theorem mapM_eq_ok_iff {f : α → Except ε β} {xs : List α} {ys : List β} :
    xs.mapM f = .ok ys ↔ xs.map f = ys.map .ok := by
  induction xs generalizing ys with
  | nil => cases ys <;> simp [pure, Except.pure]
  | cons x xs ih =>
    rw [List.mapM_cons, List.map_cons]
    cases hx : f x with
    | error e => cases ys <;> simp [bind, Except.bind]
    | ok y =>
      cases ht : xs.mapM f with
      | error e =>
        have hne : ∀ zs : List β, xs.map f ≠ zs.map .ok := by
          intro zs hzs
          have hok := ih.mpr hzs
          rw [ht] at hok
          cases hok
        cases ys with
        | nil => simp [bind, Except.bind]
        | cons z zs => simp [bind, Except.bind, hne zs]
      | ok rest =>
        have hrest : xs.map f = rest.map .ok := ih.mp ht
        cases ys with
        | nil => simp [bind, Except.bind, pure, Except.pure]
        | cons z zs =>
          have hinj : rest.map (Except.ok (ε := ε)) = zs.map .ok ↔ rest = zs :=
            List.map_inj_right fun a b h => Except.ok.inj h
          simp [bind, Except.bind, pure, Except.pure, hrest, hinj]

/-- The answers of a walk are those of the elements. -/
theorem mem_iff_of_mapM_eq_ok {f : α → Except ε β} {xs : List α} {ys : List β}
    (h : xs.mapM f = .ok ys) (y : β) : y ∈ ys ↔ ∃ x ∈ xs, f x = .ok y := by
  rw [← List.mem_map, mapM_eq_ok_iff.mp h, List.mem_map_of_injective fun a b => Except.ok.inj]

theorem exists_of_mapM_eq_ok {f : α → Except ε β} {xs : List α} {ys : List β}
    (h : xs.mapM f = .ok ys) {x : α} (hx : x ∈ xs) : ∃ y ∈ ys, f x = .ok y := by
  have hmem : f x ∈ ys.map Except.ok := mapM_eq_ok_iff.mp h ▸ List.mem_map_of_mem hx
  obtain ⟨y, hy, hfx⟩ := List.mem_map.mp hmem
  exact ⟨y, hy, hfx.symm⟩

/-- What every answer keeps of its element, a walk keeps of the list. -/
theorem map_of_mapM_eq_ok {f : α → Except ε β} {p : α → γ} {q : β → γ} {xs : List α}
    {ys : List β} (h : xs.mapM f = .ok ys) (hf : ∀ x ∈ xs, ∀ y, f x = .ok y → q y = p x) :
    ys.map q = xs.map p := by
  induction xs generalizing ys with
  | nil =>
    cases h
    rfl
  | cons x xs ih =>
    rw [mapM_eq_ok_iff] at h
    rcases ys with _ | ⟨y, ys⟩
    · cases h
    · rw [List.map_cons, List.map_cons, List.cons.injEq] at h
      rw [List.map_cons, List.map_cons, hf x List.mem_cons_self y h.1,
        ih (mapM_eq_ok_iff.mpr h.2) fun x' hx' => hf x' (List.mem_cons_of_mem x hx')]

theorem filterMap_of_mapM_eq_ok {f : α → Except ε β} {p : α → Option γ} {q : β → Option γ}
    {xs : List α} {ys : List β} (h : xs.mapM f = .ok ys)
    (hf : ∀ x ∈ xs, ∀ y, f x = .ok y → q y = p x) : ys.filterMap q = xs.filterMap p := by
  calc ys.filterMap q = (ys.map q).filterMap id := by rw [List.filterMap_map, Function.id_comp]
    _ = (xs.map p).filterMap id := by rw [map_of_mapM_eq_ok h hf]
    _ = xs.filterMap p := by rw [List.filterMap_map, Function.id_comp]

/-- To rework every answer is to walk first and to rework the answers then. -/
theorem mapM_map (f : α → Except ε β) (g : β → γ) (xs : List α) :
    xs.mapM (fun x => (f x).map g) = (xs.mapM f).map (List.map g) := by
  induction xs with
  | nil => rfl
  | cons x xs ih =>
    rw [List.mapM_cons, List.mapM_cons, ih]
    cases f x with
    | error e => rfl
    | ok y => cases xs.mapM f <;> rfl

end PipelineConfig

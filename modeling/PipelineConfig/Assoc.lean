/-!
# Association lists keyed by text

Configuration is names with values under them, so nearly everything in this library is a
finite map from text. Two shapes occur and both are plain lists of pairs:

* *sorted* maps, whose keys ascend in code point order and which `Assoc.insert` keeps so; every
  configuration mapping is one of these, and their order is the order in which they are printed;
* *document order* maps, which `Assoc.set` extends at the end; stages and steps are reported in
  the order in which a document lists them.

`Assoc.get?` reads either: it answers with the first pair that has the key. The small lemmas at
the end say what each operation does to `get?`, which is all that later proofs use.
-/

namespace PipelineConfig.Assoc

variable {α β : Type}

/-! ### Reading -/

/-- The value of the first pair with the key. -/
def get? : List (String × α) → String → Option α
  | [], _ => none
  | (k, v) :: rest, key => if k = key then some v else get? rest key

/-- Whether some pair has the key. -/
def contains (m : List (String × α)) (key : String) : Bool :=
  (get? m key).isSome

/-- The keys, in the order of the pairs. -/
def keys (m : List (String × α)) : List String :=
  m.map Prod.fst

/-- The keys ascend strictly, so none occurs twice. -/
def Sorted (m : List (String × α)) : Prop :=
  (keys m).Pairwise (· < ·)

/-! ### Sorted maps -/

/-- Put a value under a key, at the place its key has in the order. -/
def insert : List (String × α) → String → α → List (String × α)
  | [], key, v => [(key, v)]
  | (k, w) :: rest, key, v =>
    if k < key then (k, w) :: insert rest key v
    else if k = key then (key, v) :: rest
    else (key, v) :: (k, w) :: rest

/-- The sorted map of some pairs; of two pairs with one key the later one stays. -/
def ofList (pairs : List (String × α)) : List (String × α) :=
  pairs.foldl (fun m p => insert m p.1 p.2) []

/-! ### Document order maps -/

/-- Put a value under a key: in place when the key is there, otherwise at the end. -/
def set : List (String × α) → String → α → List (String × α)
  | [], key, v => [(key, v)]
  | (k, w) :: rest, key, v =>
    if k = key then (key, v) :: rest else (k, w) :: set rest key v

/-- The map of some pairs in the order of the first occurrence of each key; of two pairs with
one key the later value stays. -/
def ofListInOrder (pairs : List (String × α)) : List (String × α) :=
  pairs.foldl (fun m p => set m p.1 p.2) []

/-! ### Both -/

/-- Drop every pair with the key. -/
def erase (m : List (String × α)) (key : String) : List (String × α) :=
  m.filter (fun p => p.1 ≠ key)

/-- Apply a function to every value. -/
def mapValues (f : α → β) (m : List (String × α)) : List (String × β) :=
  m.map (fun p => (p.1, f p.2))

/-! ### What each operation does to `get?` -/

@[simp] theorem get?_nil (key : String) : get? ([] : List (String × α)) key = none := rfl

theorem get?_cons (k key : String) (v : α) (rest : List (String × α)) :
    get? ((k, v) :: rest) key = if k = key then some v else get? rest key := rfl

@[simp] theorem get?_insert (m : List (String × α)) (k key : String) (v : α) :
    get? (insert m k v) key = if k = key then some v else get? m key := by
  induction m with
  | nil => rfl
  | cons p rest ih =>
    obtain ⟨k', w⟩ := p
    by_cases hlt : k' < k
    · have hne : k' ≠ k := fun h => absurd (h ▸ hlt) (String.lt_irrefl k)
      by_cases hk : k' = key
      · subst hk
        simp [insert, hlt, get?_cons, Ne.symm hne]
      · simp [insert, hlt, get?_cons, hk, ih]
    · by_cases heq : k' = k
      · subst heq
        by_cases hk : k' = key <;> simp [insert, get?_cons, hk]
      · simp [insert, hlt, heq, get?_cons]

@[simp] theorem get?_set (m : List (String × α)) (k key : String) (v : α) :
    get? (set m k v) key = if k = key then some v else get? m key := by
  induction m with
  | nil => rfl
  | cons p rest ih =>
    obtain ⟨k', w⟩ := p
    by_cases heq : k' = k
    · subst heq
      by_cases hk : k' = key <;> simp [set, get?_cons, hk]
    · by_cases hk : k' = key
      · subst hk
        simp [set, heq, get?_cons, Ne.symm heq]
      · simp [set, heq, get?_cons, hk, ih]

@[simp] theorem get?_erase (m : List (String × α)) (k key : String) :
    get? (erase m k) key = if k = key then none else get? m key := by
  induction m with
  | nil => simp [erase]
  | cons p rest ih =>
    obtain ⟨k', w⟩ := p
    by_cases hk : k' = k
    · have : erase ((k', w) :: rest) k = erase rest k := by simp [erase, hk]
      rw [this, ih, get?_cons, hk]
      by_cases he : k = key <;> simp [he]
    · have : erase ((k', w) :: rest) k = (k', w) :: erase rest k := by simp [erase, hk]
      rw [this, get?_cons, get?_cons, ih]
      by_cases he : k' = key
      · simp [← he, Ne.symm hk]
      · simp [he]

end PipelineConfig.Assoc

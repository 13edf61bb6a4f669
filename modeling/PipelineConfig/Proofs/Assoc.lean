import Mathlib.Data.List.Nodup
import PipelineConfig.Assoc

/-!
# Association lists: what many writes leave behind

Whatever this library accumulates it accumulates by writing pairs into an association list, one
after the other. Two questions about the result come up again and again:

* **what stands under a key** – the last value that was written there, and if none was, what had
  stood there before (`PipelineConfig.Assoc.get?_setAll`, `PipelineConfig.Assoc.get?_ofList`);
* **in which order the keys stand** – the order in which they were written first, so that pairs with
  distinct new keys are simply appended (`PipelineConfig.Assoc.setAll_of_nodup`).

A map that is kept sorted is known from what stands under its keys, and from nothing else
(`PipelineConfig.Assoc.Sorted.ext`).

The last value under a key, `PipelineConfig.Assoc.last?`, is the first one of the reversed list, so
that what is known of `PipelineConfig.Assoc.get?` carries over.
-/

namespace PipelineConfig.Assoc

variable {α β : Type}

/-! ### Keys -/

@[simp] theorem keys_nil : keys ([] : List (String × α)) = [] := rfl

@[simp] theorem keys_cons (p : String × α) (m : List (String × α)) :
    keys (p :: m) = p.1 :: keys m := rfl

@[simp] theorem keys_append (m n : List (String × α)) : keys (m ++ n) = keys m ++ keys n := by
  simp [keys]

theorem mem_keys_iff {m : List (String × α)} {key : String} :
    key ∈ keys m ↔ ∃ v, (key, v) ∈ m := by
  constructor
  · intro h
    obtain ⟨⟨k, v⟩, hp, rfl⟩ := List.mem_map.mp h
    exact ⟨v, hp⟩
  · rintro ⟨v, hv⟩
    exact List.mem_map.mpr ⟨(key, v), hv, rfl⟩

/-- Keys that a walk leaves behind were there, or one of its steps brought them. -/
theorem mem_keys_foldl {f : List (String × α) → β → List (String × α)} (names : β → List String)
    (hf : ∀ m b key, key ∈ keys (f m b) → key ∈ keys m ∨ key ∈ names b) {bs : List β}
    {m : List (String × α)} {key : String} (h : key ∈ keys (bs.foldl f m)) :
    key ∈ keys m ∨ ∃ b ∈ bs, key ∈ names b := by
  induction bs generalizing m with
  | nil => exact Or.inl h
  | cons b bs ih =>
    rw [List.foldl_cons] at h
    rcases ih h with hb | ⟨b', hb', hkey⟩
    · rcases hf m b key hb with hm | hkey
      · exact Or.inl hm
      · exact Or.inr ⟨b, List.mem_cons_self, hkey⟩
    · exact Or.inr ⟨b', List.mem_cons_of_mem b hb', hkey⟩

/-! ### Reading -/

theorem get?_eq_none_iff {m : List (String × α)} {key : String} :
    get? m key = none ↔ key ∉ keys m := by
  induction m with
  | nil => simp
  | cons p m ih =>
    obtain ⟨k, v⟩ := p
    rw [get?_cons, keys_cons, List.mem_cons, not_or]
    by_cases hk : k = key
    · simp [hk]
    · rw [if_neg hk, ih]
      exact ⟨fun h => ⟨fun he => hk he.symm, h⟩, And.right⟩

theorem get?_ne_none_iff {m : List (String × α)} {key : String} :
    get? m key ≠ none ↔ key ∈ keys m := by
  rw [Ne, get?_eq_none_iff, not_not]

/-- Maps that read alike have the same keys. -/
theorem mem_keys_congr {m n : List (String × α)} (h : ∀ key, get? m key = get? n key)
    (key : String) : key ∈ keys m ↔ key ∈ keys n := by
  rw [← get?_ne_none_iff, ← get?_ne_none_iff, h]

theorem mem_of_get? {m : List (String × α)} {key : String} {v : α} (h : get? m key = some v) :
    (key, v) ∈ m := by
  induction m with
  | nil => simp at h
  | cons p m ih =>
    obtain ⟨k, w⟩ := p
    rw [get?_cons] at h
    by_cases hk : k = key
    · rw [if_pos hk] at h
      obtain rfl := Option.some.inj h
      exact List.mem_cons.mpr (Or.inl (by rw [hk]))
    · rw [if_neg hk] at h
      exact List.mem_cons_of_mem _ (ih h)

/-- Where no key occurs twice, every pair is found under its key. -/
theorem get?_of_mem {m : List (String × α)} (hm : (keys m).Nodup) {key : String} {v : α}
    (h : (key, v) ∈ m) : get? m key = some v := by
  induction m with
  | nil => simp at h
  | cons p m ih =>
    obtain ⟨k, w⟩ := p
    rw [keys_cons, List.nodup_cons] at hm
    rw [get?_cons]
    rcases List.mem_cons.mp h with he | ht
    · rw [Prod.mk.injEq] at he
      rw [if_pos he.1.symm, he.2]
    · have hne : k ≠ key := by
        rintro rfl
        exact hm.1 (mem_keys_iff.mpr ⟨v, ht⟩)
      rw [if_neg hne, ih hm.2 ht]

theorem get?_append (m n : List (String × α)) (key : String) :
    get? (m ++ n) key = (get? m key).or (get? n key) := by
  induction m with
  | nil => simp
  | cons p m ih =>
    obtain ⟨k, v⟩ := p
    rw [List.cons_append, get?_cons, get?_cons, ih]
    by_cases hk : k = key <;> simp [hk]

theorem get?_mapValues (f : α → β) (m : List (String × α)) (key : String) :
    get? (m.map (fun p => (p.1, f p.2))) key = (get? m key).map f := by
  induction m with
  | nil => rfl
  | cons p m ih =>
    obtain ⟨k, v⟩ := p
    rw [List.map_cons, get?_cons, get?_cons, ih]
    by_cases hk : k = key <;> simp [hk]

/-- A filter on keys either keeps everything under a key or drops it. -/
theorem get?_filter (p : String → Bool) (m : List (String × α)) (key : String) :
    get? (m.filter (fun e => p e.1)) key = if p key then get? m key else none := by
  induction m with
  | nil => simp
  | cons e m ih =>
    obtain ⟨k, v⟩ := e
    rw [List.filter_cons]
    by_cases hk : k = key
    · subst hk
      by_cases hp : p k = true
      · simp [hp, get?_cons]
      · simp [hp, ih]
    · by_cases hp : p k = true
      · rw [if_pos hp, get?_cons, get?_cons, if_neg hk, if_neg hk, ih]
      · rw [if_neg hp, get?_cons, if_neg hk, ih]

/-! ### Sorted maps -/

theorem mem_keys_insert {m : List (String × α)} {k key : String} {v : α} :
    key ∈ keys (insert m k v) ↔ key = k ∨ key ∈ keys m := by
  rw [← get?_ne_none_iff, get?_insert, ← get?_ne_none_iff]
  by_cases hk : k = key <;> simp [hk, eq_comm]

theorem sorted_cons_iff {p : String × α} {m : List (String × α)} :
    Sorted (p :: m) ↔ (∀ key ∈ keys m, p.1 < key) ∧ Sorted m :=
  List.pairwise_cons

/-- Putting a value into a sorted map leaves it sorted. -/
theorem Sorted.insert {m : List (String × α)} (hm : Sorted m) (key : String) (v : α) :
    Sorted (insert m key v) := by
  induction m with
  | nil => exact List.pairwise_singleton _ _
  | cons p m ih =>
    obtain ⟨k, w⟩ := p
    obtain ⟨hk, hrest⟩ := sorted_cons_iff.mp hm
    rw [Assoc.insert]
    split
    · rename_i hlt
      refine sorted_cons_iff.mpr ⟨fun key' hkey' => ?_, ih hrest⟩
      rcases mem_keys_insert.mp hkey' with rfl | hmem
      · exact hlt
      · exact hk key' hmem
    · split
      · rename_i heq
        subst heq
        exact sorted_cons_iff.mpr ⟨hk, hrest⟩
      · rename_i hnot hne
        -- neither below nor at the first key, so in front of it
        have hlt : key < k := by
          exact Std.lt_of_le_of_ne (String.not_lt.mp hnot) (Ne.symm hne)
        refine sorted_cons_iff.mpr ⟨fun key' hkey' => ?_, hm⟩
        rcases List.mem_cons.mp hkey' with rfl | hmem
        · exact hlt
        · exact String.lt_trans hlt (hk key' hmem)

/-- The first key of a sorted map does not occur again. -/
theorem Sorted.get?_rest {p : String × α} {m : List (String × α)} (hm : Sorted (p :: m)) :
    get? m p.1 = none := by
  rw [get?_eq_none_iff]
  intro hmem
  exact String.lt_irrefl p.1 ((sorted_cons_iff.mp hm).1 p.1 hmem)

/-- No key of a sorted map is below its first one. -/
theorem Sorted.not_lt_head {p : String × α} {m : List (String × α)} (hm : Sorted (p :: m))
    {key : String} (hkey : key ∈ keys (p :: m)) : ¬ key < p.1 := by
  rcases List.mem_cons.mp hkey with rfl | hrest
  · exact String.lt_irrefl _
  · exact String.lt_asymm ((sorted_cons_iff.mp hm).1 key hrest)

/-- **Sorted maps that read alike are alike.** -/
theorem Sorted.ext {m n : List (String × α)} (hm : Sorted m) (hn : Sorted n)
    (h : ∀ key, get? m key = get? n key) : m = n := by
  induction m generalizing n with
  | nil =>
    rcases n with _ | ⟨q, n⟩
    · rfl
    · exact absurd ((mem_keys_congr h q.1).mpr List.mem_cons_self) List.not_mem_nil
  | cons p m ih =>
    rcases n with _ | ⟨q, n⟩
    · exact absurd ((mem_keys_congr h p.1).mp List.mem_cons_self) List.not_mem_nil
    obtain ⟨k, v⟩ := p
    obtain ⟨k', w⟩ := q
    -- each of the two first keys is in the other map, so neither is below the other
    have hk : k = k' :=
      String.le_antisymm
        (String.not_lt.mp (hm.not_lt_head ((mem_keys_congr h k').mpr List.mem_cons_self)))
        (String.not_lt.mp (hn.not_lt_head ((mem_keys_congr h k).mp List.mem_cons_self)))
    subst hk
    have hv : v = w := by
      have hfirst := h k
      rw [get?_cons, get?_cons, if_pos rfl, if_pos rfl] at hfirst
      exact Option.some.inj hfirst
    have hrest : ∀ key, get? m key = get? n key := by
      intro key
      by_cases hkey : k = key
      · subst hkey
        rw [hm.get?_rest, hn.get?_rest]
      · have hread := h key
        rw [get?_cons, get?_cons, if_neg hkey, if_neg hkey] at hread
        exact hread
    rw [hv, ih (sorted_cons_iff.mp hm).2 (sorted_cons_iff.mp hn).2 hrest]

/-! ### Reading from the end -/

/-- The value of the last pair with the key. -/
def last? (m : List (String × α)) (key : String) : Option α :=
  get? m.reverse key

@[simp] theorem last?_nil (key : String) : last? ([] : List (String × α)) key = none := rfl

theorem last?_cons (p : String × α) (m : List (String × α)) (key : String) :
    last? (p :: m) key = (last? m key).or (if p.1 = key then some p.2 else none) := by
  rw [last?, List.reverse_cons, get?_append, get?_cons, get?_nil, last?]

theorem last?_append (m n : List (String × α)) (key : String) :
    last? (m ++ n) key = (last? n key).or (last? m key) := by
  rw [last?, List.reverse_append, get?_append, last?, last?]

theorem last?_mapValues (f : α → β) (m : List (String × α)) (key : String) :
    last? (m.map (fun p => (p.1, f p.2))) key = (last? m key).map f := by
  rw [last?, ← List.map_reverse, get?_mapValues, last?]

theorem mem_of_last? {m : List (String × α)} {key : String} {v : α} (h : last? m key = some v) :
    (key, v) ∈ m :=
  List.mem_reverse.mp (mem_of_get? h)

theorem last?_eq_none_iff {m : List (String × α)} {key : String} :
    last? m key = none ↔ key ∉ keys m := by
  rw [last?, get?_eq_none_iff, keys, List.map_reverse, List.mem_reverse, keys]

theorem exists_last?_of_mem {m : List (String × α)} {key : String} {v : α} (h : (key, v) ∈ m) :
    ∃ w, last? m key = some w := by
  rw [← Option.ne_none_iff_exists', Ne, last?_eq_none_iff, not_not]
  exact mem_keys_iff.mpr ⟨v, h⟩

/-- Where no key occurs twice, the last value under a key is the only one. -/
theorem last?_of_mem {m : List (String × α)} (hm : (keys m).Nodup) {key : String} {v : α}
    (h : (key, v) ∈ m) : last? m key = some v := by
  refine get?_of_mem ?_ (List.mem_reverse.mpr h)
  rw [keys, List.map_reverse, List.nodup_reverse]
  exact hm

/-- Dropping pairs does not change the last value under a key, unless its pair is dropped. -/
theorem last?_filter_of_last? {m : List (String × α)} {p : String × α → Bool} {key : String} {v : α}
    (h : last? m key = some v) (hp : p (key, v) = true) : last? (m.filter p) key = some v := by
  induction m with
  | nil => simp at h
  | cons e m ih =>
    rw [last?_cons] at h
    rw [List.filter_cons]
    rcases hl : last? m key with _ | w
    · -- the first pair is the last one with the key, and it is not dropped
      rw [hl, Option.none_or, Option.ite_none_right_eq_some] at h
      obtain ⟨hk, hv⟩ := h
      have he : e = (key, v) := Prod.ext hk (Option.some.inj hv)
      have hnone : last? (m.filter p) key = none := by
        rw [last?_eq_none_iff] at hl ⊢
        intro hmem
        obtain ⟨w, hw⟩ := mem_keys_iff.mp hmem
        exact hl (mem_keys_iff.mpr ⟨w, List.mem_of_mem_filter hw⟩)
      rw [he, if_pos hp, last?_cons, hnone]
      simp
    · rw [hl, Option.some_or] at h
      have hm := ih (hl.trans h)
      split
      · rw [last?_cons, hm, Option.some_or]
      · exact hm

/-! ### Writing many pairs -/

/-- **The last write counts**, whichever way a pair is written, as long as one write behaves. -/
theorem get?_foldl {put : List (String × α) → String → α → List (String × α)}
    (hput : ∀ m k v key, get? (put m k v) key = if k = key then some v else get? m key)
    (pairs m : List (String × α)) (key : String) :
    get? (pairs.foldl (fun m p => put m p.1 p.2) m) key
      = (last? pairs key).or (get? m key) := by
  induction pairs generalizing m with
  | nil => simp
  | cons p pairs ih =>
    rw [List.foldl_cons, ih, hput, last?_cons, Option.or_assoc]
    by_cases hk : p.1 = key <;> simp [hk]

theorem get?_ofList (pairs : List (String × α)) (key : String) :
    get? (ofList pairs) key = last? pairs key := by
  have h := get?_foldl (fun m k v key => get?_insert m k key v) pairs [] key
  rw [get?_nil, Option.or_none] at h
  exact h

theorem sorted_ofList (pairs : List (String × α)) : Sorted (ofList pairs) := by
  have hfrom : ∀ m : List (String × α), Sorted m →
      Sorted (pairs.foldl (fun m p => insert m p.1 p.2) m) := by
    induction pairs with
    | nil => exact fun m hm => hm
    | cons p pairs ih => exact fun m hm => ih _ (hm.insert p.1 p.2)
  exact hfrom [] List.Pairwise.nil

theorem Sorted.nodup {m : List (String × α)} (hm : Sorted m) : (keys m).Nodup := by
  refine List.Pairwise.imp ?_ hm
  rintro key _ hlt rfl
  exact String.lt_irrefl key hlt

/-- Nothing is collected that is not among the pairs. -/
theorem mem_of_mem_ofList {pairs : List (String × α)} {p : String × α} (h : p ∈ ofList pairs) :
    p ∈ pairs := by
  have hget : get? (ofList pairs) p.1 = some p.2 := get?_of_mem (sorted_ofList pairs).nodup h
  rw [get?_ofList] at hget
  exact mem_of_last? hget

/-- A sorted map is the map of its pairs. -/
theorem ofList_of_sorted {m : List (String × α)} (hm : Sorted m) : ofList m = m := by
  refine (sorted_ofList m).ext hm fun key => ?_
  rw [get?_ofList]
  rcases hget : get? m key with _ | v
  · rw [last?_eq_none_iff, ← get?_eq_none_iff, hget]
  · exact last?_of_mem hm.nodup (mem_of_get? hget)

/-- Values can be reworked before or after the pairs are collected. -/
theorem ofList_mapValues (f : α → β) (pairs : List (String × α)) :
    ofList (mapValues f pairs) = mapValues f (ofList pairs) := by
  have hsorted : Sorted (mapValues f (ofList pairs)) := by
    rw [Sorted, keys, mapValues, List.map_map]
    exact sorted_ofList pairs
  refine (sorted_ofList _).ext hsorted fun key => ?_
  rw [get?_ofList, mapValues, last?_mapValues, mapValues, get?_mapValues, get?_ofList]

/-- **The order of pairs does not matter** to a sorted map if no key has two values among them. -/
theorem ofList_perm {pairs pairs' : List (String × α)} (hperm : pairs.Perm pairs')
    (hvalue : ∀ key v w, (key, v) ∈ pairs → (key, w) ∈ pairs → v = w) :
    ofList pairs = ofList pairs' := by
  refine (sorted_ofList pairs).ext (sorted_ofList pairs') fun key => ?_
  rw [get?_ofList, get?_ofList]
  rcases hlast : last? pairs key with _ | v
  · rw [last?_eq_none_iff] at hlast
    exact (last?_eq_none_iff.mpr fun hmem => hlast ((hperm.map Prod.fst).mem_iff.mpr hmem)).symm
  · have hv := mem_of_last? hlast
    obtain ⟨w, hlast'⟩ := exists_last?_of_mem (hperm.mem_iff.mp hv)
    have hw := hperm.mem_iff.mpr (mem_of_last? hlast')
    rw [hlast', hvalue key v w hv hw]

/-- Put pairs into a map that is kept in document order, one after the other. -/
def setAll (m pairs : List (String × α)) : List (String × α) :=
  pairs.foldl (fun m p => set m p.1 p.2) m

@[simp] theorem setAll_nil (m : List (String × α)) : setAll m [] = m := rfl

@[simp] theorem setAll_cons (m : List (String × α)) (p : String × α) (pairs : List (String × α)) :
    setAll m (p :: pairs) = setAll (set m p.1 p.2) pairs := rfl

theorem setAll_append (m pairs more : List (String × α)) :
    setAll m (pairs ++ more) = setAll (setAll m pairs) more :=
  List.foldl_append

theorem get?_setAll (m pairs : List (String × α)) (key : String) :
    get? (setAll m pairs) key = (last? pairs key).or (get? m key) :=
  get?_foldl (fun m k v key => get?_set m k key v) pairs m key

theorem set_ne_nil (m : List (String × α)) (key : String) (v : α) : set m key v ≠ [] := by
  rcases m with _ | ⟨⟨k, w⟩, m⟩
  · exact List.cons_ne_nil _ _
  · rw [set]
    split <;> exact List.cons_ne_nil _ _

theorem setAll_eq_nil_iff {m pairs : List (String × α)} :
    setAll m pairs = [] ↔ m = [] ∧ pairs = [] := by
  induction pairs generalizing m with
  | nil => simp
  | cons p pairs ih => simp [ih, set_ne_nil]

theorem isEmpty_setAll_nil (pairs : List (String × α)) :
    (setAll [] pairs).isEmpty = pairs.isEmpty := by
  rw [Bool.eq_iff_iff, List.isEmpty_iff, List.isEmpty_iff, setAll_eq_nil_iff]
  simp

theorem mem_of_mem_set {m : List (String × α)} {key : String} {v : α} {p : String × α}
    (h : p ∈ set m key v) : p ∈ m ∨ p = (key, v) := by
  induction m with
  | nil => exact Or.inr (List.mem_singleton.mp h)
  | cons q m ih =>
    rw [set] at h
    split at h
    · rcases List.mem_cons.mp h with rfl | hm
      · exact Or.inr rfl
      · exact Or.inl (List.mem_cons_of_mem q hm)
    · rcases List.mem_cons.mp h with rfl | hm
      · exact Or.inl List.mem_cons_self
      · exact (ih hm).imp_left (List.mem_cons_of_mem q)

/-- Nothing is in a map that has not been written. -/
theorem mem_of_mem_setAll {m pairs : List (String × α)} {p : String × α}
    (h : p ∈ setAll m pairs) : p ∈ m ∨ p ∈ pairs := by
  induction pairs generalizing m with
  | nil => exact Or.inl h
  | cons q pairs ih =>
    rcases ih h with hset | hpairs
    · rcases mem_of_mem_set hset with hm | rfl
      · exact Or.inl hm
      · exact Or.inr List.mem_cons_self
    · exact Or.inr (List.mem_cons_of_mem q hpairs)

/-! ### The order of the keys -/

/-- A new key goes to the end. -/
theorem set_of_not_mem {m : List (String × α)} {key : String} (h : key ∉ keys m) (v : α) :
    set m key v = m ++ [(key, v)] := by
  induction m with
  | nil => rfl
  | cons p m ih =>
    obtain ⟨k, w⟩ := p
    rw [keys_cons, List.mem_cons, not_or] at h
    rw [set, if_neg (fun he => h.1 he.symm), ih h.2, List.cons_append]

/-- A key that is there keeps its place. -/
theorem keys_set_of_mem {m : List (String × α)} {key : String} (h : key ∈ keys m) (v : α) :
    keys (set m key v) = keys m := by
  induction m with
  | nil => simp at h
  | cons p m ih =>
    obtain ⟨k, w⟩ := p
    rw [set]
    by_cases hk : k = key
    · rw [if_pos hk, keys_cons, keys_cons, hk]
    · rw [keys_cons, List.mem_cons] at h
      rw [if_neg hk, keys_cons, keys_cons, ih (h.resolve_left (fun he => hk he.symm))]

/-- Which keys a map has after a write, and in which order, depends on its keys alone. -/
theorem keys_set (m : List (String × α)) (key : String) (v : α) :
    keys (set m key v) = if key ∈ keys m then keys m else keys m ++ [key] := by
  split
  case isTrue h => exact keys_set_of_mem h v
  case isFalse h => rw [set_of_not_mem h, keys_append, keys_cons, keys_nil]

theorem nodup_keys_set {m : List (String × α)} (hm : (keys m).Nodup) (key : String) (v : α) :
    (keys (set m key v)).Nodup := by
  by_cases h : key ∈ keys m
  · rw [keys_set_of_mem h]
    exact hm
  · rw [set_of_not_mem h, keys_append]
    refine List.Nodup.append hm (List.nodup_singleton key) ?_
    intro k hk hk'
    rw [List.mem_singleton.mp hk'] at hk
    exact h hk

theorem nodup_keys_setAll {m : List (String × α)} (hm : (keys m).Nodup)
    (pairs : List (String × α)) : (keys (setAll m pairs)).Nodup := by
  induction pairs generalizing m with
  | nil => exact hm
  | cons p pairs ih => exact ih (nodup_keys_set hm p.1 p.2)

/-- Reading pairs into a map in document order leaves no key twice. -/
theorem nodup_keys_ofListInOrder (pairs : List (String × α)) :
    (keys (ofListInOrder pairs)).Nodup :=
  nodup_keys_setAll (m := []) List.nodup_nil pairs

theorem mem_of_mem_ofListInOrder {pairs : List (String × α)} {p : String × α}
    (h : p ∈ ofListInOrder pairs) : p ∈ pairs :=
  (mem_of_mem_setAll (m := []) h).resolve_left List.not_mem_nil

/-- **Pairs with distinct new keys are appended** in the order in which they are written. -/
theorem setAll_of_nodup {m pairs : List (String × α)} (h : (keys (m ++ pairs)).Nodup) :
    setAll m pairs = m ++ pairs := by
  induction pairs generalizing m with
  | nil => simp
  | cons p pairs ih =>
    -- the key is neither in the map yet nor among the pairs still to be written
    have hp : p.1 ∉ keys m := by
      intro hmem
      rw [keys_append, keys_cons] at h
      exact List.disjoint_of_nodup_append h hmem (List.mem_cons_self ..)
    rw [setAll_cons, set_of_not_mem hp, ih (by simpa using h)]
    simp

theorem setAll_nil_of_nodup {pairs : List (String × α)} (h : (keys pairs).Nodup) :
    setAll [] pairs = pairs :=
  setAll_of_nodup (m := []) h

end PipelineConfig.Assoc

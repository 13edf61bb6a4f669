import PipelineConfig.Proofs.CanonicalForm
import PipelineConfig.Proofs.Paths

/-!
# When layers can be regrouped

Three layers of configuration, `a` below `b` below `c`, can be merged from below or from above:
`merge (merge a b) c` or `merge a (merge b c)`. One would like the two to be the same, so that some
of many layers could be merged beforehand. They are not always. A value of `b` that is no mapping
replaces what `a` holds, and a mapping of `c` then replaces that value. Where all three hold
something under a key, the outcome is

| `a` | `b` | `c` | from below | from above |
|---|---|---|---|---|
| mapping | mapping | mapping | merged in turn | merged in turn |
| mapping | other | mapping | the mapping of `c` | the mappings of `a` and `c`, merged |
| other | any | mapping | that of `c`, over a mapping of `b` | the same |
| any | any | other | the value of `c` | the same |

So one line makes a difference: merged from above, `c` has covered the value of `b` before it meets
`a`, and `a` comes through (`PipelineConfig.Mapping.walk?_merge_merge`). The middle layer *severs* the
others there (`PipelineConfig.Mapping.Severs`), and nothing else stands in the way
(`PipelineConfig.Mapping.merge_assoc_of_not_severs`).

Whether layers can be regrouped is decided key by key
(`PipelineConfig.Mapping.merge_assoc_of_values`), and under one key by the table. Only its first line
leads further down, which is why all three layers hold mappings all along a path that matters.
-/

namespace PipelineConfig

/-! ### All paths -/

mutual

/-- The paths that lead to anything inside a value. -/
def Value.paths : Value → List (List String)
  | .mapping entries => entryPaths entries
  | _ => []
termination_by structural v => v

/-- The paths that lead to the values of some entries, or to anything inside them. -/
def entryPaths : List (String × Value) → List (List String)
  | [] => []
  | (key, v) :: rest => [key] :: v.paths.map (key :: ·) ++ entryPaths rest
termination_by structural entries => entries

end

namespace Mapping

variable {a b c a' b' c' m n o : Mapping} {name : String} {path : List String} {v : Value}

theorem mem_entryPaths (h : (name, v) ∈ m) :
    [name] ∈ entryPaths m ∧ ∀ inner ∈ v.paths, name :: inner ∈ entryPaths m := by
  induction m with
  | nil => cases h
  | cons e rest ih =>
    obtain ⟨key, w⟩ := e
    simp only [entryPaths, List.cons_append, List.mem_cons, List.mem_append, List.mem_map]
    rcases List.mem_cons.mp h with heq | hrest
    · obtain ⟨rfl, rfl⟩ := Prod.mk.inj heq
      exact ⟨.inl rfl, fun inner hinner => .inr (.inl ⟨inner, hinner, rfl⟩)⟩
    · obtain ⟨hname, hinside⟩ := ih hrest
      exact ⟨.inr (.inr hname), fun inner hinner => .inr (.inr (hinside inner hinner))⟩

/-- Every path that leads to something is among the paths. -/
theorem mem_entryPaths_of_walk? (h : m.walk? path = some v) : path ∈ entryPaths m := by
  induction path generalizing m with
  | nil => cases h
  | cons name path ih =>
    obtain ⟨rfl, hname⟩ | ⟨inner, hinner, hrest⟩ := walk?_cons_eq_some_iff.mp h
    · exact (mem_entryPaths (Assoc.mem_of_get? hname)).1
    · exact (mem_entryPaths (Assoc.mem_of_get? hinner)).2 path (ih hrest)

/-! ### Where the middle layer severs the others -/

/-- **The middle layer severs the others** at a path: they hold mappings at the end of it, and the
middle one holds something else there. What is held at the end of a path has been reached through
mappings, so all three hold mappings on the way. -/
def Severs (a b c : Mapping) (path : List String) : Prop :=
  (∃ m, a.walk? path = some (.mapping m)) ∧ (∃ m, c.walk? path = some (.mapping m)) ∧
    ∃ v, b.walk? path = some v ∧ v.isMapping = false

instance (v? : Option Value) : Decidable (∃ m, v? = some (.mapping m)) :=
  decidable_of_iff (∃ v ∈ v?, v.isMapping = true) (by
    simp only [Value.isMapping_iff, Option.mem_def]
    constructor
    · rintro ⟨v, hv, m, rfl⟩
      exact ⟨m, hv⟩
    · rintro ⟨m, hm⟩
      exact ⟨_, hm, m, rfl⟩)

instance (a b c : Mapping) (path : List String) : Decidable (a.Severs b c path) :=
  inferInstanceAs (Decidable ((∃ m, a.walk? path = some (.mapping m)) ∧
    (∃ m, c.walk? path = some (.mapping m)) ∧ ∃ v ∈ b.walk? path, v.isMapping = false))

/-- A path that is severed leads to something in the middle layer, so there are finitely many. -/
instance (a b c : Mapping) : Decidable (∀ path, ¬ a.Severs b c path) :=
  decidable_of_iff (∀ path ∈ entryPaths b, ¬ a.Severs b c path) (by
    refine ⟨fun h path hsevers => ?_, fun h path _ => h path⟩
    obtain ⟨v, hv, -⟩ := hsevers.2.2
    exact h path (mem_entryPaths_of_walk? hv) hsevers)

/-- A path that is severed inside mappings is severed. -/
theorem Severs.cons (ha : Assoc.get? a name = some (.mapping a'))
    (hb : Assoc.get? b name = some (.mapping b')) (hc : Assoc.get? c name = some (.mapping c'))
    (h : a'.Severs b' c' path) : a.Severs b c (name :: path) := by
  obtain ⟨⟨m, hm⟩, ⟨o, ho⟩, v, hv, hmapping⟩ := h
  exact ⟨⟨m, walk?_cons_eq_some_iff.mpr (.inr ⟨a', ha, hm⟩)⟩,
    ⟨o, walk?_cons_eq_some_iff.mpr (.inr ⟨c', hc, ho⟩)⟩,
    v, walk?_cons_eq_some_iff.mpr (.inr ⟨b', hb, hv⟩), hmapping⟩

/-- **What a severed path leads to**: if the layers are merged from below, to what the uppermost holds
there, and if they are merged from above, to what the lowest and the uppermost hold together. -/
theorem walk?_merge_merge (ha : a.walk? path = some (.mapping m)) (hb : b.walk? path = some v)
    (hv : v.isMapping = false) (hc : c.walk? path = some (.mapping o)) :
    (merge (merge a b) c).walk? path = some (.mapping o) ∧
      (merge a (merge b c)).walk? path = some (.mapping (merge m o)) := by
  have hab : (merge a b).walk? path = some v := by
    rw [walk?_merge_of_some hb, Value.laidOver_of_not_isMapping hv]
  have hbc : (merge b c).walk? path = some (.mapping o) := by
    rw [walk?_merge_of_some hc, hb, Value.laidOver, Value.merge_of_not_isMapping_below hv]
  constructor
  · rw [walk?_merge_of_some hc, hab, Value.laidOver, Value.merge_of_not_isMapping_below hv]
  · rw [walk?_merge_of_some hbc, ha]
    rfl

end Mapping

/-! ### Regrouping -/

namespace Value

/-- Under a value that is no mapping the values below do not matter. -/
theorem merge_assoc_of_not_isMapping {z : Value} (hz : z.isMapping = false) (x y : Value) :
    (x.merge y).merge z = x.merge (y.merge z) := by
  rw [merge_of_not_isMapping hz, merge_of_not_isMapping hz, merge_of_not_isMapping hz]

/-- A lowest value that is no mapping does not matter. -/
theorem merge_assoc_of_not_isMapping_below {x : Value} (hx : x.isMapping = false) (y z : Value) :
    (x.merge y).merge z = x.merge (y.merge z) := by
  rw [merge_of_not_isMapping_below hx, merge_of_not_isMapping_below hx]

end Value

namespace Mapping

variable {a b c : Mapping}

/-- **Whether layers can be regrouped is decided key by key**, and only where all three hold
something. -/
theorem merge_assoc_of_values (ha : Assoc.Sorted a)
    (h : ∀ key x y z, Assoc.get? a key = some x → Assoc.get? b key = some y →
      Assoc.get? c key = some z → (x.merge y).merge z = x.merge (y.merge z)) :
    merge (merge a b) c = merge a (merge b c) := by
  have hbelow : Assoc.Sorted (merge (merge a b) c) := sorted_merge (sorted_merge ha b) c
  have habove : Assoc.Sorted (merge a (merge b c)) := sorted_merge ha (merge b c)
  refine hbelow.ext habove fun key => ?_
  rw [get?_merge, get?_merge, get?_merge, get?_merge]
  -- where one of the layers holds nothing, no more than one merge is left on either side
  rcases hx : Assoc.get? a key with _ | x <;> rcases hy : Assoc.get? b key with _ | y <;>
    rcases hz : Assoc.get? c key with _ | z
  case some.some.some => exact congrArg some (h key x y z hx hy hz)
  all_goals rfl

/-- **Layers can be regrouped** unless the middle one severs the others: there is no path at which the
lowest and the uppermost layer hold mappings and the middle one holds something else, be it null. -/
theorem merge_assoc_of_not_severs (a b c : Mapping) (ha : a.Canonical)
    (h : ∀ path, ¬ a.Severs b c path) : merge (merge a b) c = merge a (merge b c) := by
  -- by the mappings of the uppermost layer, with the others free, as all three change on the way
  induction c using Mapping.induction_on generalizing a b with
  | step c ih =>
    refine merge_assoc_of_values ha.sorted fun key x y z hx hy hz => ?_
    by_cases hz' : z.isMapping = true
    · by_cases hx' : x.isMapping = true
      · obtain ⟨o, rfl⟩ := Value.isMapping_iff.mp hz'
        obtain ⟨m, rfl⟩ := Value.isMapping_iff.mp hx'
        by_cases hy' : y.isMapping = true
        · obtain ⟨n, rfl⟩ := Value.isMapping_iff.mp hy'
          have hinner : merge (merge m n) o = merge m (merge n o) :=
            ih key o hz m n (ha.get? hx) fun path hpath => h (key :: path) (hpath.cons hx hy hz)
          exact congrArg Value.mapping hinner
        · have hsevers : a.Severs b c [key] :=
            ⟨⟨m, hx⟩, ⟨o, hz⟩, y, hy, Bool.eq_false_iff.mpr hy'⟩
          exact absurd hsevers (h [key])
      · exact Value.merge_assoc_of_not_isMapping_below (Bool.eq_false_iff.mpr hx') y z
    · exact Value.merge_assoc_of_not_isMapping (Bool.eq_false_iff.mpr hz') x y

/-- The middle layer holds null in three places, and it severs nothing: below one of them there is
nothing, above the next one there is a text, and the last one only a text stands below. -/
theorem merge_assoc_of_not_severs_nulls :
    let a : Mapping := [("image", .mapping [("args", .string "-v"), ("name", .string "base")]),
      ("note", .mapping [("by", .string "ci")])]
    let b : Mapping := [("image", .mapping [("args", .null), ("env", .mapping [])]),
      ("level", .null), ("note", .null)]
    let c : Mapping := [("image", .mapping [("args", .mapping []), ("env", .mapping [("A", .null)])]),
      ("level", .mapping [("min", .bool true)]), ("note", .string "none")]
    a.Canonical ∧ (∀ path, ¬ a.Severs b c path) ∧
      merge (merge a b) c = merge a (merge b c) := by
  intro a b c
  have ha : a.Canonical := by
    simp only [a, Mapping.Canonical, Value.Canonical, Value.CanonicalEntries, Assoc.Sorted]
    decide
  have hsevers : ∀ path, ¬ a.Severs b c path := by decide
  exact ⟨ha, hsevers, merge_assoc_of_not_severs a b c ha hsevers⟩

/-- Where the middle layer does sever the others, what the lowest one holds comes back. -/
example :
    let a : Mapping := [("env", .mapping [("A", .bool true)])]
    let b : Mapping := [("env", .null)]
    let c : Mapping := [("env", .mapping [("B", .bool true)])]
    a.Severs b c ["env"] ∧ merge (merge a b) c = c ∧
      merge a (merge b c) = [("env", .mapping [("A", .bool true), ("B", .bool true)])] :=
  ⟨by decide, rfl, rfl⟩

end Mapping

end PipelineConfig

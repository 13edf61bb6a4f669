import PipelineConfig.Proofs.Merge

/-!
# Canonical form

A mapping is a list of entries whose keys ascend, and so are all mappings inside it. The type of
values does not say so; `PipelineConfig.Value.Canonical` does. This file shows that whatever is built
from canonical values is canonical again.

Read at its keys, a canonical mapping is one that is sorted and holds canonical values
(`PipelineConfig.Mapping.canonical_iff_get?`). In this form it does not matter where in the list an
operation puts an entry, and each of the laws below is read off what the operation does to a key. The
one that needs an induction is that of merging, since mappings inside mappings are merged in turn
(`PipelineConfig.Value.Canonical.merge`).
-/

namespace PipelineConfig

namespace Value

/-- Induction on a value, with the hypothesis for everything that stands directly in a collection. -/
@[elab_as_elim]
theorem induction_on {motive : Value → Prop} (v : Value) (null : motive .null)
    (bool : ∀ b, motive (.bool b)) (int : ∀ n, motive (.int n)) (float : ∀ x, motive (.float x))
    (string : ∀ s, motive (.string s))
    (sequence : ∀ items, (∀ v ∈ items, motive v) → motive (.sequence items))
    (mapping : ∀ entries, (∀ e ∈ entries, motive e.2) → motive (.mapping entries)) : motive v :=
  @Value.rec motive (fun items => ∀ v ∈ items, motive v) (fun entries => ∀ e ∈ entries, motive e.2)
    (fun e => motive e.2) null bool int float string sequence mapping
    (List.forall_mem_nil _) (fun _ _ hv hitems => List.forall_mem_cons.mpr ⟨hv, hitems⟩)
    (List.forall_mem_nil _) (fun _ _ he hentries => List.forall_mem_cons.mpr ⟨he, hentries⟩)
    (fun _ _ hv => hv) v

theorem canonicalItems_iff {items : List Value} :
    CanonicalItems items ↔ ∀ v ∈ items, v.Canonical := by
  induction items with
  | nil => simp [CanonicalItems]
  | cons v items ih => rw [CanonicalItems, ih, List.forall_mem_cons]

theorem canonicalEntries_iff {entries : List (String × Value)} :
    CanonicalEntries entries ↔ ∀ e ∈ entries, e.2.Canonical := by
  induction entries with
  | nil => simp [CanonicalEntries]
  | cons e entries ih => rw [CanonicalEntries, ih, List.forall_mem_cons]

end Value

namespace Mapping

/-- Induction on a mapping, with the hypothesis for the mappings that stand in it under a key. -/
@[elab_as_elim]
theorem induction_on {motive : Mapping → Prop} (m : Mapping)
    (step : ∀ m : Mapping,
      (∀ key inner, Assoc.get? m key = some (.mapping inner) → motive inner) → motive m) :
    motive m := by
  -- said of all values, as the induction principle of values has nothing to say of mappings alone
  have hvalue : ∀ v : Value, ∀ m, v = .mapping m → motive m := by
    intro v
    induction v using Value.induction_on with
    | mapping entries ih =>
      rintro m ⟨⟩
      exact step entries fun key inner h => ih (key, .mapping inner) (Assoc.mem_of_get? h) inner rfl
    | _ =>
      rintro m ⟨⟩
  exact hvalue (.mapping m) m rfl

variable {m : Mapping} {key : String} {v : Value}

theorem canonical_iff : m.Canonical ↔ Assoc.Sorted m ∧ ∀ e ∈ m, e.2.Canonical := by
  rw [Mapping.Canonical, Value.Canonical, Value.canonicalEntries_iff]

/-- **A canonical mapping, read at its keys**, is sorted and holds canonical values. -/
theorem canonical_iff_get? : m.Canonical ↔
    Assoc.Sorted m ∧ ∀ key v, Assoc.get? m key = some v → v.Canonical := by
  rw [canonical_iff]
  refine and_congr_right fun hm => ⟨fun h key v hv => ?_, fun h e he => ?_⟩
  · exact h (key, v) (Assoc.mem_of_get? hv)
  · exact h e.1 e.2 (Assoc.get?_of_mem hm.nodup he)

theorem Canonical.sorted (h : m.Canonical) : Assoc.Sorted m :=
  (canonical_iff_get?.mp h).1

theorem Canonical.get? (h : m.Canonical) (hv : Assoc.get? m key = some v) : v.Canonical :=
  (canonical_iff_get?.mp h).2 key v hv

theorem canonical_nil : Canonical [] :=
  canonical_iff.mpr ⟨List.Pairwise.nil, List.forall_mem_nil _⟩

/-! ### Single entries -/

theorem Canonical.insert (h : m.Canonical) (key : String) (hv : v.Canonical) :
    Canonical (Assoc.insert m key v) := by
  refine canonical_iff_get?.mpr ⟨h.sorted.insert key v, fun key' w hw => ?_⟩
  rw [Assoc.get?_insert] at hw
  split at hw
  · obtain rfl := Option.some.inj hw
    exact hv
  · exact h.get? hw

/-- Dropping entries leaves a canonical mapping. -/
theorem Canonical.filter (h : m.Canonical) (p : String × Value → Bool) :
    Canonical (m.filter p) := by
  obtain ⟨hsorted, hvalues⟩ := canonical_iff.mp h
  have hkeys : (Assoc.keys (m.filter p)).Sublist (Assoc.keys m) :=
    List.filter_sublist.map Prod.fst
  exact canonical_iff.mpr ⟨hsorted.sublist hkeys, fun e he => hvalues e (List.mem_of_mem_filter he)⟩

/-- Pairs with canonical values are collected into a canonical mapping. -/
theorem canonical_ofList {pairs : List (String × Value)} (h : ∀ p ∈ pairs, p.2.Canonical) :
    Canonical (Assoc.ofList pairs) :=
  canonical_iff.mpr ⟨Assoc.sorted_ofList pairs, fun p hp => h p (Assoc.mem_of_mem_ofList hp)⟩

end Mapping

/-! ### Merging -/

/-- **One canonical value laid over another** makes a canonical value. -/
theorem Value.Canonical.merge {below v : Value} (hbelow : below.Canonical) (hv : v.Canonical) :
    (below.merge v).Canonical := by
  induction v using Value.induction_on generalizing below with
  | mapping overlay ih =>
    by_cases hmapping : below.isMapping = true
    · obtain ⟨base, rfl⟩ := Value.isMapping_iff.mp hmapping
      have hover : Mapping.Canonical overlay := hv
      have hbase : Mapping.Canonical base := hbelow
      change (Mapping.merge base overlay).Canonical
      refine Mapping.canonical_iff_get?.mpr
        ⟨Mapping.sorted_merge hbase.sorted overlay, fun key w hw => ?_⟩
      rw [Mapping.get?_merge] at hw
      rcases ho : Assoc.get? overlay key with _ | o
      · rw [ho, Option.map_none, Option.none_or] at hw
        exact hbase.get? hw
      · rw [ho, Option.map_some, Option.some_or] at hw
        obtain rfl := Option.some.inj hw
        rcases hb : Assoc.get? base key with _ | b
        · exact hover.get? ho
        · exact ih (key, o) (Assoc.mem_of_get? ho) (hbase.get? hb) (hover.get? ho)
    · rw [Value.merge_of_not_isMapping_below (Bool.eq_false_iff.mpr hmapping)]
      exact hv
  | _ => rwa [Value.merge_of_not_isMapping rfl]

namespace Mapping

theorem Canonical.merge {base overlay : Mapping} (hbase : base.Canonical)
    (hover : overlay.Canonical) : (base.merge overlay).Canonical := by
  have hbelow : (Value.mapping base).Canonical := hbase
  exact hbelow.merge hover

/-- A pile of canonical mappings makes a canonical mapping. -/
theorem canonical_foldl_merge {sources : List Mapping} (h : ∀ m ∈ sources, m.Canonical) :
    (sources.foldl merge []).Canonical := by
  induction sources using List.reverseRecOn with
  | nil => exact canonical_nil
  | append_singleton below m ih =>
    rw [List.foldl_concat]
    have hbelow := ih fun n hn => h n (List.mem_append_left _ hn)
    exact hbelow.merge (h m (List.mem_append_right _ (List.mem_singleton_self m)))

end Mapping

end PipelineConfig

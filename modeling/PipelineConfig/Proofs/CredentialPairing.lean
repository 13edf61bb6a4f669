import PipelineConfig.Proofs.Calls
import PipelineConfig.Proofs.Masking

/-!
# Which credential belongs to which bundle

Three settings of a family of credentials go side by side: the bundles, the keys that are wanted of
each, and what the variables begin with. They are meant to go together by position, and each of
them may be a scalar, a sequence, or a sequence with gaps, that is with items that say nothing.

What is meant for a position is `PipelineConfig.Credentials.Meant`. A lookup closes the gaps among the
bundles first. So it takes the keys and the beginnings for a position from another one, the number
of bundles before it (`PipelineConfig.CredentialFamily.rank`); and where the beginnings have a gap it
takes none, even if there is one by default. With a store that always answers, the variables are
exactly those that come about in this way (`PipelineConfig.Credentials.exportsExactly_exported`).

So the meaning is met if for all positions both ways give the same keys with the same beginnings
(`PipelineConfig.CredentialFamily.Aligned`), as they do where there are no gaps. A bundle which can be
told from the others by a location of its own needs this, too
(`PipelineConfig.Credentials.exportsExactly_meant_iff`).
-/

namespace PipelineConfig

/-! ### Lookups that succeed -/

/-- What a key-value store has under each path, if anything. -/
abbrev SecretStore := String → Option SecretData

/-- Whatever is read is what a store has. -/
def Respondent.Serves {σ : Type} (reply : Respondent σ) (store : SecretStore) : Prop :=
  ∀ path w, (reply (.read path) w).1 = Answer.found (store path)

theorem Respondent.ofShelf_serves (store : SecretStore)
    (issuer : List String → Answer (List (String × String))) :
    (ofShelf (fun path => .found (store path)) issuer).Serves store :=
  fun _ _ => rfl

theorem SecretRun.cancelled_performAll (s : SecretRun) (es : List SecretEvent) :
    (s.performAll es).cancelled = s.cancelled := by
  induction es generalizing s with
  | nil => rfl
  | cons e es ih =>
    rw [performAll_cons, ih]
    cases e <;> rfl

namespace Lookup

variable {σ α β : Type} {reply : Respondent σ}

/-- From wherever it begins, a lookup has a certain result, and does not see the cancellation fired
if it was not fired before. -/
def Yields (reply : Respondent σ) (l : Lookup α) (a : α) : Prop :=
  ∀ s w, s.cancelled = false →
    ∃ s' w', l.carried reply s w = ⟨.ok a, s', w'⟩ ∧ s'.cancelled = false

theorem yields_pure (a : α) : (pure a : Lookup α).Yields reply a :=
  fun s w hs => ⟨s, w, carried_pure reply s w a, hs⟩

theorem Yields.bind {l : Lookup α} {f : α → Lookup β} {a : α} {b : β} (hl : l.Yields reply a)
    (hf : (f a).Yields reply b) : (l >>= f).Yields reply b := by
  intro s w hs
  obtain ⟨t, w', hfirst, ht⟩ := hl s w hs
  obtain ⟨u, w'', hsecond, hu⟩ := hf t w' ht
  exact ⟨u, w'', by rw [carried_bind, hfirst]; exact hsecond, hu⟩

theorem yields_checkpoint : checkpoint.Yields reply () := by
  intro s w hs
  refine ⟨s, w, ?_, hs⟩
  rw [checkpoint, carried_bind]
  simp [hs]

theorem yields_await_read {store : SecretStore} (h : reply.Serves store) (path : String) :
    (await (ask (.read path))).Yields reply (store path) := by
  intro s w hs
  refine ⟨s, (reply (.read path) w).2, ?_, hs⟩
  rw [(carried_await (carried_ask reply s w (.read path))).1, h path w]
  rfl

end Lookup

namespace CredentialFamily

/-! ### Positions -/

/-- What a setting names at a position: a scalar is at the first one. -/
def itemAt? : Option Value → Nat → Option String
  | some (.sequence items), position => items[position]?.bind Value.scalarText?
  | some v, 0 => v.scalarText?
  | _, _ => none

/-- How much a setting names before a position. -/
def namedBefore : Option Value → Nat → Nat
  | some (.sequence items), position => ((items.take position).filterMap Value.scalarText?).length
  | _, _ => 0

variable (f : CredentialFamily) (config : Mapping) (position : Nat)

/-- The bundle at a position. -/
def bundle? : Option String :=
  itemAt? (Assoc.get? config f.pathKey) position

/-- Where the bundle at a position stands among the bundles, when there are no gaps any more. -/
def rank : Nat :=
  namedBefore (Assoc.get? config f.pathKey) position

/-- The keys that are wanted of a bundle at a position. -/
def keys : List String :=
  Credentials.keysAt (Assoc.get? config f.keysKey) position

/-- What the configuration itself says the variables for a position begin with; a scalar is for all
positions. -/
def statedPrefix? : Option String :=
  match Assoc.get? config f.prefixKey with
  | some (.sequence items) => items[position]?.bind Value.scalarText?
  | some v => v.scalarText?
  | none => none

/-- What the variables for a position are meant to begin with: what is stated for it, or else the
default, and what they begin with in any case. -/
def meantPrefixes : List String :=
  ((f.statedPrefix? config position).or f.default?).toList ++ f.always?.toList

/-- **The bundle at a position gets what is meant for it**: the keys and beginnings for where it stands
among the bundles are those for its position. -/
def Aligned : Prop :=
  ∀ key start,
    (key ∈ f.keys config (f.rank config position) ∧
        start ∈ Credentials.prefixesAt f config (f.rank config position)) ↔
      (key ∈ f.keys config position ∧ start ∈ f.meantPrefixes config position)

end CredentialFamily

namespace Credentials

open Lookup CredentialFamily

/-! ### What is meant -/

section Meaning

variable (config : Mapping) (store : SecretStore)

/-- The secret of a bundle: the first one at its locations. -/
def secretOf? (bundle : String) : Option SecretData :=
  (locations config bundle).findSome? store

/-- A bundle gives a variable, some keys and beginnings being meant for it: its secret has the value
under one of the keys, which the name has behind one of the beginnings. -/
def Gives (bundle : String) (keys starts : List String) (e : CredentialExport) : Prop :=
  ∃ data key start, secretOf? config store bundle = some data ∧ (key ∈ keys ∧ start ∈ starts) ∧
    Assoc.get? data key = some e.value ∧ e.name = start ++ variableName key

/-- **A variable is meant to be exported**: the bundle at some position gives it, with the keys and
the beginnings for this position. -/
def Meant (e : CredentialExport) : Prop :=
  ∃ f ∈ families, ∃ position bundle, f.bundle? config position = some bundle ∧
    Gives config store bundle (f.keys config position) (f.meantPrefixes config position) e

/-- **A variable is exported**: the bundle at some position gives it, but with the keys and the
beginnings for where it stands among the bundles. -/
def Exported (e : CredentialExport) : Prop :=
  ∃ f ∈ families, ∃ position bundle, f.bundle? config position = some bundle ∧
    Gives config store bundle (f.keys config (f.rank config position))
      (prefixesAt f config (f.rank config position)) e

/-- With a store that always answers, exactly the variables that are wanted are exported. -/
def ExportsExactly (wanted : CredentialExport → Prop) : Prop :=
  ∀ (σ : Type) (reply : Respondent σ) (issuer : Bool) (s : SecretRun) (w : σ),
    reply.Serves store → s.cancelled = false →
      ∃ found, ((exports ⟨true, issuer⟩ config).carried reply s w).result = .ok found ∧
        ∀ e, e ∈ found ↔ wanted e

end Meaning

variable {config : Mapping} {store : SecretStore}

theorem gives_congr {keys starts keys' starts' : List String}
    (h : ∀ key start, (key ∈ keys ∧ start ∈ starts) ↔ (key ∈ keys' ∧ start ∈ starts'))
    (bundle : String) (e : CredentialExport) :
    Gives config store bundle keys starts e ↔ Gives config store bundle keys' starts' e := by
  simp only [Gives, h]

theorem mem_exportsOf {data : SecretData} {keys starts : List String} {e : CredentialExport} :
    e ∈ exportsOf data keys starts ↔ ∃ key start, (key ∈ keys ∧ start ∈ starts) ∧
      Assoc.get? data key = some e.value ∧ e.name = start ++ variableName key := by
  rw [exportsOf, List.mem_flatMap]
  constructor
  · rintro ⟨key, hkey, he⟩
    rcases hget : Assoc.get? data key with _ | v
    · simp [hget] at he
    · rw [hget, List.mem_map] at he
      obtain ⟨start, hstart, rfl⟩ := he
      exact ⟨key, start, ⟨hkey, hstart⟩, hget, rfl⟩
  · obtain ⟨name, v⟩ := e
    rintro ⟨key, start, ⟨hkey, hstart⟩, hget, rfl⟩
    refine ⟨key, hkey, ?_⟩
    rw [hget, List.mem_map]
    exact ⟨start, hstart, rfl⟩

/-! ### What is exported -/

section Running

/-- The variables of a bundle that stands at a place among the bundles. -/
def share (config : Mapping) (store : SecretStore) (f : CredentialFamily) (place : Nat)
    (bundle : String) : List CredentialExport :=
  match secretOf? config store bundle with
  | some data => exportsOf data (f.keys config place) (prefixesAt f config place)
  | none => []

/-- The variables of a family. -/
def familyShare (config : Mapping) (store : SecretStore) (f : CredentialFamily) :
    List CredentialExport :=
  (textList (Assoc.get? config f.pathKey)).zipIdx.flatMap fun b => share config store f b.2 b.1

theorem mem_share {f : CredentialFamily} {place : Nat} {bundle : String} {e : CredentialExport} :
    e ∈ share config store f place bundle ↔
      Gives config store bundle (f.keys config place) (prefixesAt f config place) e := by
  rw [share, Gives]
  rcases secretOf? config store bundle with _ | data
  · simp
  · simp [mem_exportsOf]

variable {σ : Type} {reply : Respondent σ}

theorem yields_firstSecret (h : reply.Serves store) (paths : List String) :
    (firstSecret paths).Yields reply (paths.findSome? store) := by
  induction paths with
  | nil => exact yields_pure none
  | cons path rest ih =>
    refine (yields_await_read h path).bind ?_
    rw [List.findSome?_cons]
    rcases store path with _ | data
    · exact ih
    · exact yields_pure (some data)

/-- The bundles from a place on give what each of them gives. -/
theorem yields_bundleExports (h : reply.Serves store) (f : CredentialFamily) (place : Nat)
    (bundles : List String) :
    (bundleExports f config place bundles).Yields reply
      ((bundles.zipIdx place).flatMap fun b => share config store f b.2 b.1) := by
  induction bundles generalizing place with
  | nil => exact yields_pure []
  | cons bundle rest ih =>
    have hmore : ∀ found : List CredentialExport,
        (bundleExports f config (place + 1) rest >>= fun more => pure (found ++ more)).Yields reply
          (found ++ (rest.zipIdx (place + 1)).flatMap fun b => share config store f b.2 b.1) :=
      fun found => (ih (place + 1)).bind (yields_pure _)
    rw [bundleExports, List.zipIdx_cons, List.flatMap_cons]
    split
    case isTrue hkeys =>
      -- without keys the bundle would not give anything either
      have hnil : share config store f place bundle = [] := by
        rw [share, CredentialFamily.keys, List.isEmpty_iff.mp hkeys]
        rcases secretOf? config store bundle with _ | data <;> rfl
      rw [hnil]
      exact (yields_pure []).bind (hmore [])
    case isFalse =>
      refine (yields_firstSecret h (locations config bundle)).bind ?_
      rw [share, secretOf?]
      rcases (locations config bundle).findSome? store with _ | data
      · exact (yields_pure []).bind (hmore [])
      · exact (yields_pure _).bind (hmore _)

theorem yields_familyExports (h : reply.Serves store) (f : CredentialFamily) :
    (familyExports config f).Yields reply (familyShare config store f) := by
  refine yields_checkpoint.bind ((yields_bundleExports h f 0 _).bind ?_)
  refine Yields.bind (a := ⟨⟩) (fun s w hs => ?_) (yields_pure _)
  exact ⟨_, _, carried_forM_masked _ s w, (SecretRun.cancelled_performAll s _).trans hs⟩

theorem yields_exportsOfFamilies (h : reply.Serves store) (config : Mapping)
    (fs : List CredentialFamily) :
    (exportsOfFamilies config fs).Yields reply (fs.flatMap (familyShare config store)) := by
  induction fs with
  | nil => exact yields_pure []
  | cons f rest ih =>
    rw [List.flatMap_cons]
    exact (yields_familyExports h f).bind (ih.bind (yields_pure _))

end Running

/-! ### Positions and places -/

/-- What stands at a place after the gaps have been closed stood at some position, and so much was
before it. -/
theorem getElem?_filterMap_eq_some_iff {α β : Type} {g : α → Option β} {items : List α}
    {place : Nat} {b : β} :
    (items.filterMap g)[place]? = some b ↔ ∃ position, items[position]?.bind g = some b ∧
      ((items.take position).filterMap g).length = place := by
  induction items generalizing place with
  | nil => simp
  | cons a items ih =>
    -- either it is the first one, or it is among the others
    have hsplit : (∃ position, (a :: items)[position]?.bind g = some b ∧
          (((a :: items).take position).filterMap g).length = place) ↔
        (g a = some b ∧ place = 0) ∨ ∃ position, items[position]?.bind g = some b ∧
          ((a :: items.take position).filterMap g).length = place := by
      constructor
      · rintro ⟨_ | position, hitem, hplace⟩
        · exact Or.inl ⟨hitem, hplace.symm⟩
        · exact Or.inr ⟨position, hitem, hplace⟩
      · rintro (⟨hitem, rfl⟩ | ⟨position, hitem, hplace⟩)
        · exact ⟨0, hitem, rfl⟩
        · exact ⟨position + 1, hitem, hplace⟩
    rw [hsplit]
    rcases hg : g a with _ | b'
    · simp [hg, ih]
    · rcases place with _ | place
      · simp [hg]
      · simp [hg, ih]

/-- A bundle that stands at a place among the bundles is at a position with that place. -/
theorem getElem?_textList_eq_some_iff {setting? : Option Value} {place : Nat} {bundle : String} :
    (textList setting?)[place]? = some bundle ↔
      ∃ position, itemAt? setting? position = some bundle ∧ namedBefore setting? position = place := by
  have hscalar : ∀ text? : Option String, text?.toList[place]? = some bundle ↔
      text? = some bundle ∧ place = 0 := by
    rintro (_ | text)
    · simp
    · rcases place with _ | place <;> simp
  rcases setting? with _ | v
  · simp [textList, itemAt?]
  · cases v with
    | sequence items => exact getElem?_filterMap_eq_some_iff
    | _ =>
      rw [textList, hscalar]
      · constructor
        · rintro ⟨htext, rfl⟩
          exact ⟨0, htext, rfl⟩
        · rintro ⟨_ | position, htext, rfl⟩
          · exact ⟨htext, rfl⟩
          · cases htext
      · simp

theorem mem_familyShare {f : CredentialFamily} {e : CredentialExport} :
    e ∈ familyShare config store f ↔
      ∃ position bundle, f.bundle? config position = some bundle ∧
        Gives config store bundle (f.keys config (f.rank config position))
          (prefixesAt f config (f.rank config position)) e := by
  simp only [familyShare, List.mem_flatMap, Prod.exists, List.mk_mem_zipIdx_iff_getElem?,
    getElem?_textList_eq_some_iff, mem_share]
  constructor
  · rintro ⟨bundle, _, ⟨position, hbundle, rfl⟩, hgives⟩
    exact ⟨position, bundle, hbundle, hgives⟩
  · rintro ⟨position, bundle, hbundle, hgives⟩
    exact ⟨bundle, _, ⟨position, hbundle, rfl⟩, hgives⟩

/-- **What is exported**, whoever replies out of a store that always answers. -/
theorem exportsExactly_exported (config : Mapping) (store : SecretStore) :
    ExportsExactly config store (Exported config store) := by
  intro σ reply issuer s w h hs
  obtain ⟨t, w', hrun, -⟩ := yields_exportsOfFamilies h config families s w hs
  refine ⟨families.flatMap (familyShare config store), ?_, fun e => ?_⟩
  · rw [exports, if_pos rfl, hrun]
  · simp only [List.mem_flatMap, mem_familyShare, Exported]

/-- The second bundle of tests is found, but the beginnings end with the first one. -/
example :
    let config : Mapping :=
      [("vaultPath", .string "team"), ("vaultTestCredentialEnvPrefix", .sequence [.string "A_"]),
        ("vaultTestCredentialKeys", .string "user"),
        ("vaultTestCredentialPath", .sequence [.string "a", .string "b"])]
    let reply := Respondent.ofShelf (fun _ => .found (some [("user", "root")])) (fun _ => .found [])
    let s := SecretRun.start ⟨[], []⟩
    ((exports ⟨true, false⟩ config).carried reply s (.empty "secrets")).result
      = .ok [⟨"A_USER", "root"⟩] := by
  decide +kernel

/-- So something else is exported only if it amounts to the same. -/
theorem ExportsExactly.iff {wanted wanted' : CredentialExport → Prop}
    (h : ExportsExactly config store wanted) (h' : ExportsExactly config store wanted')
    (e : CredentialExport) : wanted e ↔ wanted' e := by
  have hserves := Respondent.ofShelf_serves store (fun _ => .found [])
  have hstart : (SecretRun.start ⟨[], []⟩).cancelled = false := rfl
  obtain ⟨found, hfound, hmem⟩ := h _ _ false _ (SecretShelf.empty "") hserves hstart
  obtain ⟨found', hfound', hmem'⟩ := h' _ _ false _ (SecretShelf.empty "") hserves hstart
  obtain rfl := Except.ok.inj (hfound.symm.trans hfound')
  exact (hmem e).symm.trans (hmem' e)

theorem ExportsExactly.congr {wanted wanted' : CredentialExport → Prop}
    (h : ExportsExactly config store wanted) (hiff : ∀ e, wanted e ↔ wanted' e) :
    ExportsExactly config store wanted' := by
  intro σ reply issuer s w hserves hs
  obtain ⟨found, hfound, hmem⟩ := h σ reply issuer s w hserves hs
  exact ⟨found, hfound, fun e => (hmem e).trans (hiff e)⟩

end Credentials

namespace CredentialFamily

open Credentials

variable {f : CredentialFamily} {config : Mapping} {position : Nat}

/-! ### Where there are no gaps -/

theorem mem_prefixesAt {start : String} :
    start ∈ prefixesAt f config position ↔
      configuredPrefix? f config position = some start ∨ f.always? = some start := by
  rw [prefixesAt, List.mem_append, List.mem_filter, Option.mem_toList, Option.mem_toList]
  by_cases h : configuredPrefix? f config position = some start <;> simp [h]

theorem mem_meantPrefixes {start : String} :
    start ∈ f.meantPrefixes config position ↔
      (f.statedPrefix? config position).or f.default? = some start ∨ f.always? = some start := by
  rw [meantPrefixes, List.mem_append, Option.mem_toList, Option.mem_toList]

/-- The default is taken if the configuration does not say anything, but not where it has a gap. -/
theorem configuredPrefix?_eq_or
    (h : f.statedPrefix? config position = none → f.default? = none ∨
      Assoc.get? config f.prefixKey = none ∨ Assoc.get? config f.prefixKey = some .null) :
    configuredPrefix? f config position = (f.statedPrefix? config position).or f.default? := by
  rw [configuredPrefix?, statedPrefix?] at *
  rcases hsetting : Assoc.get? config f.prefixKey with _ | v
  · rfl
  · rw [hsetting] at h
    have hstated : ∀ {stated? : Option String}, (stated? = none → f.default? = none) →
        stated? = stated?.or f.default? := by
      rintro (_ | stated) hdefault
      · exact (hdefault rfl).symm
      · rfl
    cases v with
    | null => rfl
    | _ => exact hstated fun hnone => by simpa using h hnone

/-- Where everything before has a bundle, the place of a bundle is its position. -/
theorem rank_eq (h : ∀ i ≤ position, f.bundle? config i ≠ none) :
    f.rank config position = position := by
  simp only [bundle?, rank] at *
  generalize Assoc.get? config f.pathKey = setting? at *
  have hscalar : (∀ i ≤ position, i = 0) → 0 = position := fun hi => (hi position le_rfl).symm
  rcases setting? with _ | v
  · exact absurd rfl (h position le_rfl)
  · cases v with
    | sequence items =>
      have hlength : ((items.take position).filterMap Value.scalarText?).length
          = (items.take position).length := by
        rw [List.filterMap_length_eq_length]
        intro v hv
        obtain ⟨i, hi, rfl⟩ := List.mem_take_iff_getElem.mp hv
        have hnamed := h i (by omega)
        rw [itemAt?, List.getElem?_eq_getElem (by omega), Option.bind_some] at hnamed
        exact Option.isSome_iff_ne_none.mpr hnamed
      have hinside : position < items.length := by
        by_contra hout
        refine h position le_rfl ?_
        rw [itemAt?, List.getElem?_eq_none (by omega), Option.bind_none]
      rw [namedBefore, hlength, List.length_take]
      omega
    | _ =>
      refine hscalar fun i hi => ?_
      rcases i with _ | i
      · rfl
      · exact absurd rfl (h (i + 1) hi)

/-- **Without gaps a bundle gets what is meant for it.** -/
theorem aligned_of_no_gaps (hbundles : ∀ i ≤ position, f.bundle? config i ≠ none)
    (hstated : f.statedPrefix? config position = none → f.default? = none ∨
      Assoc.get? config f.prefixKey = none ∨ Assoc.get? config f.prefixKey = some .null) :
    f.Aligned config position := by
  intro key start
  rw [rank_eq hbundles, mem_prefixesAt, mem_meantPrefixes, configuredPrefix?_eq_or hstated]

end CredentialFamily

namespace Credentials

/-! ### Telling bundles apart -/

/-- A store with one secret, whose fields tell their own names. -/
def onlyAt (path : String) (names : List String) : SecretStore :=
  fun path' => if path' = path then some (Assoc.ofList (names.map fun n => (n, n))) else none

variable {config : Mapping} {path : String} {names : List String}

theorem secretOf?_onlyAt (bundle : String) :
    secretOf? config (onlyAt path names) bundle
      = if path ∈ locations config bundle then onlyAt path names path else none := by
  rw [secretOf?]
  induction locations config bundle with
  | nil => rfl
  | cons path' rest ih =>
    rw [List.findSome?_cons, ih]
    by_cases h : path' = path
    · simp [onlyAt, h]
    · simp [onlyAt, h, Ne.symm h]

theorem get?_names_eq_some_iff {key v : String} :
    Assoc.get? (Assoc.ofList (names.map fun n => (n, n))) key = some v ↔ key ∈ names ∧ v = key := by
  rw [Assoc.get?_ofList]
  have honly : ∀ {v}, Assoc.last? (names.map fun n => (n, n)) key = some v →
      key ∈ names ∧ v = key := by
    intro v hv
    obtain ⟨n, hn, heq⟩ := List.mem_map.mp (Assoc.mem_of_last? hv)
    obtain ⟨rfl, rfl⟩ := Prod.mk.inj heq
    exact ⟨hn, rfl⟩
  refine ⟨honly, ?_⟩
  rintro ⟨hkey, rfl⟩
  have hmem : (v, v) ∈ names.map fun n => (n, n) := List.mem_map.mpr ⟨v, hkey, rfl⟩
  obtain ⟨v', hv'⟩ := Assoc.exists_last?_of_mem hmem
  rw [hv', (honly hv').2]

/-- The variable tells its key and its beginning, so it is given if these are meant. -/
theorem gives_onlyAt {bundle key start : String} {keys starts : List String}
    (hpath : path ∈ locations config bundle) (hkey : key ∈ names) :
    Gives config (onlyAt path names) bundle keys starts ⟨start ++ variableName key, key⟩ ↔
      key ∈ keys ∧ start ∈ starts := by
  have hsecret : secretOf? config (onlyAt path names) bundle
      = some (Assoc.ofList (names.map fun n => (n, n))) := by
    rw [secretOf?_onlyAt, if_pos hpath, onlyAt, if_pos rfl]
  constructor
  · rintro ⟨data, key', start', hdata, hmeant, hvalue, hname⟩
    obtain rfl := Option.some.inj (hsecret.symm.trans hdata)
    obtain ⟨-, rfl⟩ := get?_names_eq_some_iff.mp hvalue
    rwa [(String.append_left_inj _).mp hname]
  · intro hmeant
    exact ⟨_, key, start, hsecret, hmeant, get?_names_eq_some_iff.mpr ⟨hkey, rfl⟩, rfl⟩

/-- A position has a location of its own: a location of its bundle at which no other bundle may be. -/
def OwnLocation (config : Mapping) (f : CredentialFamily) (position : Nat) (path : String) : Prop :=
  ∃ bundle, f.bundle? config position = some bundle ∧ path ∈ locations config bundle ∧
    ∀ f' ∈ families, ∀ position' bundle', f'.bundle? config position' = some bundle' →
      path ∈ locations config bundle' → f' = f ∧ position' = position

/-- With its secret alone in the store, a position with a location of its own is the only one that
gives anything, whichever keys and beginnings are taken for each. -/
theorem exists_gives_onlyAt {f : CredentialFamily} (hf : f ∈ families) {position : Nat}
    (hown : OwnLocation config f position path) {key start : String} (hkey : key ∈ names)
    (keys starts : CredentialFamily → Nat → List String) :
    (∃ f' ∈ families, ∃ position' bundle, f'.bundle? config position' = some bundle ∧
      Gives config (onlyAt path names) bundle (keys f' position') (starts f' position')
        ⟨start ++ variableName key, key⟩) ↔
      key ∈ keys f position ∧ start ∈ starts f position := by
  obtain ⟨bundle, hbundle, hpath, honly⟩ := hown
  constructor
  · rintro ⟨f', hf', position', bundle', hbundle', hgives⟩
    have hpath' : path ∈ locations config bundle' := by
      obtain ⟨data, -, -, hdata, -⟩ := hgives
      rw [secretOf?_onlyAt] at hdata
      by_contra hnot
      rw [if_neg hnot] at hdata
      cases hdata
    obtain ⟨rfl, rfl⟩ := honly f' hf' position' bundle' hbundle' hpath'
    exact (gives_onlyAt hpath' hkey).mp hgives
  · intro hmeant
    exact ⟨f, hf, position, bundle, hbundle, (gives_onlyAt hpath hkey).mpr hmeant⟩

/-- If a position with a location of its own always gets what is meant for it, it is aligned: a secret
there with all the keys in question shows which keys are taken, and with which beginnings. -/
theorem aligned_of_exported_iff {f : CredentialFamily} (hf : f ∈ families) {position : Nat}
    (hown : OwnLocation config f position path)
    (h : ∀ store e, Exported config store e ↔ Meant config store e) :
    f.Aligned config position := by
  intro key start
  let names := f.keys config (f.rank config position) ++ f.keys config position
  by_cases hkey : key ∈ names
  · have hboth := h (onlyAt path names) ⟨start ++ variableName key, key⟩
    rw [Exported, Meant, exists_gives_onlyAt hf hown hkey
        (fun f position => f.keys config (f.rank config position))
        (fun f position => prefixesAt f config (f.rank config position)),
      exists_gives_onlyAt hf hown hkey (fun f position => f.keys config position)
        (fun f position => f.meantPrefixes config position)] at hboth
    exact hboth
  · rw [List.mem_append, not_or] at hkey
    simp [hkey.1, hkey.2]

/-- **Bundles, keys and beginnings go together by position** if all bundles are aligned: then exactly
the variables that are meant are exported, whatever the store has. A bundle with a location of its own
has to be aligned for this. One without gaps before it is, unless a beginning is missing for it among
others and there is a default. -/
theorem exportsExactly_meant_iff (config : Mapping) :
    (∀ store, ExportsExactly config store (Exported config store)) ∧
    ((∀ f ∈ families, ∀ position, f.bundle? config position ≠ none → f.Aligned config position) →
      ∀ store, ExportsExactly config store (Meant config store)) ∧
    ((∀ store, ExportsExactly config store (Meant config store)) →
      ∀ f ∈ families, ∀ position path, OwnLocation config f position path →
        f.Aligned config position) ∧
    ∀ f ∈ families, ∀ position, (∀ i ≤ position, f.bundle? config i ≠ none) →
      (f.statedPrefix? config position = none → f.default? = none ∨
        Assoc.get? config f.prefixKey = none ∨ Assoc.get? config f.prefixKey = some .null) →
      f.Aligned config position := by
  refine ⟨exportsExactly_exported config, fun haligned store => ?_,
    fun hmeant f hf position path hown => ?_, fun f _ position =>
      CredentialFamily.aligned_of_no_gaps⟩
  · refine (exportsExactly_exported config store).congr fun e => ?_
    rw [Exported, Meant]
    refine exists_congr fun f => and_congr_right fun hf => exists_congr fun position =>
      exists_congr fun bundle => and_congr_right fun hbundle => ?_
    exact gives_congr (haligned f hf position (by simp [hbundle])) bundle e
  · exact aligned_of_exported_iff hf hown fun store e =>
      (exportsExactly_exported config store).iff (hmeant store) e

/-- Two bundles with keys of their own get what is meant for them. A gap before the second one makes
it lose its keys to those of the gap. -/
theorem exportsExactly_meant_iff_gap :
    let config (bundles : List Value) : Mapping :=
      [("vaultCredentialKeys", .sequence [.sequence [.string "x"], .sequence [.string "user"]]),
        ("vaultCredentialPath", .sequence bundles), ("vaultPath", .string "team"),
        ("vaultTestCredentialKeys", .string "pw"), ("vaultTestCredentialPath", .string "t")]
    let whole := config [.string "a", .string "b"]
    let gap := config [.null, .string "b"]
    (∀ store, ExportsExactly whole store (Meant whole store)) ∧
      OwnLocation gap general 1 "team/b" ∧ ¬ general.Aligned gap 1 ∧
      ¬ ∀ store, ExportsExactly gap store (Meant gap store) := by
  intro config whole gap
  have hown : OwnLocation gap general 1 "team/b" := by
    refine ⟨"b", by decide +kernel, by decide +kernel, fun f hf position bundle hbundle hpath => ?_⟩
    have hcases : f = general ∨ f = tests := by simpa [families] using hf
    rcases hcases with rfl | rfl
    · -- before the second position there is the gap, and behind it there is nothing
      rcases position with _ | _ | position
      · cases hbundle
      · exact ⟨rfl, rfl⟩
      · cases hbundle
    · rcases position with _ | position
      · obtain rfl := Option.some.inj hbundle
        exact absurd hpath (by decide +kernel)
      · cases hbundle
  have hnot : ¬ general.Aligned gap 1 := by
    intro haligned
    exact absurd (haligned "user" "PIPER_VAULTCREDENTIAL_") (by decide +kernel)
  refine ⟨(exportsExactly_meant_iff whole).2.1 fun f hf position hposition => ?_, hown, hnot,
    fun hmeant => hnot ((exportsExactly_meant_iff gap).2.2.1 hmeant general (by decide) 1 _ hown)⟩
  refine (exportsExactly_meant_iff whole).2.2.2 f hf position (fun i hi => ?_) fun _ => ?_
  all_goals have hcases : f = general ∨ f = tests := by simpa [families] using hf
  · rcases hcases with rfl | rfl
    · rcases position with _ | _ | position
      · obtain rfl : i = 0 := by omega
        decide +kernel
      · obtain rfl | rfl : i = 0 ∨ i = 1 := by omega
        · decide +kernel
        · decide +kernel
      · exact absurd rfl hposition
    · rcases position with _ | position
      · obtain rfl : i = 0 := by omega
        decide +kernel
      · exact absurd rfl hposition
  · rcases hcases with rfl | rfl
    · exact Or.inl rfl
    · exact Or.inr (Or.inl rfl)

end Credentials

end PipelineConfig

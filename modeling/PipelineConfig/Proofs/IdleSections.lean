import PipelineConfig.Proofs.Isolation
import PipelineConfig.Proofs.Notes

/-!
# Sections that take no part in the merge

Of a default document the merge takes the general settings and the section of the step; the section
that it may have for the stage is *idle*, and so is every section of another step or another stage.
Documents that differ in idle sections only are the same for the merge
(`PipelineConfig.DocumentSet.SameForMerge`), and they always resolve to the same configuration, or
to the same error.

They need not leave the same notes behind. Aliases are applied to the section of the stage in every
document, before the merge leaves that section out, and a deprecated alias in it is noted. So the
notes are those of the merge only if no such use is the first of its name – or if it is, when the
merge would note the same use next anyway. This is what `PipelineConfig.Unobtrusive` says, and it is
exactly what is needed (`PipelineConfig.firstUses_merged_iff`).
-/

namespace PipelineConfig

/-! ### The same documents for the merge -/

/-- Two documents below the project configuration bring the same to the merge. -/
structure ConfigDocument.SameBelow (r : Request) (d d' : ConfigDocument) : Prop where
  general : d.general = d'.general
  step : d.stepSection? r.step = d'.stepSection? r.step
  hooks : d.hooks = d'.hooks

/-- Two project configurations bring the same to the merge. -/
structure ConfigDocument.SameOnTop (r : Request) (d d' : ConfigDocument) : Prop
    extends ConfigDocument.SameBelow r d d' where
  stage : d.stageSection? r.stage = d'.stageSection? r.stage

/-- **Two sets of documents are the same for the merge**: they differ at most in the sections for
stages of default and custom default documents, in sections of other steps and other stages, and in
custom default documents if these are ignored. -/
structure DocumentSet.SameForMerge (r : Request) (ds ds' : DocumentSet) : Prop where
  project : ds.project.SameOnTop r ds'.project
  defaults : List.Forall₂ (ConfigDocument.SameBelow r) ds.defaults ds'.defaults
  customDefaults : r.ignoreCustomDefaults = false →
    List.Forall₂ (ConfigDocument.SameBelow r) ds.customDefaults ds'.customDefaults

namespace Request

variable {r : Request} {ds ds' : DocumentSet}

theorem forall₂_sameBelow (h : ds.SameForMerge r ds') :
    List.Forall₂ (ConfigDocument.SameBelow r) (r.defaultDocuments ds) (r.defaultDocuments ds') := by
  rw [defaultDocuments, defaultDocuments]
  refine List.rel_append h.defaults ?_
  split
  · exact List.Forall₂.nil
  · rename_i hignore
    exact h.customDefaults (by simpa using hignore)

theorem sources_congr (h : ds.SameForMerge r ds') (env : Environment) :
    r.sources ds env = r.sources ds' env := by
  have hdefaults : (r.defaultDocuments ds).flatMap r.defaultSources
      = (r.defaultDocuments ds').flatMap r.defaultSources := by
    rw [List.flatMap_def, List.flatMap_def, map_eq_of_forall₂ (forall₂_sameBelow h) fun d d' hd => ?_]
    rw [defaultSources, defaultSources, hd.general, hd.step]
  have hproject : r.projectSources ds.project = r.projectSources ds'.project := by
    rw [projectSources, projectSources, h.project.general, h.project.step, h.project.stage]
  rw [sources, sources, hdefaults, hproject]

theorem hooks_eq_of_sameForMerge (h : ds.SameForMerge r ds') : r.hooks ds = r.hooks ds' := by
  have hall : List.Forall₂ (ConfigDocument.SameBelow r) (r.defaultDocuments ds ++ [ds.project])
      (r.defaultDocuments ds' ++ [ds'.project]) :=
    List.rel_append (forall₂_sameBelow h) (.cons h.project.toSameBelow .nil)
  rw [hooks, hooks, map_eq_of_forall₂ hall fun d d' hd => hd.hooks]

/-- **The configuration comes from the merge alone**, and so does the error if there is none. -/
theorem stepConfig_congr (h : ds.SameForMerge r ds') (env : Environment) :
    r.stepConfig ds env = r.stepConfig ds' env := by
  rw [stepConfig, stepConfig, mixed, mixed, sources_congr h, hooks_eq_of_sameForMerge h]

/-! ### Uses of deprecated aliases, in idle sections and in others -/

/-- The deprecated aliases that a document below the project configuration uses in the sections that
take part in the merge. -/
def mergedUsesBelow (r : Request) (d : ConfigDocument) : List AliasUse :=
  r.aliasUses r.filters.general d.general
    ++ ((d.stepSection? r.step).map (r.aliasUses r.filters.steps)).getD []

/-- **The deprecated aliases that are used in the sections that take part in the merge.** -/
def mergedUses (r : Request) (ds : DocumentSet) : List AliasUse :=
  (r.defaultDocuments ds).flatMap r.mergedUsesBelow ++ r.documentUses ds.project
    ++ ((r.jsonParameters?).map (r.aliasUses r.filters.parameters)).getD []

/-- The deprecated aliases that a document below the project configuration uses, each with whether
its section takes part in the merge. -/
def markedUsesBelow (r : Request) (d : ConfigDocument) : List (AliasUse × Bool) :=
  (r.aliasUses r.filters.general d.general).map (·, true)
    ++ (((d.stageSection? r.stage).map (r.aliasUses r.filters.stages)).getD []).map (·, false)
    ++ (((d.stepSection? r.step).map (r.aliasUses r.filters.steps)).getD []).map (·, true)

/-- All deprecated aliases that are used, in the order in which they are met, each with whether its
section takes part in the merge. -/
def markedUses (r : Request) (ds : DocumentSet) : List (AliasUse × Bool) :=
  (r.defaultDocuments ds).flatMap r.markedUsesBelow
    ++ (r.documentUses ds.project
      ++ ((r.jsonParameters?).map (r.aliasUses r.filters.parameters)).getD []).map (·, true)

theorem mergedUses_congr (h : ds.SameForMerge r ds') : r.mergedUses ds = r.mergedUses ds' := by
  have hdefaults : (r.defaultDocuments ds).flatMap r.mergedUsesBelow
      = (r.defaultDocuments ds').flatMap r.mergedUsesBelow := by
    rw [List.flatMap_def, List.flatMap_def, map_eq_of_forall₂ (forall₂_sameBelow h) fun d d' hd => ?_]
    rw [mergedUsesBelow, mergedUsesBelow, hd.general, hd.step]
  have hproject : r.documentUses ds.project = r.documentUses ds'.project := by
    rw [documentUses, documentUses, h.project.general, h.project.step, h.project.stage]
  rw [mergedUses, mergedUses, hdefaults, hproject]

end Request

/-- The uses in sections that take part in the merge. -/
def mergedAmong (marked : List (AliasUse × Bool)) : List AliasUse :=
  (marked.filter Prod.snd).map Prod.fst

theorem mergedAmong_append (marked more : List (AliasUse × Bool)) :
    mergedAmong (marked ++ more) = mergedAmong marked ++ mergedAmong more := by
  simp [mergedAmong]

theorem mergedAmong_marked (uses : List AliasUse) : mergedAmong (uses.map (·, true)) = uses := by
  simp [mergedAmong, List.filter_map, Function.comp_def]

theorem mergedAmong_idle (uses : List AliasUse) : mergedAmong (uses.map (·, false)) = [] := by
  simp [mergedAmong, List.filter_map, Function.comp_def]

namespace Request

theorem map_fst_markedUses (r : Request) (ds : DocumentSet) :
    (r.markedUses ds).map Prod.fst = r.uses ds := by
  have hbelow : ∀ d, (r.markedUsesBelow d).map Prod.fst = r.documentUses d := by
    intro d
    simp [markedUsesBelow, documentUses, Function.comp_def]
  simp [markedUses, uses, List.map_flatMap, hbelow, Function.comp_def]

theorem mergedAmong_markedUses (r : Request) (ds : DocumentSet) :
    mergedAmong (r.markedUses ds) = r.mergedUses ds := by
  have hbelow : ∀ d, mergedAmong (r.markedUsesBelow d) = r.mergedUsesBelow d := by
    intro d
    simp only [markedUsesBelow, mergedUsesBelow, mergedAmong_append, mergedAmong_marked,
      mergedAmong_idle, List.append_nil]
  rw [markedUses, mergedUses, mergedAmong_append, mergedAmong_marked, List.append_assoc]
  congr 1
  induction r.defaultDocuments ds with
  | nil => rfl
  | cons d rest ih => rw [List.flatMap_cons, mergedAmong_append, hbelow, ih, List.flatMap_cons]

end Request

/-! ### First uses -/

/-- The first use of each name that has not been noted. -/
def firstUses (noted : List String) : List AliasUse → List AliasUse
  | [] => []
  | use :: rest =>
    if use.name ∈ noted then firstUses noted rest else use :: firstUses (use.name :: noted) rest

section FirstUses

variable {noted noted' : List String} {use : AliasUse} {uses : List AliasUse}
  {marked : List (AliasUse × Bool)}

theorem firstUses_cons_of_mem (h : use.name ∈ noted) (uses : List AliasUse) :
    firstUses noted (use :: uses) = firstUses noted uses :=
  if_pos h

theorem firstUses_cons_of_not_mem (h : use.name ∉ noted) (uses : List AliasUse) :
    firstUses noted (use :: uses) = use :: firstUses (use.name :: noted) uses :=
  if_neg h

theorem firstUses_congr (h : ∀ name, name ∈ noted ↔ name ∈ noted') (uses : List AliasUse) :
    firstUses noted uses = firstUses noted' uses := by
  induction uses generalizing noted noted' with
  | nil => rfl
  | cons use rest ih =>
    by_cases hnoted : use.name ∈ noted
    · rw [firstUses_cons_of_mem hnoted, firstUses_cons_of_mem ((h _).mp hnoted), ih h]
    · have hrest : ∀ name, name ∈ use.name :: noted ↔ name ∈ use.name :: noted' := by
        intro name
        rw [List.mem_cons, List.mem_cons, h]
      rw [firstUses_cons_of_not_mem hnoted, firstUses_cons_of_not_mem (mt (h _).mpr hnoted), ih hrest]

/-- After the first of all first uses come those that are first once its name has been noted. -/
theorem firstUses_of_head? (h : (firstUses noted uses).head? = some use) :
    firstUses noted uses = use :: firstUses (use.name :: noted) uses := by
  induction uses with
  | nil => cases h
  | cons other rest ih =>
    by_cases hnoted : other.name ∈ noted
    · rw [firstUses_cons_of_mem hnoted] at h
      rw [firstUses_cons_of_mem hnoted, firstUses_cons_of_mem (List.mem_cons_of_mem _ hnoted), ih h]
    · rw [firstUses_cons_of_not_mem hnoted] at h
      obtain rfl := Option.some.inj h
      rw [firstUses_cons_of_not_mem hnoted, firstUses_cons_of_mem List.mem_cons_self]

/-- **What is noted of some uses** are the first ones. -/
theorem Context.noteAll_eq (c : Context) (step : String) (uses : List AliasUse) :
    c.noteAll step uses = { c with
      notes := c.notes ++ (firstUses (c.notes.map DeprecationNote.name) uses).map
        (fun use => ⟨use.name, use.parameter, step, c.now⟩) } := by
  induction uses generalizing c with
  | nil => simp [firstUses]
  | cons use rest ih =>
    rw [noteAll_cons]
    rcases hnoted : c.hasNoted use.name
    · have hnew : use.name ∉ c.notes.map DeprecationNote.name := by
        simpa [hasNoted] using hnoted
      have hnext : c.note use.name use.parameter step
          = { c with notes := c.notes ++ [⟨use.name, use.parameter, step, c.now⟩] } := by
        rw [note, if_neg (by simp [hnoted])]
      have hnames : ∀ (n : DeprecationNote) (name : String),
          name ∈ (c.notes ++ [n]).map DeprecationNote.name
            ↔ name ∈ n.name :: c.notes.map DeprecationNote.name := by
        intro n name
        rw [List.map_append, List.mem_append, List.mem_cons, or_comm, List.map_singleton,
          List.mem_singleton]
      rw [hnext, ih, firstUses_cons_of_not_mem hnew, firstUses_congr (hnames _)]
      simp
    · have hold : use.name ∈ c.notes.map DeprecationNote.name := by
        simpa [hasNoted] using hnoted
      rw [note_of_hasNoted hnoted, ih, firstUses_cons_of_mem hold]

theorem Context.noteAll_eq_iff (c : Context) (step : String) (uses uses' : List AliasUse) :
    c.noteAll step uses = c.noteAll step uses' ↔
      firstUses (c.notes.map DeprecationNote.name) uses
        = firstUses (c.notes.map DeprecationNote.name) uses' := by
  have hinjective : Function.Injective
      (fun use : AliasUse => (⟨use.name, use.parameter, step, c.now⟩ : DeprecationNote)) := by
    rintro ⟨name, parameter⟩ ⟨name', parameter'⟩ h
    cases h
    rfl
  rw [noteAll_eq, noteAll_eq]
  simp only [mk.injEq, true_and, List.append_cancel_left_eq, hinjective.list_map.eq_iff]

/-! ### When idle sections leave no trace -/

/-- **Idle uses leave no trace**: where one is the first of its name, the same use comes next among
the first uses in sections that take part in the merge. -/
def Unobtrusive (noted : List String) (marked : List (AliasUse × Bool)) : Prop :=
  ∀ before use after, marked = before ++ (use, false) :: after →
    let notedThen := before.map (fun m => m.1.name) ++ noted
    use.name ∉ notedThen → (firstUses notedThen (mergedAmong after)).head? = some use

theorem unobtrusive_congr (h : ∀ name, name ∈ noted ↔ name ∈ noted') :
    Unobtrusive noted marked ↔ Unobtrusive noted' marked := by
  have hthen : ∀ (before : List (AliasUse × Bool)) (name : String),
      name ∈ before.map (fun m => m.1.name) ++ noted
        ↔ name ∈ before.map (fun m => m.1.name) ++ noted' := by
    intro before name
    rw [List.mem_append, List.mem_append, h]
  refine forall_congr' fun before => forall_congr' fun use => forall_congr' fun after => ?_
  simp only [hthen before, firstUses_congr (hthen before)]

theorem unobtrusive_cons {merged : Bool} :
    Unobtrusive noted ((use, merged) :: marked) ↔
      (merged = false → use.name ∉ noted →
        (firstUses noted (mergedAmong marked)).head? = some use) ∧
      Unobtrusive (use.name :: noted) marked := by
  have hthen : ∀ (before : List (AliasUse × Bool)) (name : String),
      name ∈ ((use, merged) :: before).map (fun m => m.1.name) ++ noted
        ↔ name ∈ before.map (fun m => m.1.name) ++ use.name :: noted := by
    intro before name
    simp only [List.map_cons, List.cons_append, List.mem_cons, List.mem_append]
    exact or_left_comm
  constructor
  · refine fun h => ⟨?_, fun before other after hmarked hnew => ?_⟩
    · rintro rfl hnew
      exact h [] use marked rfl hnew
    · have hhead := h ((use, merged) :: before) other after (by rw [hmarked]; rfl)
      simp only [hthen before, firstUses_congr (hthen before)] at hhead
      exact hhead hnew
  · rintro ⟨hfirst, hrest⟩ before other after hmarked
    rcases before with _ | ⟨m, before⟩
    · obtain ⟨hm, rfl⟩ := List.cons.inj hmarked
      obtain ⟨rfl, rfl⟩ := Prod.mk.inj hm
      exact hfirst rfl
    · obtain ⟨rfl, hmarked'⟩ := List.cons.inj hmarked
      simp only [hthen before, firstUses_congr (hthen before)]
      exact hrest before other after hmarked'

/-- **The first uses are those of the merge exactly if idle uses leave no trace.** -/
theorem firstUses_merged_iff :
    firstUses noted (marked.map Prod.fst) = firstUses noted (mergedAmong marked) ↔
      Unobtrusive noted marked := by
  induction marked generalizing noted with
  | nil => simp [Unobtrusive, mergedAmong]
  | cons m marked ih =>
    obtain ⟨use, merged⟩ := m
    rw [unobtrusive_cons, List.map_cons]
    by_cases hnoted : use.name ∈ noted
    · have hsame : ∀ name, name ∈ use.name :: noted ↔ name ∈ noted := by
        intro name
        rw [List.mem_cons, or_iff_right_of_imp]
        rintro rfl
        exact hnoted
      have hmerged : firstUses noted (mergedAmong ((use, merged) :: marked))
          = firstUses noted (mergedAmong marked) := by
        cases merged with
        | false => rfl
        | true => exact firstUses_cons_of_mem hnoted _
      rw [firstUses_cons_of_mem hnoted, hmerged, ih, unobtrusive_congr hsame]
      exact ⟨fun h => ⟨fun _ hnew => absurd hnoted hnew, h⟩, And.right⟩
    · rw [firstUses_cons_of_not_mem hnoted, ← ih]
      cases merged with
      | true =>
        have hmerged : firstUses noted (mergedAmong ((use, true) :: marked))
            = use :: firstUses (use.name :: noted) (mergedAmong marked) :=
          firstUses_cons_of_not_mem hnoted _
        rw [hmerged, List.cons.injEq]
        simp
      | false =>
        change _ = firstUses noted (mergedAmong marked) ↔ _
        constructor
        · intro h
          have hhead : (firstUses noted (mergedAmong marked)).head? = some use := by
            rw [← h, List.head?_cons]
          rw [firstUses_of_head? hhead, List.cons.injEq] at h
          exact ⟨fun _ _ => hhead, h.2⟩
        · rintro ⟨hhead, hrest⟩
          rw [firstUses_of_head? (hhead rfl hnoted), hrest]

end FirstUses

namespace Request

/-- The uses of a document that has no section for the stage are not idle. -/
theorem merged_of_mem_markedUsesBelow {r : Request} {d : ConfigDocument}
    (h : d.stageSection? r.stage = none) : ∀ m ∈ r.markedUsesBelow d, m.2 = true := by
  intro m hm
  rw [markedUsesBelow, h, Option.map_none, Option.getD_none, List.map_nil, List.append_nil] at hm
  rcases List.mem_append.mp hm with hgeneral | hstep
  · obtain ⟨use, -, rfl⟩ := List.mem_map.mp hgeneral
    rfl
  · obtain ⟨use, -, rfl⟩ := List.mem_map.mp hstep
    rfl

/-- If only the project configuration has a section for the stage, no use is idle, and nothing can
leave a trace. -/
theorem unobtrusive_of_stageSection? {r : Request} {ds : DocumentSet}
    (h : ∀ d ∈ r.defaultDocuments ds, d.stageSection? r.stage = none) (noted : List String) :
    Unobtrusive noted (r.markedUses ds) := by
  intro before use after hmarked
  have hmem : (use, false) ∈ r.markedUses ds := by
    rw [hmarked]
    exact List.mem_append_right _ List.mem_cons_self
  rw [markedUses] at hmem
  rcases List.mem_append.mp hmem with hbelow | hproject
  · obtain ⟨d, hd, hm⟩ := List.mem_flatMap.mp hbelow
    exact absurd (merged_of_mem_markedUsesBelow (h d hd) _ hm) (by simp)
  · obtain ⟨other, -, he⟩ := List.mem_map.mp hproject
    exact absurd (congrArg Prod.snd he) (by simp)

/-- **Sections outside the merge.** Documents that are the same for the merge resolve to the same
configuration, or to the same error. What is noted of documents is what the sections that take part
in the merge use if and only if idle uses leave no trace; and compared with other documents that are
the same for the merge and of which nothing else is noted, the notes are the same if and only if
that is so. -/
theorem resolve_of_sameForMerge (r : Request) (ds : DocumentSet) (c : Context) :
    (∀ ds', ds.SameForMerge r ds' → (r.resolve ds' c).1 = (r.resolve ds c).1) ∧
    ((r.resolve ds c).2 = c.noteAll r.step (r.mergedUses ds) ↔
      Unobtrusive (c.notes.map DeprecationNote.name) (r.markedUses ds)) ∧
    ∀ ds', ds.SameForMerge r ds' →
      Unobtrusive (c.notes.map DeprecationNote.name) (r.markedUses ds') →
      ((r.resolve ds c).2 = (r.resolve ds' c).2 ↔
        Unobtrusive (c.notes.map DeprecationNote.name) (r.markedUses ds)) := by
  have hnotes : ∀ ds, (r.resolve ds c).2 = c.noteAll r.step (r.mergedUses ds) ↔
      Unobtrusive (c.notes.map DeprecationNote.name) (r.markedUses ds) := by
    intro ds
    rw [← firstUses_merged_iff, ← c.noteAll_eq_iff r.step, map_fst_markedUses,
      mergedAmong_markedUses]
    rfl
  refine ⟨fun ds' h => (stepConfig_congr h c.env).symm, hnotes ds, fun ds' h hds' => ?_⟩
  rw [(hnotes ds').mpr hds', ← mergedUses_congr h, hnotes ds]

/-- A deprecated alias in the section that a default document has for the stage is noted, although
nothing comes of it; without that section it is not. -/
theorem noted_of_idle_section :
    let user : Parameter := { Parameter.plain "user" with
      scopes := [.stages], aliases := [⟨"login", true⟩] }
    let r := (Request.bare "Build" "scan").withMetadata (.plain "scan" [user])
    let d : ConfigDocument := { ConfigDocument.empty with
      stages := [("Build", [("login", .string "root")])] }
    let ds : DocumentSet := ⟨.empty, [d], []⟩
    let ds' : DocumentSet := ⟨.empty, [.empty], []⟩
    let c := Context.fresh (fun _ => none) 0
    ds.SameForMerge r ds' ∧ (r.resolve ds c).1 = .ok ⟨[], []⟩ ∧
    (r.resolve ds c).2.notes = [⟨"login", "user", "scan", 0⟩] ∧
    (r.resolve ds' c).1 = .ok ⟨[], []⟩ ∧ (r.resolve ds' c).2.notes = [] := by
  refine ⟨⟨⟨⟨rfl, rfl, rfl⟩, rfl⟩, .cons ⟨rfl, rfl, rfl⟩ .nil, fun _ => .nil⟩, rfl, rfl, rfl, rfl⟩

end Request

end PipelineConfig

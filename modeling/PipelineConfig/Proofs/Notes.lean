import PipelineConfig.Proofs.Filters
import PipelineConfig.Proofs.Independence
import PipelineConfig.Resolution.StepConfig

/-!
# Notes on deprecated names

A resolution notes the deprecated names that it meets while it applies aliases. Its context is
shared with other resolutions, so what it notes depends on what has been noted before, and this file
says exactly how.

Applying aliases is a walk through sections, and through the parameters in each. Every parameter has
its *turn* (`PipelineConfig.AliasTurn`), in which it finds the section as the parameters before it
have left it. The turns of a resolution are listed by `PipelineConfig.Request.aliasTurns`, and there
is only one thing about a turn that matters here: whether the parameter takes its value from an
alias that is deprecated (`PipelineConfig.AliasTurn.Uses`). If so, and if that name has not been
noted yet, a note is added at the end of the list; otherwise the list stays as it is. This is the
relation `PipelineConfig.Noting`, and it is all that a resolution does to the notes, whether or not
there is a configuration in the end (`PipelineConfig.Request.noting_resolve`).

Since no other event of a session does anything but add a note for a new name, notes are never taken
back and never repeated (`PipelineConfig.Context.notes_of_session`).
-/

namespace PipelineConfig

/-! ### The list of notes -/

namespace Context

variable {c c' c'' : Context} {name parameter step : String}

/-- The beginning of a session: there are no notes. -/
def fresh (env : Environment) (now : Int) : Context :=
  ⟨env, now, []⟩

/-- Note the uses of deprecated names by a step, one after the other. -/
def noteAll (c : Context) (step : String) (uses : List AliasUse) : Context :=
  uses.foldl (fun c use => c.note use.name use.parameter step) c

@[simp] theorem noteAll_nil (c : Context) (step : String) : c.noteAll step [] = c := rfl

@[simp] theorem noteAll_cons (c : Context) (step : String) (use : AliasUse)
    (uses : List AliasUse) :
    c.noteAll step (use :: uses) = (c.note use.name use.parameter step).noteAll step uses := rfl

theorem noteAll_append (c : Context) (step : String) (uses more : List AliasUse) :
    c.noteAll step (uses ++ more) = (c.noteAll step uses).noteAll step more :=
  List.foldl_append

theorem hasNoted_iff : c.hasNoted name = true ↔ ∃ n ∈ c.notes, n.name = name := by
  simp [hasNoted, List.any_eq_true]

theorem not_hasNoted_iff : c.hasNoted name = false ↔ ∀ n ∈ c.notes, n.name ≠ name := by
  rw [← Bool.not_eq_true, hasNoted_iff]
  simp

theorem note_of_hasNoted (h : c.hasNoted name = true) : c.note name parameter step = c :=
  if_pos h

theorem notes_note (h : c.hasNoted name = false) :
    (c.note name parameter step).notes = c.notes ++ [⟨name, parameter, step, c.now⟩] := by
  rw [note, if_neg (by simp [h])]

@[simp] theorem now_note (c : Context) (name parameter step : String) :
    (c.note name parameter step).now = c.now := by
  rw [note]
  split <;> rfl

/-- From one context to a later one, notes have only been added at the end, and none for a name that
had one. -/
structure Extends (c c' : Context) : Prop where
  kept : c.notes <+: c'.notes
  distinct : (c.notes.map DeprecationNote.name).Nodup → (c'.notes.map DeprecationNote.name).Nodup

theorem Extends.refl (c : Context) : c.Extends c :=
  ⟨List.prefix_refl _, id⟩

theorem Extends.trans (h : c.Extends c') (h' : c'.Extends c'') : c.Extends c'' :=
  ⟨h.kept.trans h'.kept, h'.distinct ∘ h.distinct⟩

theorem extends_note (c : Context) (name parameter step : String) :
    c.Extends (c.note name parameter step) := by
  rcases hnoted : c.hasNoted name
  · refine ⟨?_, fun hdistinct => ?_⟩
    · rw [notes_note hnoted]
      exact List.prefix_append _ _
    · rw [notes_note hnoted, List.map_append, List.nodup_append]
      refine ⟨hdistinct, List.nodup_singleton _, fun old hold new hnew => ?_⟩
      obtain ⟨n, hn, rfl⟩ := List.mem_map.mp hold
      obtain rfl := List.mem_singleton.mp hnew
      exact not_hasNoted_iff.mp hnoted n hn
  · rw [note_of_hasNoted hnoted]
    exact .refl c

theorem extends_noteAll (c : Context) (step : String) (uses : List AliasUse) :
    c.Extends (c.noteAll step uses) := by
  induction uses generalizing c with
  | nil => exact .refl c
  | cons use uses ih => exact (extends_note c _ _ _).trans (ih _)

end Context

/-! ### Turns -/

/-- The turn of a parameter: the filter of the section, and the section as the parameters before
have left it. -/
structure AliasTurn where
  allow : List String
  parameter : Parameter
  found : Mapping

namespace AliasTurn

/-- **A deprecated alias is used in a turn**: the filter admits the parameter, the parameter has no
value of its own, and of its aliases this is the first under which there is a value. Null counts as
no value. -/
structure Uses (t : AliasTurn) (a : Alias) : Prop where
  admitted : Mapping.admits t.allow t.parameter.name = true
  unset : t.found.nonNull? t.parameter.name = none
  first : ∃ before after, t.parameter.aliases = before ++ a :: after ∧
    ∀ b ∈ before, b.value? t.found = none
  valued : (a.value? t.found).isSome = true
  deprecated : a.deprecated = true

/-- What comes of a turn: the use of a deprecated alias, if there is one. -/
def uses (t : AliasTurn) : List AliasUse :=
  if Mapping.admits t.allow t.parameter.name then (t.parameter.canonicalize t.found).2 else []

end AliasTurn

/-- The first alias with a value is one with none before it. -/
theorem Parameter.aliased?_eq_some_iff {p : Parameter} {m : Mapping} {a : Alias} {v : Value} :
    p.aliased? m = some (a, v) ↔
      (∃ before after, p.aliases = before ++ a :: after ∧ ∀ b ∈ before, b.value? m = none) ∧
        a.value? m = some v := by
  rw [aliased?, List.findSome?_eq_some_iff]
  constructor
  · rintro ⟨before, b, after, haliases, hvalue, hbefore⟩
    obtain ⟨w, hw, he⟩ := Option.map_eq_some_iff.mp hvalue
    obtain ⟨rfl, rfl⟩ := Prod.mk.injEq .. ▸ he
    exact ⟨⟨before, after, haliases, fun b hb => Option.map_eq_none_iff.mp (hbefore b hb)⟩, hw⟩
  · rintro ⟨⟨before, after, haliases, hbefore⟩, hvalue⟩
    refine ⟨before, a, after, haliases, ?_, fun b hb => Option.map_eq_none_iff.mpr (hbefore b hb)⟩
    rw [hvalue, Option.map_some]

namespace AliasTurn

variable {t : AliasTurn} {a : Alias}

theorem uses_of_uses (h : t.Uses a) : t.uses = [⟨a.name, t.parameter.name⟩] := by
  obtain ⟨v, hv⟩ := Option.isSome_iff_exists.mp h.valued
  have haliased : t.parameter.aliased? t.found = some (a, v) :=
    Parameter.aliased?_eq_some_iff.mpr ⟨h.first, hv⟩
  rw [uses, if_pos h.admitted, Parameter.canonicalize, h.unset, haliased]
  simp [h.deprecated]

theorem exists_of_uses_ne_nil (h : t.uses ≠ []) : ∃ a, t.Uses a := by
  rw [uses] at h
  by_cases hadmitted : Mapping.admits t.allow t.parameter.name = true
  · rw [if_pos hadmitted, Parameter.canonicalize] at h
    by_cases hset : (t.found.nonNull? t.parameter.name).isSome = true
    · exact absurd (by rw [if_pos hset]) h
    · rw [if_neg hset] at h
      rcases haliased : t.parameter.aliased? t.found with _ | ⟨a, v⟩
      · exact absurd (by rw [haliased]) h
      · obtain ⟨hfirst, hvalue⟩ := Parameter.aliased?_eq_some_iff.mp haliased
        simp only [haliased, ne_eq, ite_eq_right_iff, List.cons_ne_nil, imp_false,
          Decidable.not_not] at h
        refine ⟨a, hadmitted, by simpa using hset, hfirst, ?_, h⟩
        rw [hvalue, Option.isSome_some]
  · exact absurd (if_neg hadmitted) h

/-- **What comes of a turn**: the use of the alias that is used, if one is. -/
theorem uses_eq (t : AliasTurn) :
    (∃ a, t.Uses a ∧ t.uses = [⟨a.name, t.parameter.name⟩]) ∨
      (∀ a, ¬ t.Uses a) ∧ t.uses = [] := by
  by_cases h : t.uses = []
  · refine Or.inr ⟨fun a ha => ?_, h⟩
    rw [uses_of_uses ha] at h
    exact List.cons_ne_nil _ _ h
  · obtain ⟨a, ha⟩ := exists_of_uses_ne_nil h
    exact Or.inl ⟨a, ha, uses_of_uses ha⟩

/-- In a turn no two aliases of different names are used. -/
theorem Uses.name_unique {b : Alias} (ha : t.Uses a) (hb : t.Uses b) : a.name = b.name := by
  have h := (uses_of_uses ha).symm.trans (uses_of_uses hb)
  simpa using h

end AliasTurn

/-! ### The turns of a resolution -/

/-- The turns of parameters in a section. A parameter that the filter does not admit has its turn,
too, but leaves the section as it is. -/
def turnsIn (allow : List String) : List Parameter → Mapping → List AliasTurn
  | [], _ => []
  | p :: rest, m =>
    ⟨allow, p, m⟩ ::
      turnsIn allow rest (if Mapping.admits allow p.name then (p.canonicalize m).1 else m)

theorem uses_canonicalizeAll (allow : List String) (parameters : List Parameter) (m : Mapping) :
    (canonicalizeAll (admitted parameters allow) m).2
      = (turnsIn allow parameters m).flatMap AliasTurn.uses := by
  induction parameters generalizing m with
  | nil => rfl
  | cons p rest ih =>
    by_cases hp : Mapping.admits allow p.name = true
    · have hadmitted : admitted (p :: rest) allow = p :: admitted rest allow :=
        List.filter_cons_of_pos hp
      rw [hadmitted, turnsIn, List.flatMap_cons, if_pos hp, ← ih, AliasTurn.uses, if_pos hp]
      rfl
    · have hadmitted : admitted (p :: rest) allow = admitted rest allow :=
        List.filter_cons_of_neg hp
      rw [hadmitted, turnsIn, List.flatMap_cons, if_neg hp, ← ih, AliasTurn.uses, if_neg hp]
      rfl

/-- **The deprecated aliases that a section uses** are those of the turns in it. -/
theorem uses_applyAliases (parameters : List Parameter) (allow : List String) (m : Mapping) :
    (applyAliases parameters allow m).2
      = (turnsIn allow parameters m).flatMap AliasTurn.uses :=
  uses_canonicalizeAll allow parameters m

/-- A section that aliases are applied to, with its filter. -/
structure AliasSection where
  allow : List String
  entries : Mapping

namespace Request

/-- The sections of a document that aliases are applied to, in order. -/
def documentSections (r : Request) (d : ConfigDocument) : List AliasSection :=
  ⟨r.filters.general, d.general⟩
    :: ((d.stageSection? r.stage).map (AliasSection.mk r.filters.stages)).toList
    ++ ((d.stepSection? r.step).map (AliasSection.mk r.filters.steps)).toList

/-- **All sections that aliases are applied to**, in order: those of each default document, of each
custom default document unless these are ignored, and of the project configuration; then the
parameters that are given as JSON. -/
def aliasSections (r : Request) (ds : DocumentSet) : List AliasSection :=
  (ds.defaults ++ (if r.ignoreCustomDefaults then [] else ds.customDefaults)
      ++ [ds.project]).flatMap r.documentSections
    ++ ((r.jsonParameters?).map (AliasSection.mk r.filters.parameters)).toList

/-- **The turns of a resolution**: section by section those of the parameters of the request. -/
def aliasTurns (r : Request) (ds : DocumentSet) : List AliasTurn :=
  (r.aliasSections ds).flatMap (fun s => turnsIn s.allow r.parameters s.entries)

/-- A section that may be missing. -/
theorem aliasUses_toList (r : Request) (allow : List String) (m? : Option Mapping) :
    (m?.map (r.aliasUses allow)).getD []
      = (m?.map (AliasSection.mk allow)).toList.flatMap (fun s => r.aliasUses s.allow s.entries) := by
  cases m? with
  | none => rfl
  | some m => simp

theorem documentUses_eq (r : Request) (d : ConfigDocument) :
    r.documentUses d = (r.documentSections d).flatMap (fun s => r.aliasUses s.allow s.entries) := by
  rw [documentUses, documentSections, aliasUses_toList, aliasUses_toList, List.flatMap_append,
    List.flatMap_cons]

/-- **The deprecated aliases that a resolution meets** are those of its turns. -/
theorem uses_eq (r : Request) (ds : DocumentSet) :
    r.uses ds = (r.aliasTurns ds).flatMap AliasTurn.uses := by
  have hsections : r.uses ds
      = (r.aliasSections ds).flatMap (fun s => r.aliasUses s.allow s.entries) := by
    rw [uses, aliasSections, aliasUses_toList, List.flatMap_append, List.flatMap_append,
      List.flatMap_append, List.flatMap_assoc, List.flatMap_singleton, ← documentUses_eq]
    simp only [← documentUses_eq]
    rfl
  rw [hsections, aliasTurns, List.flatMap_assoc]
  simp only [← uses_applyAliases]
  rfl

end Request

/-! ### What turns do to the notes -/

/-- **Notes are taken turn by turn**, from some notes to others. -/
inductive Noting (step : String) (time : Int) :
    List AliasTurn → List DeprecationNote → List DeprecationNote → Prop
  /-- Without a turn nothing is noted. -/
  | done (notes : List DeprecationNote) : Noting step time [] notes notes
  /-- A deprecated alias is used that has not been noted. -/
  | noted {t : AliasTurn} {ts : List AliasTurn} {notes notes' : List DeprecationNote} {a : Alias}
      (ha : t.Uses a) (hnew : ∀ n ∈ notes, n.name ≠ a.name)
      (hrest : Noting step time ts (notes ++ [⟨a.name, t.parameter.name, step, time⟩]) notes') :
      Noting step time (t :: ts) notes notes'
  /-- No deprecated alias is used, or it has been noted. -/
  | passed {t : AliasTurn} {ts : List AliasTurn} {notes notes' : List DeprecationNote}
      (hold : ∀ a, t.Uses a → ∃ n ∈ notes, n.name = a.name)
      (hrest : Noting step time ts notes notes') : Noting step time (t :: ts) notes notes'

theorem noting_noteAll (step : String) (ts : List AliasTurn) (c : Context) :
    Noting step c.now ts c.notes (c.noteAll step (ts.flatMap AliasTurn.uses)).notes := by
  induction ts generalizing c with
  | nil => exact .done c.notes
  | cons t ts ih =>
    rw [List.flatMap_cons, Context.noteAll_append]
    rcases t.uses_eq with ⟨a, ha, huses⟩ | ⟨hnone, huses⟩
    · rw [huses, Context.noteAll_cons, Context.noteAll_nil]
      rcases hnoted : c.hasNoted a.name
      · refine .noted ha (Context.not_hasNoted_iff.mp hnoted) ?_
        have hrest := ih (c.note a.name t.parameter.name step)
        rw [Context.now_note, Context.notes_note hnoted] at hrest
        exact hrest
      · rw [Context.note_of_hasNoted hnoted]
        refine .passed (fun b hb => ?_) (ih c)
        rw [← ha.name_unique hb]
        exact Context.hasNoted_iff.mp hnoted
    · rw [huses, Context.noteAll_nil]
      exact .passed (fun a ha => absurd ha (hnone a)) (ih c)

/-- **A resolution takes notes in its turns**, and nothing else becomes of the notes, whether it
succeeds or fails. -/
theorem Request.noting_resolve (r : Request) (ds : DocumentSet) (c : Context) :
    Noting r.step c.now (r.aliasTurns ds) c.notes (r.resolve ds c).2.notes := by
  have h := noting_noteAll r.step (r.aliasTurns ds) c
  rw [← r.uses_eq ds] at h
  exact h

/-- A note is called for by some turns if a deprecated alias is used in one of them that has not
been noted before, and is not used in an earlier one either. -/
def CalledFor (step : String) (time : Int) (ts : List AliasTurn) (notes : List DeprecationNote)
    (n : DeprecationNote) : Prop :=
  ∃ before t after a, ts = before ++ t :: after ∧ t.Uses a ∧
    n = ⟨a.name, t.parameter.name, step, time⟩ ∧ (∀ old ∈ notes, old.name ≠ a.name) ∧
    ∀ t' ∈ before, ∀ b, t'.Uses b → b.name ≠ a.name

section CalledFor

variable {step : String} {time : Int} {t : AliasTurn} {ts : List AliasTurn}
  {notes notes' : List DeprecationNote} {n : DeprecationNote}

/-- A note is called for by the first turn, or by the others and by no alias of the first. -/
theorem calledFor_cons :
    CalledFor step time (t :: ts) notes n ↔
      (∃ a, t.Uses a ∧ n = ⟨a.name, t.parameter.name, step, time⟩ ∧
        ∀ old ∈ notes, old.name ≠ a.name) ∨
      CalledFor step time ts notes n ∧ ∀ b, t.Uses b → b.name ≠ n.name := by
  constructor
  · rintro ⟨before, u, after, a, hts, ha, rfl, hnew, hbefore⟩
    rcases before with _ | ⟨v, before⟩
    · obtain ⟨rfl, rfl⟩ := List.cons.inj hts
      exact Or.inl ⟨a, ha, rfl, hnew⟩
    · obtain ⟨rfl, rfl⟩ := List.cons.inj hts
      refine Or.inr ⟨⟨before, u, after, a, rfl, ha, rfl, hnew, fun t' ht' => ?_⟩, ?_⟩
      · exact hbefore t' (List.mem_cons_of_mem _ ht')
      · exact hbefore t List.mem_cons_self
  · rintro (⟨a, ha, rfl, hnew⟩ | ⟨⟨before, u, after, a, rfl, ha, rfl, hnew, hbefore⟩, hfirst⟩)
    · exact ⟨[], t, ts, a, rfl, ha, rfl, hnew, by simp⟩
    · exact ⟨t :: before, u, after, a, rfl, ha, rfl, hnew, List.forall_mem_cons.mpr ⟨hfirst, hbefore⟩⟩

theorem calledFor_concat {m : DeprecationNote} :
    CalledFor step time ts (notes ++ [m]) n ↔ CalledFor step time ts notes n ∧ m.name ≠ n.name := by
  constructor
  · rintro ⟨before, u, after, a, hts, ha, rfl, hnew, hbefore⟩
    obtain ⟨hold, hlast⟩ := List.forall_mem_append.mp hnew
    exact ⟨⟨before, u, after, a, hts, ha, rfl, hold, hbefore⟩, hlast m (List.mem_singleton.mpr rfl)⟩
  · rintro ⟨⟨before, u, after, a, hts, ha, rfl, hold, hbefore⟩, hlast⟩
    refine ⟨before, u, after, a, hts, ha, rfl, List.forall_mem_append.mpr ⟨hold, ?_⟩, hbefore⟩
    simpa using hlast

/-- **The notes that are taken** are those that are called for, and they come after the others. -/
theorem Noting.exists_added (h : Noting step time ts notes notes') :
    ∃ added, notes' = notes ++ added ∧ ∀ n, n ∈ added ↔ CalledFor step time ts notes n := by
  induction h with
  | done notes => exact ⟨[], (List.append_nil _).symm, by simp [CalledFor]⟩
  | @noted t ts notes notes' a ha hnew hrest ih =>
    obtain ⟨added, rfl, hadded⟩ := ih
    refine ⟨⟨a.name, t.parameter.name, step, time⟩ :: added, by simp, fun n => ?_⟩
    rw [List.mem_cons, hadded, calledFor_concat, calledFor_cons]
    refine or_congr ⟨?_, ?_⟩ (and_congr_right fun _ => ⟨?_, ?_⟩)
    · rintro rfl
      exact ⟨a, ha, rfl, hnew⟩
    · rintro ⟨b, hb, rfl, -⟩
      rw [ha.name_unique hb]
    · rintro hne b hb
      rw [← ha.name_unique hb]
      exact hne
    · exact fun hfirst => hfirst a ha
  | @passed t ts notes notes' hold hrest ih =>
    obtain ⟨added, rfl, hadded⟩ := ih
    refine ⟨added, rfl, fun n => ?_⟩
    rw [hadded, calledFor_cons]
    constructor
    · rintro hcalled
      refine Or.inr ⟨hcalled, fun b hb hname => ?_⟩
      obtain ⟨before, u, after, a, -, -, rfl, hnew, -⟩ := hcalled
      obtain ⟨old, hmem, hold⟩ := hold b hb
      exact hnew old hmem (hold.trans hname)
    · rintro (⟨a, ha, -, hnew⟩ | ⟨hcalled, -⟩)
      · obtain ⟨old, hmem, hold⟩ := hold a ha
        exact absurd hold (hnew old hmem)
      · exact hcalled

end CalledFor

/-! ### Sessions -/

/-- What may happen to a context that is shared. -/
inductive SessionEvent
  /-- A configuration is resolved, or the attempt fails. -/
  | resolution (r : Request) (ds : DocumentSet)
  /-- A deprecated name is noted. -/
  | note (name parameter step : String)

namespace Context

/-- What an event at some time makes of the context. -/
def meet (c : Context) (time : Int) : SessionEvent → Context
  | .resolution r ds => (r.resolve ds { c with now := time }).2
  | .note name parameter step => { c with now := time }.note name parameter step

/-- What a session makes of the context: events, each at its time, one after the other. -/
def after (c : Context) (events : List (Int × SessionEvent)) : Context :=
  events.foldl (fun c e => c.meet e.1 e.2) c

theorem after_append (c : Context) (past later : List (Int × SessionEvent)) :
    c.after (past ++ later) = (c.after past).after later :=
  List.foldl_append

theorem extends_meet (c : Context) (time : Int) (e : SessionEvent) : c.Extends (c.meet time e) := by
  have hclock : c.Extends { c with now := time } := ⟨List.prefix_refl _, id⟩
  cases e with
  | resolution r ds => exact hclock.trans (extends_noteAll _ _ _)
  | note name parameter step => exact hclock.trans (extends_note _ _ _ _)

theorem extends_after (c : Context) (events : List (Int × SessionEvent)) :
    c.Extends (c.after events) := by
  induction events generalizing c with
  | nil => exact .refl c
  | cons e events ih => exact (extends_meet c e.1 e.2).trans (ih _)

/-- **The notes of a session**: no name is noted twice, what has been noted stays where it is, and a
resolution adds the notes that its turns call for, in the order of the turns. -/
theorem notes_of_session (env : Environment) (start : Int) (past : List (Int × SessionEvent)) :
    let c := (fresh env start).after past
    (c.notes.map DeprecationNote.name).Nodup ∧
    (∀ later, c.notes <+: ((fresh env start).after (past ++ later)).notes) ∧
    ∀ time r ds,
      let c' := (fresh env start).after (past ++ [(time, .resolution r ds)])
      Noting r.step time (r.aliasTurns ds) c.notes c'.notes ∧
      ∃ added, c'.notes = c.notes ++ added ∧
        ∀ n, n ∈ added ↔ CalledFor r.step time (r.aliasTurns ds) c.notes n := by
  intro c
  refine ⟨(extends_after _ past).distinct List.nodup_nil, fun later => ?_, fun time r ds => ?_⟩
  · rw [after_append]
    exact (extends_after c later).kept
  · have hnoting := r.noting_resolve ds { c with now := time }
    rw [after_append]
    exact ⟨hnoting, hnoting.exists_added⟩

/-- An attempt that fails takes its notes all the same. The name is not noted again for the step that
is resolved next, nor when someone else wants to note it. -/
example :
    let user : Parameter := { Parameter.plain "user" with
      scopes := [.general], aliases := [⟨"account/login", false⟩, ⟨"login", true⟩] }
    let request (step : String) : Request :=
      (Request.bare "Build" step).withMetadata (.plain step [user])
    let broken : ConfigDocument := { ConfigDocument.empty with
      general := [("login", .string "$(user)")] }
    let sound : ConfigDocument := { ConfigDocument.empty with
      general := [("login", .string "root")] }
    let events : List (Int × SessionEvent) := [(1, .resolution (request "scan") (.ofProject broken)),
      (2, .resolution (request "build") (.ofProject sound)), (3, .note "login" "name" "test"),
      (4, .note "pwd" "password" "test")]
    ((request "scan").resolve (.ofProject broken) (fresh (fun _ => none) 1)).1.toOption.isNone = true ∧
    ((fresh (fun _ => none) 0).after events).notes
      = [⟨"login", "user", "scan", 1⟩, ⟨"pwd", "password", "test", 4⟩] :=
  ⟨rfl, rfl⟩

end Context

end PipelineConfig
